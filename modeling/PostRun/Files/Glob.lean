/-!
# Patterns for names

A pattern stands for a set of names, as a shell understands it: `?` is one byte, `*`
any bytes, `[a-c]` one byte of a class, `[!a-c]` one byte outside of it, and braces
hold alternatives between commas.  A backslash is a character like any other.

## Bytes

Names are matched byte by byte in UTF-8.  A character outside ASCII is its bytes in a
row, and inside a class it adds each of them: a range reaches from the last byte of
its first character to the first byte of its last one.

A name is matched by following, through the pattern, how many of its bytes can have been
taken.

## Reading a pattern

The pattern is read in one pass by a small machine.  Its state holds what was read of
the innermost group, the groups around it, and the class that is open, if one is.  A
range that descends is refused where it ends; a class or group that is left open only
at the end of the pattern.  An alternative that denotes the empty name is left out,
and a group without alternatives denotes the empty name itself.
-/

namespace PostRun
namespace Files

/-- Why a pattern is refused. -/
inductive GlobError where
  | unclosedClass
  | invalidRange (low high : Char)
  | unopenedGroup
  | unclosedGroup
  deriving DecidableEq

namespace GlobError

/-- The wording of a refusal. -/
def message : GlobError → String
  | unclosedClass => "unclosed character class; missing ']'"
  | invalidRange low high =>
      "invalid range; '" ++ String.singleton low ++ "' > '" ++ String.singleton high ++ "'"
  | unopenedGroup => "unopened alternate group; missing '\x7b' (maybe escape '\x7d' with '[\x7d]'?)"
  | unclosedGroup => "unclosed alternate group; missing '\x7d' (maybe escape '\x7b' with '[\x7b]'?)"

end GlobError

/-- The UTF-8 bytes of a character. -/
def charBytes (c : Char) : List UInt8 := String.utf8EncodeChar c

/-- The UTF-8 bytes of a text. -/
def textBytes (cs : List Char) : List UInt8 := cs.flatMap charBytes

/-- A range of bytes, both ends included. -/
structure ByteRange where
  low : UInt8
  high : UInt8
  deriving DecidableEq

namespace ByteRange

/-- Whether a byte lies in the range. -/
def holds (r : ByteRange) (b : UInt8) : Bool := r.low ≤ b && b ≤ r.high

/-- A single byte. -/
def single (b : UInt8) : ByteRange := ⟨b, b⟩

/-- The bytes that a range of characters adds to a class. -/
def ofChars (low high : Char) : List ByteRange :=
  let lows := charBytes low
  let highs := charBytes high
  if low = high then lows.map single
  else
    lows.dropLast.map single ++
      [⟨lows.getLastD 0, highs.headD 0⟩] ++ (highs.drop 1).map single

end ByteRange

/-- A class of bytes. -/
structure ByteClass where
  negated : Bool
  ranges : List ByteRange
  deriving DecidableEq

namespace ByteClass

/-- Whether a byte is in the class. -/
def accepts (c : ByteClass) (b : UInt8) : Bool := (c.ranges.any fun r => r.holds b) != c.negated

/-- All bytes. -/
def all : ByteClass := ⟨true, []⟩

/-- A single byte. -/
def single (b : UInt8) : ByteClass := ⟨false, [.single b]⟩

end ByteClass

/-- A pattern. -/
inductive Glob where
  | nothing
  | one (accepted : ByteClass)
  | run
  | both (first second : Glob)
  | either (first second : Glob)
  deriving DecidableEq

namespace Glob

/-- For every number of bytes at the front of a name, none first, whether some match takes them. -/
abbrev Taken := List Bool

/-- What is taken behind one more byte of a class. -/
def advance (c : ByteClass) : List UInt8 → Taken → Taken
  | b :: s, t :: ts => (t && c.accepts b) :: advance c s ts
  | _, _ => []

/-- What is taken behind any more bytes. -/
def spread (reached : Bool) : Taken → Taken
  | [] => []
  | t :: ts => (reached || t) :: spread (reached || t) ts

/-- What of a name is taken behind a pattern. -/
def behind (s : List UInt8) : Glob → Taken → Taken
  | nothing, t => t
  | one c, t => false :: advance c s t
  | run, t => spread false t
  | both p q, t => behind s q (behind s p t)
  | either p q, t => List.zipWith (· || ·) (behind s p t) (behind s q t)

/-- At the front of a name nothing is taken. -/
def atFront (s : List UInt8) : Taken := true :: s.map fun _ => false

/-- Whether a name matches the pattern as a whole. -/
def accepts (p : Glob) (name : String) : Bool :=
  let s := textBytes name.toList
  (p.behind s (atFront s)).getLastD false

theorem length_advance {c : ByteClass} {s : List UInt8} {t : Taken} (h : t.length = s.length + 1) :
    (advance c s t).length = s.length := by
  induction s generalizing t with
  | nil => cases t <;> simp_all [advance]
  | cons b s ih =>
    cases t with
    | nil => simp at h
    | cons t ts => simpa [advance] using ih (by simpa using h)

@[simp] theorem length_spread (reached : Bool) (t : Taken) :
    (spread reached t).length = t.length := by
  induction t generalizing reached with
  | nil => rfl
  | cons t ts ih => simp [spread, ih]

theorem length_behind (p : Glob) {s : List UInt8} {t : Taken} (h : t.length = s.length + 1) :
    (p.behind s t).length = s.length + 1 := by
  induction p generalizing t with
  | nothing => exact h
  | one c => simp [behind, length_advance h]
  | run => simp [behind, h]
  | both p q ihp ihq => exact ihq (ihp h)
  | either p q ihp ihq => simp [behind, ihp h, ihq h]

/-- One pattern behind another. -/
def andThen : Glob → Glob → Glob
  | nothing, q => q
  | p, nothing => p
  | p, q => both p q

/-- The pattern of a character that stands for itself. -/
def literal (c : Char) : Glob :=
  (charBytes c).foldl (fun p b => p.andThen (one (.single b))) nothing

/-- The pattern of a group of alternatives. -/
def group (alternatives : List Glob) : Glob :=
  match alternatives.filter (· ≠ nothing) with
  | [] => nothing
  | p :: ps => ps.foldl either p

/-- What was read of a class behind its opening bracket.  Ranges stand in reverse order; behind
a hyphen the last of them waits for its end. -/
inductive ClassPart where
  | opening
  | body (negated : Bool) (ranges : List (Char × Char)) (hyphen : Bool)

/-- A group that was opened: what stands before it, and its alternatives so far. -/
structure Opened where
  before : Glob
  alternatives : List Glob

/-- What was read of a pattern. -/
structure Part where
  current : Glob
  groups : List Opened
  inClass : Option ClassPart

namespace Part

/-- Nothing read yet. -/
def start : Part := ⟨nothing, [], none⟩

/-- Appends a pattern to what was read. -/
def append (s : Part) (p : Glob) : Part := { s with current := s.current.andThen p }

/-- The class of bytes for ranges of characters, given in reverse order. -/
def classOf (negated : Bool) (ranges : List (Char × Char)) : ByteClass :=
  ⟨negated, ranges.reverse.flatMap fun r => ByteRange.ofChars r.1 r.2⟩

/-- Reads one character inside a class. -/
def stepClass (s : Part) (c : Char) : ClassPart → Except GlobError Part
  | .opening =>
      if c = '!' ∨ c = '^' then .ok { s with inClass := some (.body true [] false) }
      else .ok { s with inClass := some (.body false [(c, c)] false) }
  | .body negated [] _ => .ok { s with inClass := some (.body negated [(c, c)] false) }
  | .body negated ((low, high) :: rs) hyphen =>
      if c = ']' then
        let ranges := (low, high) :: rs
        let ranges := if hyphen then ('-', '-') :: ranges else ranges
        .ok ({ s with inClass := none }.append (one (classOf negated ranges)))
      else if hyphen then
        if c < low then .error (.invalidRange low c)
        else .ok { s with inClass := some (.body negated ((low, c) :: rs) false) }
      else if c = '-' then .ok { s with inClass := some (.body negated ((low, high) :: rs) true) }
      else .ok { s with inClass := some (.body negated ((c, c) :: (low, high) :: rs) false) }

/-- Reads one character outside a class. -/
def stepText (s : Part) (c : Char) : Except GlobError Part :=
  if c = '?' then .ok (s.append (one .all))
  else if c = '*' then .ok (s.append run)
  else if c = '[' then .ok { s with inClass := some .opening }
  else if c = '{' then .ok ⟨nothing, ⟨s.current, []⟩ :: s.groups, none⟩
  else if c = '}' then
    match s.groups with
    | [] => .error .unopenedGroup
    | g :: gs => .ok ⟨g.before.andThen (group (g.alternatives ++ [s.current])), gs, none⟩
  else if c = ',' then
    match s.groups with
    | [] => .ok (s.append (literal c))
    | g :: gs => .ok ⟨nothing, { g with alternatives := g.alternatives ++ [s.current] } :: gs, none⟩
  else .ok (s.append (literal c))

/-- Reads one character. -/
def step (s : Part) (c : Char) : Except GlobError Part :=
  match s.inClass with
  | some part => s.stepClass c part
  | none => s.stepText c

/-- The pattern at the end of the text. -/
def finish (s : Part) : Except GlobError Glob :=
  match s.inClass, s.groups with
  | some _, _ => .error .unclosedClass
  | none, _ :: _ => .error .unclosedGroup
  | none, [] => .ok s.current

end Part

/-- Reads a pattern. -/
def parse (pattern : String) : Except GlobError Glob :=
  pattern.toList.foldlM Part.step .start >>= Part.finish

/-- Whether text holds a character that makes it a pattern. -/
def isPattern (text : String) : Bool := text.toList.any fun c => c = '*' || c = '?' || c = '['

end Glob
end Files
end PostRun
