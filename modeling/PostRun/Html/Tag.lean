import PostRun.Text.Blank

/-!
# Tags

How the inside of a tag is read: a name, then attributes, up to the closing bracket.
Attributes are read by a machine with one state for each place inside a tag.

## What is kept

Reading a tag loses nothing: what was read and what follows are the input again
(`Inside.raw_append_rest`).  Names are put in lower case, values are kept as they are
written.
-/

namespace PostRun
namespace Html

/-- The blanks of markup. -/
def isSpace (c : Char) : Bool := [' ', '\t', '\n', '\r', '\x0c'].contains c

/-- The characters that end the name of a tag. -/
def endsName (c : Char) : Bool := isSpace c || c == '/' || c == '>'

/-- A name in lower case. -/
def nameOf (cs : List Char) : String := String.ofList (Text.lower cs)

/-- The place of a character among those that short names are made of. -/
def placeInShortName? (c : Char) : Option Nat :=
  let lower := c.toLower
  if 'a' ≤ lower ∧ lower ≤ 'z' then some (lower.toNat - 91)
  else if '1' ≤ c ∧ c ≤ '6' then some (c.toNat - 49)
  else none

/-- The number of a short name: its characters are digits in base 32.  A name whose number does not
fit into 64 bits has none. -/
def numberOfName? (name : List Char) : Option Nat :=
  name.foldlM (fun n c =>
    if n < 0x800000000000000 then (placeInShortName? c).map (32 * n + ·) else none) 0

/-- Whether a name is short: it has a number. -/
def isShortName (name : String) : Bool := (numberOfName? name.toList).isSome

/-- An attribute. -/
structure Attribute where
  name : String
  value : List Char
  deriving DecidableEq

/-- A place inside a tag, behind its name.  What is read of an attribute stands in reverse order. -/
inductive Place where
  | beforeName
  | slash
  | inName (name : List Char)
  | afterName (name : List Char)
  | beforeValue (name : List Char)
  | quoted (quote : Char) (name value : List Char)
  | afterQuoted
  | bare (name value : List Char)

/-- What a character does inside a tag: it leads to another place or ends the tag, and may complete
an attribute. -/
inductive Step where
  | go (next : Place) (completed : Option Attribute)
  | stop (completed : Option Attribute) (selfClosing : Bool)

namespace Place

/-- The attribute of a name and a value in reverse order. -/
def attributeOf (name value : List Char) : Attribute := ⟨nameOf name.reverse, value.reverse⟩

/-- A character where a name may start; an equals sign starts one too. -/
def start (c : Char) (completed : Option Attribute) : Step :=
  if isSpace c then .go beforeName completed
  else if c = '/' then .go slash completed
  else if c = '>' then .stop completed false
  else .go (inName [c]) completed

/-- One character inside a tag. -/
def step : Place → Char → Step
  | beforeName, c => start c none
  | afterQuoted, c => start c none
  | slash, c => if c = '>' then .stop none true else start c none
  | inName name, c =>
      if isSpace c then .go (afterName name) none
      else if c = '/' then .go slash (attributeOf name [])
      else if c = '>' then .stop (attributeOf name []) false
      else if c = '=' then .go (beforeValue name) none
      else .go (inName (c :: name)) none
  | afterName name, c =>
      if isSpace c then .go (afterName name) none
      else if c = '=' then .go (beforeValue name) none
      else start c (attributeOf name [])
  | beforeValue name, c =>
      if isSpace c then .go (beforeValue name) none
      else if c = '"' ∨ c = '\'' then .go (quoted c name []) none
      else if c = '>' then .stop (attributeOf name []) false
      else .go (bare name [c]) none
  | quoted quote name value, c =>
      if c = quote then .go afterQuoted (attributeOf name value)
      else .go (quoted quote name (c :: value)) none
  | bare name value, c =>
      if isSpace c then .go beforeName (attributeOf name value)
      else if c = '>' then .stop (attributeOf name value) false
      else .go (bare name (c :: value)) none

end Place

/-- The inside of a tag from some place on, and what follows the tag. -/
structure Inside where
  attributes : List Attribute
  selfClosing : Bool
  raw : List Char
  rest : List Char

namespace Inside

/-- Puts a character and what it completed in front. -/
def cons (c : Char) (completed : Option Attribute) (r : Inside) : Inside :=
  { r with attributes := completed.toList ++ r.attributes, raw := c :: r.raw }

/-- Reads the inside of a tag from a place; none if the tag is never closed. -/
def read : Place → List Char → Option Inside
  | _, [] => none
  | p, c :: cs =>
      match p.step c with
      | .stop completed selfClosing => some ⟨completed.toList, selfClosing, [c], cs⟩
      | .go next completed => (read next cs).map (cons c completed)

theorem raw_append_rest {p : Place} {cs : List Char} {r : Inside} (h : read p cs = some r) :
    r.raw ++ r.rest = cs := by
  induction cs generalizing p r with
  | nil => simp [read] at h
  | cons c cs ih =>
    unfold read at h
    split at h
    · cases h; rfl
    · obtain ⟨inner, hinner, rfl⟩ := Option.map_eq_some_iff.1 h
      simpa [cons] using ih hinner

/-- The value of the first attribute of a name. -/
def value? (r : Inside) (name : String) : Option (List Char) :=
  (r.attributes.find? fun a => a.name = name).map (·.value)

/-- The value of the first attribute of a name, both read as text: a byte order mark at the front is
no part of it. -/
def textOf? (r : Inside) (name : String) : Option (List Char) :=
  (r.attributes.find? fun a => Text.unmarked a.name.toList = name.toList).map fun a =>
    Text.unmarked a.value

end Inside
end Html
end PostRun
