import PostRun.Bib.Failure
import PostRun.Text.Blank

/-!
# Reading from a place

A reader works on what is left of the source from a place, and knows the place by the
number of bytes before it.  It gives a value and the place behind what it read, or a
failure.
-/

namespace PostRun
namespace Bib

/-- A place in the source: the bytes before it and the text behind it. -/
structure Place where
  offset : Nat
  rest : List Char

namespace Place

/-- The start of a source. -/
def ofSource (source : String) : Place := ⟨0, source.toList⟩

/-- The place behind some text. -/
def after (p : Place) (text rest : List Char) : Place := ⟨p.offset + Text.byteLength text, rest⟩

/-- The place behind all characters of a kind. -/
def skipWhile (p : Place) (f : Char → Bool) : Place :=
  p.after (p.rest.takeWhile f) (p.rest.dropWhile f)

/-- The offset of the end of the source. -/
def stop (p : Place) : Nat := p.offset + Text.byteLength p.rest

end Place

/-- A computation that reads from a place. -/
abbrev Reader := StateT Place (Except Failure)

namespace Reader

/-- The next character. -/
def peek? : Reader (Option Char) := do return (← get).rest.head?

/-- Fails at the place itself. -/
def failHere {α : Type} (d : Defect) : Reader α := do throw ⟨d, .point (← get).offset⟩

/-- Fails at the end of the source. -/
def failAtEnd {α : Type} (d : Defect) : Reader α := do throw ⟨d, .point (← get).stop⟩

/-- Goes behind the next character. -/
def advance : Reader Unit := modify fun p =>
  match p.rest with
  | [] => p
  | c :: cs => p.after [c] cs

/-- Reads all characters of a kind. -/
def takeWhile (f : Char → Bool) : Reader (List Char) := do
  let p ← get
  set (p.skipWhile f)
  return p.rest.takeWhile f

/-- Goes behind the blanks. -/
def skipBlanks : Reader Unit := modify fun p => p.skipWhile Text.isBlank

/-- Reads one of some characters. -/
def expectOneOf (cs : List Char) (what : Expected) : Reader Unit := do
  match ← peek? with
  | some c => if cs.contains c then advance else failHere (.expected what)
  | none => failHere (.expected what)

end Reader
end Bib
end PostRun
