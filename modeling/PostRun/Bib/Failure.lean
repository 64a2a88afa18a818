import PostRun.Text.Quoted

/-!
# Failures to read a bibliography

What is wrong with a bibliography, and where: every failure carries the range of bytes
of the source that it is about.
-/

namespace PostRun
namespace Bib

/-- A range of bytes of the source. -/
structure Span where
  start : Nat
  stop : Nat
  deriving DecidableEq

namespace Span

/-- The empty range at a place. -/
def point (offset : Nat) : Span := ⟨offset, offset⟩

end Span

/-- What was expected at a place. -/
inductive Expected where
  | identifier
  | openingBrace
  | closingBrace
  | comma
  | equals
  | quote
  deriving DecidableEq

/-- The wording of what was expected. -/
def Expected.text : Expected → String
  | .identifier => "identifier"
  | .openingBrace => "opening brace"
  | .closingBrace => "closing brace"
  | .comma => "comma"
  | .equals => "equals"
  | .quote => "double quote"

/-- What is wrong with a date that an entry passes on.  A date can also be such that its reader
gives up. -/
inductive DateDefect where
  | wrongNumberOfDigits
  | invalidFormat
  | yearZero
  | missingNumber
  | invalidNumber
  | dayOutOfRange
  | unreadable
  deriving DecidableEq

/-- The wording of a defect of a date. -/
def DateDefect.text : DateDefect → String
  | .wrongNumberOfDigits => "wrong number of digits"
  | .invalidFormat => "invalid format"
  | .yearZero => "year 0 CE or BCE does not exist"
  | .missingNumber => "missing number"
  | .invalidNumber => "invalid number"
  | .dayOutOfRange => "day out of range (must be between 1 and 31)"
  | .unreadable => "unreadable date"

/-- What is wrong with a bibliography. -/
inductive Defect where
  | unexpectedEnd
  | expected (what : Expected)
  | unexpectedPoint
  | unexpectedBrace
  | unknownAbbreviation (name : String)
  | duplicateKey (key : String)
  | date (defect : DateDefect)
  deriving DecidableEq

/-- The wording of a defect. -/
def Defect.text : Defect → String
  | .unexpectedEnd => "unexpected end of file"
  | .expected what => "expected " ++ what.text
  | .unexpectedPoint => "unexpected decimal point"
  | .unexpectedBrace => "unexpected closing brace"
  | .unknownAbbreviation name => "unknown abbreviation " ++ Text.quoted name
  | .duplicateKey key => "duplicate key " ++ Text.quoted key
  | .date d => "type error occurred during crossref resolution: " ++ d.text

/-- A defect and its place. -/
structure Failure where
  defect : Defect
  span : Span
  deriving DecidableEq

namespace Failure

/-- Whether a failure ends the whole program. -/
def isFatal (f : Failure) : Bool := f.defect = .date .unreadable

/-- The wording of a failure. -/
def message (f : Failure) : String :=
  f.defect.text ++ ": " ++ toString f.span.start ++ "-" ++ toString f.span.stop

end Failure
end Bib
end PostRun
