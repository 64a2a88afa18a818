import PostRun.Bib.Content
import PostRun.Text.Letter

/-!
# Dates

An entry says when it appeared in one field, or in a field for the year that may be
followed by one for the month and one for the day.  Nothing is done with a date but to
see whether it can be read.

## What is accepted

A year has one to four digits, with a sign or with the name of an era behind it; what
else follows is not looked at.  A month may be any name or number.  A day counts only
beside a month: in a field of its own, or else behind the name of the month.

A date in one field may be any text, refused or not, except that some dates are beyond
reading.  Digits of all scripts are told from other characters there and counted by
their bytes, but only those of one byte can be read.
-/

namespace PostRun
namespace Bib

/-- The failure of a date at a place. -/
def dateFailure (defect : DateDefect) (span : Span) : Failure := ⟨.date defect, span⟩

/-- The number that a row of digits stands for. -/
def numberOf (digits : List Char) : Nat := digits.foldl (fun n d => 10 * n + (d.toNat - 48)) 0

/-- Checks the number of a day. -/
def checkDayNumber (n : Nat) (span : Span) : Except Failure Unit :=
  if n = 0 ∨ 31 < n then .error (dateFailure .dayOutOfRange span) else .ok ()

/-- Whether a text starts with a sign. -/
def hasSign (text : List Char) : Bool := text.head? = some '-' || text.head? = some '+'

/-- The name of an era at the front of a text, and what follows. -/
def takeEra? (text : List Char) : Option (List Char × List Char) :=
  (["BCE", "BC", "AD", "CE"].find? fun era => era.toList.isPrefixOf text).map fun era =>
    (era.toList, text.drop era.length)

/-- Checks a year.  The digits have to follow the sign at once; an era is a word of its own, goes
without a sign, and has no year zero. -/
def checkYear (year : Content) : Except Failure Unit :=
  let place (rest : List Char) : Nat :=
    year.span.start + (Text.byteLength year.text - Text.byteLength rest)
  let text := Text.trimStart year.text
  let behindSign := if hasSign text then text.drop 1 else text
  let number := Text.trimStart behindSign
  let digits := number.takeWhile Char.isDigit
  let behind := number.dropWhile Char.isDigit
  if digits.isEmpty ∨ 4 < digits.length then
    .error (dateFailure .wrongNumberOfDigits ⟨place text, place behind⟩)
  else if behindSign ≠ number then .error (dateFailure .unreadable year.span)
  else
    match takeEra? (Text.trimStart behind) with
    | none => .ok ()
    | some (era, rest) =>
        if rest.head?.any Text.isWordChar then
          .error (dateFailure .invalidFormat ⟨place (era ++ rest), place rest⟩)
        else if hasSign text then
          .error (dateFailure .invalidFormat ⟨place text, place rest⟩)
        else if numberOf digits = 0 then
          .error (dateFailure .yearZero ⟨place text, place rest⟩)
        else .ok ()

/-- What separates the name of a month from a day. -/
def separatesDay (c : Char) : Bool := Text.isBlank c || c == '-'

/-- Checks the day in the field of a month.  Its place is counted from the front of the month. -/
def checkMonth (month : Content) : Except Failure Unit :=
  let behindName := (Text.trimStart month.text).dropWhile Text.isLetter
  let number := behindName.dropWhile separatesDay
  let digits := number.takeWhile Char.isDigit
  let first := Text.byteLength month.text - Text.byteLength number
  if !behindName.head?.any separatesDay then .ok ()
  else if digits.isEmpty then .error (dateFailure .missingNumber (.point first))
  else if 255 < numberOf digits then .error (dateFailure .unreadable (.point first))
  else checkDayNumber (numberOf digits) ⟨first, first + digits.length⟩

/-- Checks a day: a number of one byte. -/
def checkDay (day : Content) : Except Failure Unit :=
  let text := Text.trim day.text
  let digits := if text.head? = some '+' then text.drop 1 else text
  if day.span.start = day.span.stop then .error (dateFailure .missingNumber day.span)
  else if digits.isEmpty ∨ !digits.all Char.isDigit ∨ 255 < numberOf digits then
    .error (dateFailure .invalidNumber day.span)
  else checkDayNumber (numberOf digits) day.span

/-- How the reading of a date ends. -/
inductive Outcome where
  | accepted
  | refused
  | unreadable
  deriving DecidableEq

namespace Outcome

/-- Goes on if all was accepted so far. -/
def andThen (a : Outcome) (b : Outcome) : Outcome := if a = accepted then b else a

end Outcome

/-- Reads a row of digits, which has to have one of some numbers of bytes and one of some values. -/
def readDigits (digits : List Char) (lengths : List Nat) (values : Nat → Bool) : Outcome :=
  if !lengths.contains (Text.byteLength digits) then .refused
  else if !digits.all Char.isDigit then .unreadable
  else if values (numberOf digits) then .accepted
  else .refused

/-- Reads the parts of a date behind its year, each behind a hyphen: numbers of two digits up to
the given ones. -/
def readParts : List Nat → List Char → Outcome
  | _, [] => .accepted
  | most :: more, '-' :: rest =>
      (readDigits (rest.takeWhile Text.isNumber) [2] fun n => 0 < n && n ≤ most).andThen
        (readParts more (rest.dropWhile Text.isNumber))
  | _, _ => .refused

/-- Reads a day, a month or a year, which may have a sign; a year of two digits is a century. -/
def readMoment (text : List Char) : Outcome :=
  let unsigned := if hasSign text then text.drop 1 else text
  (readDigits (unsigned.takeWhile Text.isNumber) [2, 4] fun _ => true).andThen
    (readParts [12, 31] (unsigned.dropWhile Text.isNumber))

/-- Reads an end of a range, which may be open. -/
def readEnd (text : List Char) : Outcome :=
  if text = [] ∨ text = ['.', '.'] then .accepted else readMoment text

/-- Reads a date whose later digits are open.  The missing digits of a year cannot be counted when
there are more than four, and there is no month before the first one. -/
def readOpen (text : List Char) : Outcome :=
  let year := text.takeWhile Text.isNumber
  if 4 < Text.byteLength year then .unreadable
  else
    (readDigits year [4] fun _ => true).andThen <|
      match text.dropWhile Text.isNumber with
      | '-' :: rest =>
          let month := rest.takeWhile Text.isNumber
          if month = ['0', '0'] then .unreadable else readDigits month [2] fun n => n ≤ 12
      | _ => .refused

/-- Reads a date, in which blanks count for nothing. -/
def readDate (text : List Char) : Outcome :=
  let date := text.filter fun c => !Text.isBlank c
  if date.contains 'X' || date.contains 'x' then readOpen date
  else
    match date.dropWhile (· ≠ '/') with
    | [] => readMoment date
    | _ :: stop => (readEnd (date.takeWhile (· ≠ '/'))).andThen (readEnd stop)

/-- The fields in which an entry says when it appeared. -/
structure DateFields where
  date : Option Content
  year : Option Content
  month : Option Content
  day : Option Content

namespace DateFields

/-- Whether there is a date. -/
def isGiven (d : DateFields) : Bool := d.date.isSome || d.year.isSome

/-- Checks the day of a date, given beside a month. -/
def checkDayOf (month : Content) : Option Content → Except Failure Unit
  | none => checkMonth month
  | some day => checkDay day

/-- Checks a date. -/
def check (d : DateFields) : Except Failure Unit :=
  match d.date, d.year with
  | some date, _ =>
      if readDate date.text = .unreadable then .error (dateFailure .unreadable date.span)
      else .ok ()
  | none, none => .ok ()
  | none, some year => do
      checkYear year
      match d.month with
      | none => return ()
      | some month => checkDayOf month d.day

end DateFields
end Bib
end PostRun
