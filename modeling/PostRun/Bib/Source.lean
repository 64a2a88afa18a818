import PostRun.Bib.Reader

/-!
# The items of a bibliography file

A file holds entries, abbreviations and remarks, each behind an at sign; what stands
between them is no part of it.  An entry has a kind, a key and fields, and the value of
a field is a row of pieces.  Values are cut out here and understood later, since an
abbreviation may be explained behind the place where it is used.

An item is opened by a brace or a quote and closed by either.
-/

namespace PostRun
namespace Bib

/-- A piece of a value, with its text as it stands in the source. -/
inductive Piece where
  | text (content : List Char) (start : Nat)
  | abbreviation (name : List Char) (span : Span)

/-- The value of a field. -/
abbrev Value := List Piece

/-- A field: its name and its value. -/
structure Field where
  name : List Char
  value : Value

/-- An entry as it stands in the source. -/
structure Item where
  kind : List Char
  key : List Char
  fields : List Field
  span : Span

/-- The entries and the abbreviations of a file, in order. -/
structure Source where
  items : List Item
  abbreviations : List Field

namespace Source

/-- A file that holds nothing. -/
def empty : Source := ⟨[], []⟩

end Source

/-- The characters that names are made of. -/
def isNameChar (c : Char) : Bool :=
  !(['@', '{', '}', '"', '#', '\'', '(', ')', ',', '=', '%', '\\', '~'].contains c) &&
    !Text.isControl c && !Text.isBlank c

/-- The characters that a name can start with. -/
def isNameStart (c : Char) : Bool := isNameChar c && !([':', '<', '-', '>'].contains c)

/-- The characters of keys: a key reaches to a comma, a closing brace or a blank. -/
def isKeyChar (c : Char) : Bool :=
  c != ',' && c != '}' && !Text.isControl c && !Text.isBlank c

/-- Text up to the brace that closes it, and what follows from that brace on.  A backslash hides
the character behind it. -/
def bracedText : Nat → List Char → Option (List Char × List Char)
  | _, [] => none
  | depth, '\\' :: cs =>
      match cs with
      | [] => none
      | c :: cs => (bracedText depth cs).map fun r => ('\\' :: c :: r.1, r.2)
  | depth, '{' :: cs => (bracedText (depth + 1) cs).map fun r => ('{' :: r.1, r.2)
  | 0, '}' :: cs => some ([], '}' :: cs)
  | depth + 1, '}' :: cs => (bracedText depth cs).map fun r => ('}' :: r.1, r.2)
  | depth, c :: cs => (bracedText depth cs).map fun r => (c :: r.1, r.2)

/-- Text up to the quote that closes it, and what follows from that quote on.  A backslash hides
the character behind it. -/
def quotedText : List Char → Option (List Char × List Char)
  | [] => none
  | '\\' :: cs =>
      match cs with
      | [] => none
      | c :: cs => (quotedText cs).map fun r => ('\\' :: c :: r.1, r.2)
  | '"' :: cs => some ([], '"' :: cs)
  | c :: cs => (quotedText cs).map fun r => (c :: r.1, r.2)

namespace Reader

/-- Reads a name. -/
def name : Reader (List Char) := do
  match ← peek? with
  | some c => if isNameStart c then takeWhile isNameChar else failHere (.expected .identifier)
  | none => failHere (.expected .identifier)

/-- Reads text that some search cuts off at a closing character, and goes behind that one. -/
def enclosed (cut : List Char → Option (List Char × List Char)) : Reader Piece := do
  advance
  let p ← get
  match cut p.rest with
  | none => failAtEnd .unexpectedEnd
  | some (content, rest) =>
      set (p.after content rest)
      advance
      return .text content p.offset

/-- Reads a number: digits with at most one point among them. -/
def number : Reader Piece := do
  let start := (← get).offset
  let whole ← takeWhile Char.isDigit
  let digits ← match ← peek? with
    | some '.' => do
        advance
        let places ← takeWhile Char.isDigit
        if (← peek?) = some '.' then failHere .unexpectedPoint
        pure (whole ++ '.' :: places)
    | _ => pure whole
  if (← peek?).isNone then failHere .unexpectedEnd
  return .text digits start

/-- Reads a piece of a value. -/
def piece : Reader Piece := do
  match ← peek? with
  | some '{' => enclosed (bracedText 0)
  | some '"' => enclosed quotedText
  | some c =>
      if c.isDigit then number
      else if isNameStart c then
        let start := (← get).offset
        let found ← takeWhile isNameChar
        return .abbreviation found ⟨start, (← get).offset⟩
      else failHere .unexpectedEnd
  | none => failHere .unexpectedEnd

/-- Reads the pieces of a value, with a hash between them. -/
def pieces : Nat → Reader Value
  | 0 => failHere .unexpectedEnd
  | fuel + 1 => do
      let first ← piece
      skipBlanks
      if (← peek?) = some '#' then
        advance
        skipBlanks
        return first :: (← pieces fuel)
      else return [first]

/-- Reads a value. -/
def value : Reader Value := do pieces ((← get).rest.length + 1)

/-- Reads a field. -/
def field : Reader Field := do
  let found ← name
  skipBlanks
  expectOneOf ['='] .equals
  skipBlanks
  return ⟨found, ← value⟩

/-- Reads fields up to a closing brace, which is left. -/
def fieldsUpTo : Nat → Reader (List Field)
  | 0 => failHere .unexpectedEnd
  | fuel + 1 => do
      if (← peek?).isNone then failHere .unexpectedEnd
      skipBlanks
      if (← peek?) = some '}' then return []
      let first ← field
      match ← peek? with
      | some ',' => advance
      | some '}' => pure ()
      | _ => failHere (.expected .comma)
      return first :: (← fieldsUpTo fuel)

/-- Reads fields. -/
def fields : Reader (List Field) := do fieldsUpTo ((← get).rest.length + 1)

/-- Reads a remark, which reaches to the first closing brace. -/
def remark : Reader Unit := modify fun p => p.skipWhile fun c => c != '}'

/-- Reads a preamble: text between quotes. -/
def preamble : Reader Unit := do
  if (← peek?) = some '"' then
    let _ ← enclosed quotedText
  else failHere (.expected .quote)

/-- Reads the key and the fields of an entry. -/
def entryBody (kind : List Char) (start : Nat) : Reader Item := do
  let key ← takeWhile isKeyChar
  skipBlanks
  expectOneOf [','] .comma
  skipBlanks
  let found ← fields
  return ⟨kind, key, found, ⟨start, (← get).offset⟩⟩

/-- Reads an item behind its at sign and puts it before those that follow. -/
def item : Reader (Source → Source) := do
  let start := (← get).offset
  advance
  let kind := Text.lower (← name)
  skipBlanks
  expectOneOf ['{', '"'] .openingBrace
  skipBlanks
  let added ←
    if kind = "string".toList then do
      let found ← fields
      pure fun (s : Source) => { s with abbreviations := found ++ s.abbreviations }
    else if kind = "preamble".toList then do
      preamble
      pure fun s => s
    else if kind = "comment".toList then do
      remark
      pure fun s => s
    else do
      let found ← entryBody kind start
      pure fun s => { s with items := found :: s.items }
  skipBlanks
  expectOneOf ['}', '"'] .closingBrace
  return added

/-- Reads the items of a file. -/
def items : Nat → Reader Source
  | 0 => return .empty
  | fuel + 1 => do
      modify fun p => p.skipWhile fun c => c != '@'
      if (← peek?).isNone then return .empty
      let added ← item
      return added (← items fuel)

end Reader

/-- The items of a file. -/
def Source.parse (source : String) : Except Failure Source :=
  let start := Place.ofSource source
  (Reader.items (start.rest.length + 1)).run' start

end Bib
end PostRun
