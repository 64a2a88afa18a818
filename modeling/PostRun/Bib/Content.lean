import PostRun.Bib.Chunk
import PostRun.Text.Pieces

/-!
# The content of values

A value is understood piece by piece, with its abbreviations explained.  Its chunks know
the bytes of the source that they come from, and so does the content; a value that is
abbreviated comes from the place where the abbreviation is explained.

A content can be a list of keys.  It is cut at the commas of its plain text, for which
it does not matter from how many pieces that text was put together.
-/

namespace PostRun
namespace Bib

/-- The content of a value: its chunks. -/
structure Content where
  chunks : List Chunk
  deriving DecidableEq

/-- The name of the month that an abbreviation stands for. -/
def monthOf? (name : List Char) : Option String :=
  [("jan", "January"), ("feb", "February"), ("mar", "March"), ("apr", "April"), ("may", "May"),
    ("jun", "June"), ("jul", "July"), ("aug", "August"), ("sep", "September"), ("oct", "October"),
    ("nov", "November"), ("dec", "December")].lookup (String.ofList (Text.lower name))

namespace Content

/-- The content of no value. -/
def empty : Content := ⟨[]⟩

/-- The bytes that a content comes from: from its first chunk to its last one.  A brace or a dollar
sign at the end is behind the last chunk. -/
def span (c : Content) : Span :=
  match c.chunks.head?, c.chunks.getLast? with
  | some first, some last => ⟨first.span.start, last.span.stop⟩
  | _, _ => .point 0

/-- The text of a content. -/
def text (c : Content) : List Char := verbatim c.chunks

/-- Two contents in a row. -/
def append (a b : Content) : Content := ⟨a.chunks ++ b.chunks⟩

/-- The content of text that starts at a byte of the source. -/
def ofText (inVerbatim : Bool) (content : List Char) (start : Nat) : Except Failure Content := do
  return ⟨← chunksOfText inVerbatim content start⟩

/-- The content of an abbreviation that the file does not explain. -/
def ofMonth (name : List Char) (span : Span) : Except Failure Content :=
  match monthOf? name with
  | some month => .ok ⟨[⟨.plain, month.toList, span⟩]⟩
  | none => .error ⟨.unknownAbbreviation (String.ofList name), span⟩

/-- The content of a value.  An abbreviation is looked up in the whole file, and after that among
the months.  The fuel bounds how deep abbreviations lie in one another. -/
def ofValue (abbreviations : List Field) (inVerbatim : Bool) :
    Nat → Value → Except Failure Content
  | _, [] => .ok empty
  | fuel, piece :: rest => do
      let first ←
        match piece with
        | .text content start => ofText inVerbatim content start
        | .abbreviation name span =>
            match abbreviations.find? fun f => f.name = name, fuel with
            | some f, fuel + 1 => ofValue abbreviations inVerbatim fuel f.value
            | _, _ => ofMonth name span
      if rest.isEmpty then return first
      else return first.append (← ofValue abbreviations inVerbatim fuel rest)
termination_by fuel value => (fuel, value.length)

/-- Puts a chunk in front of others, into one with the first of these if both are plain. -/
def consMerged (c : Chunk) : List Chunk → List Chunk
  | [] => [c]
  | d :: ds =>
      if c.manner = .plain ∧ d.manner = .plain then
        ⟨.plain, c.text ++ d.text, ⟨c.span.start, d.span.stop⟩⟩ :: ds
      else c :: d :: ds

/-- The chunks of a content, plain ones in a row made into one. -/
def merged (c : Content) : List Chunk := c.chunks.foldr consMerged []

/-- Cuts a chunk of a list at its commas.  Blanks next to a comma are dropped, those at the ends of
the chunk are not. -/
def cutAtCommas (text : List Char) : List (List Char) :=
  match Text.pieces ',' text with
  | [] => []
  | first :: rest =>
      let pieces := first :: rest.map Text.trimStart
      pieces.dropLast.map Text.trimEnd ++ [pieces.getLastD []]

/-- Puts text in front of the first item of a list. -/
def extendFirst (text : List Char) : List (List Char) → List (List Char)
  | [] => [text]
  | first :: rest => (text ++ first) :: rest

/-- Continues a list of items by the items that a chunk is cut into. -/
def joinItems : List (List Char) → List (List Char) → List (List Char)
  | [], rest => rest
  | [item], rest => extendFirst item rest
  | item :: items, rest => item :: joinItems items rest

/-- The items of a list of keys.  Only plain text is cut. -/
def itemsOf : List Chunk → List (List Char)
  | [] => [[]]
  | c :: cs =>
      match c.manner with
      | .plain => joinItems (cutAtCommas c.text) (itemsOf cs)
      | _ => extendFirst c.verbatim (itemsOf cs)

/-- The items of a list of keys. -/
def items (c : Content) : List String := (itemsOf c.merged).map String.ofList

end Content

/-- The fields that hold addresses or identifiers. -/
def isVerbatimField (name : List Char) : Bool :=
  (["file", "doi", "uri", "url", "eprint", "verba", "verbb", "verbc", "pdf", "urlraw"].map
    String.toList).contains name

end Bib
end PostRun
