import PostRun.Bib.Command
import PostRun.Bib.Source

/-!
# Chunks of text

Text is cut into chunks.  Braces are dropped, but text inside of them is marked as
guarded, so that a list of keys is not cut there; formulas stand between dollar signs;
dashes and commands become characters.  A brace that closes nothing is a failure, one
that is never closed is not.

Every brace ends a chunk, so chunks can be empty.  They still matter: a blank is dropped
at the end of an item of a list, but not when a pair of braces stands behind it.

Some fields hold addresses or identifiers.  In these a dollar sign is itself, and a
backslash is too unless it hides a brace, a colon or another backslash.
-/

namespace PostRun
namespace Bib

/-- How a stretch of text is meant. -/
inductive Manner where
  | plain
  | guarded
  | formula
  deriving DecidableEq

/-- A stretch of text of one manner, and the bytes of the source that it comes from. -/
structure Chunk where
  manner : Manner
  text : List Char
  span : Span
  deriving DecidableEq

/-- The text of a chunk with a formula between its dollar signs. -/
def Chunk.verbatim (c : Chunk) : List Char :=
  match c.manner with
  | .formula => '$' :: c.text ++ ['$']
  | _ => c.text

/-- The text of chunks in a row. -/
def verbatim (chunks : List Chunk) : List Char := chunks.flatMap Chunk.verbatim

/-- Text up to the brace that closes it, and what follows from that brace on; a backslash hides
nothing. -/
def argumentText : Nat → List Char → Option (List Char × List Char)
  | _, [] => none
  | depth, '{' :: cs => (argumentText (depth + 1) cs).map fun r => ('{' :: r.1, r.2)
  | 0, '}' :: cs => some ([], '}' :: cs)
  | depth + 1, '}' :: cs => (argumentText depth cs).map fun r => ('}' :: r.1, r.2)
  | depth, c :: cs => (argumentText depth cs).map fun r => (c :: r.1, r.2)

/-- The name of a command, and what follows it: a mark, or any character together with the
characters of names behind it. -/
def commandName : List Char → List Char × List Char
  | [] => ([], [])
  | c :: cs =>
      if isMark c then ([c], cs) else (c :: cs.takeWhile isNameChar, cs.dropWhile isNameChar)

/-- What a command is applied to. -/
inductive Argument where
  | absent
  | next (text : List Char)
  | braced (text : List Char)
  | unclosed

/-- A command behind its backslash: its name, what it is applied to, and what follows.  An argument
in braces follows the name at once; otherwise the blanks behind the name belong to the command,
and an accent takes the next character, or nothing at the end of the text. -/
def splitCommand (cs : List Char) : List Char × Argument × List Char :=
  let (name, behind) := commandName cs
  match behind with
  | '{' :: inside =>
      match argumentText 0 inside with
      | none => (name, .unclosed, [])
      | some (argument, rest) => (name, .braced argument, rest.drop 1)
  | _ =>
      let rest := Text.trimStart behind
      if takesNext name && rest.head? != some '{' then (name, .next (rest.take 1), rest.drop 1)
      else (name, .absent, rest)

/-- Whether a backslash makes a character itself. -/
def isEscapable (inVerbatim : Bool) (c : Char) : Bool :=
  ['{', '}', '\\', ':'].contains c || !inVerbatim && ['#', '%', '&', '$', '_'].contains c

/-- A dash at the front of a text, and what follows: two hyphens make an en dash, three an em
dash. -/
def dash : List Char → Char × List Char
  | '-' :: '-' :: rest => ('—', rest)
  | '-' :: rest => ('–', rest)
  | rest => ('-', rest)

/-- How far a text has been read: where the current chunk starts, how deep in braces it lies, its
text in reverse order, and where the reading is. -/
structure Reading where
  start : Nat
  depth : Nat
  current : List Char
  here : Nat

namespace Reading

/-- The start of a text. -/
def ofOffset (start : Nat) : Reading := ⟨start, 0, [], start⟩

/-- Adds characters to the current chunk and goes on by some bytes. -/
def add (r : Reading) (cs : List Char) (width : Nat) : Reading :=
  { r with current := cs.reverse ++ r.current, here := r.here + width }

/-- Starts a chunk at a depth, behind some bytes. -/
def turn (r : Reading) (depth width : Nat) : Reading :=
  ⟨r.here + width, depth, [], r.here + width⟩

/-- The current chunk, which may be empty. -/
def chunk (r : Reading) : Chunk :=
  ⟨if r.depth = 0 then .plain else .guarded, r.current.reverse, ⟨r.start, r.here⟩⟩

/-- What is left for the end of the text. -/
def last (r : Reading) : List Chunk := if r.current.isEmpty then [] else [r.chunk]

/-- The failure of a text that ends too early, with what was not read. -/
def endsEarly (r : Reading) (rest : List Char) : Failure :=
  ⟨.unexpectedEnd, .point (r.here + Text.byteLength rest)⟩

/-- The failure of a closing brace that closes nothing. -/
def closesNothing (r : Reading) : Failure := ⟨.unexpectedBrace, ⟨r.here, r.here + 1⟩⟩

/-- A backslash in front of a blank or a control character, which follows once more on its own.  In
plain text a line break is a space. -/
def stray (r : Reading) (c : Char) : List Char :=
  ['\\', if r.depth = 0 && (c == '\n' || c == '\r') then ' ' else c]

end Reading

/-- Reads text into chunks.  Every brace and every formula ends the current chunk, even an empty
one. -/
def chunksFrom (inVerbatim : Bool) : Nat → Reading → List Char → Except Failure (List Chunk)
  | 0, r, _ => .ok r.last
  | _, r, [] => .ok r.last
  | fuel + 1, r, c :: cs => do
      if c = '{' then
        return r.chunk :: (← chunksFrom inVerbatim fuel (r.turn (r.depth + 1) 1) cs)
      else if c = '}' then
        if r.depth = 0 then throw r.closesNothing
        return r.chunk :: (← chunksFrom inVerbatim fuel (r.turn (r.depth - 1) 1) cs)
      else if c = '$' ∧ !inVerbatim then
        let inner := cs.takeWhile (· ≠ '$')
        let width := Text.byteLength inner
        match cs.dropWhile (· ≠ '$') with
        | [] => throw (r.endsEarly (c :: cs))
        | _ :: rest =>
            let formula : Chunk := ⟨.formula, inner, ⟨r.here + 1, r.here + 1 + width⟩⟩
            return r.chunk :: formula ::
              (← chunksFrom inVerbatim fuel (r.turn r.depth (width + 2)) rest)
      else if c = '-' then
        let (mark, rest) := dash cs
        chunksFrom inVerbatim fuel (r.add [mark] (1 + cs.length - rest.length)) rest
      else if Text.isBlank c then
        let blanks := c :: cs.takeWhile Text.isBlank
        chunksFrom inVerbatim fuel (r.add [' '] (Text.byteLength blanks)) (Text.trimStart cs)
      else if c ≠ '\\' then chunksFrom inVerbatim fuel (r.add [c] c.utf8Size) cs
      else
        match cs with
        | [] => if inVerbatim then return (r.add [c] 1).last else throw (r.endsEarly [c])
        | d :: rest =>
            if isEscapable inVerbatim d then
              chunksFrom inVerbatim fuel (r.add [d] (1 + d.utf8Size)) rest
            else if inVerbatim then chunksFrom inVerbatim fuel (r.add [c] 1) cs
            else if Text.isBlank d || Text.isControl d then
              chunksFrom inVerbatim fuel (r.add (r.stray d) 1) cs
            else
              let (name, argument, rest) := splitCommand cs
              let width := 1 + Text.byteLength cs - Text.byteLength rest
              let text ← match argument with
                | .absent => pure (commandText name none)
                | .next text => pure (commandText name (some text))
                | .unclosed => throw (r.endsEarly (c :: cs))
                | .braced inner => do
                    let start := r.here + width - 1 - Text.byteLength inner
                    let chunks ← chunksFrom inVerbatim fuel (.ofOffset start) inner
                    pure (commandText name (some (verbatim chunks)))
              chunksFrom inVerbatim fuel (r.add text width) rest

/-- The chunks of the text of a piece that starts at a byte of the source.  There is always one. -/
def chunksOfText (inVerbatim : Bool) (content : List Char) (start : Nat) :
    Except Failure (List Chunk) := do
  match ← chunksFrom inVerbatim (content.length + 1) (.ofOffset start) content with
  | [] => return [⟨.plain, [], ⟨start, start + Text.byteLength content⟩⟩]
  | chunks => return chunks

end Bib
end PostRun
