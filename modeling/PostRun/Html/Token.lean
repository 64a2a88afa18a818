import PostRun.Html.Surround

/-!
# Tokens of a page

A page is cut into start tags, end tags and stretches of anything else.  Each token
holds the text that it was cut from, so the tokens put together are the page.

A tag that is never closed is no tag but text, and so is a comment that is never closed.
The page is cut up to the first doubtful tag, if there is one.
-/

namespace PostRun
namespace Html

/-- A start tag, with its identifier as it is written and as it is read; one that opens an element
can be matched by an end tag later.  Most are understood by their names alone. -/
structure StartTag where
  raw : List Char
  name : String
  id : Option (List Char)
  idText : Option (List Char)
  opens : Bool
  byName : Bool
  deriving DecidableEq

/-- An end tag, which may be understood by its name alone, too. -/
structure EndTag where
  raw : List Char
  name : String
  byName : Bool
  deriving DecidableEq

/-- A token of a page. -/
inductive Token where
  | other (raw : List Char)
  | start (tag : StartTag)
  | stop (tag : EndTag)
  deriving DecidableEq

/-- The text that a token was cut from. -/
def Token.raw : Token → List Char
  | other raw => raw
  | start tag => tag.raw
  | stop tag => tag.raw

/-- The tokens of a page up to a doubtful tag, and the name of that tag. -/
structure Cut where
  tokens : List Token
  doubtful : Option String
  deriving DecidableEq

namespace Cut

/-- Puts a token in front. -/
def cons (t : Token) (c : Cut) : Cut := { c with tokens := t :: c.tokens }

/-- A stretch of text to the end of the page. -/
def ofText (raw : List Char) : Cut := ⟨if raw.isEmpty then [] else [.other raw], none⟩

end Cut

/-- What is known at a place of a page. -/
structure State where
  vocabularies : Vocabularies
  guard : Guard
  mode : TextMode
  deriving DecidableEq

namespace State

/-- The start of a page. -/
def start : State := ⟨[], .free, .markup⟩

/-- The state behind a start tag that is not doubtful. -/
def behindStart (s : State) (guard : Guard) (name : String) (tag : Inside) : State where
  vocabularies := s.vocabularies.behindStart name tag
  guard := guard
  mode := if s.vocabularies.current = .plain then .ofName name else .markup

/-- The state behind an end tag. -/
def behindEnd (s : State) (name : String) : State where
  vocabularies := s.vocabularies.behindEnd name
  guard := s.guard.behindEnd name
  mode := .markup

/-- Whether a start tag opens an element, given the state behind it. -/
def opens (behind : State) (name : String) (tag : Inside) : Bool :=
  if behind.vocabularies.current = .plain then !isVoid name else !tag.selfClosing

end State

/-- Text up to the first place where some text starts, that text included, and what follows. -/
def upTo (isStop : List Char → Option (List Char × List Char)) :
    List Char → Option (List Char × List Char)
  | [] => none
  | c :: cs =>
      match isStop (c :: cs) with
      | some r => some r
      | none => (upTo isStop cs).map fun r => (c :: r.1, r.2)

/-- The end of a declaration. -/
def bracket : List Char → Option (List Char × List Char)
  | '>' :: rest => some (['>'], rest)
  | _ => none

/-- The end of a comment. -/
def commentEnd : List Char → Option (List Char × List Char)
  | '-' :: '-' :: '>' :: rest => some (['-', '-', '>'], rest)
  | '-' :: '-' :: '!' :: '>' :: rest => some (['-', '-', '!', '>'], rest)
  | _ => none

/-- The end of a section of characters. -/
def sectionEnd : List Char → Option (List Char × List Char)
  | ']' :: ']' :: '>' :: rest => some ([']', ']', '>'], rest)
  | _ => none

/-- A comment behind its opening, which may also be closed at once. -/
def commentText : List Char → Option (List Char × List Char)
  | '>' :: rest => some (['>'], rest)
  | '-' :: '>' :: rest => some (['-', '>'], rest)
  | cs => upTo commentEnd cs

/-- Puts text in front of what was read. -/
def behind (opening : List Char) (r : Option (List Char × List Char)) :
    Option (List Char × List Char) :=
  r.map fun r => (opening ++ r.1, r.2)

/-- Text that starts with an opening bracket and is no tag, and what follows; none if it reaches to
the end of the page. -/
def declaration (inForeign : Bool) : List Char → Option (List Char × List Char)
  | '<' :: '!' :: '-' :: '-' :: rest => behind ['<', '!', '-', '-'] (commentText rest)
  | '<' :: '!' :: '[' :: 'C' :: 'D' :: 'A' :: 'T' :: 'A' :: '[' :: rest =>
      if inForeign then behind "<![CDATA[".toList (upTo sectionEnd rest)
      else behind "<![CDATA[".toList (upTo bracket rest)
  | '<' :: '!' :: rest => behind ['<', '!'] (upTo bracket rest)
  | '<' :: '?' :: rest => behind ['<', '?'] (upTo bracket rest)
  | '<' :: '/' :: rest => behind ['<', '/'] (upTo bracket rest)
  | c :: rest => some (c :: rest.takeWhile (· != '<'), rest.dropWhile (· != '<'))
  | [] => none

/-- What stands at the front of a text: a tag, up to its name, or something else. -/
inductive Front where
  | startTag (name rest : List Char)
  | endTag (name rest : List Char)
  | other
  deriving DecidableEq

namespace Front

/-- A name at the front of a text, and what follows it. -/
def name (cs : List Char) : List Char × List Char :=
  (cs.takeWhile fun c => !endsName c, cs.dropWhile fun c => !endsName c)

/-- Looks at the front of a text. -/
def ofText : List Char → Front
  | '<' :: '/' :: c :: cs =>
      if c.isAlpha then endTag (name (c :: cs)).1 (name (c :: cs)).2 else other
  | '<' :: c :: cs =>
      if c.isAlpha then startTag (name (c :: cs)).1 (name (c :: cs)).2 else other
  | _ => other

end Front

/-- Cuts text, given the state at its front. -/
def cutFrom : Nat → State → List Char → Cut
  | 0, _, cs => .ofText cs
  | _, _, [] => .ofText []
  | fuel + 1, s, c :: cs =>
      match s.mode with
      | .plain => .ofText (c :: cs)
      | .raw name =>
          let (text, rest) := rawText name.toList (c :: cs)
          let next := cutFrom fuel { s with mode := .markup } rest
          if text.isEmpty then next else next.cons (.other text)
      | .script =>
          let (text, rest) := scriptText .never (c :: cs)
          let next := cutFrom fuel { s with mode := .markup } rest
          if text.isEmpty then next else next.cons (.other text)
      | .markup =>
          match Front.ofText (c :: cs) with
          | .startTag chars rest =>
              let name := nameOf chars
              if rest.isEmpty then .ofText (c :: cs)
              else
                match s.guard.behindStart name with
                | none => ⟨[], some name⟩
                | some guard =>
                    match Inside.read .beforeName rest with
                    | none => .ofText (c :: cs)
                    | some tag =>
                        let next := s.behindStart guard name tag
                        (cutFrom fuel next tag.rest).cons
                          (.start ⟨'<' :: chars ++ tag.raw, name, tag.value? "id", tag.textOf? "id",
                            next.opens name tag, !s.vocabularies.needsInside name⟩)
          | .endTag chars rest =>
              let name := nameOf chars
              match Inside.read .beforeName rest with
              | none => .ofText (c :: cs)
              | some tag =>
                  (cutFrom fuel (s.behindEnd name) tag.rest).cons
                    (.stop ⟨'<' :: '/' :: chars ++ tag.raw, name,
                      !s.vocabularies.needsInsideOfEnd name⟩)
          | .other =>
              match declaration (s.vocabularies.current != .plain) (c :: cs) with
              | none => .ofText (c :: cs)
              | some (text, rest) => (cutFrom fuel s rest).cons (.other text)

/-- The tokens of a page.  Every token takes a character at least, or ends text without markup, so
the fuel suffices. -/
def cut (page : List Char) : Cut := cutFrom (2 * page.length + 1) .start page

end Html
end PostRun
