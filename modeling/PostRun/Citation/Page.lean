import PostRun.Citation.Failure
import PostRun.Citation.Link
import PostRun.Html.Elements
import PostRun.Log

/-!
# Links on a citation list

A citation list has an anchor for every citation, and behind it a paragraph with the
citation.  A link is appended to the first paragraph that starts behind its anchor; all
links whose anchors stand between two paragraphs go to the second one, in order.  A
paragraph that is an anchor itself takes the links before it and not its own.

The page is passed on as it is but for the links.  They stand at the end of the
paragraph, which is the place before its end tag.

## Tags that are overlooked

An end tag that is understood by its name and has nothing to write is left at its name.
A tag that has to be read to its end is overlooked if it comes next: it is neither an
anchor nor a paragraph, and it opens and closes no element.
-/

namespace PostRun
namespace Citation

/-- A link that waits for its paragraph, with the key of its citation. -/
structure Pending where
  key : String
  link : Link
  deriving DecidableEq

namespace Pending

/-- The link as it is appended, a full stop behind it. -/
def markup (p : Pending) : List Char := p.link.markup ++ ['.']

/-- The record of an appended link. -/
def report (p : Pending) : Record :=
  ⟨.info, "Added eprint link to " ++ p.key ++ ": " ++ String.ofList p.link.markup⟩

end Pending

/-- How far a page has been passed on: the open elements, the waiting links, the number of links
that found a paragraph, and whether the last tag was an end tag that was left at its name. -/
structure Progress where
  elements : Html.OpenElements
  pending : List Pending
  count : Nat
  leftAtName : Bool
  deriving DecidableEq

/-- What an identifier has to hold for a tag to be looked at. -/
def anchorWord : List Char := "CITEREF".toList

/-- What stands before the key in the name of an anchor. -/
def anchorStart : List Char := "CITEREF_".toList

/-- The citation key in the name of an anchor: all of the name behind a fixed start.  A key has no
line break. -/
def keyOf? (name : List Char) : Option String :=
  if anchorStart.isPrefixOf name && !name.contains '\n' then
    some (String.ofList (name.drop anchorStart.length))
  else none

/-- The citation key of a tag, if it is an anchor. -/
def citationKey? (tag : Html.StartTag) : Option String :=
  if tag.id.any (Text.includes anchorWord) then tag.idText.bind keyOf? else none

/-- Whether a tag starts a paragraph. -/
def startsParagraph (tag : Html.StartTag) : Bool := tag.name = "p"

namespace Progress

/-- The start of a page. -/
def start : Progress := ⟨[], [], 0, false⟩

/-- Takes note of the anchor that a tag may be. -/
def visitAnchor (b : Bib.Bibliography) (s : Progress) (tag : Html.StartTag) :
    Logged (Except Failure Progress) :=
  match citationKey? tag with
  | none => pure (.ok s)
  | some key =>
      match Link.find b key with
      | .error key => pure (.error (.missingReference key))
      | .ok none => do
          Logged.say .debug ("Found no supported eprint data for " ++ key ++ ".")
          return .ok s
      | .ok (some link) => do
          Logged.say .debug ("Found arXiv link for " ++ key ++ ".")
          return .ok { s with pending := s.pending ++ [⟨key, link⟩] }

/-- Hands the waiting links to a tag that starts a paragraph. -/
def visitParagraph (s : Progress) (tag : Html.StartTag) : Logged (Progress × List Char) :=
  if startsParagraph tag then
    ⟨s.pending.map Pending.report,
      ({ s with pending := [], count := s.count + s.pending.length },
        s.pending.flatMap Pending.markup)⟩
  else pure (s, [])

/-- Opens the element of a start tag. -/
def openElement (s : Progress) (tag : Html.StartTag) (appended : List Char) : Progress :=
  if tag.opens then { s with elements := ⟨tag.name, appended⟩ :: s.elements } else s

/-- Passes an end tag on, with the text of the elements that it closes before it. -/
def visitEnd (s : Progress) (tag : Html.EndTag) : Progress × List Char :=
  let closed := s.elements.close tag.name
  ({ s with elements := closed.2, leftAtName := tag.byName && closed.1.isEmpty },
    closed.1 ++ tag.raw)

/-- Passes a start tag on. -/
def visitStart (b : Bib.Bibliography) (s : Progress) (tag : Html.StartTag) :
    Logged (Except Failure (Progress × List Char)) := do
  let (s, appended) ← s.visitParagraph tag
  match ← s.visitAnchor b tag with
  | .error e => return .error e
  | .ok s => return .ok ({ s.openElement tag appended with leftAtName := false }, tag.raw)

/-- Whether a token is overlooked. -/
def overlooks (s : Progress) : Html.Token → Bool
  | .other _ => false
  | .start tag => s.leftAtName && !tag.byName
  | .stop tag => s.leftAtName && !tag.byName

/-- Passes a token on: the text that is written for it. -/
def visit (b : Bib.Bibliography) (s : Progress) (t : Html.Token) :
    Logged (Except Failure (Progress × List Char)) :=
  if s.overlooks t then pure (.ok ({ s with leftAtName := false }, t.raw))
  else
    match t with
    | .other raw => pure (.ok (s, raw))
    | .stop tag => pure (.ok (s.visitEnd tag))
    | .start tag => s.visitStart b tag

/-- Passes tokens on. -/
def visitAll (b : Bib.Bibliography) :
    Progress → List Html.Token → Logged (Except Failure (Progress × List Char))
  | s, [] => pure (.ok (s, []))
  | s, t :: ts => do
      match ← s.visit b t with
      | .error e => return .error e
      | .ok (s, written) => (Except.map fun r => (r.1, written ++ r.2)) <$> s.visitAll b ts

/-- What becomes of a page that was passed on: every link has to have found a paragraph. -/
def finish (doubtful : Option String) (r : Progress × List Char) :
    Except Failure (List Char × Nat) :=
  match doubtful, r.1.pending with
  | some name, _ => .error (.doubtfulTag name)
  | none, p :: _ => .error (.missingCitationText p.key)
  | none, [] => .ok (r.2, r.1.count)

end Progress

/-- A page with its links appended, and the number of links. -/
def appendLinks (b : Bib.Bibliography) (page : List Char) :
    Logged (Except Failure (List Char × Nat)) :=
  let cut := Html.cut page
  (·.bind (Progress.finish cut.doubtful)) <$> Progress.start.visitAll b cut.tokens

end Citation
end PostRun
