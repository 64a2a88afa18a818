import PostRun.Html.RawText

/-!
# What surrounds a place of a page

How a tag is to be understood depends on what it stands in.  Two things are followed
from tag to tag, without building the tree of the page: the vocabularies that are
entered and left, and whether the place may lie inside of a list of choices or a frame
set.

## Vocabularies

A page is in plain markup, and inside of `svg` and `math` in a drawing or a formula.
Some elements of these hold plain markup again, and many tags of plain markup end them.

Most tags are understood as soon as their name is known.  Inside of drawings and
formulas some have to be read to their end.

## Doubtful places

A browser drops most tags inside of `select` and `frameset`.  Whether it does so cannot
be told without the tree, and it matters for tags that open text without markup: these
are refused there.
-/

namespace PostRun
namespace Html

/-- A vocabulary of tags. -/
inductive Vocabulary where
  | plain
  | drawing
  | formula
  deriving DecidableEq

/-- What may surround a place. -/
inductive Guard where
  | free
  | inSelect
  | inTemplate (depth : Nat)
  | inFrameset
  deriving DecidableEq

namespace Guard

/-- What surrounds the place behind a start tag; none if the tag is doubtful. -/
def behindStart : Guard → String → Option Guard
  | free, name =>
      if name = "select" then some inSelect
      else if name = "frameset" then some inFrameset
      else some free
  | inSelect, name =>
      if ["select", "textarea", "input", "keygen"].contains name then some free
      else if name = "template" then some (inTemplate 1)
      else if isTextName name && name != "script" then none
      else some inSelect
  | inTemplate depth, name =>
      if name = "template" then some (inTemplate (depth + 1))
      else if isTextName name then none
      else some (inTemplate depth)
  | inFrameset, name =>
      if isTextName name && name != "noframes" then none else some inFrameset

/-- What surrounds the place behind an end tag. -/
def behindEnd : Guard → String → Guard
  | inSelect, name => if name = "select" then free else inSelect
  | inTemplate depth, name =>
      if name = "template" then (if depth ≤ 1 then inSelect else inTemplate (depth - 1))
      else inTemplate depth
  | g, _ => g

end Guard

/-- The tags of plain markup that end a drawing or a formula. -/
def endsForeign (name : String) : Bool :=
  ["b", "big", "blockquote", "body", "br", "center", "code", "dd", "div", "dl", "dt", "em", "embed",
    "h1", "h2", "h3", "h4", "h5", "h6", "head", "hr", "i", "img", "li", "listing", "menu", "meta",
    "nobr", "ol", "p", "pre", "ruby", "s", "small", "span", "strong", "strike", "sub", "sup",
    "table", "tt", "u", "ul", "var"].contains name

/-- The elements of a drawing that hold plain markup. -/
def holdsMarkupInDrawing (name : String) : Bool :=
  ["desc", "title", "foreignobject"].contains name

/-- The elements of a formula that hold plain markup. -/
def holdsMarkupInFormula (name : String) : Bool :=
  ["mi", "mo", "mn", "ms", "mtext"].contains name

/-- The elements that have no content. -/
def isVoid (name : String) : Bool :=
  ["area", "base", "basefont", "bgsound", "br", "col", "embed", "hr", "img", "input", "keygen",
    "link", "meta", "param", "source", "track", "wbr"].contains name

/-- The vocabularies that surround a place, the innermost first; plain markup surrounds all. -/
abbrev Vocabularies := List Vocabulary

namespace Vocabularies

/-- The vocabulary of a place. -/
def current : Vocabularies → Vocabulary
  | [] => .plain
  | v :: _ => v

/-- Whether a font tag has an attribute of plain markup. -/
def isPlainFont (tag : Inside) : Bool :=
  ["color", "size", "face"].any fun name => (tag.value? name).isSome

/-- Whether an annotation of a formula holds plain markup. -/
def isMarkupAnnotation (tag : Inside) : Bool :=
  tag.attributes.any fun a =>
    a.name = "encoding" && ["text/html", "application/xhtml+xml"].contains (nameOf a.value)

/-- Whether a tag in a drawing or a formula starts plain markup inside of it. -/
def entersPlain (v : Vocabulary) (name : String) (tag : Inside) : Bool :=
  !tag.selfClosing &&
    match v with
    | .plain => false
    | .drawing => holdsMarkupInDrawing name
    | .formula => holdsMarkupInFormula name || name == "annotation-xml" && isMarkupAnnotation tag

/-- Whether a start tag has to be read to its end before it is understood: what it leads to may hang
on more than its name.  In a formula every long name may be that of an annotation. -/
def needsInside (vs : Vocabularies) (name : String) : Bool :=
  name != "svg" && name != "math" && !endsForeign name &&
    match vs.current with
    | .plain => false
    | .drawing => holdsMarkupInDrawing name || name == "font"
    | .formula => holdsMarkupInFormula name || name == "font" || !isShortName name

/-- Whether an end tag has to be read to its end before it is understood. -/
def needsInsideOfEnd (vs : Vocabularies) (name : String) : Bool :=
  match vs with
  | .plain :: .formula :: _ => !isShortName name
  | _ => false

/-- The vocabularies behind a start tag. -/
def behindStart (vs : Vocabularies) (name : String) (tag : Inside) : Vocabularies :=
  if name = "svg" then .drawing :: vs
  else if name = "math" then .formula :: vs
  else if vs.current = .plain then vs
  else if endsForeign name || name == "font" && isPlainFont tag then vs.drop 1
  else if entersPlain vs.current name tag then .plain :: vs
  else vs

/-- The vocabularies behind an end tag. -/
def behindEnd (vs : Vocabularies) (name : String) : Vocabularies :=
  match vs with
  | .drawing :: outer => if name = "svg" then outer else vs
  | .formula :: outer => if name = "math" then outer else vs
  | .plain :: .drawing :: outer =>
      if holdsMarkupInDrawing name then .drawing :: outer else vs
  | .plain :: .formula :: outer =>
      if holdsMarkupInFormula name || name == "annotation-xml" then .formula :: outer else vs
  | _ => vs

end Vocabularies
end Html
end PostRun
