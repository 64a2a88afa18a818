import PostRun.Html.Token

/-!
# Open elements

The elements that are open at a place of a page, innermost first.  An end tag closes the
innermost element of its name together with all elements inside of it; one that has no
element to close closes nothing.

Text can be appended to an open element.  It is written when the element is closed, in
front of the end tag.  If an end tag closes several elements with appended text, only
the text of the outermost of them is written.
-/

namespace PostRun
namespace Html

/-- An open element and what is appended to it. -/
structure OpenElement where
  name : String
  appended : List Char
  deriving DecidableEq

/-- The open elements, innermost first. -/
abbrev OpenElements := List OpenElement

namespace OpenElements

/-- The elements that an end tag closes, innermost first, and those that stay open; none if it
closes no element. -/
def split? (name : String) : OpenElements → Option (OpenElements × OpenElements)
  | [] => none
  | e :: es =>
      if e.name = name then some ([e], es)
      else (split? name es).map fun r => (e :: r.1, r.2)

/-- The text of the outermost element that has any. -/
def outermostText : OpenElements → List Char
  | [] => []
  | e :: es => if (outermostText es).isEmpty then e.appended else outermostText es

/-- The text that is written before an end tag, and the elements that are open behind it. -/
def close (name : String) (es : OpenElements) : List Char × OpenElements :=
  match split? name es with
  | some (closed, rest) => (outermostText closed, rest)
  | none => ([], es)

@[simp] theorem outermostText_nil : outermostText [] = [] := rfl

@[simp] theorem close_nil (name : String) : close name [] = ([], []) := rfl

end OpenElements
end Html
end PostRun
