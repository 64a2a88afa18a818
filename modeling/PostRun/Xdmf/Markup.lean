import PostRun.Text.Escape

/-!
# Markup trees and their layout

A markup tree has elements, elements without content, and lines of text.  It is laid
out one tag or text to a line.  How far the content of an element is moved to the right
is stated by the element, since some levels of an index are not indented at all.

Attribute values and text are escaped when they are written, so the tree holds them
plain.
-/

namespace PostRun
namespace Xdmf

/-- An attribute; a spaced one has blanks around its equals sign. -/
structure Attribute where
  name : String
  value : String
  spaced : Bool
  deriving DecidableEq

/-- A tag: its name and attributes. -/
structure Tag where
  name : String
  attributes : List Attribute
  deriving DecidableEq

/-- A markup tree. -/
inductive Markup where
  | element (tag : Tag) (step : Nat) (content : List Markup)
  | single (tag : Tag)
  | text (line : String)

namespace Attribute

/-- An attribute in the usual spelling. -/
def tight (name value : String) : Attribute := ⟨name, value, false⟩

/-- An attribute as it is written in a tag. -/
def written (a : Attribute) : List Char :=
  ' ' :: a.name.toList ++ (if a.spaced then " = ".toList else ['=']) ++
    '"' :: Text.escape a.value.toList ++ ['"']

end Attribute

namespace Tag

/-- The name and the attributes as they stand between the brackets. -/
def inner (t : Tag) : List Char := t.name.toList ++ t.attributes.flatMap Attribute.written

/-- The tag that opens an element. -/
def opening (t : Tag) : List Char := '<' :: t.inner ++ ['>']

/-- The tag that closes an element. -/
def closing (t : Tag) : List Char := '<' :: '/' :: t.name.toList ++ ['>']

/-- The tag of an element without content. -/
def alone (t : Tag) : List Char := '<' :: t.inner ++ ['/', '>']

end Tag

namespace Markup

/-- A line moved to the right. -/
def indent (n : Nat) (line : List Char) : List Char := List.replicate n ' ' ++ line

mutual

/-- The lines of a tree. -/
def lines (n : Nat) : Markup → List (List Char)
  | element tag step content =>
      indent n tag.opening :: linesOfAll (n + step) content ++ [indent n tag.closing]
  | single tag => [indent n tag.alone]
  | text line => [indent n (Text.escape line.toList)]

/-- The lines of trees that stand one after another. -/
def linesOfAll (n : Nat) : List Markup → List (List Char)
  | [] => []
  | m :: ms => lines n m ++ linesOfAll n ms

end

end Markup
end Xdmf
end PostRun
