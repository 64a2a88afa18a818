import PostRun.Html.Tag

/-!
# Text that holds no markup

Behind some start tags the text is not markup: it reaches to the end tag of the same
name.  Behind `plaintext` it reaches to the end of the page.

A script is more involved.  Behind `<!--` it is escaped, up to `-->`; a `<script` inside
of that is escaped twice, up to `</script`, and such an end tag does not end the script.
-/

namespace PostRun
namespace Html

/-- What the text at a place of a page is. -/
inductive TextMode where
  | markup
  | raw (name : String)
  | script
  | plain
  deriving DecidableEq

namespace TextMode

/-- The text behind a start tag outside of drawings and formulas. -/
def ofName (name : String) : TextMode :=
  if name = "plaintext" then plain
  else if name = "script" then script
  else if ["textarea", "title", "style", "iframe", "xmp", "noembed", "noframes",
    "noscript"].contains name then raw name
  else markup

end TextMode

/-- Whether the text behind a start tag of this name is not markup. -/
def isTextName (name : String) : Bool := TextMode.ofName name != .markup

/-- Whether text starts with a name, in any case of letters, that ends there. -/
def startsWithName : List Char → List Char → Bool
  | [], c :: _ => endsName c
  | n :: ns, c :: cs => n == c.toLower && startsWithName ns cs
  | _, [] => false

/-- Whether text starts with the end tag of a name. -/
def startsWithEndTag (name : List Char) : List Char → Bool
  | '<' :: '/' :: cs => startsWithName name cs
  | _ => false

/-- Text up to the end tag of a name, and what follows from that tag on. -/
def rawText (name : List Char) : List Char → List Char × List Char
  | [] => ([], [])
  | c :: cs =>
      if startsWithEndTag name (c :: cs) then ([], c :: cs)
      else (c :: (rawText name cs).1, (rawText name cs).2)

/-- How often a script is escaped at a place, and how many hyphens stand before it. -/
inductive Escape where
  | never
  | once (hyphens : Nat)
  | twice (hyphens : Nat)
  deriving DecidableEq

namespace Escape

/-- The name of the element. -/
def script : List Char := "script".toList

/-- Whether an end tag at this place ends the script. -/
def isOpen : Escape → Bool
  | twice _ => false
  | _ => true

/-- The escape behind a character, given what follows that character. -/
def step : Escape → Char → List Char → Escape
  | never, '<', '!' :: '-' :: '-' :: _ => once 0
  | never, _, _ => never
  | once n, c, cs =>
      if c = '-' then once (n + 1)
      else if c = '>' ∧ 2 ≤ n then never
      else if c = '<' ∧ startsWithName script cs then twice 0
      else once 0
  | twice n, c, cs =>
      if c = '-' then twice (n + 1)
      else if c = '>' ∧ 2 ≤ n then never
      else if c = '<' ∧ startsWithEndTag script (c :: cs) then once 0
      else twice 0

end Escape

/-- The text of a script up to the end tag that ends it, and what follows from that tag on. -/
def scriptText : Escape → List Char → List Char × List Char
  | _, [] => ([], [])
  | e, c :: cs =>
      if e.isOpen && startsWithEndTag Escape.script (c :: cs) then ([], c :: cs)
      else (c :: (scriptText (e.step c cs) cs).1, (scriptText (e.step c cs) cs).2)

theorem rawText_append (name cs : List Char) : (rawText name cs).1 ++ (rawText name cs).2 = cs := by
  induction cs with
  | nil => rfl
  | cons c cs ih =>
    unfold rawText
    split
    · rfl
    · simpa using ih

theorem scriptText_append (e : Escape) (cs : List Char) :
    (scriptText e cs).1 ++ (scriptText e cs).2 = cs := by
  induction cs generalizing e with
  | nil => rfl
  | cons c cs ih =>
    unfold scriptText
    split
    · rfl
    · simpa using ih _

end Html
end PostRun
