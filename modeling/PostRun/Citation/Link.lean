import PostRun.Bib.Bibliography
import PostRun.Text.Escape

/-!
# Links to preprints

A link to the abstract page of a preprint on arXiv, made from the identifier that a
bibliography entry gives.  The identifier is any text, so it is escaped wherever it
stands inside markup.
-/

namespace PostRun
namespace Citation

/-- A link to a preprint. -/
structure Link where
  eprint : String
  deriving DecidableEq

namespace Link

/-- The address of the abstract page. -/
def url (l : Link) : String := "https://arxiv.org/abs/" ++ l.eprint

/-- The text that is shown for the link. -/
def text (l : Link) : String := "arXiv:" ++ l.eprint

/-- The link as markup. -/
def markup (l : Link) : List Char :=
  "<a href=\"".toList ++ Text.escape l.url.toList ++ "\">".toList ++
    Text.escape l.text.toList ++ "</a>".toList

/-- The text of a field without the blanks around it. -/
def trimmed? (e : Bib.Entry) (name : String) : Option String :=
  (e.field? name).map fun c => String.ofList (Text.trim c.text)

/-- The link of an entry, if it gives an identifier and names the archive exactly. -/
def givenBy? (e : Bib.Entry) : Option Link :=
  match trimmed? e "archiveprefix", trimmed? e "eprint" with
  | some archive, some eprint => if archive = "arXiv" ∧ eprint ≠ "" then some ⟨eprint⟩ else none
  | _, _ => none

/-- The link of the entry that a citation key stands for; the key itself if it stands for none. -/
def find (b : Bib.Bibliography) (key : String) : Except String (Option Link) :=
  match b.find? key with
  | some e => .ok (givenBy? e)
  | none => .error key

end Link
end Citation
end PostRun
