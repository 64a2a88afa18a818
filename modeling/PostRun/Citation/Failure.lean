import PostRun.Bib.Failure
import PostRun.Files.IoError

/-!
# Failures to complete a citation list

What can go wrong when links are appended to a citation list, with two forms of text:
the message for a reader, and the detailed form in which the program ends with it.
-/

namespace PostRun
namespace Citation

/-- Why links could not be appended. -/
inductive Failure where
  | io (path : String) (error : Files.IoError)
  | bibliography (path : Option String) (cause : Bib.Failure)
  | missingReference (key : String)
  | missingCitationText (key : String)
  | doubtfulTag (name : String)
  deriving DecidableEq

namespace Failure

/-- Whether a failure ends the whole program. -/
def isFatal : Failure → Bool
  | bibliography _ cause => cause.isFatal
  | _ => false

/-- What is wrong with a bibliography, behind the path that it was read from. -/
def bibliographyText (path : Option String) (cause : Bib.Failure) : String :=
  match path with
  | some path => path ++ ": " ++ cause.message
  | none => cause.message

/-- Why a tag is doubtful. -/
def doubtText (name : String) : String :=
  "The parser has encountered a text content tag (`<" ++ name ++ ">`) in the context where " ++
    "it is ambiguous whether this tag should be ignored or not. And, thus, is is unclear is " ++
    "consequent content should be parsed as raw text or HTML markup.\n\n" ++
    "This error occurs due to the limited capabilities of the streaming parsing. However, " ++
    "almost all of the cases of this error are " ++
    "caused by a non-conforming markup (e.g. a `<script>` element in `<select>` element)."

/-- The wording of a failure. -/
def message : Failure → String
  | io path e => path ++ ": " ++ e.message
  | bibliography path cause => "could not parse bibliography: " ++ bibliographyText path cause
  | missingReference key => "no bibliography entry for citation key '" ++ key ++ "'"
  | missingCitationText key => "no paragraph follows the citation anchor for '" ++ key ++ "'"
  | doubtfulTag name => "could not rewrite the citation list: " ++ doubtText name

/-- The wording of the failure that lies below another one. -/
def source? : Failure → Option String
  | io _ e => some e.message
  | _ => none

/-- A failure of the file system in detail. -/
def ioDetail (e : Files.IoError) : String :=
  match e.code? with
  | some code =>
      "Os \x7b code: " ++ toString code ++ ", kind: " ++ e.kind ++ ", message: " ++
        Text.quoted e.description ++ " \x7d"
  | none =>
      "Error \x7b kind: " ++ e.kind ++ ", message: " ++ Text.quoted e.description ++ " \x7d"

/-- A failure in detail. -/
def detail : Failure → String
  | io path e => "Io(" ++ Text.quoted path ++ ", " ++ ioDetail e ++ ")"
  | bibliography path cause => "Bibliography(" ++ Text.quoted (bibliographyText path cause) ++ ")"
  | missingReference key => "MissingReference(" ++ Text.quoted key ++ ")"
  | missingCitationText key => "MissingCitationText(" ++ Text.quoted key ++ ")"
  | doubtfulTag name => "Rewrite(" ++ Text.quoted (doubtText name) ++ ")"

end Failure
end Citation
end PostRun
