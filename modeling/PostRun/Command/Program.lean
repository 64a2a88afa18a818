import PostRun.Citation.Directory
import PostRun.Command.Usage

/-!
# The program

The program appends links to the citation list of a directory.  A run is reported by
what it logs, the text on its two outputs, and its exit code: zero after a question or
a finished page, one after a failure, two after a refusal of the arguments, and 101
after a failure that is fatal.  The files are reached only while links are appended.
-/

namespace PostRun
namespace Command

/-- What is seen of a run of the program. -/
structure Report where
  code : Nat
  records : List Record
  output : String
  errors : String
  deriving DecidableEq

namespace Report

/-- The lines of the output that tell of a record. -/
def logLines (r : Report) : List String := r.records.map Record.heading

/-- All other text on the output: the further lines of records, and what is no record. -/
def plainOutput (r : Report) : String :=
  String.join ((r.records.flatMap Record.continuation).map (· ++ "\n")) ++ r.output

end Report

/-- The work on a citation list, with what is said before and behind it. -/
def announce (s : Settings) (work : Logged (Except Citation.Failure Nat)) :
    Logged (Except Citation.Failure Nat) := do
  Logged.say .info ("Adding eprint links to " ++ Citation.pagePath s.htmlDirectory)
  match ← work with
  | .error e => return .error e
  | .ok count => do
      Logged.say .info ("Appended " ++ toString count ++ " eprint links")
      return .ok count

/-- The report of the work that the settings ask for. -/
def Settings.report (s : Settings) (work : Logged (Except Citation.Failure Nat)) : Report :=
  let done := announce s work
  let shown := Logged.shown s.verbosity done.records
  match done.value with
  | .ok _ => ⟨0, shown, "", ""⟩
  | .error e =>
      if e.isFatal then ⟨101, shown, "", e.message ++ "\n"⟩
      else ⟨1, shown, "", "Error: " ++ e.detail ++ "\n"⟩

/-- The report of a run that ends at its arguments. -/
def Interruption.report : Interruption → Report
  | .help => ⟨0, [], helpText, ""⟩
  | .version => ⟨0, [], versionText, ""⟩
  | .refusal r => ⟨2, [], "", r.text⟩

/-- Runs the program. -/
def run {m : Type → Type} [Monad m] [Files.Access m] (arguments : List String) : m Report := do
  match readArguments arguments with
  | .error i => return i.report
  | .ok s => return s.report (← Citation.appendInDirectory s.htmlDirectory s.referencesFile)

end Command
end PostRun
