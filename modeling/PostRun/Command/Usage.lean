import PostRun.Command.Arguments

/-!
# How the program is used

The texts that explain the program: its help, its version, and what is said when
arguments are refused.
-/

namespace PostRun
namespace Command

/-- The name of the program. -/
def programName : String := "postprocess-docs"

/-- The version of the program. -/
def versionText : String := "simtools 0.1.0\n"

/-- How a flag is written. -/
def Flag.spelled : Flag → String
  | .htmlDir => "--html-dir <HTML_DIR>"
  | .referencesFile => "--references-file <REFERENCES_FILE>"
  | flag => "--" ++ flag.long

/-- Flags in a row, a blank before each. -/
def spelledInRow (flags : List Flag) : String :=
  String.join (flags.map fun flag => " " ++ flag.spelled)

/-- The program with all that it can be told. -/
def generalLine : String := programName ++ " [OPTIONS]" ++ spelledInRow Flag.required

/-- The program with the flags that were used, those that have to be given first. -/
def usedLine (used : List Flag) : String :=
  programName ++
    spelledInRow (Flag.required ++ (used.filter fun f => !f.takesValue).eraseDups)

/-- How the program is used, for flags that were used already. -/
def usageLine (used : List Flag) : String := if used.isEmpty then generalLine else usedLine used

/-- A line of usage under its title. -/
def titled (line : String) : String := "USAGE:\n    " ++ line

/-- The help of the program. -/
def helpText : String :=
  versionText ++
    "Post-process the generated documentation: append arXiv links to the entries of the " ++
    "citation list\n\n" ++ titled generalLine ++ "\n\nOPTIONS:\n" ++
    "    -h, --help                                 Print help information\n" ++
    "        --html-dir <HTML_DIR>                  Directory holding the generated HTML pages\n" ++
    "        --references-file <REFERENCES_FILE>    BibTeX file the citations were generated " ++
    "from\n" ++
    "    -v, --verbose                              Log more (repeat for even more)\n" ++
    "    -V, --version                              Print version information\n"

namespace Refusal

/-- The wording of an argument that was not expected. -/
def unexpectedText (argument : String) (likest : Option Flag) : String :=
  let suggestion := match likest with
    | some flag => "\n\n\tDid you mean '--" ++ flag.long ++ "'?"
    | none => ""
  let hint :=
    if argument.toList.head? = some '-' then
      "\n\n\tIf you tried to supply `" ++ argument ++ "` as a value rather than a flag, use `-- " ++
        argument ++ "`"
    else ""
  "Found argument '" ++ argument ++ "' which wasn't expected, or isn't valid in this context" ++
    suggestion ++ hint

/-- What is said of the cause of a refusal. -/
def cause : Refusal → String
  | unexpectedValue argument => unexpectedText argument none
  | unexpectedLetter letter => unexpectedText (String.ofList ['-', letter]) none
  | unexpectedName name likest _ => unexpectedText ("--" ++ name) likest
  | unneededValue flag value _ =>
      "The value '" ++ value ++ "' was provided to '" ++ flag.spelled ++
        "' but it wasn't expecting any more values"
  | valueMissing flag =>
      "The argument '" ++ flag.spelled ++ "' requires a value but none was supplied"
  | missing flags _ =>
      "The following required arguments were not provided:" ++
        String.join (flags.map fun flag => "\n    " ++ flag.spelled)
  | repeated flag =>
      "The argument '" ++ flag.spelled ++
        "' was provided more than once, but cannot be used multiple times"

/-- How the program is used, as it is said behind the cause of a refusal. -/
def usage? : Refusal → Option String
  | unexpectedValue _ | unexpectedLetter _ | repeated _ => some (titled generalLine)
  | unexpectedName _ _ used | missing _ used => some (titled (usageLine used))
  | unneededValue _ _ used => some (usageLine used)
  | valueMissing _ => none

/-- The text of a refusal. -/
def text (r : Refusal) : String :=
  let usage := match r.usage? with
    | some u => "\n\n" ++ u
    | none => ""
  "error: " ++ r.cause ++ usage ++ "\n\nFor more information try --help\n"

end Refusal
end Command
end PostRun
