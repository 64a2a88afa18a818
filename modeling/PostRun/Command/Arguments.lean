import PostRun.Text.Similarity

/-!
# Arguments

The program is told a directory and a bibliography file, and how much to log.  Reading
the arguments ends in settings, in a question to answer (how the program is used, or
which version it is), or in a refusal.

## Order of refusals

A question or an argument that is not known ends the reading where it stands.  What is
missing or given too often is only found at the end: first an option at the very end
without its value, then options that are not given at all, then for every option in the
order of its first use a missing value and a second use.
-/

namespace PostRun
namespace Command

/-- What can be said in an argument. -/
inductive Flag where
  | htmlDir
  | referencesFile
  | verbose
  | help
  | version
  deriving DecidableEq

namespace Flag

/-- All flags: the two that every program has, and then those of this one. -/
def all : List Flag := [help, version, htmlDir, referencesFile, verbose]

/-- The flags that have to be given. -/
def required : List Flag := [htmlDir, referencesFile]

/-- The long name of a flag. -/
def long : Flag → String
  | htmlDir => "html-dir"
  | referencesFile => "references-file"
  | verbose => "verbose"
  | help => "help"
  | version => "version"

/-- The flag of one letter. -/
def ofLetter? : Char → Option Flag
  | 'v' => some verbose
  | 'h' => some help
  | 'V' => some version
  | _ => none

/-- Whether a flag is followed by a value. -/
def takesValue (f : Flag) : Bool := required.contains f

/-- The flag of a long name. -/
def ofLong? (name : String) : Option Flag := all.find? fun f => f.long = name

/-- The flag whose long name is most like a name that is not known.  Of equals it is the last one,
so a flag of this program goes before one that every program has. -/
def likest? (name : String) : Option Flag :=
  (Text.likest? name.toList (all.map fun f => f.long.toList)).bind fun w =>
    ofLong? (String.ofList w)

end Flag

/-- Why arguments are refused.  The flags at the end of a cause are those used before; where a value
is not needed, only those that take none. -/
inductive Refusal where
  | unexpectedValue (argument : String)
  | unexpectedLetter (letter : Char)
  | unexpectedName (name : String) (likest : Option Flag) (used : List Flag)
  | unneededValue (flag : Flag) (value : String) (used : List Flag)
  | valueMissing (flag : Flag)
  | missing (flags : List Flag) (used : List Flag)
  | repeated (flag : Flag)
  deriving DecidableEq

/-- What ends the reading of arguments before their end. -/
inductive Interruption where
  | help
  | version
  | refusal (cause : Refusal)
  deriving DecidableEq

/-- A use of a flag, with its value if it has one. -/
structure Use where
  flag : Flag
  value : Option String
  deriving DecidableEq

/-- What was read: the uses in order, the option that waits for its value, and whether only values
can follow. -/
structure Reading where
  uses : List Use
  waiting : Option Flag
  valuesOnly : Bool
  deriving DecidableEq

namespace Reading

/-- Nothing read yet. -/
def start : Reading := ⟨[], none, false⟩

/-- Notes a use. -/
def note (r : Reading) (flag : Flag) (value : Option String) : Reading :=
  { r with uses := r.uses ++ [⟨flag, value⟩] }

/-- Notes the waiting option as used without a value. -/
def settle (r : Reading) : Reading :=
  match r.waiting with
  | none => r
  | some flag => { r.note flag none with waiting := none }

/-- The flags used so far. -/
def used (r : Reading) : List Flag := r.settle.uses.map (·.flag)

/-- Reads a flag without a value. -/
def readSwitch (r : Reading) : Flag → Except Interruption Reading
  | .help => .error .help
  | .version => .error .version
  | flag => .ok (r.settle.note flag none)

/-- Reads a flag by its long name. -/
def readLong (r : Reading) (name : String) (value : Option String) :
    Except Interruption Reading :=
  match Flag.ofLong? name with
  | none =>
      let likest := Flag.likest? name
      .error (.refusal (.unexpectedName name likest (r.used ++ likest.toList)))
  | some flag =>
      if flag.takesValue then
        match value with
        | some v => .ok (r.settle.note flag (some v))
        | none => .ok { r.settle with waiting := some flag }
      else
        match value with
        | some v => .error (.refusal (.unneededValue flag v (r.used.filter fun f => !f.takesValue)))
        | none => r.readSwitch flag

/-- Reads flags of one letter each. -/
def readLetters : Reading → List Char → Except Interruption Reading
  | r, [] => .ok r
  | r, c :: cs =>
      match Flag.ofLetter? c with
      | none => .error (.refusal (.unexpectedLetter c))
      | some flag => do (← r.readSwitch flag).readLetters cs

/-- A long name cut at its first equals sign. -/
def cutAtEquals (cs : List Char) : String × Option String :=
  match cs.dropWhile (· != '=') with
  | [] => (String.ofList cs, none)
  | _ :: value => (String.ofList (cs.takeWhile (· != '=')), some (String.ofList value))

/-- Reads a value, for the option that waits for one. -/
def readValue (r : Reading) (argument : String) : Except Interruption Reading :=
  match r.waiting, r.valuesOnly with
  | some flag, false => .ok { r.note flag (some argument) with waiting := none }
  | _, _ => .error (.refusal (.unexpectedValue argument))

/-- Reads an argument. -/
def readArgument (r : Reading) (argument : String) : Except Interruption Reading :=
  if r.valuesOnly then r.readValue argument
  else
    match argument.toList with
    | ['-', '-'] => .ok { r with valuesOnly := true }
    | '-' :: '-' :: cs => r.readLong (cutAtEquals cs).1 (cutAtEquals cs).2
    | '-' :: c :: cs => r.readLetters (c :: cs)
    | _ => r.readValue argument

/-- The values that a flag was given. -/
def valuesOf (r : Reading) (flag : Flag) : List (Option String) :=
  (r.uses.filter fun u => u.flag = flag).map (·.value)

/-- Whether a flag was given a value. -/
def hasValue (r : Reading) (flag : Flag) : Bool := (r.valuesOf flag).any Option.isSome

/-- What is wrong with the uses of an option. -/
def defect? (r : Reading) (flag : Flag) : Option Refusal :=
  if !flag.takesValue then none
  else if !r.hasValue flag then some (.valueMissing flag)
  else if 1 < (r.valuesOf flag).length then some (.repeated flag)
  else none

/-- Why the arguments are refused at their end. -/
def refusal? (r : Reading) : Option Refusal :=
  match r.waiting.filter fun flag => !r.hasValue flag with
  | some flag => some (.valueMissing flag)
  | none =>
      match Flag.required.filter fun flag => !r.used.contains flag with
      | [] => r.used.findSome? r.settle.defect?
      | flags => some (.missing flags r.used)

end Reading

/-- What the program is told. -/
structure Settings where
  htmlDirectory : String
  referencesFile : String
  verbosity : Nat
  deriving DecidableEq

namespace Reading

/-- The value of an option, the empty text if it has none. -/
def valueOf (r : Reading) (flag : Flag) : String := ((r.valuesOf flag).findSome? id).getD ""

/-- The settings at the end of the arguments.  The verbosity is kept in a byte. -/
def settings (r : Reading) : Except Interruption Settings :=
  match r.refusal? with
  | some cause => .error (.refusal cause)
  | none =>
      .ok ⟨r.valueOf .htmlDir, r.valueOf .referencesFile, (r.valuesOf .verbose).length % 256⟩

end Reading

/-- Reads all arguments. -/
def readArguments (arguments : List String) : Except Interruption Settings :=
  arguments.foldlM Reading.readArgument .start >>= Reading.settings

end Command
end PostRun
