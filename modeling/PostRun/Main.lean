import PostRun.Command.Program
import Std.Time.Format

/-!
# Running the program

The outermost layer: the files of the machine, the clock, and the two outputs.  All
that is decided about a run is decided in its report.
-/

namespace PostRun
namespace Command

/-- The number of an error of the machine, which comes with either sign. -/
def errorNumber (code : UInt32) : Nat := min code.toNat (0x100000000 - code.toNat)

/-- The number and the description that an error of the machine carries. -/
def systemError : IO.Error → Nat × String
  | .noFileOrDirectory _ code text => (errorNumber code, text)
  | .interrupted _ code text => (errorNumber code, text)
  | .alreadyExists _ code text => (errorNumber code, text)
  | .invalidArgument _ code text => (errorNumber code, text)
  | .permissionDenied _ code text => (errorNumber code, text)
  | .resourceExhausted _ code text => (errorNumber code, text)
  | .inappropriateType _ code text => (errorNumber code, text)
  | .noSuchThing _ code text => (errorNumber code, text)
  | .otherError code text => (errorNumber code, text)
  | .resourceBusy code text => (errorNumber code, text)
  | .resourceVanished code text => (errorNumber code, text)
  | .unsupportedOperation code text => (errorNumber code, text)
  | .hardwareFault code text => (errorNumber code, text)
  | .unsatisfiedConstraints code text => (errorNumber code, text)
  | .illegalOperation code text => (errorNumber code, text)
  | .protocolError code text => (errorNumber code, text)
  | .timeExpired code text => (errorNumber code, text)
  | .userError text => (0, text)
  | .unexpectedEof => (0, "unexpected end of file")

/-- Does something with the files of the machine. -/
def reachFiles {α : Type} (action : IO α) : IO (Except Files.IoError α) := do
  match ← action.toBaseIO with
  | .ok a => return .ok a
  | .error e => return .error (.ofCode (systemError e).1 (systemError e).2)

instance : Files.Access IO where
  readText path := return (← reachFiles (IO.FS.readBinFile path)) >>= Files.textOf
  writeText path text := reachFiles (IO.FS.writeFile path text)

/-- A record as a line of the log, behind the time of day. -/
def logLine (time : String) (r : Record) : String :=
  let level := r.level.name.pushn ' ' (5 - r.level.name.length)
  time ++ " " ++ level ++ " [" ++ programName ++ "] " ++ r.message

/-- Shows a report. -/
def Report.print (r : Report) : IO Unit := do
  unless r.records.isEmpty do
    let time := (← Std.Time.PlainDateTime.now).format "uuuu-MM-dd HH:mm:ss"
    r.records.forM fun record => IO.println (logLine time record)
  IO.print r.output
  IO.eprint r.errors

end Command
end PostRun

/-- Runs the program with the arguments of its command line. -/
def main (arguments : List String) : IO UInt32 := do
  let report ← PostRun.Command.run arguments
  report.print
  return report.code.toUInt32
