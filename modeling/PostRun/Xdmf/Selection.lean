import PostRun.Number.Notation
import PostRun.Xdmf.Failure

/-!
# Choosing observations

The observations of a run are those of its first file in order of time; every other
file has to hold observations of the same names.  Of these a window of time and a
stride choose the ones that are indexed.

## The window

An observation before the start is passed over, wherever it stands.  The first one of
the others that lies behind the stop ends the window, whatever follows it.  Values that
are not numbers lie neither before the start nor behind the stop.
-/

namespace PostRun
namespace Xdmf

/-- An observation of a run. -/
abbrev Snapshot := Volume.Observation Binary64

/-- Which observations to index. -/
structure Selection where
  start : Binary64
  stop : Binary64
  stride : Nat

namespace Selection

/-- Every observation from time zero on: the window ends at `1e300`. -/
def standard : Selection := ⟨.zero, ⟨0x7E37E43C8800759C⟩, 1⟩

/-- The observations that do not lie before the start. -/
def started (s : Selection) (observations : List Snapshot) : List Snapshot :=
  observations.filter fun o => !decide (o.value < s.start)

/-- Whether an observation does not lie behind the stop. -/
def reaches (s : Selection) (o : Snapshot) : Bool := !decide (s.stop < o.value)

/-- The observations in the window. -/
def window (s : Selection) (observations : List Snapshot) : List Snapshot :=
  (s.started observations).takeWhile s.reaches

/-- The observation that ends the window. -/
def stopper? (s : Selection) (observations : List Snapshot) : Option Snapshot :=
  ((s.started observations).dropWhile s.reaches).head?

/-- Every item at a distance of `stride` from the one before, the first `skip` items left out. -/
def everyFrom (stride : Nat) : Nat → List Snapshot → List Snapshot
  | _, [] => []
  | 0, o :: os => o :: everyFrom stride (stride - 1) os
  | skip + 1, _ :: os => everyFrom stride skip os

/-- The record of the end of a window. -/
def reportStop : Option Snapshot → Logged Unit
  | none => pure ()
  | some o => Logged.say .debug ("Stopping at " ++ o.name ++ " (t = " ++ o.value.plain ++ ")")

/-- The observations that are indexed, in their order. -/
def select (s : Selection) (observations : List Snapshot) :
    Logged (Except Failure (List Snapshot)) :=
  if s.stride = 0 then pure (.error .invalidStride)
  else do
    reportStop (s.stopper? observations)
    return .ok (everyFrom s.stride 0 (s.window observations))

end Selection

/-- Whether a file holds observations of exactly the given names. -/
def holdsExactly (names : List String) (file : Volume.File Binary64) : Bool :=
  file.observationNames.length == names.length && file.observationNames.all names.contains

/-- The observations of a run in order of time. -/
def observations : List (Volume.File Binary64) → Except Failure (List Snapshot)
  | [] => .error .noFiles
  | reference :: rest =>
      let found := reference.observations.mergeSort fun a b => a.value.totalLe b.value
      match rest.find? fun file => !holdsExactly (found.map (·.name)) file with
      | some file => .error (.mismatchedObservations file.path reference.path)
      | none => .ok found

end Xdmf
end PostRun
