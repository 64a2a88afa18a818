import PostRun.Files.Discovery
import PostRun.Volume.File

/-!
# Failures to index volume files

What can go wrong between a file pattern and a written index, with the wording of each
failure and the failure below it, if there is one.
-/

namespace PostRun
namespace Xdmf

/-- Why volume files could not be indexed. -/
inductive Failure where
  | io (path : String) (error : Files.IoError)
  | noVolumeFiles (stem : String)
  | noFiles
  | pattern (error : Files.PatternError)
  | mismatchedObservations (path reference : String)
  | malformedExtents (path observation : String) (count : Nat)
  | invalidStride
  | missing (piece : Volume.MissingPiece)
  deriving DecidableEq

namespace Failure

/-- The wording of a failure. -/
def message : Failure → String
  | io path e => path ++ ": " ++ e.message
  | noVolumeFiles stem => "no volume files match '" ++ stem ++ "*.h5'"
  | noFiles => "no volume files were given"
  | pattern e => "invalid file pattern: " ++ e.message
  | mismatchedObservations path reference =>
      path ++ " does not hold the same observations as " ++ reference
  | malformedExtents path name count =>
      path ++ ": observation '" ++ name ++ "' has " ++ toString count ++
        " extents, which is not a multiple of 3"
  | invalidStride => "the stride must be at least 1"
  | missing p => p.message

/-- The wording of the failure that lies below another one. -/
def source? : Failure → Option String
  | io _ e => some e.message
  | pattern e => some e.message
  | missing p => some p.message
  | _ => none

end Failure
end Xdmf
end PostRun
