import PostRun.Volume.Observation

/-!
# Volume files

A volume file is a path and observations by name.  Reading it answers for one
observation at a time, and fails only for a name that is not there.

The listing of the datasets of an observation holds the three bookkeeping
datasets beside the components.  A component that bears one of their names is
listed too, so the listing may hold that name twice.
-/

namespace PostRun
namespace Volume

/-- A piece that is missing from a volume file. -/
inductive MissingPiece where
  | observation (path name : String)
  | dataset (path holder name : String)
  deriving DecidableEq

namespace MissingPiece

/-- The wording of a missing piece. -/
def message : MissingPiece → String
  | .observation path name => path ++ ": no observation '" ++ name ++ "'"
  | .dataset path holder name =>
      path ++ ": observation '" ++ holder ++ "' has no dataset '" ++ name ++ "'"

end MissingPiece

/-- A volume file held in memory. -/
structure File (α : Type u) where
  path : String
  contents : NameMap (ObservationData α)

namespace File

variable {α : Type u}

/-- A file without observations. -/
def ofPath (path : String) : File α := ⟨path, .empty⟩

/-- Stores an observation, in place of one of the same name. -/
def insert (f : File α) (name : String) (data : ObservationData α) : File α :=
  { f with contents := f.contents.insert name data }

/-- The names of the observations, ascending. -/
def observationNames (f : File α) : List String := f.contents.names

/-- The observations with their values, in the order of the names. -/
def observations (f : File α) : List (Observation α) :=
  f.contents.entries.map fun e => ⟨e.1, e.2.value⟩

/-- The data of an observation. -/
def observation (f : File α) (name : String) : Except MissingPiece (ObservationData α) :=
  match f.contents.find? name with
  | some d => .ok d
  | none => .error (.observation f.path name)

/-- The value of an observation. -/
def observationValue (f : File α) (name : String) : Except MissingPiece α :=
  (f.observation name).map (·.value)

/-- All datasets of an observation, sorted by name. -/
def datasetNames (f : File α) (name : String) : Except MissingPiece (List String) :=
  (f.observation name).map fun d =>
    (d.components.names ++ [connectivityName, gridNamesName, extentsName]).mergeSort
      fun a b => decide (a ≤ b)

/-- The datasets of an observation that belong to no mesh bookkeeping. -/
def tensorComponents (f : File α) (name : String) : Except MissingPiece (List String) :=
  (f.datasetNames name).map fun names => names.filter fun n => !isBookkeeping n

/-- The extents of all elements of an observation, flattened. -/
def extents (f : File α) (name : String) : Except MissingPiece (List Nat) :=
  (f.observation name).map (·.extents)

/-- The element names of an observation as one run of text. -/
def rawGridNames (f : File α) (name : String) : Except MissingPiece String :=
  (f.observation name).map fun d => joinGridNames d.gridNames

/-- The element names of an observation, in the order of their data. -/
def gridNames (f : File α) (name : String) : Except MissingPiece (List String) :=
  (f.rawGridNames name).map splitGridNames

/-- The values of one component of an observation. -/
def tensorComponent (f : File α) (name component : String) : Except MissingPiece (List α) :=
  match f.observation name with
  | .error e => .error e
  | .ok d =>
      match d.components.find? component with
      | some values => .ok values
      | none => .error (.dataset f.path name component)

/-- The listing goes through the names. -/
theorem map_name_observations (f : File α) :
    f.observations.map (·.name) = f.observationNames := by
  simp [observations, observationNames, NameMap.names]

@[simp] theorem observationNames_ofPath (path : String) :
    (ofPath path : File α).observationNames = [] := rfl

@[simp] theorem insert_path (f : File α) (name : String) (d : ObservationData α) :
    (f.insert name d).path = f.path := rfl

end File
end Volume
end PostRun
