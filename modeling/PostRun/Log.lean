import PostRun.Text.Pieces

/-!
# Log records

Work that reports its progress returns its records beside its value, as a
`Logged` value, in the order in which they arose.  Nothing is dropped while the
work runs: a verbosity decides afterwards which records are shown.

A computation that can fail is a `Logged (Except ε α)`: the records made before
the failure are kept.
-/

namespace PostRun

/-- How much a record matters. -/
inductive Level where
  | warn
  | info
  | debug
  | trace
  deriving DecidableEq

namespace Level

/-- The name of a level. -/
def name : Level → String
  | warn => "WARN"
  | info => "INFO"
  | debug => "DEBUG"
  | trace => "TRACE"

/-- The place of a level, the most important first. -/
def rank : Level → Nat
  | warn => 0
  | info => 1
  | debug => 2
  | trace => 3

/-- The lowest level shown when the verbosity flag is given so often. -/
def ofVerbosity : Nat → Level
  | 0 => warn
  | 1 => info
  | 2 => debug
  | _ => trace

/-- Whether a threshold shows records of a level. -/
def shows (threshold level : Level) : Bool := level.rank ≤ threshold.rank

end Level

/-- Why a log could not be set up. -/
inductive SetupError where
  | alreadyInstalled
  deriving DecidableEq

namespace SetupError

/-- The wording of a failed set-up. -/
def message : SetupError → String
  | alreadyInstalled =>
      "attempted to set a logger after the logging system was already initialized"

end SetupError

/-- Sets up the log of a process for a verbosity.  A process has one log, and the first one
stays. -/
def install (installed : Option Level) (verbosity : Nat) : Except SetupError Level :=
  match installed with
  | none => .ok (.ofVerbosity verbosity)
  | some _ => .error .alreadyInstalled

/-- An entry of the log: how much it matters, and its message, which may have several lines. -/
structure Record where
  level : Level
  message : String
  deriving DecidableEq

namespace Record

/-- A record as it is listed: its level, then its message. -/
def line (r : Record) : String := r.level.name ++ " " ++ r.message

/-- The lines of a message. -/
def messageLines (r : Record) : List String :=
  (Text.pieces '\n' r.message.toList).map String.ofList

/-- A record as it is known by its first line. -/
def heading (r : Record) : String := r.level.name ++ " " ++ r.messageLines.headD ""

/-- The lines of a record behind the first one, which carry no level. -/
def continuation (r : Record) : List String := r.messageLines.tail

end Record

/-- A value and the records made on the way to it. -/
structure Logged (α : Type u) where
  records : List Record
  value : α

namespace Logged

/-- Runs the second step after the first and keeps the records of both. -/
protected def bind {α : Type u} {β : Type v} (x : Logged α) (f : α → Logged β) : Logged β :=
  let y := f x.value
  ⟨x.records ++ y.records, y.value⟩

instance : Monad Logged where
  map f x := ⟨x.records, f x.value⟩
  pure a := ⟨[], a⟩
  bind := Logged.bind

/-- Makes one record. -/
def say (level : Level) (message : String) : Logged Unit := ⟨[⟨level, message⟩], ()⟩

/-- The records that a verbosity shows. -/
def shown (verbosity : Nat) (records : List Record) : List Record :=
  records.filter fun r => (Level.ofVerbosity verbosity).shows r.level

@[simp] theorem pure_value {α : Type u} (a : α) : (pure a : Logged α).value = a := rfl

@[simp] theorem pure_records {α : Type u} (a : α) : (pure a : Logged α).records = [] := rfl

@[simp] theorem map_value {α β : Type u} (f : α → β) (x : Logged α) :
    (f <$> x).value = f x.value := rfl

@[simp] theorem map_records {α β : Type u} (f : α → β) (x : Logged α) :
    (f <$> x).records = x.records := rfl

@[simp] theorem bind_value {α β : Type u} (x : Logged α) (f : α → Logged β) :
    (x >>= f).value = (f x.value).value := rfl

@[simp] theorem bind_records {α β : Type u} (x : Logged α) (f : α → Logged β) :
    (x >>= f).records = x.records ++ (f x.value).records := rfl

instance : LawfulMonad Logged where
  map_const := rfl
  id_map x := by simp [Functor.map]
  seqLeft_eq x y := by
    simp [SeqLeft.seqLeft, Seq.seq, Functor.map, Logged.bind]
  seqRight_eq x y := by
    simp [SeqRight.seqRight, Seq.seq, Functor.map, Logged.bind, Function.const]
  pure_seq f x := by simp [Seq.seq, Functor.map, Logged.bind, pure]
  bind_pure_comp f x := by simp [bind, Functor.map, Logged.bind, pure]
  bind_map f x := by simp [Seq.seq, bind, Functor.map, Logged.bind]
  pure_bind a f := by simp [bind, pure, Logged.bind]
  bind_assoc x f g := by simp [bind, Logged.bind, List.append_assoc]

/-- Work for a list of things gives the list of its results. -/
theorem mapM_value {α β : Type} (f : α → Logged β) (l : List α) :
    (l.mapM f).value = l.map fun a => (f a).value := by
  induction l with
  | nil => rfl
  | cons a l ih =>
    rw [List.mapM_cons, Logged.bind_value, Logged.bind_value, ih]
    rfl

end Logged
end PostRun
