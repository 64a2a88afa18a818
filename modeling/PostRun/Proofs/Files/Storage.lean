import PostRun.Files.Access

/-!
# File systems as states

The programs reach a file system by two calls only, so little has to be said of what it is: files
that are told apart somehow, each with its bytes, and paths that lead to them.  Two paths may lead
to one file.

What the calls are relied on for is stated once, in `Storage`.  Reading changes nothing.  Writing is
all or nothing: if it fails nothing has changed, and if it succeeds the file at the path holds the
text and no other file has changed.  Nothing is said of when a call fails, so a medium that cannot
be written is a `Storage` as well.

A file tree is one: its files are told apart by their places, and what is written at a place is
found there and nowhere else.
-/

namespace PostRun
namespace Files

section Calls

variable {σ : Type} [Access (StateM σ)]

/-- What reading a path gives, and the state behind it. -/
def reading (s : σ) (path : String) : Except IoError String × σ :=
  (readText path : StateM σ (Except IoError String)).run s

/-- What writing a path gives, and the state behind it. -/
def writing (s : σ) (path text : String) : Except IoError Unit × σ :=
  (writeText path text : StateM σ (Except IoError Unit)).run s

end Calls

/-- The text of a file is what it holds in UTF-8. -/
theorem eq_toUTF8_of_textOf {bytes : ByteArray} {text : String} (h : textOf bytes = .ok text) :
    bytes = text.toUTF8 := by
  unfold textOf String.fromUTF8? at h
  split at h
  · next hsome =>
    split at hsome
    · cases hsome
      cases h
      rfl
    · cases hsome
  · cases h

/-- A file system as the programs rely on it. -/
class Storage (σ : Type) [Access (StateM σ)] where
  /-- What tells files apart. -/
  File : Type
  /-- The bytes of a file, if it is there. -/
  bytes? : σ → File → Option ByteArray
  /-- The file that a path leads to, whether or not it is there. -/
  fileAt? : σ → String → Option File
  /-- Reading changes nothing. -/
  snd_reading (s : σ) (path : String) : (reading s path).2 = s
  /-- Text that was read is what the file at the path holds. -/
  of_reading {s : σ} {path text : String} : (reading s path).1 = .ok text →
    ∃ file bytes, fileAt? s path = some file ∧ bytes? s file = some bytes ∧ textOf bytes = .ok text
  /-- A write that fails changes nothing. -/
  writing_of_error {s t : σ} {path text : String} {e : IoError} :
    writing s path text = (.error e, t) → t = s
  /-- A write that succeeds changes one file, which holds the text from then on. -/
  writing_of_ok {s t : σ} {path text : String} : writing s path text = (.ok (), t) →
    ∃ file, fileAt? s path = some file ∧ bytes? t file = some text.toUTF8 ∧
      ∀ other, other ≠ file → bytes? t other = bytes? s other

namespace Tree

/-- The bytes of the file at a place, which is written as one text. -/
def bytesAt? (t : Tree) (place : String) : Option ByteArray :=
  match t.contents.find? place with
  | some (.file bytes) => some bytes
  | _ => none

/-- The place that a path leads to, as one text. -/
def placeText? (t : Tree) (path : String) : Option String :=
  match t.place path with
  | .ok here => some (Place.text here)
  | .error _ => none

/-- What is at a place other than the root is what is kept under its text. -/
theorem bytesAt?_of_at? {t : Tree} {here : Place} {bytes : ByteArray}
    (h : t.at? here = some (.file bytes)) : t.bytesAt? (Place.text here) = some bytes := by
  cases here with
  | nil => cases h
  | cons name above =>
    have hfound : t.contents.find? (Place.text (name :: above)) = some (.file bytes) := h
    rw [bytesAt?, hfound]

/-- Text is read from the file at the place that the path leads to. -/
theorem exists_of_readText {t : Tree} {path text : String} (h : t.readText path = .ok text) :
    ∃ place bytes, t.placeText? path = some place ∧ t.bytesAt? place = some bytes ∧
      textOf bytes = .ok text := by
  cases hplace : t.place path with
  | error e => simp [readText, readBytes, lookup, hplace, bind, Except.bind] at h
  | ok here =>
    rcases hat : t.at? here with _ | ⟨bytes⟩ | _
    · simp [readText, readBytes, lookup, hplace, hat, bind, Except.bind, throw, throwThe,
        MonadExceptOf.throw] at h
    · have htext : textOf bytes = .ok text := by
        simpa [readText, readBytes, lookup, hplace, hat, bind, Except.bind, pure, Except.pure]
          using h
      exact ⟨Place.text here, bytes, by rw [placeText?, hplace], bytesAt?_of_at? hat, htext⟩
    · simp [readText, readBytes, lookup, hplace, hat, bind, Except.bind, pure, Except.pure, throw,
        throwThe, MonadExceptOf.throw] at h

/-- A tree in which text was written. -/
theorem exists_of_writeText {t u : Tree} {path text : String} (h : t.writeText path text = .ok u) :
    ∃ place, t.placeText? path = some place ∧
      u = ⟨t.contents.insert place (.file text.toUTF8)⟩ := by
  cases hplace : t.place path with
  | error e => simp [writeText, writeBytes, hplace, bind, Except.bind] at h
  | ok here =>
    refine ⟨Place.text here, by rw [placeText?, hplace], ?_⟩
    rcases hat : t.at? here with _ | ⟨bytes⟩ | _ <;>
      simp [writeText, writeBytes, hplace, hat, bind, Except.bind, pure, Except.pure, throw,
        throwThe, MonadExceptOf.throw] at h
    · exact h.symm
    · exact h.symm

/-- What is written at a place is found there. -/
theorem bytesAt?_insert_self (t : Tree) (place : String) (bytes : ByteArray) :
    (Tree.mk (t.contents.insert place (.file bytes))).bytesAt? place = some bytes := by
  rw [bytesAt?, NameMap.find?_insert, if_pos rfl]

/-- What is written at a place is found nowhere else. -/
theorem bytesAt?_insert_of_ne {other place : String} (h : other ≠ place) (t : Tree)
    (bytes : ByteArray) :
    (Tree.mk (t.contents.insert place (.file bytes))).bytesAt? other = t.bytesAt? other := by
  rw [bytesAt?, NameMap.find?_insert, if_neg h, bytesAt?]

theorem writing_eq (t : Tree) (path text : String) : writing t path text = t.store path text := rfl

instance : Storage Tree where
  File := String
  bytes? := bytesAt?
  fileAt? := placeText?
  snd_reading _ _ := rfl
  of_reading := by
    intro t path text h
    exact exists_of_readText h
  writing_of_error := by
    intro t u path text e h
    rw [writing_eq] at h
    cases hwrite : t.writeText path text with
    | error e' =>
      rw [store_of_error hwrite] at h
      exact (congrArg Prod.snd h).symm
    | ok v =>
      rw [store_of_ok hwrite] at h
      cases h
  writing_of_ok := by
    intro t u path text h
    rw [writing_eq] at h
    cases hwrite : t.writeText path text with
    | error e =>
      rw [store_of_error hwrite] at h
      cases h
    | ok v =>
      rw [store_of_ok hwrite] at h
      obtain rfl : v = u := congrArg Prod.snd h
      obtain ⟨place, hplace, rfl⟩ := exists_of_writeText hwrite
      exact ⟨place, hplace, t.bytesAt?_insert_self place _,
        fun other hne => bytesAt?_insert_of_ne hne t _⟩

end Tree
end Files
end PostRun
