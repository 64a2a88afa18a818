import PostRun.Bib.Bibliography
import PostRun.Proofs.Attempts
import PostRun.Proofs.Bib.Fields

/-!
# Keys of a bibliography

A key is looked up in an index of places, which is built entry by entry.  Each entry is put under
all its keys, over what was there before.  So the entry that is found is the last one that is known
under the key (`Bibliography.IsIndexed`).  Only if there is none the own keys are compared once
more, this time up to the case of letters and from the front.

The index is made of the entries as they stand in the file.  What is done to their fields later
changes no place.
-/

namespace PostRun
namespace Bib

namespace Entry

/-- An entry is known under its key and its further keys. -/
def IsKnownAs (e : Entry) (key : String) : Prop := key ∈ e.key :: e.aliases

instance (e : Entry) (key : String) : Decidable (e.IsKnownAs key) :=
  inferInstanceAs (Decidable (key ∈ e.key :: e.aliases))

/-- The own key of an entry is a key up to the case of letters. -/
def HasKeyLike (e : Entry) (key : String) : Prop := Text.sameIgnoringCase e.key.toList key.toList

instance (e : Entry) (key : String) : Decidable (e.HasKeyLike key) :=
  inferInstanceAs (Decidable (Text.sameIgnoringCase e.key.toList key.toList = true))

end Entry

/-- The entry that a key stands for: the last one that is known under it, or if there is none, the
first one whose own key is the same up to the case of letters. -/
def StandsFor (entries : List Entry) (key : String) (e : Entry) : Prop :=
  (∃ before after, entries = before ++ e :: after ∧ e.IsKnownAs key ∧
    ∀ other ∈ after, ¬ other.IsKnownAs key) ∨
  ((∀ other ∈ entries, ¬ other.IsKnownAs key) ∧
    ∃ before after, entries = before ++ e :: after ∧ e.HasKeyLike key ∧
      ∀ other ∈ before, ¬ other.HasKeyLike key)

namespace Bibliography

/-! ## The index -/

/-- What is bound to a key is the place of the last entry that is known under it. -/
structure IsIndexed (b : Bibliography) : Prop where
  lt_size : ∀ key place, b.index.find? key = some place → place < b.entries.size
  get?_eq : ∀ key, b.get? key = b.entries.toList.reverse.find? fun e => e.IsKnownAs key

theorem isIndexed_empty : empty.IsIndexed where
  lt_size := by simp [empty]
  get?_eq := by simp [empty, get?]

theorem find?_foldl_insert (keys : List String) (place : Nat) (m : NameMap Nat) (key : String) :
    (keys.foldl (fun index key => index.insert key place) m).find? key =
      if key ∈ keys then some place else m.find? key := by
  induction keys generalizing m with
  | nil => simp
  | cons first keys ih =>
    rw [List.foldl_cons, ih, NameMap.find?_insert]
    by_cases hrest : key ∈ keys
    · simp [hrest]
    · by_cases hfirst : key = first <;> simp [hrest, hfirst]

/-- A new entry is found under all its keys, and the other keys stand for what they stood for. -/
theorem IsIndexed.add {b : Bibliography} (hb : b.IsIndexed) (e : Entry) : (b.add e).IsIndexed := by
  have hindex : ∀ key, (b.add e).index.find? key =
      if e.IsKnownAs key then some b.entries.size else b.index.find? key :=
    fun key => find?_foldl_insert (e.key :: e.aliases) b.entries.size b.index key
  have hentries : (b.add e).entries = b.entries.push e := rfl
  refine ⟨fun key place h => ?_, fun key => ?_⟩
  · rw [hindex] at h
    rw [hentries, Array.size_push]
    split_ifs at h
    · cases h
      exact Nat.lt_succ_self _
    · exact Nat.lt_succ_of_lt (hb.lt_size key place h)
  · rw [get?, hindex, hentries, Array.toList_push, List.reverse_concat, List.find?_cons]
    by_cases hknown : e.IsKnownAs key
    · simp [hknown]
    · have hold : (b.index.find? key).bind (fun place => (b.entries.push e)[place]?) =
          (b.index.find? key).bind fun place => b.entries[place]? := by
        cases hfind : b.index.find? key with
        | none => rfl
        | some place =>
          have hplace := hb.lt_size key place hfind
          rw [Option.bind_some, Option.bind_some, Array.getElem?_push, if_neg (Nat.ne_of_lt hplace)]
      rw [if_neg hknown, decide_eq_false hknown, hold]
      exact hb.get?_eq key

/-- The bibliography of a file, before its entries are completed. -/
def given (source : Source) : Except Failure Bibliography :=
  source.items.foldlM (addItem source.abbreviations) empty

/-- The entries that were read so far. -/
structure IsRead (abbreviations : List Field) (items : List Item) (b : Bibliography) : Prop where
  entries : List.Forall₂ (Entry.IsOf abbreviations) items b.entries.toList
  nodup_keys : (b.entries.toList.map Entry.key).Nodup
  isIndexed : b.IsIndexed

theorem isRead_empty (abbreviations : List Field) : empty.IsRead abbreviations [] where
  entries := .nil
  nodup_keys := .nil
  isIndexed := isIndexed_empty

/-- **One more item** adds its entry at the end, if it is accepted at all. -/
theorem IsRead.addItem {abbreviations : List Field} {items : List Item} {b b' : Bibliography}
    {item : Item} (hb : b.IsRead abbreviations items)
    (h : b.addItem abbreviations item = .ok b') : b'.IsRead abbreviations (items ++ [item]) := by
  rw [Bibliography.addItem] at h
  cases hfind : b.index.find? (String.ofList item.key) with
  | some place => simp [hfind, bind, Except.bind, throw, throwThe, MonadExceptOf.throw] at h
  | none =>
    rw [hfind, if_neg (by simp)] at h
    obtain ⟨e, hentry, h⟩ := bind_eq_ok_iff.1 h
    cases h
    have hof := Entry.isOf_of_ofItem hentry
    have hlist : (b.add e).entries.toList = b.entries.toList ++ [e] := Array.toList_push
    refine ⟨?_, ?_, hb.isIndexed.add e⟩
    · rw [hlist]
      exact List.rel_append hb.entries (.cons hof .nil)
    · -- a key that is bound to nothing is the key of no entry
      have hget : b.get? e.key = none := by rw [get?, hof.key, hfind, Option.bind_none]
      rw [hb.isIndexed.get?_eq, List.find?_eq_none] at hget
      rw [hlist, List.map_append, List.map_singleton, List.nodup_append]
      refine ⟨hb.nodup_keys, by simp, fun key hkey other hother heq => ?_⟩
      obtain ⟨entry, hmem, rfl⟩ := List.mem_map.1 hkey
      obtain rfl := List.mem_singleton.1 hother
      have hknown := hget entry (List.mem_reverse.2 hmem)
      simp [Entry.IsKnownAs, heq] at hknown

/-- **The entries of a file** are those of its items, in their order, each with a key of its own. -/
theorem isRead_of_given {source : Source} {b : Bibliography} (h : given source = .ok b) :
    b.IsRead source.abbreviations source.items :=
  foldlM_invariant (isRead_empty _) (fun _ _ _ _ => IsRead.addItem) h

/-- The stages in which a bibliography is read: the items of a file, their entries, and these
completed. -/
structure IsReadAs (text : String) (source : Source) (raw b : Bibliography) : Prop where
  parse : Source.parse text = .ok source
  given : Bibliography.given source = .ok raw
  completed : raw.completed = .ok b

theorem exists_isReadAs {text : String} {b : Bibliography} (h : parse text = .ok b) :
    ∃ source raw, IsReadAs text source raw b := by
  obtain ⟨source, hsource, h⟩ := bind_eq_ok_iff.1 h
  obtain ⟨raw, hraw, h⟩ := bind_eq_ok_iff.1 h
  exact ⟨source, raw, hsource, hraw, h⟩

/-! ## The entry that a key stands for -/

theorem find?_eq_or {b : Bibliography} (hb : b.IsIndexed) (key : String) :
    b.find? key = (b.entries.toList.reverse.find? fun e => e.IsKnownAs key).or
      (b.entries.toList.find? fun e => e.HasKeyLike key) := by
  have hlike : (fun e : Entry => Text.sameIgnoringCase e.key.toList key.toList) =
      fun e => decide (e.HasKeyLike key) := by
    funext e
    rw [Bool.eq_iff_iff, decide_eq_true_iff]
    exact Iff.rfl
  rw [find?, ← hb.get?_eq, hlike, ← Array.find?_toList]
  cases b.get? key <;> rfl

/-- **A key stands for the entry that is found.** -/
theorem find?_eq_some_iff {b : Bibliography} (hb : b.IsIndexed) {key : String} {e : Entry} :
    b.find? key = some e ↔ StandsFor b.entries.toList key e := by
  rw [find?_eq_or hb, Option.or_eq_some_iff, StandsFor]
  refine or_congr ?_ (and_congr ?_ ?_)
  · rw [List.find?_eq_some_iff_append]
    constructor
    · rintro ⟨hknown, after, before, hsplit, hafter⟩
      refine ⟨before.reverse, after.reverse, ?_, by simpa using hknown, by simpa using hafter⟩
      rw [← List.reverse_reverse b.entries.toList, hsplit]
      simp
    · rintro ⟨before, after, hsplit, hknown, hafter⟩
      refine ⟨by simpa using hknown, after.reverse, before.reverse, ?_, by simpa using hafter⟩
      simp [hsplit]
  · simp [List.find?_eq_none]
  · rw [List.find?_eq_some_iff_append]
    simp only [decide_eq_true_iff, Bool.not_eq_true', decide_eq_false_iff_not]
    constructor
    · rintro ⟨hlike, before, after, hsplit, hbefore⟩
      exact ⟨before, after, hsplit, hlike, hbefore⟩
    · rintro ⟨before, after, hsplit, hlike, hbefore⟩
      exact ⟨hlike, before, after, hsplit, hbefore⟩

theorem find?_eq_none_iff {b : Bibliography} (hb : b.IsIndexed) {key : String} :
    b.find? key = none ↔ ∀ e ∈ b.entries.toList, ¬ e.IsKnownAs key ∧ ¬ e.HasKeyLike key := by
  rw [find?_eq_or hb, Option.or_eq_none_iff, List.find?_eq_none, List.find?_eq_none]
  simp [forall_and]

end Bibliography
end Bib
end PostRun
