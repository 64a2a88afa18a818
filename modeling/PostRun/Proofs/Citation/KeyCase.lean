import PostRun.Proofs.Citation.Lookup

/-!
# Citation keys in any case of letters

A citation key is looked up exactly at first, among the keys and the further keys of all entries.
Only then the case of letters is disregarded, and this second look is at the keys of the entries
alone.  So whether a key stands for an entry does not depend on its case as far as keys of entries
go (`Link.misses_iff`), but a further key has to be met exactly.

The question of when the case of a key makes no difference in a file therefore comes down to its
further keys.  Each has to be the key of some entry up to case, or else has to be given in every
case that it can be written in (`Link.finds_in_any_case_iff`).
-/

namespace PostRun
namespace Citation
namespace Link

open Bib

/-- A key stands for no entry. -/
def Misses (b : Bibliography) (key : String) : Prop := ∃ other, find b key = .error other

/-- Two keys have the same letters, in whatever case. -/
def SameLetters (key key' : String) : Prop := Text.sameIgnoringCase key.toList key'.toList

instance (key key' : String) : Decidable (SameLetters key key') :=
  inferInstanceAs (Decidable (Text.sameIgnoringCase key.toList key'.toList = true))

theorem SameLetters.symm {key key' : String} (h : SameLetters key key') : SameLetters key' key := by
  rw [SameLetters, Text.sameIgnoringCase_comm]
  exact h

/-- The key of some entry is the same up to the case of letters. -/
def IsKeyOfSome (entries : List Entry) (key : String) : Prop := ∃ e ∈ entries, e.HasKeyLike key

/-- Some entry is known under a further key. -/
def IsAliasOfSome (entries : List Entry) (key : String) : Prop := ∃ e ∈ entries, key ∈ e.aliases

theorem isKeyOfSome_congr {entries : List Entry} {key key' : String} (h : SameLetters key key') :
    IsKeyOfSome entries key ↔ IsKeyOfSome entries key' := by
  have heq : Text.lower key.toList = Text.lower key'.toList := Text.sameIgnoringCase_iff.1 h
  refine exists_congr fun e => and_congr_right fun _ => ?_
  rw [Entry.HasKeyLike, Entry.HasKeyLike, Text.sameIgnoringCase_iff, Text.sameIgnoringCase_iff, heq]

section Stages

variable {text : String} {source : Source} {given b : Bibliography}

/-- **A key stands for no entry** if no entry has its letters for a key and none has it for a
further key. -/
theorem misses_iff (h : Bibliography.IsReadAs text source given b) (key : String) :
    Misses b key ↔
      ¬ IsKeyOfSome given.entries.toList key ∧ ¬ IsAliasOfSome given.entries.toList key := by
  have hindexed := (Bibliography.isRead_of_given h.given).isIndexed
  have hself : ∀ e : Entry, ¬ e.IsKnownAs key ∧ ¬ e.HasKeyLike key ↔
      ¬ e.HasKeyLike key ∧ key ∉ e.aliases := by
    intro e
    have hown : key = e.key → e.HasKeyLike key := by
      rintro rfl
      exact Text.sameIgnoringCase_iff.2 rfl
    rw [Entry.IsKnownAs, List.mem_cons]
    tauto
  simp only [Misses, find_eq_error_iff h, exists_eq_left, Bibliography.find?_eq_none_iff hindexed,
    hself, IsKeyOfSome, IsAliasOfSome, not_exists, not_and, ← forall₂_and]

/-- The case of letters makes a difference to a key only if it is a further key in one of two
cases, and no key of an entry in either. -/
theorem misses_congr_iff (h : Bibliography.IsReadAs text source given b) {key key' : String}
    (hlike : SameLetters key key') :
    (Misses b key ↔ Misses b key') ↔ IsKeyOfSome given.entries.toList key ∨
      (IsAliasOfSome given.entries.toList key ↔ IsAliasOfSome given.entries.toList key') := by
  rw [misses_iff h, misses_iff h, ← isKeyOfSome_congr hlike]
  tauto

/-- The case of letters never makes a difference if every further key is the key of an entry up to
case, or a further key in every case. -/
theorem forall_misses_congr_iff (h : Bibliography.IsReadAs text source given b) :
    (∀ key key', SameLetters key key' → (Misses b key ↔ Misses b key')) ↔
      ∀ key, IsAliasOfSome given.entries.toList key → IsKeyOfSome given.entries.toList key ∨
        ∀ key', SameLetters key key' → IsAliasOfSome given.entries.toList key' := by
  constructor
  · intro hall key halias
    by_cases hkey : IsKeyOfSome given.entries.toList key
    · exact .inl hkey
    · refine .inr fun key' hlike => ?_
      rcases (misses_congr_iff h hlike).1 (hall key key' hlike) with hown | hiff
      · exact absurd hown hkey
      · exact hiff.1 halias
  · intro hall key key' hlike
    refine (misses_congr_iff h hlike).2 (or_iff_not_imp_left.2 fun hkey => ⟨?_, ?_⟩)
    · exact fun halias => (hall key halias).resolve_left hkey key' hlike
    · intro halias
      have hkey' := mt (isKeyOfSome_congr hlike).2 hkey
      exact (hall key' halias).resolve_left hkey' key hlike.symm

end Stages

/-- **When a key is found in any case of letters.**

* A key stands for an entry exactly if some entry has its letters for a key, or has just it for a
  further key.  So the keys of the entries are found in any case.
* Two keys that differ in case alone are answered differently, the one with an entry and the other
  with an error, exactly if they are the key of no entry and just one of them is a further key.
* So the case never makes a difference in a file exactly if each of its further keys is the key of
  an entry up to case, or is given in every case. -/
theorem finds_in_any_case_iff {text : String} {b : Bibliography}
    (h : Bibliography.parse text = .ok b) :
    ∃ source given, Bibliography.IsReadAs text source given b ∧
      given.IsRead source.abbreviations source.items ∧
      (∀ key, Misses b key ↔
        ¬ IsKeyOfSome given.entries.toList key ∧ ¬ IsAliasOfSome given.entries.toList key) ∧
      (∀ key key', SameLetters key key' → ((Misses b key ↔ Misses b key') ↔
        IsKeyOfSome given.entries.toList key ∨
          (IsAliasOfSome given.entries.toList key ↔ IsAliasOfSome given.entries.toList key'))) ∧
      ((∀ key key', SameLetters key key' → (Misses b key ↔ Misses b key')) ↔
        ∀ key, IsAliasOfSome given.entries.toList key → IsKeyOfSome given.entries.toList key ∨
          ∀ key', SameLetters key key' → IsAliasOfSome given.entries.toList key') := by
  obtain ⟨source, given, hread⟩ := Bibliography.exists_isReadAs h
  exact ⟨source, given, hread, Bibliography.isRead_of_given hread.given, misses_iff hread,
    fun _ _ => misses_congr_iff hread, forall_misses_congr_iff hread⟩

/-- A file of one entry, which has a further key. -/
def withAlias : String := "@misc\x7bA, ids=\x7bB\x7d\x7d"

/-- The items of that file. -/
def withAliasItems : Source where
  items := [⟨"misc".toList, "A".toList, [⟨"ids".toList, [.text "B".toList 14]⟩], ⟨0, 16⟩⟩]
  abbreviations := []

theorem map_parse_withAlias :
    (Bibliography.parse withAlias).map (fun b => (find b "B", find b "b")) =
      .ok (.ok none, .error "b") := by
  have hparse : Source.parse withAlias = .ok withAliasItems := by decide +kernel
  rw [Bibliography.parse, hparse]
  simp only [bind, Except.bind, Bibliography.ofSource, withAliasItems, List.foldlM_cons,
    List.foldlM_nil, Bibliography.addItem, Entry.ofItem, Entry.readFields, ofValue_text]
  decide +kernel

/-- **A further key in another case** is an error. -/
theorem finds_in_any_case_iff_withAlias :
    ∃ b source given, Bibliography.parse withAlias = .ok b ∧
      Bibliography.IsReadAs withAlias source given b ∧
      find b "B" = .ok none ∧ find b "b" = .error "b" ∧ SameLetters "B" "b" ∧
      IsAliasOfSome given.entries.toList "B" ∧ ¬ IsKeyOfSome given.entries.toList "B" ∧
      ¬ IsAliasOfSome given.entries.toList "b" := by
  obtain ⟨b, hb, hfind⟩ := map_eq_ok_iff.1 map_parse_withAlias
  obtain ⟨hfound, hmissed⟩ := Prod.mk.inj hfind
  obtain ⟨source, given, hread, -, hmisses, hpair, -⟩ := finds_in_any_case_iff hb
  have hlike : SameLetters "B" "b" := by decide
  have hmiss : Misses b "b" := ⟨"b", hmissed⟩
  have hfinds : ¬ Misses b "B" := by
    rintro ⟨other, hother⟩
    cases hother.symm.trans hfound
  have hdiffer := mt (hpair "B" "b" hlike).2 fun hiff => hfinds (hiff.2 hmiss)
  obtain ⟨hkey, halias⟩ := not_or.1 hdiffer
  have halias' := ((hmisses "b").1 hmiss).2
  refine ⟨b, source, given, hb, hread, hfound, hmissed, hlike, ?_, hkey, halias'⟩
  exact by_contra fun hnone => halias (iff_of_false hnone halias')

end Link
end Citation
end PostRun
