import PostRun.Citation.Link
import PostRun.Proofs.Bib.Inheritance

/-!
# The preprint that a citation key stands for

A citation is answered in two steps.  The key is looked up, exactly at first and then up to the
case of letters; and the entry that was found gives a link if two of its fields say so.  Here both
steps are put in terms of the file (`Link.find_of_parse`): which of its items the key stands for,
and what these two fields hold.

## Entries as they are found

What is found is not an item of the file but an entry that was completed by the entries it refers
to.  So the two fields need not be its own (`Link.find_borrowing`).  They are those that it takes
over, and this is all that other entries do: entries that are alike in the two fields, and refer to
entries that are alike, are answered in the same way, whatever else their files hold
(`Link.find_eq_of_areAlike`).
-/

namespace PostRun

namespace Bib

deriving instance DecidableEq for Piece, Field, Item, Source

end Bib

namespace Citation
namespace Link

open Bib

/-- A link is made of the texts of two fields without the blanks around them: of the archive, which
is named exactly, and of the identifier, which is not empty. -/
def IsMadeOf (l : Link) (archive eprint : Option (List Char)) : Prop :=
  ∃ a e, archive = some a ∧ eprint = some e ∧ String.ofList (Text.trim a) = "arXiv" ∧
    Text.trim e ≠ [] ∧ l.eprint = String.ofList (Text.trim e)

theorem trimmed?_eq (e : Entry) (name : String) :
    trimmed? e name = (e.text? name).map fun text => String.ofList (Text.trim text) := by
  rw [trimmed?, Entry.text?, Option.map_map]
  rfl

theorem givenBy?_eq_some_iff {e : Entry} {l : Link} :
    givenBy? e = some l ↔ l.IsMadeOf (e.text? "archiveprefix") (e.text? "eprint") := by
  rw [givenBy?, trimmed?_eq, trimmed?_eq, IsMadeOf]
  cases e.text? "archiveprefix" with
  | none => simp
  | some archive =>
    cases e.text? "eprint" with
    | none => simp
    | some eprint =>
      simp only [Option.map_some, Option.ite_none_right_eq_some, Option.some.injEq, ne_eq,
        String.ofList_eq_empty_iff, and_assoc]
      constructor
      · rintro ⟨harchive, heprint, rfl⟩
        exact ⟨archive, eprint, rfl, rfl, harchive, heprint, rfl⟩
      · rintro ⟨_, _, rfl, rfl, harchive, heprint, hlink⟩
        exact ⟨harchive, heprint, by rw [← hlink]⟩

/-- A link depends on two texts only. -/
theorem givenBy?_congr {e f : Entry} (harchive : e.text? "archiveprefix" = f.text? "archiveprefix")
    (heprint : e.text? "eprint" = f.text? "eprint") : givenBy? e = givenBy? f := by
  rw [givenBy?, givenBy?, trimmed?_eq, trimmed?_eq, trimmed?_eq, trimmed?_eq, harchive, heprint]

section Stages

variable {text : String} {source : Source} {given b : Bibliography}

/-- Only a key that stands for nothing in the file is an error, and the error is the key. -/
theorem find_eq_error_iff (h : Bibliography.IsReadAs text source given b) (key other : String) :
    find b key = .error other ↔ other = key ∧ given.find? key = none := by
  have hrel := Bibliography.find?_of_completed h.completed key
  rw [find]
  revert hrel
  cases given.find? key <;> cases b.find? key <;> intro hrel
  · simp [eq_comm]
  · cases hrel
  · cases hrel
  · simp

theorem exists_find_eq_ok_iff (h : Bibliography.IsReadAs text source given b) (key : String) :
    (∃ answer, find b key = .ok answer) ↔ ∃ e, StandsFor given.entries.toList key e := by
  have hindexed := (Bibliography.isRead_of_given h.given).isIndexed
  have herror := find_eq_error_iff h key
  simp only [← Bibliography.find?_eq_some_iff hindexed, ← Option.isSome_iff_exists]
  cases hfind : find b key with
  | error other => simp [((herror other).1 hfind).2]
  | ok answer =>
    have hsome : given.find? key ≠ none := fun hnone => by
      cases hfind.symm.trans ((herror key).2 ⟨rfl, hnone⟩)
    simpa [Option.isSome_iff_ne_none] using hsome

/-- **What a key is answered** depends on the entry that it stands for in the file. -/
theorem find_of_standsFor (h : Bibliography.IsReadAs text source given b) {key : String}
    {e : Entry} (hkey : StandsFor given.entries.toList key e) :
    ∃ f, find b key = .ok (givenBy? f) ∧
      ∀ name, name ≠ "date" → f.text? name = given.textFor? name given.entries.size e := by
  have hindexed := (Bibliography.isRead_of_given h.given).isIndexed
  have hrel := Bibliography.find?_of_completed h.completed key
  rw [(Bibliography.find?_eq_some_iff hindexed).2 hkey] at hrel
  cases hfind : b.find? key with
  | none =>
    rw [hfind] at hrel
    cases hrel
  | some f =>
    rw [hfind] at hrel
    cases hrel with
    | some hcomplete =>
      refine ⟨f, by rw [find, hfind], (Bibliography.isCompletion_complete hcomplete).text⟩

/-- Entries of two bibliographies that are alike in all that a link is made of. -/
def AreAlike (b c : Bibliography) (e f : Entry) : Prop :=
  ∃ r, b.IsMatching c "archiveprefix" r ∧ b.IsMatching c "eprint" r ∧ r e f

/-- Entries that are alike are answered in the same way. -/
theorem find_eq_of_areAlike {text₂ : String} {source₂ : Source} {given₂ b₂ : Bibliography}
    (h : Bibliography.IsReadAs text source given b)
    (h₂ : Bibliography.IsReadAs text₂ source₂ given₂ b₂) {key key₂ : String} {e e₂ : Entry}
    (hkey : StandsFor given.entries.toList key e)
    (hkey₂ : StandsFor given₂.entries.toList key₂ e₂) (he : given.IsGrounded e)
    (hlike : AreAlike given given₂ e e₂) : find b₂ key₂ = find b key := by
  obtain ⟨f, hfind, htext⟩ := find_of_standsFor h hkey
  obtain ⟨f₂, hfind₂, htext₂⟩ := find_of_standsFor h₂ hkey₂
  obtain ⟨r, harchive, heprint, hr⟩ := hlike
  rw [hfind, hfind₂]
  refine congrArg Except.ok (givenBy?_congr ?_ ?_)
  · rw [htext _ (by decide), htext₂ _ (by decide), harchive.textFor?_eq he hr]
  · rw [htext _ (by decide), htext₂ _ (by decide), heprint.textFor?_eq he hr]

end Stages

/-- **Every citation key is answered for the item that it stands for.**

* The entries of a file that is read are those of its items, in their order and with different keys.
  Their fields are those of the items, under their names in lower case.
* A key is an error if it stands for no entry, and the error is the key.
* Otherwise the answer is a link if and only if the entry that the key stands for has the archive
  and the identifier, or takes them over from the entries that it refers to.  The link is made of
  these two texts.
* Nothing else in the file matters to the answer.  The same is answered in any other file for an
  entry that is alike, as long as the chains of references do not go in a circle. -/
theorem find_of_parse {text : String} {b : Bibliography} (h : Bibliography.parse text = .ok b) :
    ∃ source given, Bibliography.IsReadAs text source given b ∧
      given.IsRead source.abbreviations source.items ∧
      ∀ key,
        (∀ other, find b key = .error other ↔ other = key ∧
          ∀ e ∈ given.entries.toList, ¬ e.IsKnownAs key ∧ ¬ e.HasKeyLike key) ∧
        ((∃ answer, find b key = .ok answer) ↔ ∃ e, StandsFor given.entries.toList key e) ∧
        ∀ e, StandsFor given.entries.toList key e →
          (∀ link, find b key = .ok (some link) ↔
            link.IsMadeOf (given.textFor? "archiveprefix" given.entries.size e)
              (given.textFor? "eprint" given.entries.size e)) ∧
          (given.IsGrounded e → ∀ text₂ source₂ given₂ b₂ key₂ e₂,
            Bibliography.IsReadAs text₂ source₂ given₂ b₂ →
            StandsFor given₂.entries.toList key₂ e₂ → AreAlike given given₂ e e₂ →
              find b₂ key₂ = find b key) := by
  obtain ⟨source, given, hread⟩ := Bibliography.exists_isReadAs h
  have hgiven := Bibliography.isRead_of_given hread.given
  refine ⟨source, given, hread, hgiven, fun key => ⟨fun other => ?_, ?_, fun e he => ⟨?_, ?_⟩⟩⟩
  · rw [← Bibliography.find?_eq_none_iff hgiven.isIndexed]
    exact find_eq_error_iff hread key other
  · exact exists_find_eq_ok_iff hread key
  · obtain ⟨f, hfind, htext⟩ := find_of_standsFor hread he
    intro link
    rw [hfind, Except.ok.injEq, givenBy?_eq_some_iff, htext _ (by decide), htext _ (by decide)]
  · exact fun hgrounded text₂ source₂ given₂ b₂ key₂ e₂ hread₂ he₂ =>
      find_eq_of_areAlike hread hread₂ he he₂ hgrounded

/-! ## An identifier that is taken over -/

/-- A file of two entries.  The second one names its archive, and refers to the first one, which has
the identifier. -/
def borrowing (eprint : String) : String :=
  "@misc\x7bB, eprint=\x7b" ++ eprint ++ "\x7d\x7d" ++
    "@misc\x7bA, crossref=\x7bB\x7d, archivePrefix=\x7barXiv\x7d\x7d"

/-- The items of that file, where the identifier is a single character. -/
def borrowingItems (eprint : String) : Source where
  items :=
    [⟨"misc".toList, "B".toList, [⟨"eprint".toList, [.text eprint.toList 17]⟩], ⟨0, 19⟩⟩,
      ⟨"misc".toList, "A".toList, [⟨"crossref".toList, [.text "B".toList 39]⟩,
        ⟨"archivePrefix".toList, [.text "arXiv".toList 58]⟩], ⟨20, 64⟩⟩]
  abbreviations := []

theorem ofValue_text (abbreviations : List Field) (inVerbatim : Bool) (fuel : Nat)
    (content : List Char) (start : Nat) :
    Content.ofValue abbreviations inVerbatim fuel [.text content start] =
      Content.ofText inVerbatim content start := by
  simp [Content.ofValue]

/-- What is found in the file for the second entry. -/
theorem map_parse_borrowing {eprint : String} (h : eprint = "1" ∨ eprint = "2") :
    (Bibliography.parse (borrowing eprint)).map (fun b => find b "A") =
      .ok (.ok (some ⟨eprint⟩)) := by
  have hparse : Source.parse (borrowing eprint) = .ok (borrowingItems eprint) := by
    rcases h with rfl | rfl <;> decide +kernel
  rw [Bibliography.parse, hparse]
  simp only [bind, Except.bind, Bibliography.ofSource, borrowingItems, List.foldlM_cons,
    List.foldlM_nil, Bibliography.addItem, Entry.ofItem, Entry.readFields, ofValue_text]
  rcases h with rfl | rfl <;> decide +kernel

/-- The key in small letters, and a key that is not there. -/
theorem find_of_parse_borrowing : ∃ b, Bibliography.parse (borrowing "1") = .ok b ∧
    find b "a" = .ok (some ⟨"1"⟩) ∧ find b "C" = .error "C" := by
  obtain ⟨b, hb, -⟩ := map_eq_ok_iff.1 (map_parse_borrowing (.inl rfl))
  obtain ⟨source, given, hread, hgiven, hall⟩ := find_of_parse hb
  have hstages : (Source.parse (borrowing "1")).bind Bibliography.given = .ok given := by
    rw [hread.parse]
    exact hread.given
  have hfound : ((Source.parse (borrowing "1")).bind Bibliography.given).map (fun given =>
      ((given.find? "a").map fun e => (given.textFor? "archiveprefix" given.entries.size e,
        given.textFor? "eprint" given.entries.size e), (given.find? "C").isNone)) =
          .ok (some (some "arXiv".toList, some "1".toList), true) := by
    have hparse : Source.parse (borrowing "1") = .ok (borrowingItems "1") := by decide +kernel
    rw [hparse]
    simp only [Except.bind, Bibliography.given, borrowingItems, List.foldlM_cons, List.foldlM_nil,
      Bibliography.addItem, Entry.ofItem, Entry.readFields, ofValue_text]
    decide +kernel
  rw [hstages] at hfound
  simp only [Except.map, Except.ok.injEq, Prod.mk.injEq, Option.map_eq_some_iff,
    Option.isNone_iff_eq_none] at hfound
  obtain ⟨⟨e, he, harchive, heprint⟩, hnone⟩ := hfound
  have hstands := (Bibliography.find?_eq_some_iff hgiven.isIndexed).1 he
  refine ⟨b, hb, ?_, ?_⟩
  · exact (((hall "a").2.2 e hstands).1 ⟨"1"⟩).2
      ⟨_, _, harchive, heprint, by decide, by decide, by decide⟩
  · exact ((hall "C").1 "C").2 ⟨rfl, (Bibliography.find?_eq_none_iff hgiven.isIndexed).1 hnone⟩

/-- **What an entry refers to influences its answer.**  The second entry of the file has no field
for the identifier.  With another identifier in the first entry the answer for the second one is
another one. -/
theorem find_borrowing :
    (∃ b, Bibliography.parse (borrowing "1") = .ok b ∧ find b "A" = .ok (some ⟨"1"⟩)) ∧
    (∃ b, Bibliography.parse (borrowing "2") = .ok b ∧ find b "A" = .ok (some ⟨"2"⟩)) ∧
    ∃ source, Source.parse (borrowing "1") = .ok source ∧
      ∀ item ∈ source.items, item.key = "A".toList → item.fieldNamed? "eprint" = none := by
  refine ⟨map_eq_ok_iff.1 (map_parse_borrowing (.inl rfl)),
    map_eq_ok_iff.1 (map_parse_borrowing (.inr rfl)), borrowingItems "1", by decide +kernel, ?_⟩
  decide +kernel

end Link
end Citation
end PostRun
