import Mathlib.Data.List.Basic
import Mathlib.Data.List.Induction
import PostRun.Proofs.Citation.Run
import PostRun.Proofs.Html.Surroundings

/-!
# Start tags that are overlooked

A run keeps one mark beside the elements and the links: whether the last tag was an end tag that was
left at its name.  A tag that has to be read to its end is overlooked when it comes upon that mark.
The mark is gone with the next tag, so it says something about the last tag only, and not about the
way there.  Stretches between tags leave it alone, for a run does not look at them.

So `leftAtName_advanceAll_iff` reads the mark off the tokens: the last tag among them is an end tag
that is understood by its name, and nothing is written in front of it.  With that, the start tags
that a run looks at are all start tags but for those that are overlooked, one by one
(`seen_append_singleton`), and they are all of them if none is (`seen_eq_startTags_iff`).
-/

namespace PostRun
namespace Citation

open Html (Token StartTag EndTag AreStretches)

variable {b : Bib.Bibliography}

/-- The last tag is an end tag that was left at its name: it is understood by its name, and nothing
is written in front of it. -/
def EndsAtName (b : Bib.Bibliography) (ts : List Token) : Prop :=
  ∃ front tag stretches, ts = front ++ .stop tag :: stretches ∧ AreStretches stretches ∧
    tag.byName ∧ (Progress.start.advanceAll b front).written (.stop tag) = tag.raw

/-- A start tag behind some tokens is overlooked: it has to be read to its end, and the last tag
before it was left at its name. -/
def IsOverlooked (b : Bib.Bibliography) (before : List Token) (tag : StartTag) : Prop :=
  tag.byName = false ∧ EndsAtName b before

/-! ## The last tag -/

/-- Tokens that end with a tag and stretches behind it, and a last one of them. -/
theorem eq_or_exists_of_append_singleton {front stretches ts : List Token} {tag : EndTag}
    {t : Token} (h : ts ++ [t] = front ++ .stop tag :: stretches) (hs : AreStretches stretches) :
    (ts = front ∧ t = .stop tag) ∨
      ∃ raw init, t = .other raw ∧ ts = front ++ .stop tag :: init ∧ AreStretches init := by
  rcases List.eq_nil_or_concat' stretches with rfl | ⟨init, last, rfl⟩
  · obtain ⟨hfront, hlast⟩ := List.append_inj' h rfl
    exact .inl ⟨hfront, List.singleton_inj.1 hlast⟩
  · rw [← List.cons_append, ← List.append_assoc] at h
    obtain ⟨hfront, hlast⟩ := List.append_inj' h rfl
    obtain ⟨raw, hraw⟩ := hs last (by simp)
    refine .inr ⟨raw, init, (List.singleton_inj.1 hlast).trans hraw, hfront, fun u hu => ?_⟩
    exact hs u (List.mem_append_left _ hu)

theorem endsAtName_append_other {ts : List Token} {raw : List Char} :
    EndsAtName b (ts ++ [.other raw]) ↔ EndsAtName b ts := by
  constructor
  · rintro ⟨front, tag, stretches, hts, hs, hleft⟩
    rcases eq_or_exists_of_append_singleton hts hs with ⟨-, hstop⟩ | ⟨-, init, -, hts, hinit⟩
    · cases hstop
    · exact ⟨front, tag, init, hts, hinit, hleft⟩
  · rintro ⟨front, tag, stretches, rfl, hs, hleft⟩
    refine ⟨front, tag, stretches ++ [.other raw], by simp, fun u hu => ?_, hleft⟩
    rcases List.mem_append.1 hu with hu | hu
    · exact hs u hu
    · exact ⟨raw, List.mem_singleton.1 hu⟩

theorem not_endsAtName_append_start {ts : List Token} {tag : StartTag} :
    ¬ EndsAtName b (ts ++ [.start tag]) := by
  rintro ⟨front, tag', stretches, hts, hs, -⟩
  rcases eq_or_exists_of_append_singleton hts hs with ⟨-, hstop⟩ | ⟨raw, -, hother, -⟩
  · cases hstop
  · cases hother

theorem endsAtName_append_stop {ts : List Token} {tag : EndTag} :
    EndsAtName b (ts ++ [.stop tag]) ↔
      tag.byName ∧ (Progress.start.advanceAll b ts).written (.stop tag) = tag.raw := by
  constructor
  · rintro ⟨front, tag', stretches, hts, hs, hleft⟩
    rcases eq_or_exists_of_append_singleton hts hs with ⟨rfl, hstop⟩ | ⟨raw, -, hother, -⟩
    · cases hstop
      exact hleft
    · cases hother
  · intro hleft
    exact ⟨ts, tag, [], rfl, by simp [AreStretches], hleft⟩

/-! ## The mark -/

namespace Progress

theorem leftAtName_advance_start (s : Progress) (tag : StartTag) :
    (s.advance b (.start tag)).leftAtName = false := by
  unfold advance
  split <;> rfl

/-- An end tag is left at its name if that is understood and nothing is written. -/
theorem leftAtName_advance_stop {s : Progress} {tag : EndTag} :
    (s.advance b (.stop tag)).leftAtName ↔ tag.byName ∧ s.written (.stop tag) = tag.raw := by
  by_cases hover : s.overlooks (.stop tag)
  · have hname : s.leftAtName = true ∧ tag.byName = false := by simpa [overlooks] using hover
    simp [advance, hover, hname.2]
  · simp [advance, written, hover, visitEnd]

/-- **The mark says what the last tag was.** -/
theorem leftAtName_advanceAll_iff {ts : List Token} :
    (start.advanceAll b ts).leftAtName ↔ EndsAtName b ts := by
  induction ts using List.reverseRecOn with
  | nil => simp [start, EndsAtName]
  | append_singleton ts t ih =>
    rw [advanceAll_append, advanceAll_cons, advanceAll_nil]
    cases t with
    | other raw =>
      rw [endsAtName_append_other, ← ih]
      simp [advance, overlooks]
    | start tag => simp [leftAtName_advance_start, not_endsAtName_append_start]
    | stop tag => rw [leftAtName_advance_stop, endsAtName_append_stop]

theorem overlooks_start_iff {ts : List Token} {tag : StartTag} :
    (start.advanceAll b ts).overlooks (.start tag) ↔ IsOverlooked b ts tag := by
  simp [overlooks, IsOverlooked, leftAtName_advanceAll_iff, and_comm]

/-! ## The tags that are looked at -/

/-- **One start tag.**  It is looked at unless it is overlooked. -/
theorem seen_append_singleton (before : List Token) (tag : StartTag) :
    (IsOverlooked b before tag → start.seen b (before ++ [.start tag]) = start.seen b before) ∧
      (¬ IsOverlooked b before tag →
        start.seen b (before ++ [.start tag]) = start.seen b before ++ [tag]) := by
  rw [← overlooks_start_iff, seen_append, seen_cons, seen_nil, lookedAt]
  constructor
  · intro hover
    simp [hover]
  · intro hover
    simp [hover, startTag?]

/-- A run that overlooks a tag looks at fewer than there are. -/
theorem length_seen_lt {before after : List Token} {tag : StartTag}
    (hover : IsOverlooked b before tag) :
    (start.seen b (before ++ .start tag :: after)).length <
      (startTags (before ++ .start tag :: after)).length := by
  have hsplit : before ++ .start tag :: after = before ++ [.start tag] ++ after := by simp
  have hbefore := (sublist_seen (b := b) start before).length_le
  have hafter :=
    (sublist_seen (b := b) (start.advanceAll b (before ++ [.start tag])) after).length_le
  have hone : (startTags [.start tag]).length = 1 := rfl
  rw [hsplit, seen_append, (seen_append_singleton before tag).1 hover, startTags_append,
    startTags_append]
  simp only [List.length_append]
  omega

/-- **All start tags are looked at exactly if none is overlooked.** -/
theorem seen_eq_startTags_iff {ts : List Token} :
    start.seen b ts = startTags ts ↔
      ∀ before tag after, ts = before ++ .start tag :: after → ¬ IsOverlooked b before tag := by
  constructor
  · rintro h before tag after rfl hover
    exact absurd (congrArg List.length h) (length_seen_lt hover).ne
  · intro h
    induction ts using List.reverseRecOn with
    | nil => rfl
    | append_singleton ts t ih =>
      have hts := ih fun before tag after hsplit => h before tag (after ++ [t]) (by simp [hsplit])
      rw [startTags_append, ← hts]
      cases t with
      | other raw => simp [seen_append, lookedAt, overlooks, startTag?]
      | start tag => exact (seen_append_singleton ts tag).2 (h ts tag [] rfl)
      | stop tag =>
        have hnone : (start.advanceAll b ts).lookedAt (.stop tag) = none := by
          unfold lookedAt
          split <;> rfl
        simp [seen_append, hnone, startTag?]

end Progress
end Citation
end PostRun
