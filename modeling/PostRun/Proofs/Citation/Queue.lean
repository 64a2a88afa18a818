import PostRun.Proofs.Citation.Run

/-!
# The links that wait

A link waits from its anchor to the next paragraph.  Which links wait behind some start
tags is a matter of these tags alone: the ones that are asked for from the last paragraph
on, that paragraph included, because a paragraph takes the links before it and not its
own (`waiting`).  `pending_advanceAll` says that a run keeps exactly these in its queue.

What is handed over at a token, `Progress.handed`, and the queue behind it are together
the queue before it and the link that the token asks for (`handed_append_pending`).  Along
a run this accounts for every link, once and in order, and the number that is counted and
the records that are shown follow the same list.

So the answer to a page without a doubtful tag is a matter of the tags that are looked at
(`appendLinks_value_of_clear`), but for the text that is passed on.
-/

namespace PostRun
namespace Citation

open Html (Token StartTag)

variable {b : Bib.Bibliography}

/-! ## From the last paragraph on -/

/-- The tags from the last paragraph on; all of them if none starts a paragraph. -/
def sinceParagraph : List StartTag → List StartTag
  | [] => []
  | tag :: tags => if tags.any startsParagraph then sinceParagraph tags else tag :: tags

/-- The links that wait behind some start tags. -/
def waiting (b : Bib.Bibliography) (tags : List StartTag) : List Pending :=
  (sinceParagraph tags).filterMap (supported? b)

theorem sinceParagraph_append_singleton (tags : List StartTag) (tag : StartTag) :
    sinceParagraph (tags ++ [tag]) =
      if startsParagraph tag then [tag] else sinceParagraph tags ++ [tag] := by
  induction tags with
  | nil => simp [sinceParagraph]
  | cons u us ih =>
    rw [List.cons_append, sinceParagraph, ih, sinceParagraph, List.any_append]
    by_cases htag : startsParagraph tag <;> by_cases hus : us.any startsParagraph <;>
      simp [htag, hus]

theorem waiting_append_singleton (tags : List StartTag) (tag : StartTag) :
    waiting b (tags ++ [tag]) =
      (if startsParagraph tag then [] else waiting b tags) ++ (supported? b tag).toList := by
  rw [waiting, sinceParagraph_append_singleton]
  have hone : [tag].filterMap (supported? b) = (supported? b tag).toList := by
    cases h : supported? b tag <;> simp [h]
  split
  · rw [hone, List.nil_append]
  · rw [List.filterMap_append, hone, waiting]

/-- The last paragraph and what follows it end the list. -/
theorem sinceParagraph_suffix (tags : List StartTag) : sinceParagraph tags <:+ tags := by
  induction tags with
  | nil => exact List.suffix_refl []
  | cons tag tags ih =>
    unfold sinceParagraph
    split
    · exact ih.trans (List.suffix_cons tag tags)
    · exact List.suffix_refl _

/-- Behind its first tag, the stretch from the last paragraph on has no paragraph. -/
theorem not_startsParagraph_of_mem_tail {tags : List StartTag} {u : StartTag}
    (hu : u ∈ (sinceParagraph tags).tail) : startsParagraph u = false := by
  induction tags with
  | nil => simp [sinceParagraph] at hu
  | cons tag tags ih =>
    unfold sinceParagraph at hu
    split at hu
    · exact ih hu
    · next hany =>
      exact Bool.eq_false_iff.2 fun hp => hany (List.any_eq_true.2 ⟨u, hu, hp⟩)

/-- A tag that no paragraph follows lies in that stretch, with all that follows it. -/
theorem suffix_sinceParagraph {before after : List StartTag} {tag : StartTag}
    (hafter : ∀ u ∈ after, startsParagraph u = false) :
    tag :: after <:+ sinceParagraph (before ++ tag :: after) := by
  induction before with
  | nil =>
    have hnone : after.any startsParagraph = false := by simpa using hafter
    simp [sinceParagraph, hnone]
  | cons u us ih =>
    rw [List.cons_append, sinceParagraph]
    split
    · exact ih
    · exact ⟨u :: us, rfl⟩

/-- Some anchor asks for a link and is followed by no paragraph. -/
def Stranded (b : Bib.Bibliography) (tags : List StartTag) : Prop :=
  ∃ before tag after, tags = before ++ tag :: after ∧ (supported? b tag).isSome ∧
    ∀ u ∈ after, startsParagraph u = false

/-- **A link is still waiting in the end exactly when an anchor is stranded.** -/
theorem stranded_iff (tags : List StartTag) : Stranded b tags ↔ waiting b tags ≠ [] := by
  constructor
  · rintro ⟨before, tag, after, rfl, hsome, hafter⟩ hnil
    have hmem : tag ∈ sinceParagraph (before ++ tag :: after) :=
      (suffix_sinceParagraph hafter).mem List.mem_cons_self
    obtain ⟨p, hp⟩ := Option.isSome_iff_exists.1 hsome
    have hwait : p ∈ waiting b (before ++ tag :: after) :=
      List.mem_filterMap.2 ⟨tag, hmem, hp⟩
    rw [hnil] at hwait
    cases hwait
  · intro hne
    obtain ⟨p, hp⟩ := List.exists_mem_of_ne_nil _ hne
    obtain ⟨tag, htag, hsupp⟩ := List.mem_filterMap.1 hp
    obtain ⟨front, hfront⟩ := sinceParagraph_suffix tags
    obtain ⟨skipped, after, hsplit⟩ := List.append_of_mem htag
    refine ⟨front ++ skipped, tag, after, ?_, by simp [hsupp], fun u hu => ?_⟩
    · rw [List.append_assoc, ← hsplit, hfront]
    · have htail : u ∈ (sinceParagraph tags).tail := by
        rw [hsplit]
        cases skipped with
        | nil => exact hu
        | cons _ skipped => exact List.mem_append_right _ (List.mem_cons_of_mem _ hu)
      exact not_startsParagraph_of_mem_tail htail

namespace Progress

/-! ## One token -/

/-- The links that are handed over at a token. -/
def handed (s : Progress) (t : Token) : List Pending :=
  match s.lookedAt t with
  | some tag => if startsParagraph tag then s.pending else []
  | none => []

/-- The links that are handed over along tokens. -/
def handedAll (b : Bib.Bibliography) : Progress → List Token → List Pending
  | _, [] => []
  | s, t :: ts => s.handed t ++ (s.advance b t).handedAll b ts

@[simp] theorem handedAll_nil (s : Progress) : s.handedAll b [] = [] := rfl

@[simp] theorem handedAll_cons (s : Progress) (t : Token) (ts : List Token) :
    s.handedAll b (t :: ts) = s.handed t ++ (s.advance b t).handedAll b ts := rfl

theorem handedAll_append (s : Progress) (ts us : List Token) :
    s.handedAll b (ts ++ us) = s.handedAll b ts ++ (s.advanceAll b ts).handedAll b us := by
  induction ts generalizing s with
  | nil => rfl
  | cons t ts ih => simp [ih]

/-- A token that shows no start tag leaves the queue and the count alone. -/
theorem advance_of_lookedAt_eq_none {s : Progress} {t : Token} (h : s.lookedAt t = none) :
    (s.advance b t).pending = s.pending ∧ (s.advance b t).count = s.count := by
  unfold advance
  unfold lookedAt at h
  split at h
  · next hover => simp [hover]
  · next hover =>
    cases t with
    | other raw => simp [hover]
    | stop tag => simp [hover, visitEnd]
    | start tag => cases h

theorem advance_of_lookedAt_eq_some {s : Progress} {t : Token} {tag : StartTag}
    (h : s.lookedAt t = some tag) : s.advance b t = s.advanceStart b tag := by
  unfold lookedAt at h
  split at h
  · cases h
  · next hover =>
    cases t with
    | other raw => cases h
    | stop tag => cases h
    | start tag' =>
      cases h
      simp [advance, hover]

theorem advanceStart_pending (s : Progress) (tag : StartTag) :
    (s.advanceStart b tag).pending =
      (if startsParagraph tag then [] else s.pending) ++ (supported? b tag).toList := by
  unfold advanceStart visitParagraph openElement enqueue
  by_cases hp : startsParagraph tag <;> by_cases ho : tag.opens <;> simp [hp, ho]

theorem advanceStart_count (s : Progress) (tag : StartTag) :
    (s.advanceStart b tag).count =
      s.count + if startsParagraph tag then s.pending.length else 0 := by
  unfold advanceStart visitParagraph openElement enqueue
  by_cases hp : startsParagraph tag <;> by_cases ho : tag.opens <;> simp [hp, ho]

theorem advanceStart_elements (s : Progress) (tag : StartTag) :
    (s.advanceStart b tag).elements =
      if tag.opens then
        ⟨tag.name, (if startsParagraph tag then s.pending else []).flatMap Pending.markup⟩ ::
          s.elements
      else s.elements := by
  unfold advanceStart visitParagraph openElement enqueue
  by_cases hp : startsParagraph tag <;> by_cases ho : tag.opens <;> simp [hp, ho]

theorem advance_pending (s : Progress) (t : Token) :
    (s.advance b t).pending =
      match s.lookedAt t with
      | some tag =>
          (if startsParagraph tag then [] else s.pending) ++ (supported? b tag).toList
      | none => s.pending := by
  cases h : s.lookedAt t with
  | none => exact (advance_of_lookedAt_eq_none h).1
  | some tag =>
    rw [advance_of_lookedAt_eq_some h]
    exact advanceStart_pending s tag

/-- **No link is lost or invented at a token.**  What is handed over and what waits behind the token
are what waited before it and what it asks for. -/
theorem handed_append_pending (s : Progress) (t : Token) :
    s.handed t ++ (s.advance b t).pending =
      s.pending ++ (s.lookedAt t).toList.filterMap (supported? b) := by
  rw [advance_pending]
  unfold handed
  cases h : s.lookedAt t with
  | none => simp
  | some tag =>
    have hone : [tag].filterMap (supported? b) = (supported? b tag).toList := by
      cases h : supported? b tag <;> simp [h]
    by_cases hp : startsParagraph tag <;> simp [hp, hone]

theorem advance_count (s : Progress) (t : Token) :
    (s.advance b t).count = s.count + (s.handed t).length := by
  unfold handed
  cases h : s.lookedAt t with
  | none => simp [(advance_of_lookedAt_eq_none h).2]
  | some tag =>
    rw [advance_of_lookedAt_eq_some h, advanceStart_count]
    by_cases hp : startsParagraph tag <;> simp [hp]

/-- What an anchor has to report is shown at a higher verbosity only. -/
theorem shown_visitAnchor (s : Progress) (tag : StartTag) :
    Logged.shown 1 (s.visitAnchor b tag).records = [] := by
  unfold visitAnchor
  split
  · rfl
  · split <;> rfl

theorem visitStart_records (s : Progress) (tag : StartTag) :
    (s.visitStart b tag).records =
      (s.visitParagraph tag).records ++
        ((s.visitParagraph tag).value.1.visitAnchor b tag).records := by
  simp only [visitStart, Logged.bind_records]
  congr 1
  cases ((s.visitParagraph tag).value.1.visitAnchor b tag).value <;> simp

/-- **Each link that is handed over is shown once.** -/
theorem shown_visit (s : Progress) (t : Token) :
    Logged.shown 1 (s.visit b t).records = (s.handed t).map Pending.report := by
  unfold visit handed lookedAt
  by_cases hover : s.overlooks t
  · simp [hover, Logged.shown]
  · cases t with
    | other raw => simp [hover, startTag?, Logged.shown]
    | stop tag => simp [hover, startTag?, Logged.shown]
    | start tag =>
      have hparagraph : Logged.shown 1 (s.visitParagraph tag).records =
          (if startsParagraph tag then s.pending else []).map Pending.report := by
        unfold visitParagraph
        by_cases hp : startsParagraph tag
        · have hinfo : ∀ p : Pending, (Level.ofVerbosity 1).shows p.report.level = true :=
            fun p => rfl
          simp [hp, Logged.shown, hinfo]
        · simp [hp, Logged.shown]
      have hanchor := shown_visitAnchor (b := b) (s.visitParagraph tag).value.1 tag
      simp only [hover, Bool.false_eq_true, ↓reduceIte, startTag?, visitStart_records]
      rw [Logged.shown, List.filter_append, ← Logged.shown, ← Logged.shown, hparagraph, hanchor,
        List.append_nil]

/-! ## All tokens -/

/-- **The queue of a run.**  When the waiting links are those of some tags, they go on to be those
of these tags and the ones that are looked at. -/
theorem pending_advanceAll (before : List StartTag) {s : Progress}
    (h : s.pending = waiting b before) (ts : List Token) :
    (s.advanceAll b ts).pending = waiting b (before ++ s.seen b ts) := by
  induction ts generalizing s before with
  | nil => simpa using h
  | cons t ts ih =>
    rw [advanceAll_cons, seen_cons]
    cases hlooked : s.lookedAt t with
    | none =>
      refine ih before ?_
      rw [advance_pending, hlooked, h]
    | some tag =>
      have hstep : (s.advance b t).pending = waiting b (before ++ [tag]) := by
        rw [advance_pending, hlooked, waiting_append_singleton, h]
      simpa using ih (before ++ [tag]) hstep

/-- No link is lost or invented along a run, and their order is kept. -/
theorem handedAll_append_pending (s : Progress) (ts : List Token) :
    s.handedAll b ts ++ (s.advanceAll b ts).pending =
      s.pending ++ (s.seen b ts).filterMap (supported? b) := by
  induction ts generalizing s with
  | nil => simp
  | cons t ts ih =>
    rw [handedAll_cons, advanceAll_cons, seen_cons, List.append_assoc, ih, ← List.append_assoc,
      handed_append_pending, List.filterMap_append, List.append_assoc]

theorem count_advanceAll (s : Progress) (ts : List Token) :
    (s.advanceAll b ts).count = s.count + (s.handedAll b ts).length := by
  induction ts generalizing s with
  | nil => rfl
  | cons t ts ih =>
    rw [advanceAll_cons, ih, advance_count, handedAll_cons, List.length_append, Nat.add_assoc]

/-- A run that meets no unknown key shows each link that it hands over, once and in order. -/
theorem shown_visitAll {s : Progress} {ts : List Token}
    (h : (s.seen b ts).findSome? (unknown? b) = none) :
    Logged.shown 1 (s.visitAll b ts).records = (s.handedAll b ts).map Pending.report := by
  induction ts generalizing s with
  | nil => rfl
  | cons t ts ih =>
    rw [seen_cons, List.findSome?_append, Option.or_eq_none_iff] at h
    have hvalue : (s.visit b t).value = .ok (s.advance b t, s.written t) := by
      rw [visit_value]
      cases hlooked : s.lookedAt t with
      | none => rfl
      | some tag =>
        have hknown : unknown? b tag = none := by simpa [hlooked] using h.1
        simp [hknown]
    rw [visitAll, Logged.bind_records, hvalue, Logged.shown, List.filter_append, ← Logged.shown,
      ← Logged.shown, shown_visit, handedAll_cons, List.map_append, Logged.map_records, ih h.2]

end Progress

/-! ## A page -/

/-- The links that wait at the end of a page are those of the tags from its last paragraph on. -/
theorem pending_progressAtEnd (page : List Char) :
    (progressAtEnd b page).pending = waiting b (reported b page) :=
  Progress.pending_advanceAll [] rfl _

/-- When none waits at the end, every link of the page was handed over, once and in order. -/
theorem handedAll_of_waiting_eq_nil {page : List Char} (h : waiting b (reported b page) = []) :
    Progress.start.handedAll b (Html.cut page).tokens =
      (reported b page).filterMap (supported? b) := by
  have hall := Progress.handedAll_append_pending (b := b) Progress.start (Html.cut page).tokens
  rw [← progressAtEnd, pending_progressAtEnd, h, List.append_nil] at hall
  exact hall

theorem count_of_waiting_eq_nil {page : List Char} (h : waiting b (reported b page) = []) :
    (progressAtEnd b page).count = ((reported b page).filterMap (supported? b)).length := by
  rw [progressAtEnd, Progress.count_advanceAll, handedAll_of_waiting_eq_nil h]
  exact Nat.zero_add _

/-- **The answer to a page without a doubtful tag** is settled by the start tags that are looked at:
the first unknown key, or else the first link that waits in the end, or else the page as it was
written. -/
theorem appendLinks_value_of_clear {page : List Char} (hclear : (Html.cut page).doubtful = none) :
    (appendLinks b page).value =
      match (reported b page).findSome? (unknown? b), waiting b (reported b page) with
      | some key, _ => .error (.missingReference key)
      | none, p :: _ => .error (.missingCitationText p.key)
      | none, [] =>
          .ok (Progress.start.writtenAll b (Html.cut page).tokens,
            ((reported b page).filterMap (supported? b)).length) := by
  rw [appendLinks_value, hclear]
  cases (reported b page).findSome? (unknown? b) with
  | some key => rfl
  | none =>
    cases hwait : waiting b (reported b page) with
    | cons p ps => simp only [Progress.finish, pending_progressAtEnd, hwait]
    | nil =>
      simp only [Progress.finish, pending_progressAtEnd, hwait, count_of_waiting_eq_nil hwait]

theorem doubtful_of_appendLinks_eq_ok {page out : List Char} {n : Nat}
    (h : (appendLinks b page).value = .ok (out, n)) : (Html.cut page).doubtful = none := by
  rw [appendLinks_value] at h
  cases hdoubt : (Html.cut page).doubtful with
  | none => rfl
  | some name =>
    rw [hdoubt] at h
    cases hunknown : (reported b page).findSome? (unknown? b) <;> rw [hunknown] at h <;> cases h

/-- **A page that is passed on** has no doubtful tag, and no link waits at its end. -/
theorem of_appendLinks_eq_ok {page out : List Char} {n : Nat}
    (h : (appendLinks b page).value = .ok (out, n)) :
    (Html.cut page).doubtful = none ∧ waiting b (reported b page) = [] ∧
      out = Progress.start.writtenAll b (Html.cut page).tokens ∧
      n = ((reported b page).filterMap (supported? b)).length := by
  have hclear := doubtful_of_appendLinks_eq_ok h
  rw [appendLinks_value_of_clear hclear] at h
  split at h
  · cases h
  · cases h
  · next _ hwait =>
    cases h
    exact ⟨hclear, hwait, rfl, rfl⟩

end Citation
end PostRun
