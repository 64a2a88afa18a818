import PostRun.Proofs.Citation.Queue
import PostRun.Proofs.Html.Cut

/-!
# What is written into a page

A page is passed on with links between its pieces.  A `Splice` is a page cut into pieces
together with the links that stand in front of each piece but the first; it has a `page`,
which is the pieces alone, and a `text`, which is the pieces with the links.

A run makes a splice (`exists_splice`), and the open elements are what has to be followed
to see which one.  The text appended to an element is that of some links; `Holds` says
which, element by element.  At an end tag three things become of the links that the closed
elements hold: those of the outermost element that has any are written, those of all other
closed elements are lost, and the elements that stay open keep theirs.  A start tag that
opens no element loses what it is handed.  So the links that are handed over are, up to
their order, those that are written, those that are lost and those that are still held
(`exists_splice_step` for one token, `exists_splice` for all).

`KeepsAt` says of one token that nothing is lost at it.
-/

namespace PostRun
namespace Citation

open Html (Token StartTag EndTag OpenElements)

/-! ## Splices -/

/-- A page cut into pieces, with the links that stand in front of each piece but the first. -/
structure Splice where
  front : List Char
  pieces : List (List Pending × List Char)

namespace Splice

/-- The pieces alone. -/
def page (x : Splice) : List Char := x.front ++ x.pieces.flatMap (·.2)

/-- The pieces with the links in front of them. -/
def text (x : Splice) : List Char :=
  x.front ++ x.pieces.flatMap fun piece => piece.1.flatMap Pending.markup ++ piece.2

/-- The links, in the order in which they stand. -/
def links (x : Splice) : List Pending := x.pieces.flatMap (·.1)

/-- There are links in front of each piece but the first, and it begins with an end tag. -/
def IsAtEndTags (x : Splice) : Prop :=
  ∀ piece ∈ x.pieces, piece.1 ≠ [] ∧ ['<', '/'] <+: piece.2

/-- Puts text in front, with links before it; without links it joins the first piece. -/
def cons (links : List Pending) (raw : List Char) (x : Splice) : Splice :=
  if links.isEmpty then ⟨raw ++ x.front, x.pieces⟩ else ⟨[], (links, raw ++ x.front) :: x.pieces⟩

/-- The page of nothing. -/
def nil : Splice := ⟨[], []⟩

variable (links : List Pending) (raw : List Char) (x : Splice)

@[simp] theorem page_cons : (cons links raw x).page = raw ++ x.page := by
  unfold cons page
  split <;> simp

@[simp] theorem text_cons :
    (cons links raw x).text = links.flatMap Pending.markup ++ raw ++ x.text := by
  unfold cons text
  split
  · next hempty => simp [List.isEmpty_iff.1 hempty]
  · simp

@[simp] theorem links_cons : (cons links raw x).links = links ++ x.links := by
  unfold cons Splice.links
  split
  · next hempty => simp [List.isEmpty_iff.1 hempty]
  · simp

variable {links raw x}

theorem IsAtEndTags.cons (hx : x.IsAtEndTags) (hraw : links ≠ [] → ['<', '/'] <+: raw) :
    (Splice.cons links raw x).IsAtEndTags := by
  unfold Splice.cons
  split
  · exact hx
  · next hempty =>
    have hne : links ≠ [] := by simpa using hempty
    intro piece hpiece
    rcases List.mem_cons.1 hpiece with rfl | hpiece
    · exact ⟨hne, (hraw hne).trans (List.prefix_append _ _)⟩
    · exact hx piece hpiece

end Splice

/-! ## Lengths -/

/-- The number of bytes of some links, as they are appended. -/
def markupLength : List Pending → Nat
  | [] => 0
  | p :: ps => Text.byteLength p.markup + markupLength ps

@[simp] theorem markupLength_nil : markupLength [] = 0 := rfl

@[simp] theorem markupLength_cons (p : Pending) (ps : List Pending) :
    markupLength (p :: ps) = Text.byteLength p.markup + markupLength ps := rfl

theorem markupLength_append (ps qs : List Pending) :
    markupLength (ps ++ qs) = markupLength ps + markupLength qs := by
  induction ps with
  | nil => simp
  | cons p ps ih => simp [ih, Nat.add_assoc]

theorem markupLength_perm {ps qs : List Pending} (h : ps.Perm qs) :
    markupLength ps = markupLength qs := by
  induction h with
  | nil => rfl
  | cons p _ ih => rw [markupLength_cons, markupLength_cons, ih]
  | swap p q ps =>
    simp only [markupLength_cons]
    omega
  | trans _ _ ih₁ ih₂ => exact ih₁.trans ih₂

theorem byteLength_flatMap_markup (ps : List Pending) :
    Text.byteLength (ps.flatMap Pending.markup) = markupLength ps := by
  induction ps with
  | nil => rfl
  | cons p ps ih =>
    rw [List.flatMap_cons, Text.byteLength_append, ih, markupLength_cons]

/-- **Every link takes some bytes.** -/
theorem markupLength_eq_zero_iff (ps : List Pending) : markupLength ps = 0 ↔ ps = [] := by
  constructor
  · intro h
    cases ps with
    | nil => rfl
    | cons p ps =>
      have hstop : Text.byteLength p.markup = Text.byteLength p.link.markup + 1 := by
        rw [Pending.markup, Text.byteLength_append]
        rfl
      simp only [markupLength_cons, hstop] at h
      omega
  · rintro rfl
    rfl

theorem Splice.byteLength_text (x : Splice) :
    Text.byteLength x.text = Text.byteLength x.page + markupLength x.links := by
  obtain ⟨front, pieces⟩ := x
  simp only [Splice.text, Splice.page, Splice.links, Text.byteLength_append]
  induction pieces with
  | nil => simp
  | cons piece pieces ih =>
    simp only [List.flatMap_cons, Text.byteLength_append, markupLength_append,
      byteLength_flatMap_markup]
    omega

/-! ## The outermost text -/

/-- The outermost of some lists that is not empty, the innermost list first. -/
def outermost : List (List Pending) → List Pending
  | [] => []
  | l :: ls => if (outermost ls).isEmpty then l else outermost ls

theorem outermost_eq_nil_iff (ls : List (List Pending)) :
    outermost ls = [] ↔ ∀ l ∈ ls, l = [] := by
  induction ls with
  | nil => simp [outermost]
  | cons l ls ih =>
    unfold outermost
    by_cases h : outermost ls = []
    · have hall := ih.1 h
      simpa [h] using fun _ => hall
    · have hls : ¬ ∀ l ∈ ls, l = [] := fun hall => h (ih.2 hall)
      simp [h, hls]

/-- **What the outermost list hides.**  Nothing is hidden exactly when no two lists have anything
in them. -/
theorem exists_perm_outermost (ls : List (List Pending)) :
    ∃ lost, ls.flatten.Perm (outermost ls ++ lost) ∧
      (lost = [] ↔ (ls.filter fun l => !l.isEmpty).length ≤ 1) := by
  induction ls with
  | nil => exact ⟨[], by simp [outermost], by simp⟩
  | cons l ls ih =>
    obtain ⟨lost, hperm, hlost⟩ := ih
    unfold outermost
    by_cases h : outermost ls = []
    · have hall := (outermost_eq_nil_iff ls).1 h
      have hflat : ls.flatten = [] := List.flatten_eq_nil_iff.2 hall
      have hfilter : ls.filter (fun l => !l.isEmpty) = [] :=
        List.filter_eq_nil_iff.2 fun l hl => by simp [hall l hl]
      refine ⟨[], by simp [h, hflat], ?_⟩
      rw [List.filter_cons, hfilter]
      split <;> simp
    · obtain ⟨m, hm, hne⟩ : ∃ m ∈ ls, m ≠ [] := by
        simpa using fun hall => h ((outermost_eq_nil_iff ls).2 hall)
      have hpos : 0 < (ls.filter fun l => !l.isEmpty).length :=
        List.length_pos_of_mem (List.mem_filter.2 ⟨hm, by simpa using hne⟩)
      refine ⟨l ++ lost, ?_, ?_⟩
      · simp only [List.isEmpty_iff, h, ↓reduceIte, List.flatten_cons]
        rw [List.perm_iff_count] at hperm ⊢
        intro p
        have hp := hperm p
        simp only [List.count_append] at hp ⊢
        omega
      · rw [List.append_eq_nil_iff, hlost, List.filter_cons]
        cases l with
        | nil => simp
        | cons p l =>
          simp only [List.isEmpty_cons, Bool.not_false, ↓reduceIte, List.length_cons]
          constructor
          · rintro ⟨hnil, -⟩
            cases hnil
          · intro hle
            omega

theorem isEmpty_flatMap_markup (ps : List Pending) :
    (ps.flatMap Pending.markup).isEmpty = ps.isEmpty := by
  cases ps with
  | nil => rfl
  | cons p ps => simp [Pending.markup]

/-- The text appended to open elements is that of these links, element by element. -/
def Holds (es : OpenElements) (held : List (List Pending)) : Prop :=
  es.map (·.appended) = held.map (·.flatMap Pending.markup)

theorem Holds.outermostText {es : OpenElements} {held : List (List Pending)} (h : Holds es held) :
    es.outermostText = (outermost held).flatMap Pending.markup := by
  induction held generalizing es with
  | nil =>
    have hnil : es = [] := by simpa [Holds] using h
    rw [hnil]
    rfl
  | cons l ls ih =>
    obtain _ | ⟨e, es⟩ := es
    · simp [Holds] at h
    · simp only [Holds, List.map_cons, List.cons.injEq] at h
      unfold OpenElements.outermostText outermost
      rw [ih h.2, isEmpty_flatMap_markup]
      split
      · exact h.1
      · rfl

theorem Holds.length_filter {es : OpenElements} {held : List (List Pending)} (h : Holds es held) :
    (es.filter fun e => !e.appended.isEmpty).length =
      (held.filter fun l => !l.isEmpty).length := by
  have hlength := congrArg (fun texts => (texts.filter fun t => !t.isEmpty).length) h
  simpa [List.filter_map, Function.comp_def, isEmpty_flatMap_markup] using hlength

/-- Closing takes elements off the front. -/
theorem append_of_split? {name : String} {es closed rest : OpenElements}
    (h : es.split? name = some (closed, rest)) : closed ++ rest = es := by
  induction es generalizing closed rest with
  | nil => cases h
  | cons e es ih =>
    unfold OpenElements.split? at h
    split at h
    · cases h
      rfl
    · obtain ⟨r, hr, heq⟩ := Option.map_eq_some_iff.1 h
      cases heq
      simp [ih hr]

/-! ## One token -/

namespace Progress

/-- Nothing is lost at a token: a start tag that is handed links opens an element for them, and an
end tag closes at most one element that has text. -/
def KeepsAt (s : Progress) (t : Token) : Prop :=
  s.overlooks t = false →
    match t with
    | .other _ => True
    | .start tag => s.handed (.start tag) ≠ [] → tag.opens
    | .stop tag => ∀ closed rest, s.elements.split? tag.name = some (closed, rest) →
        (closed.filter fun e => !e.appended.isEmpty).length ≤ 1

/-- Nothing is lost at any of some tokens. -/
def KeepsAll (b : Bib.Bibliography) : Progress → List Token → Prop
  | _, [] => True
  | s, t :: ts => s.KeepsAt t ∧ (s.advance b t).KeepsAll b ts

variable {b : Bib.Bibliography} {s : Progress} {held : List (List Pending)}

theorem handed_start {tag : StartTag} (hover : s.overlooks (.start tag) = false) :
    s.handed (.start tag) = if startsParagraph tag then s.pending else [] := by
  simp [handed, lookedAt, hover, startTag?]

theorem handed_eq_nil_of_startTag? {t : Token} (h : startTag? t = none) : s.handed t = [] := by
  unfold handed lookedAt
  split
  · next tag hlooked =>
    split at hlooked
    · cases hlooked
    · rw [h] at hlooked
      cases hlooked
  · rfl

/-- **An end tag** writes the links of the outermost closed element, and hides the others. -/
theorem exists_splice_stop {tag : EndTag} (hover : s.overlooks (.stop tag) = false)
    (h : Holds s.elements held) :
    ∃ written lost held', Holds (s.visitEnd tag).1.elements held' ∧
      (s.visitEnd tag).2 = written.flatMap Pending.markup ++ tag.raw ∧
      held.flatten.Perm (written ++ lost ++ held'.flatten) ∧
      (lost = [] ↔ s.KeepsAt (.stop tag)) := by
  cases hsplit : s.elements.split? tag.name with
  | none =>
    refine ⟨[], [], held, ?_, ?_, by simp, ?_⟩
    · simpa [visitEnd, OpenElements.close, hsplit] using h
    · simp [visitEnd, OpenElements.close, hsplit]
    · simp [KeepsAt, hsplit]
  | some r =>
    obtain ⟨closed, rest⟩ := r
    have happend := append_of_split? hsplit
    have hmap : closed.map (·.appended) ++ rest.map (·.appended) =
        held.map (·.flatMap Pending.markup) := by
      rw [← List.map_append, happend]
      exact h
    obtain ⟨inner, outer, hheld, hinner, houter⟩ := List.map_eq_append_iff.1 hmap.symm
    have hclosed : Holds closed inner := hinner.symm
    obtain ⟨lost, hperm, hlost⟩ := exists_perm_outermost inner
    refine ⟨outermost inner, lost, outer, ?_, ?_, ?_, ?_⟩
    · simpa [Holds, visitEnd, OpenElements.close, hsplit] using houter.symm
    · simp [visitEnd, OpenElements.close, hsplit, hclosed.outermostText]
    · rw [hheld, List.flatten_append]
      exact hperm.append_right _
    · rw [hlost, ← hclosed.length_filter]
      simp [KeepsAt, hover, hsplit]

/-- **One token.**  What is held and handed over is, up to its order, what is written, what is lost
and what is held behind it. -/
theorem exists_splice_step (t : Token) (h : Holds s.elements held) :
    ∃ written lost held', Holds (s.advance b t).elements held' ∧
      s.written t = written.flatMap Pending.markup ++ t.raw ∧
      (written ≠ [] → ∃ tag, t = .stop tag) ∧
      (held.flatten ++ s.handed t).Perm (written ++ lost ++ held'.flatten) ∧
      (lost = [] ↔ s.KeepsAt t) := by
  by_cases hover : s.overlooks t
  · have hhanded : s.handed t = [] := by simp [handed, lookedAt, hover]
    refine ⟨[], [], held, ?_, ?_, fun hne => absurd rfl hne, by simp [hhanded], ?_⟩
    · simpa [advance, hover] using h
    · simp [Progress.written, hover]
    · simp [KeepsAt, hover]
  · have hover : s.overlooks t = false := by simpa using hover
    cases t with
    | other raw =>
      have hhanded : s.handed (.other raw) = [] := handed_eq_nil_of_startTag? rfl
      refine ⟨[], [], held, ?_, ?_, fun hne => absurd rfl hne, by simp [hhanded], ?_⟩
      · simpa [advance, hover] using h
      · simp [Progress.written, hover]
      · simp [KeepsAt]
    | stop tag =>
      obtain ⟨written, lost, held', hholds, htext, hperm, hlost⟩ := exists_splice_stop hover h
      have hhanded : s.handed (.stop tag) = [] := handed_eq_nil_of_startTag? rfl
      refine ⟨written, lost, held', ?_, ?_, fun _ => ⟨tag, rfl⟩, by simpa [hhanded] using hperm,
        hlost⟩
      · simpa [advance, hover] using hholds
      · simpa [Progress.written, hover, Html.Token.raw] using htext
    | start tag =>
      have helements : (s.advance b (.start tag)).elements =
          if tag.opens then
            ⟨tag.name, (s.handed (.start tag)).flatMap Pending.markup⟩ :: s.elements
          else s.elements := by
        rw [handed_start hover, ← advanceStart_elements (b := b)]
        simp [advance, hover]
      by_cases hopens : tag.opens
      · refine ⟨[], [], s.handed (.start tag) :: held, ?_, ?_, fun hne => absurd rfl hne, ?_, ?_⟩
        · rw [helements, if_pos hopens]
          simpa [Holds] using h
        · simp [Progress.written, hover]
        · simpa using List.perm_append_comm
        · simp [KeepsAt, hopens]
      · refine ⟨[], s.handed (.start tag), held, ?_, ?_, fun hne => absurd rfl hne, ?_, ?_⟩
        · rw [helements, if_neg hopens]
          exact h
        · simp [Progress.written, hover]
        · simpa using List.perm_append_comm
        · simp [KeepsAt, hover, hopens]

/-! ## All tokens -/

/-- **A run makes a splice** of the text that it reads, with the links at end tags.  What is held at
first and handed over is, up to its order, what is written, what is lost and what is held in the
end. -/
theorem exists_splice {ts : List Token} (hstop : ∀ tag, .stop tag ∈ ts → ['<', '/'] <+: tag.raw)
    (h : Holds s.elements held) :
    ∃ (x : Splice) (lost : List Pending) (held' : List (List Pending)),
      x.page = ts.flatMap Token.raw ∧ x.text = s.writtenAll b ts ∧ x.IsAtEndTags ∧
      Holds (s.advanceAll b ts).elements held' ∧
      (held.flatten ++ s.handedAll b ts).Perm (x.links ++ lost ++ held'.flatten) ∧
      (lost = [] ↔ s.KeepsAll b ts) := by
  induction ts generalizing s held with
  | nil =>
    refine ⟨Splice.nil, [], held, rfl, rfl, fun piece hpiece => ?_, h, ?_, ?_⟩
    · cases hpiece
    · simp [Splice.nil, Splice.links]
    · simp [KeepsAll]
  | cons t ts ih =>
    obtain ⟨written, lost, held', hholds, htext, hwhere, hperm, hlost⟩ :=
      exists_splice_step (b := b) t h
    obtain ⟨x, lost', held'', hpage, hxtext, hx, hholds', hperm', hlost'⟩ :=
      ih (fun tag htag => hstop tag (List.mem_cons_of_mem _ htag)) hholds
    refine ⟨x.cons written t.raw, lost ++ lost', held'', ?_, ?_, hx.cons ?_, hholds', ?_, ?_⟩
    · rw [Splice.page_cons, hpage, List.flatMap_cons]
    · rw [Splice.text_cons, hxtext, writtenAll_cons, htext]
    · intro hne
      obtain ⟨tag, rfl⟩ := hwhere hne
      exact hstop tag List.mem_cons_self
    · rw [Splice.links_cons, handedAll_cons]
      rw [List.perm_iff_count] at hperm hperm' ⊢
      intro p
      have hp := hperm p
      have hp' := hperm' p
      simp only [List.count_append] at hp hp' ⊢
      omega
    · rw [List.append_eq_nil_iff, hlost, hlost', KeepsAll]

end Progress
end Citation
end PostRun
