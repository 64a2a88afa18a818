import PostRun.Proofs.Html.Steps

/-!
# The surroundings of a tag

Cutting a page follows the vocabularies from tag to tag, and what it knows of them is gone when the
page is cut.  The tokens do not hold it, but they hold their own text, and that suffices.  What is
inside of a start tag can be read off the tag again, because it does not depend on what follows
(`State.inside?_startTag`).  So the vocabularies behind some tokens are a folding along these tokens
(`surroundings`), and no run of the cutting is needed to say which they are.

Whether a tag is understood by its name is a matter of its name and of the vocabularies in front of
it.  For one step of the cutting this is `CutStep.areUnderstood`, and by induction on the text it
holds of all tokens of a page (`areUnderstood_cutAt`).  In particular a start tag that has to be
read to its end stands in a drawing or a formula (`current_ne_plain_of_needsInside`).
-/

namespace PostRun
namespace Html

/-! ## Vocabularies along tokens -/

/-- What is inside of a start tag, read off its text. -/
def StartTag.inside? (tag : StartTag) : Option Inside :=
  match Front.ofText tag.raw with
  | .startTag _ inner => Inside.read .beforeName inner
  | _ => none

namespace Vocabularies

/-- The vocabularies behind a token. -/
def behindToken (vs : Vocabularies) : Token → Vocabularies
  | .other _ => vs
  | .start tag => (tag.inside?.map (vs.behindStart tag.name)).getD vs
  | .stop tag => vs.behindEnd tag.name

end Vocabularies

/-- The vocabularies behind tokens, in plain markup at first. -/
def surroundings (ts : List Token) : Vocabularies := ts.foldl Vocabularies.behindToken []

/-- Whether a tag is understood by its name is known from the vocabularies that it stands in. -/
def Token.IsUnderstoodIn (vs : Vocabularies) : Token → Prop
  | .other _ => True
  | .start tag => tag.byName = !vs.needsInside tag.name
  | .stop tag => tag.byName = !vs.needsInsideOfEnd tag.name

/-- This holds of all tokens, each in the vocabularies behind the ones before it. -/
def AreUnderstood : Vocabularies → List Token → Prop
  | _, [] => True
  | vs, t :: ts => t.IsUnderstoodIn vs ∧ AreUnderstood (vs.behindToken t) ts

theorem areUnderstood_append {vs : Vocabularies} {ts us : List Token} :
    AreUnderstood vs (ts ++ us) ↔
      AreUnderstood vs ts ∧ AreUnderstood (ts.foldl Vocabularies.behindToken vs) us := by
  induction ts generalizing vs with
  | nil => simp [AreUnderstood]
  | cons t ts ih => simp [AreUnderstood, ih, and_assoc]

/-- Stretches that are no tags lead nowhere else. -/
theorem AreStretches.areUnderstood {ts : List Token} (h : AreStretches ts) (vs : Vocabularies) :
    AreUnderstood vs ts ∧ ts.foldl Vocabularies.behindToken vs = vs := by
  induction ts with
  | nil => exact ⟨trivial, rfl⟩
  | cons t ts ih =>
    obtain ⟨raw, rfl⟩ := h t List.mem_cons_self
    obtain ⟨hrest, hsame⟩ := ih fun u hu => h u (List.mem_cons_of_mem _ hu)
    exact ⟨⟨trivial, hrest⟩, hsame⟩

/-! ## Along a page -/

section Steps

variable {s next : State} {cs rest : List Char} {ts : List Token}

/-- What is inside of a start tag is found again in its text. -/
theorem State.inside?_startTag (s : State) (guard : Guard) {chars inner : List Char} {tag : Inside}
    (hfront : Front.ofText cs = .startTag chars inner)
    (htag : Inside.read .beforeName inner = some tag) :
    (s.startTag guard chars tag).inside? = some { tag with rest := [] } := by
  have hagain := Front.ofText_congr_startTag hfront htag []
  rw [List.append_nil, List.append_nil] at hagain
  have hread := Inside.read_append htag []
  rw [List.append_nil] at hread
  rw [StartTag.inside?, State.startTag, hagain]
  exact hread

/-- **One step.**  What is known of the vocabularies in front of the tokens that are taken, and of
those behind them. -/
theorem CutStep.areUnderstood (h : CutStep s cs ts next rest) :
    AreUnderstood s.vocabularies ts ∧
      ts.foldl Vocabularies.behindToken s.vocabularies = next.vocabularies := by
  induction h with
  | @start s _ chars _ guard tag _ hfront _ htag =>
    have hinside := s.inside?_startTag guard hfront htag
    refine ⟨⟨rfl, trivial⟩, ?_⟩
    simp only [List.foldl_cons, List.foldl_nil, Vocabularies.behindToken, hinside, Option.map_some,
      Option.getD_some]
    rfl
  | stop => exact ⟨⟨rfl, trivial⟩, rfl⟩
  | other => exact ⟨⟨trivial, trivial⟩, rfl⟩
  | @text s _ _ text _ _ _ _ _ _ _ _ ih =>
    obtain ⟨htext, hsame⟩ := (areStretches_textTokens text).areUnderstood s.vocabularies
    rw [areUnderstood_append, List.foldl_append, hsame]
    exact ⟨⟨htext, ih.1⟩, ih.2⟩

/-- **A whole text.** -/
theorem areUnderstood_cutAt (hs : s.IsValid) (hclear : (cutAt s cs).doubtful = none) :
    AreUnderstood s.vocabularies (cutAt s cs).tokens := by
  refine cutAt_induction (P := fun s _ ts => AreUnderstood s.vocabularies ts) ?_ ?_ hs hclear
  · intro s cs ts hts
    exact (hts.areUnderstood s.vocabularies).1
  · intro s next cs rest ts us hstep ih
    obtain ⟨htaken, hbehind⟩ := hstep.areUnderstood
    rw [areUnderstood_append, hbehind]
    exact ⟨htaken, ih⟩

end Steps

/-- **A token of a page** is understood as the vocabularies say that it stands in. -/
theorem isUnderstoodIn_surroundings {page : List Char} (hclear : (cut page).doubtful = none)
    {before after : List Token} {t : Token} (htokens : (cut page).tokens = before ++ t :: after) :
    t.IsUnderstoodIn (surroundings before) := by
  rw [← cutAt_start] at hclear htokens
  have hall := areUnderstood_cutAt State.isValid_start hclear
  rw [htokens, areUnderstood_append] at hall
  exact hall.2.1

namespace Vocabularies

/-- A start tag that has to be read to its end stands in a drawing or a formula. -/
theorem current_ne_plain_of_needsInside {vs : Vocabularies} {name : String}
    (h : vs.needsInside name) : vs.current ≠ .plain := by
  intro hplain
  simp [needsInside, hplain] at h

end Vocabularies
end Html
end PostRun
