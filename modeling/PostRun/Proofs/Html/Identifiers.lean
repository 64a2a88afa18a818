import Mathlib.Data.List.Find
import PostRun.Proofs.Html.Steps

/-!
# Identifiers as they are written

The identifier of a tag is kept twice.  Once it is the value of the attribute as it is written, and
once it is read as text, and then a byte order mark in front of the value or of the name of its
attribute is no part of them.  On a page without such marks there is no difference
(`idText_eq_id_of_mem_cut`).

The machine that reads the inside of a tag holds what it has read of an attribute in its place, so
what is shown of it is that a mark is in no place, and in no attribute that is completed, if it is
in no character that was read (`Place.not_mem_of_step_eq_go`).
-/

namespace PostRun

/-- Text that does not begin with a mark has none to lose. -/
theorem Text.unmarked_of_not_mem {cs : List Char} (h : '\ufeff' ∉ cs) : unmarked cs = cs := by
  unfold unmarked
  split
  · exact absurd List.mem_cons_self h
  · rfl

namespace Html

/-- A mark is no letter that has a lower case. -/
theorem not_mem_nameOf {cs : List Char} (h : '\ufeff' ∉ cs) : '\ufeff' ∉ (nameOf cs).toList := by
  rw [nameOf, String.toList_ofList, Text.lower, List.mem_map]
  rintro ⟨c, hc, hlower⟩
  unfold Char.toLower at hlower
  split at hlower
  · next hbounds =>
    have hletter : c.val.toNat ≤ 90 := UInt32.le_iff_toNat_le.1 hbounds.2
    have hmark : (c.val + 32).toNat = 0xfeff := congrArg (fun d : Char => d.val.toNat) hlower
    have hsum : (c.val + 32).toNat = (c.val.toNat + 32) % 2 ^ 32 := UInt32.toNat_add c.val 32
    omega
  · exact h (hlower ▸ hc)

namespace Attribute

/-- There is no mark in the name of an attribute, and none in its value. -/
def IsUnmarked (a : Attribute) : Prop := '\ufeff' ∉ a.name.toList ∧ '\ufeff' ∉ a.value

end Attribute

namespace Place

/-- What a place holds of an attribute. -/
def held : Place → List Char
  | inName name => name
  | afterName name => name
  | beforeValue name => name
  | quoted _ name value => name ++ value
  | bare name value => name ++ value
  | _ => []

variable {p next : Place} {c : Char} {completed : Option Attribute} {selfClosing : Bool}

theorem isUnmarked_attributeOf {name value : List Char} (hname : '\ufeff' ∉ name)
    (hvalue : '\ufeff' ∉ value) : (attributeOf name value).IsUnmarked :=
  ⟨not_mem_nameOf (by simpa using hname), by simpa [attributeOf] using hvalue⟩

/-- **One character.**  A mark is not held behind it, and not completed. -/
theorem not_mem_of_step_eq_go (hp : '\ufeff' ∉ p.held) (hc : '\ufeff' ≠ c)
    (h : p.step c = .go next completed) :
    '\ufeff' ∉ next.held ∧ ∀ a ∈ completed, a.IsUnmarked := by
  cases p <;> simp only [step, start] at h <;> split_ifs at h <;> cases h <;>
    simp_all [held, isUnmarked_attributeOf]

theorem not_mem_of_step_eq_stop (hp : '\ufeff' ∉ p.held)
    (h : p.step c = .stop completed selfClosing) : ∀ a ∈ completed, a.IsUnmarked := by
  cases p <;> simp only [step, start] at h <;> split_ifs at h <;> cases h <;>
    simp_all [held, isUnmarked_attributeOf]

end Place

namespace Inside

/-- **All characters.** -/
theorem isUnmarked_of_mem_attributes {p : Place} {cs : List Char} {tag : Inside}
    (hp : '\ufeff' ∉ p.held) (hcs : '\ufeff' ∉ cs) (h : read p cs = some tag) :
    ∀ a ∈ tag.attributes, a.IsUnmarked := by
  induction cs generalizing p tag with
  | nil => cases h
  | cons c cs ih =>
    obtain ⟨hc, hrest⟩ := not_or.1 (mt List.mem_cons.2 hcs)
    unfold read at h
    split at h
    · next hstep =>
      cases h
      exact fun a ha => Place.not_mem_of_step_eq_stop hp hstep a (by simpa using ha)
    · next hstep =>
      obtain ⟨inner, hinner, rfl⟩ := Option.map_eq_some_iff.1 h
      obtain ⟨hnext, hcompleted⟩ := Place.not_mem_of_step_eq_go hp hc hstep
      intro a ha
      rcases List.mem_append.1 ha with ha | ha
      · exact hcompleted a (by simpa using ha)
      · exact ih hnext hrest hinner a ha

/-- Where no attribute has a mark, a value is read as it is written. -/
theorem textOf?_eq_value? {tag : Inside} (h : ∀ a ∈ tag.attributes, a.IsUnmarked) (name : String) :
    tag.textOf? name = tag.value? name := by
  have hsame : tag.attributes.find? (fun a => Text.unmarked a.name.toList = name.toList) =
      tag.attributes.find? fun a => a.name = name := by
    refine List.find?_congr fun a ha => decide_eq_decide.2 ?_
    rw [Text.unmarked_of_not_mem (h a ha).1, String.toList_inj]
  rw [textOf?, value?, hsame]
  refine Option.map_congr fun a ha => ?_
  exact Text.unmarked_of_not_mem (h a (List.mem_of_find?_eq_some ha)).2

end Inside

/-! ## Along a page -/

/-- **One step.** -/
theorem CutStep.idText_eq_id {s next : State} {cs rest : List Char} {ts : List Token}
    (h : CutStep s cs ts next rest) (hcs : '\ufeff' ∉ cs) {tag : StartTag}
    (htag : .start tag ∈ ts) : tag.idText = tag.id := by
  cases h with
  | start _ hfront _ hread =>
    have hinner : '\ufeff' ∉ _ := fun hmem => hcs (by
      rw [Front.eq_of_startTag hfront]
      exact List.mem_append_right _ hmem)
    cases List.mem_singleton.1 htag
    have hnone : '\ufeff' ∉ Place.beforeName.held := List.not_mem_nil
    exact Inside.textOf?_eq_value? (Inside.isUnmarked_of_mem_attributes hnone hinner hread) "id"
  | stop => cases List.mem_singleton.1 htag
  | other => cases List.mem_singleton.1 htag
  | @text _ _ _ text =>
    rcases List.mem_append.1 htag with hmem | hmem
    · obtain ⟨raw, hraw⟩ := areStretches_textTokens text _ hmem
      cases hraw
    · cases List.mem_singleton.1 hmem

/-- **On a page without marks, an identifier is read as it is written.** -/
theorem idText_eq_id_of_mem_cut {page : List Char} (hclear : (cut page).doubtful = none)
    (hpage : '\ufeff' ∉ page) {tag : StartTag} (htag : .start tag ∈ (cut page).tokens) :
    tag.idText = tag.id := by
  rw [← cutAt_start] at hclear htag
  refine cutAt_induction
    (P := fun _ cs ts => '\ufeff' ∉ cs → ∀ tag, .start tag ∈ ts → tag.idText = tag.id) ?_ ?_
    State.isValid_start hclear hpage tag htag
  · intro s cs ts hts _ tag hmem
    obtain ⟨raw, hraw⟩ := hts _ hmem
    cases hraw
  · intro s next cs rest ts us hstep ih hcs tag hmem
    have hrest : '\ufeff' ∉ rest := fun hmem => hcs (by
      rw [← hstep.flatMap_raw_append]
      exact List.mem_append_right _ hmem)
    rcases List.mem_append.1 hmem with hmem | hmem
    · exact hstep.idText_eq_id hcs hmem
    · exact ih hrest tag hmem

end Html
end PostRun
