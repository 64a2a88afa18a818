import PostRun.Bib.Entry
import PostRun.Proofs.Attempts

/-!
# The fields of an entry

The fields of an entry are kept under their names in lower case.  What is kept under a name is what
the last field of the item holds that has this name, in whatever case it is written
(`Entry.isOf_of_ofItem`).
-/

namespace PostRun
namespace Bib

/-- The last field of an item that has a name, in any case. -/
def Item.fieldNamed? (item : Item) (name : String) : Option Field :=
  item.fields.reverse.find? fun f => Text.sameIgnoringCase f.name name.toList

/-- An item gives a text under a name. -/
def Item.GivesText (abbreviations : List Field) (item : Item) (name : String)
    (text : List Char) : Prop :=
  ∃ field content, item.fieldNamed? name = some field ∧
    Content.ofValue abbreviations (isVerbatimField (Text.lower field.name))
      (abbreviations.length + 1) field.value = .ok content ∧ content.text = text

namespace Entry

/-- The text of a field, its name given in lower case. -/
def text? (e : Entry) (name : String) : Option (List Char) := (e.field? name).map Content.text

/-- **A name is bound to what the last field of that name holds**, or else to what it was bound to
before. -/
theorem find?_readFields {abbreviations fields : List Field} {m n : NameMap Content}
    (h : readFields abbreviations fields m = .ok n) (name : String) :
    (∃ field content,
      fields.reverse.find? (fun f => String.ofList (Text.lower f.name) = name) = some field ∧
      Content.ofValue abbreviations (isVerbatimField (Text.lower field.name))
        (abbreviations.length + 1) field.value = .ok content ∧ n.find? name = some content) ∨
    (fields.reverse.find? (fun f => String.ofList (Text.lower f.name) = name) = none ∧
      n.find? name = m.find? name) := by
  induction fields generalizing m with
  | nil =>
    cases h
    exact .inr ⟨rfl, rfl⟩
  | cons first fields ih =>
    rw [readFields] at h
    obtain ⟨value, hvalue, h⟩ := bind_eq_ok_iff.1 h
    rw [List.reverse_cons, List.find?_append]
    rcases ih h with ⟨field, content, hlast, hcontent, hfind⟩ | ⟨hnone, hfind⟩
    · exact .inl ⟨field, content, by rw [hlast, Option.some_or], hcontent, hfind⟩
    · rw [hnone, Option.none_or, hfind, NameMap.find?_insert]
      by_cases hname : String.ofList (Text.lower first.name) = name
      · exact .inl ⟨first, value, by simp [hname], hvalue, by rw [if_pos hname.symm]⟩
      · exact .inr ⟨by simp [hname], by rw [if_neg (Ne.symm hname)]⟩

/-- An entry is that of an item. -/
structure IsOf (abbreviations : List Field) (item : Item) (e : Entry) : Prop where
  kind : e.kind = item.kind
  key : e.key = String.ofList item.key
  text : ∀ name text, e.text? (String.ofList (Text.lower name.toList)) = some text ↔
    item.GivesText abbreviations name text

/-- **The entry of an item has the fields of the item**, under their names in lower case. -/
theorem isOf_of_ofItem {abbreviations : List Field} {item : Item} {e : Entry}
    (h : ofItem abbreviations item = .ok e) : e.IsOf abbreviations item := by
  rw [ofItem] at h
  obtain ⟨fields, hfields, h⟩ := bind_eq_ok_iff.1 h
  cases h
  refine ⟨rfl, rfl, fun name text => ?_⟩
  have hsame : (fun f : Field => decide (String.ofList (Text.lower f.name) =
      String.ofList (Text.lower name.toList))) =
        fun f => Text.sameIgnoringCase f.name name.toList := by
    funext f
    rw [Bool.eq_iff_iff, decide_eq_true_iff, String.ofList_inj, Text.sameIgnoringCase_iff]
  have hfind := find?_readFields hfields (String.ofList (Text.lower name.toList))
  rw [hsame] at hfind
  rw [text?, field?, Item.GivesText, Item.fieldNamed?]
  rcases hfind with ⟨field, content, hlast, hcontent, hfind⟩ | ⟨hnone, hfind⟩
  · simp [hfind, hlast, hcontent]
  · simp [hfind, hnone]

end Entry
end Bib
end PostRun
