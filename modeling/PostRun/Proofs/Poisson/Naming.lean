import PostRun.Proofs.Poisson.Shape
import PostRun.Proofs.Volume.GridNames

/-!
# Elements told apart by their names

The names of elements are kept in one run of text, and nothing else of what they are.  So the
elements have to be found in the text again.  Two encodings stand inside of each other.  A name is
three numbers with fixed characters between them, and a run of text is names with a colon behind
each.  The outer one cuts where it should because the inner one never writes a colon, and what it
cuts out can be read because the inner one is read in one way only.

* `Place.mapM_ofText?_map_text`: the names of places are read as the places.
* `Place.joinGridNames_injective`: a run of text belongs to one list of places.
* `Verification.mapM_ofText?_gridNames`: what is stored of a verification says which elements there
  are.
-/

namespace PostRun
namespace Poisson

namespace Place

/-- Every name is read, in the order of the places. -/
theorem mapM_ofText?_map_text (places : List Place) :
    (places.map text).mapM ofText? = some places := by
  induction places with
  | nil => rfl
  | cons p places ih =>
    rw [List.map_cons, List.mapM_cons, ofText?_text, ih]
    rfl

/-- The names of places are cut where they were joined. -/
theorem splitGridNames_joinGridNames (places : List Place) :
    Volume.splitGridNames (Volume.joinGridNames (places.map text)) = places.map text :=
  Volume.splitGridNames_joinGridNames (List.forall_mem_map.2 fun p _ => p.nameEnd_not_mem_text)

/-- A run of text belongs to one list of places. -/
theorem joinGridNames_injective :
    Function.Injective fun places : List Place => Volume.joinGridNames (places.map text) := by
  intro places others h
  have hnames := congrArg Volume.splitGridNames h
  simp only [splitGridNames_joinGridNames] at hnames
  exact text_injective.list_map hnames

end Place

/-- The names of elements are those of their places. -/
theorem ElementId.map_text (ids : List ElementId) :
    ids.map text = (ids.map place).map Place.text := by
  rw [List.map_map]
  exact List.map_congr_left fun id _ => id.text_eq

/-! ## What is stored -/

namespace Verification

variable {α : Type u} [Elementary α] [LT α] (nodes : List α) (solution : Solution α)
  (domain : Interval α)

/-- The data of the elements is stored under their names, in their order. -/
theorem gridNames_samples :
    (ofSamples (samples nodes solution domain)).volumeData.gridNames =
      (domain.elements.map (·.id)).map ElementId.text := by
  rw [gridNames_ofSamples, ← ids_residuals nodes solution domain, List.map_map]
  rfl

/-- The stored names say which elements there are. -/
theorem mapM_ofText?_gridNames :
    (ofSamples (samples nodes solution domain)).volumeData.gridNames.mapM Place.ofText? =
      some (domain.elements.map (·.id.place)) := by
  rw [gridNames_samples, ElementId.map_text, Place.mapM_ofText?_map_text, List.map_map]
  rfl

end Verification

/-- Applying the operator gives the samples of all elements at some nodes. -/
theorem exists_applyOperator_eq_ok (solution : Solution Binary64) (domain : Interval Binary64) :
    ∃ nodes : List Binary64, (applyOperator solution domain).value =
      .ok (.ofSamples (Verification.samples nodes solution domain)) := by
  obtain ⟨nodes, hnodes, hlength⟩ : ∃ nodes : List Binary64, _ :=
    Lobatto.points_eq_ok domain.two_le_points
  have hne : nodes ≠ [] := List.ne_nil_of_length_pos (by have := domain.two_le_points; omega)
  refine ⟨nodes, ?_⟩
  rw [applyOperator, Verification.ofSolution, hnodes]
  simp only [bind, Except.bind, Verification.atNodes_eq_ok hne]

/-! ## Identity -/

/-- **An element is known by its name**, alone and among others.

* A name is read as the place that it is written for, and only what is written is read.  So two
  places do not have the same name, however many digits their numbers have.
* There is no colon in a name.  So the names of places survive in one run of text, the places are
  read off them, and the text belongs to no other list of places.
* An element has the name of its place, and no two elements have the same place.  So no two of them
  have the same name.
* What is stored of a verification bears the names of the elements of the domain in their order, no
  two of them alike.  When they are read from a file, they say which elements there are. -/
theorem names_identify_elements :
    (∀ (name : String) (p : Place), Place.ofText? name = some p ↔ name = p.text) ∧
    Function.Injective Place.text ∧
    (∀ p : Place, Volume.nameEnd ∉ p.text.toList) ∧
    (∀ places : List Place,
      Volume.splitGridNames (Volume.joinGridNames (places.map Place.text)) =
        places.map Place.text ∧
      (Volume.splitGridNames (Volume.joinGridNames (places.map Place.text))).mapM Place.ofText? =
        some places) ∧
    Function.Injective (fun places : List Place => Volume.joinGridNames (places.map Place.text)) ∧
    (∀ id : ElementId, id.text = id.place.text) ∧ Function.Injective ElementId.place ∧
    Function.Injective ElementId.text ∧
    ∀ (solution : Solution Binary64) (domain : Interval Binary64), ∃ v,
      (applyOperator solution domain).value = .ok v ∧
      v.residuals.map (·.1) = domain.elements.map (·.id) ∧
      v.volumeData.gridNames = (domain.elements.map (·.id)).map ElementId.text ∧
      v.volumeData.gridNames.Nodup ∧
      v.volumeData.gridNames.mapM Place.ofText? = some (domain.elements.map (·.id.place)) ∧
      ∀ (file : Volume.File Binary64) (name : String),
        (file.insert name v.volumeData).gridNames name = .ok v.volumeData.gridNames := by
  refine ⟨fun name p => Place.ofText?_eq_some_iff, Place.text_injective,
    Place.nameEnd_not_mem_text, fun places => ⟨Place.splitGridNames_joinGridNames places, ?_⟩,
    Place.joinGridNames_injective, ElementId.text_eq, ElementId.place_injective,
    ElementId.text_injective, fun solution domain => ?_⟩
  · rw [Place.splitGridNames_joinGridNames, Place.mapM_ofText?_map_text]
  · obtain ⟨nodes, hvalue⟩ := exists_applyOperator_eq_ok solution domain
    have hnames := Verification.gridNames_samples nodes solution domain
    refine ⟨_, hvalue, Verification.ids_residuals nodes solution domain, hnames,
      (Verification.hasShape_ofSamples nodes solution domain).nodup_gridNames,
      Verification.mapM_ofText?_gridNames nodes solution domain, fun file name => ?_⟩
    refine Volume.File.gridNames_eq_ok (Volume.File.find?_contents_insert file name _) ?_
    rw [hnames]
    exact List.forall_mem_map.2 fun id _ => id.nameEnd_not_mem_text

/-- Two names whose numbers have the same digits between them, the greatest numbers that an element
can have, and the two elements of the halved unit. -/
theorem names_identify_elements_sameDigits :
    Place.text ⟨0, 12, 3⟩ = "[B0,(L12I3)]" ∧ Place.text ⟨0, 1, 23⟩ = "[B0,(L1I23)]" ∧
    Place.text ⟨0, 12, 3⟩ ≠ Place.text ⟨0, 1, 23⟩ ∧
    Place.ofText? "[B18446744073709551615,(L63I9223372036854775807)]" =
      some ⟨18446744073709551615, 63, 9223372036854775807⟩ ∧
    Place.ofText? "[B0,(L01I3)]" ≠ some ⟨0, 1, 3⟩ ∧
    (Volume.splitGridNames "[B0,(L12I3)]:[B0,(L1I23)]:").mapM Place.ofText? =
      some [⟨0, 12, 3⟩, ⟨0, 1, 23⟩] ∧
    ∃ v, (applyOperator (.sinusoid .zero) halvedUnit).value = .ok v ∧
      v.volumeData.gridNames = ["[B0,(L1I0)]", "[B0,(L1I1)]"] := by
  obtain ⟨hread, hinjective, -, hlists, -, -, -, -, hstored⟩ := names_identify_elements
  obtain ⟨v, hvalue, -, hnames, -⟩ := hstored (.sinusoid .zero) halvedUnit
  have hrun : Volume.joinGridNames ([⟨0, 12, 3⟩, ⟨0, 1, 23⟩].map Place.text) =
      "[B0,(L12I3)]:[B0,(L1I23)]:" := by decide
  refine ⟨by decide, by decide, ?_, ?_, ?_, ?_, v, hvalue, ?_⟩
  · rw [hinjective.ne_iff]
    decide
  · rw [hread]
    decide
  · rw [Ne, hread]
    decide
  · rw [← hrun]
    exact (hlists _).2
  · rw [hnames]
    rfl

end Poisson
end PostRun
