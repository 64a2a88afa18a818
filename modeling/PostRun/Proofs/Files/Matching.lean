import PostRun.Proofs.Files.NameBytes

/-!
# What a pattern stands for

Names are matched by following how many of their bytes can have been taken.  What a pattern is
meant to be is a set of names.  Here the set is given by recursion on the pattern (`Glob.Denotes`),
and a name matches a pattern if and only if it is in the set (`Glob.accepts_iff`).

The induction on the pattern has to speak of the middle of a name: behind a pattern a byte can be
reached if some place before it can be, and the bytes between the two are denoted by the pattern
(`Glob.getElem?_behind`).  What follows further on in the name does not matter.
-/

namespace PostRun
namespace Files
namespace Glob

/-- The runs of bytes that a pattern stands for. -/
def Denotes : Glob → List UInt8 → Prop
  | nothing, bytes => bytes = []
  | one c, bytes => ∃ byte, c.accepts byte ∧ bytes = [byte]
  | run, _ => True
  | both p q, bytes => ∃ front back, p.Denotes front ∧ q.Denotes back ∧ bytes = front ++ back
  | either p q, bytes => p.Denotes bytes ∨ q.Denotes bytes

/-! ## Matching -/

/-- Behind a byte is taken what was taken before it, if the class holds the byte. -/
theorem getElem?_advance {c : ByteClass} {s : List UInt8} {t : Taken} {i : Nat} :
    (advance c s t)[i]? = some true ↔
      t[i]? = some true ∧ ∃ byte, s[i]? = some byte ∧ c.accepts byte := by
  induction s generalizing t i with
  | nil => simp [advance]
  | cons byte s ih =>
    cases t with
    | nil => simp [advance]
    | cons reached t => cases i with
      | zero => simp [advance]
      | succ i => simpa [advance] using ih

/-- Behind any more bytes is taken what lies behind something taken. -/
theorem getElem?_spread {reached : Bool} {t : Taken} {j : Nat} :
    (spread reached t)[j]? = some true ↔
      j < t.length ∧ (reached ∨ ∃ i ≤ j, t[i]? = some true) := by
  induction t generalizing reached j with
  | nil => simp [spread]
  | cons first t ih =>
    cases j with
    | zero => simp [spread]
    | succ j =>
      have hsplit : (∃ i ≤ j + 1, (first :: t)[i]? = some true) ↔
          first = true ∨ ∃ i ≤ j, t[i]? = some true := by
        constructor
        · rintro ⟨i, hi, hfirst⟩
          cases i with
          | zero => exact .inl (by simpa using hfirst)
          | succ i => exact .inr ⟨i, by omega, by simpa using hfirst⟩
        · rintro (rfl | ⟨i, hi, h⟩)
          · exact ⟨0, by omega, rfl⟩
          · exact ⟨i + 1, by omega, by simpa using h⟩
      rw [spread, List.getElem?_cons_succ, ih, hsplit]
      simp [or_assoc]

/-- **Behind a pattern is taken what the pattern stands for**, behind something taken before it. -/
theorem getElem?_behind {p : Glob} {t : Taken} {taken rest : List UInt8}
    (h : t.length = (taken ++ rest).length + 1) :
    (p.behind (taken ++ rest) t)[taken.length]? = some true ↔
      ∃ before word, taken = before ++ word ∧ t[before.length]? = some true ∧ p.Denotes word := by
  induction p generalizing t taken rest with
  | nothing => simp [behind, Denotes]
  | one c =>
    rcases List.eq_nil_or_concat taken with rfl | ⟨before, byte, rfl⟩
    · simp [behind, Denotes]
    · have hbyte : (before.concat byte ++ rest)[before.length]? = some byte := by simp
      rw [behind, List.length_concat, List.getElem?_cons_succ, getElem?_advance, hbyte]
      simp only [Option.some.injEq, exists_eq_left', List.concat_eq_append, Denotes]
      constructor
      · rintro ⟨hreached, haccepts⟩
        exact ⟨before, [byte], rfl, hreached, byte, haccepts, rfl⟩
      · rintro ⟨before', _, hsplit, hreached, byte', haccepts, rfl⟩
        obtain ⟨rfl, hbytes⟩ := List.append_inj' hsplit rfl
        obtain rfl := List.singleton_inj.1 hbytes
        exact ⟨hreached, haccepts⟩
  | run =>
    have hlength : taken.length < t.length := by
      rw [h, List.length_append]
      omega
    rw [behind, getElem?_spread]
    simp only [hlength, true_and, Bool.false_eq_true, false_or, Denotes, and_true]
    constructor
    · rintro ⟨i, hi, hreached⟩
      refine ⟨taken.take i, taken.drop i, (List.take_append_drop i taken).symm, ?_⟩
      rwa [List.length_take_of_le hi]
    · rintro ⟨before, word, rfl, hreached⟩
      exact ⟨before.length, by simp, hreached⟩
  | both p q ihp ihq =>
    rw [behind, ihq (p.length_behind h)]
    constructor
    · rintro ⟨before, back, rfl, hreached, hback⟩
      rw [List.append_assoc] at h hreached
      obtain ⟨before, front, rfl, hreached, hfront⟩ := (ihp h).1 hreached
      exact ⟨before, front ++ back, List.append_assoc .., hreached, front, back, hfront, hback, rfl⟩
    · rintro ⟨before, _, rfl, hreached, front, back, hfront, hback, rfl⟩
      refine ⟨before ++ front, back, (List.append_assoc ..).symm, ?_, hback⟩
      have hsplit : before ++ (front ++ back) ++ rest = before ++ front ++ (back ++ rest) := by
        simp
      rw [hsplit] at h ⊢
      exact (ihp h).2 ⟨before, front, rfl, hreached, hfront⟩
  | either p q ihp ihq =>
    have hbound : ∀ q : Glob, taken.length < (q.behind (taken ++ rest) t).length := by
      intro q
      rw [q.length_behind h, List.length_append]
      omega
    have hor : (behind (taken ++ rest) (either p q) t)[taken.length]? = some true ↔
        (p.behind (taken ++ rest) t)[taken.length]? = some true ∨
          (q.behind (taken ++ rest) t)[taken.length]? = some true := by
      rw [behind, List.getElem?_zipWith, List.getElem?_eq_getElem (hbound p),
        List.getElem?_eq_getElem (hbound q)]
      simp only [Option.some.injEq, Bool.or_eq_true]
    rw [hor, ihp h, ihq h]
    simp only [Denotes, and_or_left, exists_or]

/-- At the front only nothing is taken. -/
theorem getElem?_atFront {s before : List UInt8} :
    (atFront s)[before.length]? = some true ↔ before = [] := by
  cases before with
  | nil => simp [atFront]
  | cons byte before =>
    rw [atFront, List.length_cons, List.getElem?_cons_succ, List.getElem?_map]
    cases s[before.length]? <;> simp

/-- **A name matches a pattern that stands for its bytes**, and no other one. -/
theorem accepts_iff {p : Glob} {name : String} :
    p.accepts name ↔ p.Denotes (textBytes name.toList) := by
  rw [accepts]
  generalize textBytes name.toList = s
  have hfront : (atFront s).length = (s ++ []).length + 1 := by simp [atFront]
  have hlength : (p.behind s (atFront s)).length = s.length + 1 := by
    simpa using p.length_behind (by simpa using hfront)
  have hlast : (p.behind s (atFront s)).getLastD false = true ↔
      (p.behind s (atFront s))[s.length]? = some true := by
    rw [List.getLastD_eq_getLast?, List.getLast?_eq_getElem?, hlength, Nat.add_sub_cancel,
      List.getElem?_eq_getElem (by omega)]
    simp
  have hbehind := getElem?_behind (p := p) hfront
  rw [List.append_nil] at hbehind
  rw [hlast, hbehind]
  simp only [getElem?_atFront]
  constructor
  · rintro ⟨_, word, rfl, rfl, hword⟩
    exact hword
  · intro hdenotes
    exact ⟨[], s, rfl, rfl, hdenotes⟩

end Glob
end Files
end PostRun
