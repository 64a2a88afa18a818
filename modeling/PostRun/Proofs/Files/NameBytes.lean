import Mathlib.Data.Char
import PostRun.Files.Glob
import PostRun.Proofs.Text.ByteOrder

/-!
# Names in their bytes

A pattern is matched against the bytes of a name, while it is meant for the characters.  For text
that stands for itself the two agree: where the bytes of a text begin a run of bytes, the text
begins the name (`exists_append_of_textBytes_eq_append`), and where they end it, the text ends the
name (`exists_append_of_textBytes_eq_append_right`).  The first holds because no character begins
with all the bytes of another one, the second because the first byte of a character is never found
further on in a character.
-/

namespace PostRun
namespace Files

@[simp] theorem textBytes_nil : textBytes [] = [] := rfl

@[simp] theorem textBytes_cons (c : Char) (cs : List Char) :
    textBytes (c :: cs) = charBytes c ++ textBytes cs := rfl

@[simp] theorem textBytes_append (as bs : List Char) :
    textBytes (as ++ bs) = textBytes as ++ textBytes bs := List.flatMap_append

theorem charBytes_ne_nil (c : Char) : charBytes c ≠ [] := String.utf8EncodeChar_ne_nil

theorem textBytes_eq_nil_iff {cs : List Char} : textBytes cs = [] ↔ cs = [] := by
  cases cs with
  | nil => simp
  | cons c cs => simp [charBytes_ne_nil]

/-- A character is told by the bytes that a text begins with. -/
theorem charBytes_append_inj {c d : Char} {x y : List UInt8}
    (h : charBytes c ++ x = charBytes d ++ y) : c = d ∧ x = y := by
  have hne : ∀ {a b : Char} {u v : List UInt8}, a < b → charBytes a ++ u ≠ charBytes b ++ v :=
    fun {a b u v} hlt heq => List.lt_irrefl _ (heq ▸ Text.utf8EncodeChar_append_lt hlt u v)
  rcases lt_trichotomy c d with hlt | rfl | hgt
  · exact absurd h (hne hlt)
  · exact ⟨rfl, List.append_cancel_left h⟩
  · exact absurd h.symm (hne hgt)

/-- **What begins with the bytes of a text begins with the text.** -/
theorem exists_append_of_textBytes_eq_append {as cs : List Char} {x : List UInt8}
    (h : textBytes cs = textBytes as ++ x) : ∃ bs, cs = as ++ bs ∧ x = textBytes bs := by
  induction as generalizing cs with
  | nil => exact ⟨cs, rfl, h.symm⟩
  | cons a as ih =>
    cases cs with
    | nil =>
      rw [textBytes_nil, textBytes_cons, List.append_assoc] at h
      exact absurd (List.append_eq_nil_iff.1 h.symm).1 (charBytes_ne_nil a)
    | cons c cs =>
      rw [textBytes_cons, textBytes_cons, List.append_assoc] at h
      obtain ⟨rfl, hrest⟩ := charBytes_append_inj h
      obtain ⟨bs, rfl, hbs⟩ := ih hrest
      exact ⟨bs, rfl, hbs⟩

theorem textBytes_injective {as bs : List Char} (h : textBytes as = textBytes bs) : as = bs := by
  have happend : textBytes as = textBytes bs ++ [] := by rw [h, List.append_nil]
  obtain ⟨rest, hsplit, hrest⟩ := exists_append_of_textBytes_eq_append happend
  rw [hsplit, textBytes_eq_nil_iff.1 hrest.symm, List.append_nil]

/-- A character has a byte in front that tells it from the middle of a character. -/
theorem exists_charBytes_eq_cons (c : Char) :
    ∃ byte rest, charBytes c = byte :: rest ∧ byte.IsUTF8FirstByte := by
  obtain ⟨byte, rest, hbytes⟩ := List.exists_cons_of_ne_nil (charBytes_ne_nil c)
  refine ⟨byte, rest, hbytes, ?_⟩
  have hfirst : ∀ h : 0 < (charBytes c).length, (charBytes c)[0].IsUTF8FirstByte := fun _ =>
    UInt8.isUTF8FirstByte_getElem_utf8EncodeChar.2 rfl
  simp only [hbytes] at hfirst
  exact hfirst (Nat.succ_pos _)

/-- Such a byte is found nowhere else in a character. -/
theorem eq_nil_of_charBytes_eq_append {c : Char} {x y : List UInt8} {byte : UInt8}
    (h : charBytes c = x ++ byte :: y) (hbyte : byte.IsUTF8FirstByte) : x = [] := by
  have hplace : ∀ h : x.length < (charBytes c).length,
      (charBytes c)[x.length].IsUTF8FirstByte → x.length = 0 := fun _ =>
    UInt8.isUTF8FirstByte_getElem_utf8EncodeChar.1
  simp only [h] at hplace
  exact List.length_eq_zero_iff.1 (hplace (by simp) (by simpa using hbyte))

/-- **What ends with the bytes of a text ends with the text.** -/
theorem exists_append_of_textBytes_eq_append_right {bs cs : List Char} {x : List UInt8}
    (h : textBytes cs = x ++ textBytes bs) : ∃ as, cs = as ++ bs ∧ x = textBytes as := by
  induction cs generalizing x with
  | nil =>
    obtain ⟨hx, hbs⟩ := List.append_eq_nil_iff.1 h.symm
    exact ⟨[], by rw [textBytes_eq_nil_iff.1 hbs, List.append_nil], hx⟩
  | cons c cs ih =>
    rw [textBytes_cons] at h
    rcases List.append_eq_append_iff.1 h with ⟨y, rfl, hrest⟩ | ⟨y, hc, hbs⟩
    · obtain ⟨as, rfl, rfl⟩ := ih hrest
      exact ⟨c :: as, rfl, rfl⟩
    · cases y with
      | nil =>
        rw [List.append_nil] at hc
        obtain rfl := textBytes_injective hbs
        exact ⟨[c], rfl, by rw [← hc, textBytes_cons, textBytes_nil, List.append_nil]⟩
      | cons byte y =>
        -- the text begins inside of a character, so it begins at its front
        cases bs with
        | nil => simp at hbs
        | cons d ds =>
          obtain ⟨first, rest, hd, hfirst⟩ := exists_charBytes_eq_cons d
          rw [textBytes_cons, hd, List.cons_append, List.cons_append, List.cons.injEq] at hbs
          obtain rfl := eq_nil_of_charBytes_eq_append hc (hbs.1 ▸ hfirst)
          refine ⟨[], textBytes_injective ?_, rfl⟩
          rw [textBytes_cons, h, List.nil_append, List.nil_append]

end Files
end PostRun
