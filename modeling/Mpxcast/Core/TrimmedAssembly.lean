import Mathlib.Tactic

/-!
# Assembling a text that is trimmed on the way

A text of `n` characters is received segment by segment, in any order and with repetitions. After
each segment the blanks at the end of what can be read so far are cut off. At the end of the text
they are meant to go; in front of a gap they are lost until their segment is received again.
-/

namespace TrimmedAssembly

section

variable (n : ℕ) (segment : ℕ → ℕ) (blank : ℕ → Prop)

/-- The text can be read up to character `i`. -/
def StandsTo (stands : ℕ → Prop) (i : ℕ) : Prop := ∀ j ≤ i, stands j

/-- A blank is cut off when the text can be read up to it, but not up to any letter after it. -/
def Cut (stands : ℕ → Prop) (i : ℕ) : Prop :=
  blank i ∧ StandsTo stands i ∧ ∀ k, i < k → k < n → ¬ blank k → ¬ StandsTo stands k

/-- The characters that stand when the newest segment has been stored; newest segment first. -/
def Stands : List ℕ → ℕ → Prop
  | [], _ => False
  | a :: history, i => segment i = a ∨ Stands history i ∧ ¬ Cut n blank (Stands history) i

/-- The characters that are left by the trimming after the newest segment. -/
def Kept (history : List ℕ) (i : ℕ) : Prop :=
  Stands n segment blank history i ∧ ¬ Cut n blank (Stands n segment blank history) i

end

variable {n : ℕ} {segment : ℕ → ℕ} {blank : ℕ → Prop} {history : List ℕ} {i T : ℕ}

lemma not_kept_nil (i : ℕ) : ¬ Kept n segment blank [] i := fun h => h.1

lemma stands_cons (a : ℕ) : Stands n segment blank (a :: history) i ↔
    segment i = a ∨ Kept n segment blank history i := Iff.rfl

/-- What stands has been received. -/
lemma Stands.mem (h : Stands n segment blank history i) : segment i ∈ history := by
  induction history with
  | nil => exact h.elim
  | cons a history ih =>
    rcases h with rfl | ⟨hstands, -⟩
    · exact List.mem_cons_self
    · exact List.mem_cons_of_mem a (ih hstands)

/-- When the text can be read up to its last letter, nothing before that is cut off. -/
lemma kept_of_stands (hstands : ∀ i < T, Stands n segment blank history i) (hT : T ≤ n)
    (hlast : 0 < T → ¬ blank (T - 1)) (hi : i < T) : Kept n segment blank history i := by
  refine ⟨hstands i hi, ?_⟩
  rintro ⟨hblank, -, hgap⟩
  rcases (Nat.le_sub_one_of_lt hi).lt_or_eq with hlt | rfl
  · exact hgap (T - 1) hlt (by omega) (hlast (by omega)) fun j hj => hstands j (by omega)
  · exact hlast (by omega) hblank

/-- The blanks after the last letter are cut off. -/
lemma not_kept_of_end (hstands : ∀ i < T, Stands n segment blank history i)
    (hend : ∀ i, T ≤ i → i < n → blank i) (hT : T < n) : ¬ Kept n segment blank history T := by
  rintro ⟨hstand, hcut⟩
  refine hcut ⟨hend T le_rfl hT, fun j hj => ?_, fun k hk hkn hletter => ?_⟩
  · rcases hj.lt_or_eq with hlt | rfl
    · exact hstands j hlt
    · exact hstand
  · exact absurd (hend k hk.le hkn) hletter

/-- When each blank is received together with a letter after it, everything received stands. -/
lemma stands_iff_of_joined (hT : T ≤ n)
    (hjoined : ∀ i < T, blank i → i + 1 < T ∧ ¬ blank (i + 1) ∧ segment (i + 1) = segment i) :
    ∀ i < T, Stands n segment blank history i ↔ segment i ∈ history := by
  induction history with
  | nil => simp [Stands]
  | cons a history ih =>
    intro i hi
    have hkept : ¬ Cut n blank (Stands n segment blank history) i := by
      rintro ⟨hblank, hstands, hgap⟩
      obtain ⟨hlt, hletter, hsame⟩ := hjoined i hi hblank
      refine hgap (i + 1) (Nat.lt_succ_self i) (by omega) hletter fun j hj => ?_
      rcases Nat.le_succ_iff.1 hj with hle | rfl
      · exact hstands j hle
      · rw [ih _ hlt, hsame]
        exact (hstands i le_rfl).mem
    rw [stands_cons, Kept, and_iff_left hkept, ih i hi, List.mem_cons]

/-- A character that is lost comes back with its segment only. -/
lemma not_kept_append (h : ¬ Kept n segment blank history i) {later : List ℕ}
    (hlater : segment i ∉ later) : ¬ Kept n segment blank (later ++ history) i := by
  induction later with
  | nil => exact h
  | cons a later ih =>
    rw [List.mem_cons, not_or] at hlater
    rintro ⟨hreceived | hkept, -⟩
    · exact hlater.1 hreceived
    · exact ih hlater.2 hkept

end TrimmedAssembly
