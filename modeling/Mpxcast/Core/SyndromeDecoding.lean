import Mathlib.Tactic

/-!
# Syndrome decoding

A syndrome that is additive under exclusive or, and the decoder that searches a list of error
patterns for one whose syndrome explains the received word. The words of a coset are those with the
syndrome of its representative.
-/

namespace SyndromeDecoding

variable {w m : ℕ} {ι : Type*}

/-- What holds of single bits and is kept by sums holds of every word. -/
theorem xor_induction {P : BitVec w → Prop} (zero : P 0#w)
    (twoPow : ∀ i < w, P (BitVec.twoPow w i)) (xor : ∀ x y, P x → P y → P (x ^^^ y))
    (x : BitVec w) : P x := by
  suffices h : ∀ n ≤ w, ∀ x : BitVec w, (∀ i ≥ n, x.getLsbD i = false) → P x from
    h w le_rfl x fun i hi => BitVec.getLsbD_of_ge _ _ hi
  intro n
  induction n with
  | zero =>
    intro _ x hx
    obtain rfl : x = 0#w := BitVec.eq_of_getLsbD_eq fun i _ => by simp [hx i (Nat.zero_le i)]
    exact zero
  | succ n ih =>
    intro hn x hx
    by_cases hbit : x.getLsbD n = true
    · have hrest : P (x ^^^ BitVec.twoPow w n) := ih (by omega) _ fun i hi => by
        rw [BitVec.getLsbD_xor, BitVec.getLsbD_twoPow]
        rcases hi.eq_or_lt with rfl | hlt
        · simp [hbit]; omega
        · simp [hx i hlt]; omega
      have hsum := xor _ _ hrest (twoPow n (by omega))
      rwa [BitVec.xor_assoc, BitVec.xor_self, BitVec.xor_zero] at hsum
    · refine ih (by omega) x fun i hi => ?_
      rcases hi.eq_or_lt with rfl | hlt
      · simpa using hbit
      · exact hx i hlt

/-- The syndrome of a sum is the sum of the syndromes. -/
def Linear (σ : BitVec w → BitVec m) : Prop := ∀ x y, σ (x ^^^ y) = σ x ^^^ σ y

/-- The first pattern that takes a word of the coset to the received word, by its syndrome. -/
def explain (σ : BitVec w → BitVec m) (vec : ι → BitVec w) (patterns : List ι)
    (coset received : BitVec w) : Option ι :=
  patterns.find? fun p => σ (vec p ^^^ coset) = σ received

variable {σ : BitVec w → BitVec m} {vec : ι → BitVec w} {patterns : List ι}
  {coset received word : BitVec w} {p : ι}

/-- Undoing the pattern that was found gives a word of the coset. -/
lemma explain_sound (hσ : Linear σ) (h : explain σ vec patterns coset received = some p) :
    σ (received ^^^ vec p) = σ coset := by
  have hp : σ (vec p ^^^ coset) = σ received := by simpa using List.find?_some h
  rw [hσ, ← hp, hσ, BitVec.xor_comm (σ (vec p)), BitVec.xor_assoc, BitVec.xor_self,
    BitVec.xor_zero]

/-- Patterns with different syndromes are told apart, whatever patterns are tried after them. -/
lemma explain_of_nodup (more : List ι) (hσ : Linear σ) (hnodup : (patterns.map (σ ∘ vec)).Nodup)
    (hp : p ∈ patterns) (hword : σ word = σ coset) :
    explain σ vec (patterns ++ more) coset (word ^^^ vec p) = some p := by
  have hiff (q : ι) : σ (vec q ^^^ coset) = σ (word ^^^ vec p) ↔ σ (vec q) = σ (vec p) := by
    rw [hσ, hσ word, hword, BitVec.xor_comm (σ coset), BitVec.xor_left_inj]
  obtain ⟨pre, post, rfl⟩ := List.append_of_mem hp
  have hbefore : ∀ q ∈ pre, σ (vec q) ≠ σ (vec p) := by
    intro q hq heq
    rw [List.map_append, List.map_cons, List.nodup_append] at hnodup
    exact hnodup.2.2 _ (List.mem_map_of_mem hq) _ List.mem_cons_self heq
  have hnone : pre.find? (fun q => σ (vec q ^^^ coset) = σ (word ^^^ vec p)) = none := by
    rw [List.find?_eq_none]
    intro q hq
    simpa [hiff q] using hbefore q hq
  rw [explain, List.append_assoc, List.find?_append, hnone, List.cons_append,
    List.find?_cons_of_pos (by simpa using (hiff p).2 rfl), Option.none_or]

end SyndromeDecoding
