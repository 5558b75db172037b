import Mathlib.Tactic

/-!
# Clocks that run at a rational rate

A clock that advances by `num / den` ticks a unit and carries the remainder of the division over to
the next advance. It shows the elapsed time rounded down once, however the time was cut up.
-/

namespace RationalClock

/-- The ticks shown and the remainder carried, in `den`-ths of a tick. -/
structure Clock where
  ticks : ℕ
  remainder : ℕ

variable {num den : ℕ}

/-- One advance by `n` units. -/
def Clock.advance (num den : ℕ) (c : Clock) (n : ℕ) : Clock :=
  ⟨c.ticks + (n * num + c.remainder) / den, (n * num + c.remainder) % den⟩

/-- The clock accounts exactly for the elapsed units. -/
structure Clock.Shows (num den : ℕ) (c : Clock) (elapsed : ℕ) : Prop where
  exact_time : c.ticks * den + c.remainder = elapsed * num
  remainder_lt : c.remainder < den

lemma Clock.shows_zero (num : ℕ) (hden : 0 < den) : Clock.Shows num den ⟨0, 0⟩ 0 where
  exact_time := by simp
  remainder_lt := hden

/-- No part of a tick is lost by an advance. -/
lemma Clock.Shows.advance {c : Clock} {elapsed : ℕ} (h : c.Shows num den elapsed) (n : ℕ) :
    (c.advance num den n).Shows num den (elapsed + n) where
  exact_time := by
    have hsplit := Nat.div_add_mod (n * num + c.remainder) den
    calc (c.ticks + (n * num + c.remainder) / den) * den + (n * num + c.remainder) % den
        = c.ticks * den + (den * ((n * num + c.remainder) / den)
            + (n * num + c.remainder) % den) := by ring
      _ = c.ticks * den + c.remainder + n * num := by
        rw [hsplit]
        ring
      _ = (elapsed + n) * num := by
        rw [h.exact_time]
        ring
  remainder_lt := Nat.mod_lt _ (Nat.zero_lt_of_lt h.remainder_lt)

/-- The ticks shown are the elapsed time rounded down. -/
theorem Clock.Shows.ticks_eq {c : Clock} {elapsed : ℕ} (h : c.Shows num den elapsed) :
    c.ticks = elapsed * num / den := by
  have hden : 0 < den := Nat.zero_lt_of_lt h.remainder_lt
  rw [← h.exact_time, Nat.mul_comm, Nat.mul_add_div hden, Nat.div_eq_of_lt h.remainder_lt,
    Nat.add_zero]

end RationalClock
