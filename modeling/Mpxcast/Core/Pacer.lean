import Mathlib.Tactic

/-!
# Paced production

A producer delivers portions of one size to consumers that use them up at a constant rate. Its clock
starts when somebody asks for the first portion, and the next portion is due when all before it are
used up. However often it is asked, it is never more than one portion ahead of its clock.
-/

/-- When the clock was started, and how much has been produced. -/
structure Pacer (K : Type*) where
  start : Option K
  count : ℕ

namespace Pacer

variable {K : Type*}

/-- Before the first request. -/
def idle : Pacer K := ⟨none, 0⟩

/-- A request starts the clock, unless it is running. -/
def poll (p : Pacer K) (now : K) : Pacer K := { p with start := some (p.start.getD now) }

def produce (p : Pacer K) (portion : ℕ) : Pacer K := { p with count := p.count + portion }

/-- A clock that is running is not set again. -/
lemma poll_of_start {p : Pacer K} {start : K} (h : p.start = some start) (now : K) :
    p.poll now = p := by
  rw [poll, h, Option.getD_some, ← h]

variable [Field K] [LinearOrder K]

/-- All that was produced is used up at this time. -/
def Due (p : Pacer K) (rate now : K) : Prop :=
  ∃ start, p.start = some start ∧ start + p.count / rate ≤ now

/-- Nothing was produced before the clock was started, and since then at most one portion more than
what has been used up. -/
structure Paced (p : Pacer K) (rate : K) (portion : ℕ) (clock : K) : Prop where
  count_eq_zero : p.start = none → p.count = 0
  start_le : ∀ start, p.start = some start → start ≤ clock
  count_le : ∀ start, p.start = some start → (p.count : K) ≤ rate * (clock - start) + portion

variable {rate clock : K} {portion : ℕ} {p : Pacer K}

lemma paced_idle (rate : K) (portion : ℕ) (clock : K) : (idle : Pacer K).Paced rate portion clock :=
  ⟨fun _ => rfl, fun start h => absurd h.symm (Option.some_ne_none start),
    fun start h => absurd h.symm (Option.some_ne_none start)⟩

variable [IsStrictOrderedRing K]

/-- Time passes. -/
lemma Paced.later (h : p.Paced rate portion clock) (hrate : 0 ≤ rate) {later : K}
    (hle : clock ≤ later) : p.Paced rate portion later where
  count_eq_zero := h.count_eq_zero
  start_le start hstart := (h.start_le start hstart).trans hle
  count_le start hstart := by
    have hmore : rate * (clock - start) ≤ rate * (later - start) :=
      mul_le_mul_of_nonneg_left (sub_le_sub_right hle start) hrate
    exact (h.count_le start hstart).trans (add_le_add_left hmore _)

/-- Somebody asks. -/
lemma Paced.poll (h : p.Paced rate portion clock) : (p.poll clock).Paced rate portion clock := by
  cases hstart : p.start with
  | some start =>
    rw [poll_of_start hstart]
    exact h
  | none =>
    have hcount := h.count_eq_zero hstart
    have hnow : (p.poll clock).start = some clock := by rw [Pacer.poll, hstart, Option.getD_none]
    refine ⟨fun hnone => ?_, fun start hsome => ?_, fun start hsome => ?_⟩
    · exact absurd (hnow.symm.trans hnone) (Option.some_ne_none clock)
    · rw [hnow] at hsome
      exact (Option.some.inj hsome).ge
    · rw [hnow] at hsome
      obtain rfl := Option.some.inj hsome
      have hzero : ((p.poll clock).count : K) = 0 := by
        rw [Pacer.poll, hcount, Nat.cast_zero]
      rw [hzero, sub_self, mul_zero, zero_add]
      exact Nat.cast_nonneg portion

/-- A portion that is due is produced. -/
lemma Paced.produce (h : p.Paced rate portion clock) (hrate : 0 < rate)
    (hdue : p.Due rate clock) : (p.produce portion).Paced rate portion clock := by
  obtain ⟨start, hstart, hused⟩ := hdue
  refine ⟨fun hnone => ?_, h.start_le, fun other hother => ?_⟩
  · exact absurd (hstart.symm.trans hnone) (Option.some_ne_none start)
  · obtain rfl := Option.some.inj (hstart.symm.trans hother)
    have hcount : (p.count : K) ≤ rate * (clock - start) := by
      rw [mul_comm, ← div_le_iff₀ hrate]
      linarith
    rw [Pacer.produce, Nat.cast_add]
    exact add_le_add_left hcount _

end Pacer
