import Mathlib.Tactic

/-!
# Bounded `while` loops

`Loop.run cond body n` executes `while (cond) body` for at most `n` rounds. The body is partial, so
that an early error return or an undefined access stops the loop with `none`; a loop that still
wants to go on when its fuel is used up is `none` too. The rules below are the usual ones:
unfolding, an invariant for a loop that ended, and an invariant with a variant for a loop that has
to end. At the end there is a rule for functions that are called again and again on the state they
leave.
-/

namespace Loop

variable {σ : Type*}

/-- `while (cond) body`, cut off after the given number of rounds. -/
def run (cond : σ → Bool) (body : σ → Option σ) : ℕ → σ → Option σ
  | 0, s => if cond s then none else some s
  | n + 1, s => if cond s then (body s).bind (run cond body n) else some s

variable {cond : σ → Bool} {body : σ → Option σ}

lemma run_of_exit {s : σ} (h : cond s = false) (n : ℕ) : run cond body n s = some s := by
  cases n <;> simp [run, h]

lemma run_succ {s : σ} (h : cond s = true) (n : ℕ) :
    run cond body (n + 1) s = (body s).bind (run cond body n) := by
  simp [run, h]

/-- Partial correctness: a loop that ended keeps its invariant and has left its guard. -/
theorem run_invariant (I : σ → Prop)
    (hbody : ∀ s s', I s → cond s = true → body s = some s' → I s') :
    ∀ (n : ℕ) {s t : σ}, I s → run cond body n s = some t → I t ∧ cond t = false := by
  intro n
  induction n with
  | zero =>
    intro s t hs ht
    cases hc : cond s with
    | true => simp [run, hc] at ht
    | false =>
      simp only [run, hc, Bool.false_eq_true, if_false, Option.some.injEq] at ht
      exact ht ▸ ⟨hs, hc⟩
  | succ n ih =>
    intro s t hs ht
    cases hc : cond s with
    | true =>
      rw [run_succ hc, Option.bind_eq_some_iff] at ht
      obtain ⟨s', hs', ht⟩ := ht
      exact ih (hbody s s' hs hc hs') ht
    | false =>
      rw [run_of_exit hc, Option.some.injEq] at ht
      exact ht ▸ ⟨hs, hc⟩

/-- Total correctness: an invariant, and a variant that every round decreases and that the fuel
covers, make the loop end. -/
theorem run_total (cond : σ → Bool) (body : σ → Option σ) (I : σ → Prop) (μ : σ → ℕ)
    (hbody : ∀ s, I s → cond s = true → ∃ s', body s = some s' ∧ I s' ∧ μ s' < μ s) :
    ∀ (n : ℕ) {s : σ}, I s → μ s ≤ n →
      ∃ t, run cond body n s = some t ∧ I t ∧ cond t = false := by
  intro n
  induction n with
  | zero =>
    intro s hs hμ
    cases hc : cond s with
    | true =>
      obtain ⟨s', _, _, hlt⟩ := hbody s hs hc
      omega
    | false => exact ⟨s, run_of_exit hc 0, hs, hc⟩
  | succ n ih =>
    intro s hs hμ
    cases hc : cond s with
    | true =>
      obtain ⟨s', hs', hI, hlt⟩ := hbody s hs hc
      obtain ⟨t, ht, hIt, hct⟩ := ih hI (by omega)
      exact ⟨t, by rw [run_succ hc, hs']; exact ht, hIt, hct⟩
    | false => exact ⟨s, run_of_exit hc _, hs, hc⟩

/-- Two loops of which one is an image of the other end alike. -/
theorem run_map {τ : Type*} {cond' : τ → Bool} {body' : τ → Option τ} (φ : σ → τ) (I : σ → Prop)
    (hcond : ∀ s, I s → cond' (φ s) = cond s)
    (hbody : ∀ s, I s → cond s = true →
      body' (φ s) = (body s).map φ ∧ ∀ s', body s = some s' → I s') :
    ∀ (n : ℕ) {s : σ}, I s → run cond' body' n (φ s) = (run cond body n s).map φ := by
  intro n
  induction n with
  | zero =>
    intro s hs
    cases hc : cond s <;> simp [run, hcond s hs, hc]
  | succ n ih =>
    intro s hs
    cases hc : cond s with
    | false => rw [run_of_exit hc, run_of_exit ((hcond s hs).trans hc), Option.map_some]
    | true =>
      obtain ⟨himage, hnext⟩ := hbody s hs hc
      rw [run_succ hc, run_succ ((hcond s hs).trans hc), himage]
      cases hs' : body s with
      | none => rfl
      | some s' => exact ih (hnext s' hs')

/-! ### Sequences of calls -/

variable {ι ο η : Type*} {call : σ → ι → Option (σ × ο)}

/-- Calls one after the other, each in the state that the one before it left, and what they
returned. -/
def calls (call : σ → ι → Option (σ × ο)) : σ → List ι → Option (σ × List ο)
  | s, [] => some (s, [])
  | s, i :: is =>
    (call s i).bind fun next => (calls call next.1 is).map fun last => (last.1, next.2 :: last.2)

/-- The answers to a sequence of requests, by a history that each request extends. -/
def answers (answer : η → ι → ο) (extend : η → ι → η) : η → List ι → List ο
  | _, [] => []
  | h, i :: is => answer h i :: answers answer extend (extend h i) is

/-- Refinement: when each call answers from the history that the state represents, and represents
the extended one afterwards, then so does every sequence of calls. -/
theorem calls_refine (R : σ → η → Prop) (P : ι → Prop) {answer : η → ι → ο} {extend : η → ι → η}
    (hcall : ∀ s h i, R s h → P i → ∃ t, call s i = some (t, answer h i) ∧ R t (extend h i)) :
    ∀ (is : List ι) {s : σ} {h : η}, R s h → (∀ i ∈ is, P i) →
      ∃ t, calls call s is = some (t, answers answer extend h is) ∧ R t (is.foldl extend h) := by
  intro is
  induction is with
  | nil => exact fun hR _ => ⟨_, rfl, hR⟩
  | cons i is ih =>
    intro s h hR hP
    obtain ⟨t, hfirst, ht⟩ := hcall s h i hR (hP i List.mem_cons_self)
    obtain ⟨u, hrest, hu⟩ := ih ht fun j hj => hP j (List.mem_cons_of_mem i hj)
    refine ⟨u, ?_, hu⟩
    rw [calls, hfirst, Option.bind_some, hrest, Option.map_some, answers]

/-- What every call ensures of its answer holds of all answers. -/
lemma calls_forall {P : ο → Prop} (hcall : ∀ s i t o, call s i = some (t, o) → P o)
    (is : List ι) : ∀ {s t : σ} {os : List ο}, calls call s is = some (t, os) → ∀ o ∈ os, P o := by
  induction is with
  | nil =>
    intro s t os h
    obtain ⟨-, rfl⟩ := Prod.mk.inj (Option.some.inj h)
    exact fun o ho => absurd ho List.not_mem_nil
  | cons i is ih =>
    intro s t os h
    rw [calls, Option.bind_eq_some_iff] at h
    obtain ⟨next, hfirst, h⟩ := h
    obtain ⟨last, hrest, h⟩ := Option.map_eq_some_iff.1 h
    obtain ⟨-, rfl⟩ := Prod.mk.inj h
    intro o ho
    rcases List.mem_cons.1 ho with rfl | ho
    · exact hcall _ _ _ _ hfirst
    · exact ih hrest o ho

end Loop
