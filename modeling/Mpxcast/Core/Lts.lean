import Mathlib.Tactic

/-!
# Labelled transition systems

Runs, reachable states, the invariant rule, and forward simulation between two systems whose labels
need not match one to one: a step of the concrete system may be answered by several abstract steps,
or by none.
-/

/-- A labelled transition system: its initial states and its steps. -/
structure Lts (σ ι : Type*) where
  init : σ → Prop
  step : σ → ι → σ → Prop

namespace Lts

variable {σ ι τ κ : Type*}

/-- `M.Run s ls t`: the steps labelled `ls` lead from `s` to `t`. -/
inductive Run (M : Lts σ ι) : σ → List ι → σ → Prop
  | nil (s : σ) : Run M s [] s
  | cons {s t u : σ} {l : ι} {ls : List ι} : M.step s l t → Run M t ls u → Run M s (l :: ls) u

/-- A state some run from an initial state ends in. -/
def Reachable (M : Lts σ ι) (s : σ) : Prop :=
  ∃ s₀ ls, M.init s₀ ∧ M.Run s₀ ls s

variable {M : Lts σ ι}

@[simp] lemma run_nil_iff {s t : σ} : M.Run s [] t ↔ s = t := by
  constructor
  · intro h
    cases h
    rfl
  · rintro rfl
    exact .nil s

lemma run_cons_iff {s u : σ} {l : ι} {ls : List ι} :
    M.Run s (l :: ls) u ↔ ∃ t, M.step s l t ∧ M.Run t ls u := by
  constructor
  · intro h
    cases h with
    | cons hstep hrun => exact ⟨_, hstep, hrun⟩
  · rintro ⟨t, hstep, hrun⟩
    exact .cons hstep hrun

lemma run_append_iff {s u : σ} {ls ls' : List ι} :
    M.Run s (ls ++ ls') u ↔ ∃ t, M.Run s ls t ∧ M.Run t ls' u := by
  induction ls generalizing s with
  | nil => simp
  | cons l ls ih =>
    simp only [List.cons_append, run_cons_iff, ih]
    constructor
    · rintro ⟨t, hstep, v, hv, hu⟩
      exact ⟨v, ⟨t, hstep, hv⟩, hu⟩
    · rintro ⟨v, ⟨t, hstep, hv⟩, hu⟩
      exact ⟨t, hstep, v, hv, hu⟩

lemma Run.append {s t u : σ} {ls ls' : List ι} (h : M.Run s ls t) (h' : M.Run t ls' u) :
    M.Run s (ls ++ ls') u :=
  run_append_iff.mpr ⟨t, h, h'⟩

/-- What every step keeps, every run keeps. -/
theorem Run.invariant {I : σ → Prop} (hstep : ∀ s l t, I s → M.step s l t → I t) {s t : σ}
    {ls : List ι} (h : M.Run s ls t) (hs : I s) : I t := by
  induction h with
  | nil => exact hs
  | cons hl _ ih => exact ih (hstep _ _ _ hs hl)

/-- The invariant rule: true at the start and kept by every step, hence true wherever runs lead. -/
theorem Reachable.invariant {I : σ → Prop} (hinit : ∀ s, M.init s → I s)
    (hstep : ∀ s l t, I s → M.step s l t → I t) {s : σ} (hs : M.Reachable s) : I s := by
  obtain ⟨s₀, ls, h₀, hrun⟩ := hs
  exact hrun.invariant hstep (hinit s₀ h₀)

/-- Rely and guarantee along a run: if `I` and the assumption `A` on each label make a step keep `I`
and meet the guarantee `G`, then runs whose labels all meet `A` keep `I`, and meet `G` throughout.
-/
theorem Run.guarantee {I : σ → Prop} {A G : ι → Prop}
    (hstep : ∀ s l t, I s → A l → M.step s l t → I t ∧ G l) {s t : σ} {ls : List ι}
    (h : M.Run s ls t) (hs : I s) (hA : ∀ l ∈ ls, A l) : I t ∧ ∀ l ∈ ls, G l := by
  induction h with
  | nil => exact ⟨hs, by simp⟩
  | cons hl _ ih =>
    obtain ⟨ht, hG⟩ := hstep _ _ _ hs (hA _ (by simp)) hl
    obtain ⟨hu, hGs⟩ := ih ht fun l hm => hA l (by simp [hm])
    exact ⟨hu, by simpa using ⟨hG, hGs⟩⟩

/-- Forward simulation in lockstep: every step is answered by one with the same label. -/
theorem Run.simulate_lockstep {N : Lts τ ι} {R : σ → τ → Prop}
    (hstep : ∀ s l t a, R s a → M.step s l t → ∃ b, N.step a l b ∧ R t b)
    {s t : σ} {ls : List ι} (h : M.Run s ls t) {a : τ} (ha : R s a) :
    ∃ b, N.Run a ls b ∧ R t b := by
  induction h generalizing a with
  | nil s => exact ⟨a, .nil a, ha⟩
  | cons hl _ ih =>
    obtain ⟨b, hb, hR⟩ := hstep _ _ _ a ha hl
    obtain ⟨c, hc, hR'⟩ := ih hR
    exact ⟨c, .cons hb hc, hR'⟩

/-- Forward simulation under an assumption `A` on the labels. If related states answer each concrete
step `l` by an abstract run whose labels `ks` stand in `L l ks`, then every concrete run is answered
by an abstract run, label lists matched position by position. -/
theorem Run.simulate {N : Lts τ κ} {R : σ → τ → Prop} {A : ι → Prop} {L : ι → List κ → Prop}
    (hstep : ∀ s l t a, R s a → A l → M.step s l t → ∃ ks b, L l ks ∧ N.Run a ks b ∧ R t b)
    {s t : σ} {ls : List ι} (h : M.Run s ls t) (hA : ∀ l ∈ ls, A l) {a : τ} (ha : R s a) :
    ∃ kss b, List.Forall₂ L ls kss ∧ N.Run a kss.flatten b ∧ R t b := by
  induction h generalizing a with
  | nil s => exact ⟨[], a, .nil, .nil a, ha⟩
  | cons hl _ ih =>
    obtain ⟨ks, b, hL, hks, hb⟩ := hstep _ _ _ a ha (hA _ (by simp)) hl
    obtain ⟨kss, c, hLs, hkss, hc⟩ := ih (fun l hm => hA l (by simp [hm])) hb
    exact ⟨ks :: kss, c, .cons hL hLs, hks.append hkss, hc⟩

end Lts
