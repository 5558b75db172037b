import Mathlib.Tactic

/-!
# The last maximum of a list

Entries arrive one after the other and one of them is kept: a new entry takes its place unless its
key is smaller. What is kept is the last entry with the greatest key.
-/

namespace LastMaximum

variable {α κ : Type*} [LinearOrder κ] (key : α → κ)

/-- The entry that is kept after one more. -/
def keep (kept : Option α) (x : α) : Option α :=
  match kept with
  | none => some x
  | some r => if key x < key r then some r else some x

/-- The entry that is kept in the end. -/
def best (xs : List α) : Option α := xs.foldl (keep key) none

@[simp] lemma best_nil : best key [] = none := rfl

lemma best_concat (xs : List α) (x : α) : best key (xs ++ [x]) = keep key (best key xs) x :=
  List.foldl_concat ..

lemma keep_map {β : Type*} (key : β → κ) (f : α → β) (kept : Option α) (x : α) :
    keep key (kept.map f) (f x) = (keep (fun a => key (f a)) kept x).map f := by
  unfold keep
  cases kept with
  | none => rfl
  | some r =>
    dsimp only [Option.map_some]
    split_ifs <;> rfl

variable {key} {xs : List α} {r : α}

lemma keep_ne_none (kept : Option α) (x : α) : keep key kept x ≠ none := by
  unfold keep
  cases kept with
  | none => simp
  | some r =>
    dsimp only
    split_ifs <;> simp

lemma best_eq_none : best key xs = none ↔ xs = [] := by
  induction xs using List.reverseRecOn with
  | nil => simp
  | append_singleton xs x ih =>
    rw [best_concat]
    exact iff_of_false (keep_ne_none _ _) (by simp)

/-- No key before the kept entry is greater, and every key behind it is smaller. -/
theorem best_split (h : best key xs = some r) :
    ∃ before after, xs = before ++ r :: after ∧ (∀ b ∈ before, key b ≤ key r) ∧
      ∀ a ∈ after, key a < key r := by
  induction xs using List.reverseRecOn generalizing r with
  | nil => exact absurd h (by simp)
  | append_singleton xs x ih =>
    rw [best_concat] at h
    unfold keep at h
    cases hbest : best key xs with
    | none =>
      rw [hbest] at h
      obtain rfl := Option.some.inj h
      refine ⟨[], [], ?_, by simp, by simp⟩
      rw [best_eq_none.1 hbest]
    | some s =>
      obtain ⟨before, after, hxs, hbefore, hafter⟩ := ih hbest
      rw [hbest] at h
      dsimp only at h
      split_ifs at h with hlt
      · obtain rfl := Option.some.inj h
        refine ⟨before, after ++ [x], ?_, hbefore, fun a ha => ?_⟩
        · rw [hxs, List.append_assoc]
          rfl
        · rcases List.mem_append.1 ha with hold | hnew
          · exact hafter a hold
          · rw [List.mem_singleton.1 hnew]
            exact hlt
      · obtain rfl := Option.some.inj h
        refine ⟨xs, [], rfl, fun b hb => ?_, by simp⟩
        have hle : key b ≤ key s := by
          rw [hxs] at hb
          rcases List.mem_append.1 hb with hearly | hlate
          · exact hbefore b hearly
          · rcases List.mem_cons.1 hlate with rfl | hlater
            · exact le_rfl
            · exact (hafter b hlater).le
        exact hle.trans (not_lt.1 hlt)

lemma le_best (h : best key xs = some r) : r ∈ xs ∧ ∀ x ∈ xs, key x ≤ key r := by
  obtain ⟨before, after, rfl, hbefore, hafter⟩ := best_split h
  refine ⟨by simp, fun x hx => ?_⟩
  rcases List.mem_append.1 hx with hearly | hlate
  · exact hbefore x hearly
  · rcases List.mem_cons.1 hlate with rfl | hlater
    · exact le_rfl
    · exact (hafter x hlater).le

variable (key) in
/-- The last entry that no entry before it exceeds. -/
def LastRecord (xs : List α) (r : α) : Prop :=
  ∃ before after, xs = before ++ r :: after ∧ (∀ b ∈ before, key b ≤ key r) ∧
    ∀ between a rest, after = between ++ a :: rest → ∃ b ∈ before ++ r :: between, key a < key b

lemma lastRecord_best (h : best key xs = some r) : LastRecord key xs r := by
  obtain ⟨before, after, hxs, hbefore, hafter⟩ := best_split h
  refine ⟨before, after, hxs, hbefore, ?_⟩
  rintro between a rest rfl
  exact ⟨r, by simp, hafter a (by simp)⟩

end LastMaximum
