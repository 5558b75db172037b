import Mathlib.Tactic

/-!
# Bounded selection

The `k` first entries of a list, kept in order while the list is read: each new entry is inserted
in front of the first greater key, and what falls off the end is dropped. Entries are keys with
their indices; of equal keys the earlier index comes first.
-/

namespace BoundedSelection

variable {K : Type*} [LinearOrder K] {k : ℕ} {seen kept : List (K × ℕ)} {e : K × ℕ}

/-- A smaller key, or the same key at an earlier index. -/
def Before (a b : K × ℕ) : Prop := a.1 < b.1 ∨ a.1 = b.1 ∧ a.2 < b.2

instance : DecidableRel (Before (K := K)) := fun a b => by unfold Before; infer_instance

lemma Before.trans {a b c : K × ℕ} (hab : Before a b) (hbc : Before b c) : Before a c := by
  rcases hab with hab | ⟨hab, hi⟩ <;> rcases hbc with hbc | ⟨hbc, hj⟩
  · exact .inl (hab.trans hbc)
  · exact .inl (hbc ▸ hab)
  · exact .inl (hab ▸ hbc)
  · exact .inr ⟨hab.trans hbc, hi.trans hj⟩

lemma Before.irrefl (a : K × ℕ) : ¬ Before a a := by
  rintro (h | ⟨-, h⟩)
  · exact lt_irrefl _ h
  · exact lt_irrefl _ h

/-- Inserts in front of the first greater key, keeping `k` entries. -/
def insert (k : ℕ) (kept : List (K × ℕ)) (e : K × ℕ) : List (K × ℕ) :=
  let insertAt := kept.findIdx fun w => e.1 < w.1
  if insertAt ≥ k then kept else (kept.take insertAt ++ e :: kept.drop insertAt).take k

/-- What has been kept of the entries seen: it is sorted, and entries are missing only when `k`
better ones are kept. -/
structure Selects (k : ℕ) (seen kept : List (K × ℕ)) : Prop where
  sorted : kept.Pairwise Before
  subset : kept ⊆ seen
  length_le : kept.length ≤ k
  missing : ∀ e ∈ seen, e ∉ kept → kept.length = k ∧ ∀ w ∈ kept, Before w e

lemma selects_nil : Selects k ([] : List (K × ℕ)) [] where
  sorted := .nil
  subset := List.Subset.refl _
  length_le := Nat.zero_le k
  missing := fun _ h => absurd h List.not_mem_nil

/-- The position found splits what is kept into what comes before the new entry and what comes
after it. -/
lemma Selects.split (h : Selects k seen kept) (hlater : ∀ w ∈ seen, w.2 < e.2) :
    (∀ w ∈ kept.take (kept.findIdx fun w => e.1 < w.1), Before w e) ∧
      ∀ w ∈ kept.drop (kept.findIdx fun w => e.1 < w.1), Before e w := by
  constructor
  · intro w hw
    obtain ⟨i, hi, rfl⟩ := List.mem_iff_getElem.1 hw
    rw [List.length_take, lt_min_iff] at hi
    rw [List.getElem_take]
    have hnot : ¬ e.1 < kept[i].1 := by simpa using List.not_of_lt_findIdx hi.1
    rcases (not_lt.1 hnot).lt_or_eq with hlt | heq
    · exact .inl hlt
    · exact .inr ⟨heq, hlater _ (h.subset (List.getElem_mem hi.2))⟩
  · intro w hw
    obtain ⟨i, hi, rfl⟩ := List.mem_iff_getElem.1 hw
    rw [List.length_drop] at hi
    rw [List.getElem_drop]
    have hlt : kept.findIdx (fun w => e.1 < w.1) < kept.length := by omega
    have hfirst : e.1 < (kept[kept.findIdx fun w => e.1 < w.1]).1 := by
      simpa using List.findIdx_getElem (w := hlt)
    rcases Nat.eq_zero_or_pos i with rfl | hpos
    · exact .inl hfirst
    · have hnext := List.pairwise_iff_getElem.1 h.sorted _ _ hlt (by omega)
        (Nat.lt_add_of_pos_right hpos)
      rcases hnext with hkey | ⟨hkey, -⟩
      · exact .inl (hfirst.trans hkey)
      · exact .inl (hkey ▸ hfirst)

omit [LinearOrder K] in
lemma mem_splice {i : ℕ} {w : K × ℕ} :
    w ∈ kept.take i ++ e :: kept.drop i ↔ w = e ∨ w ∈ kept := by
  conv_rhs => rw [← List.take_append_drop i kept]
  simp only [List.mem_append, List.mem_cons]
  tauto

omit [LinearOrder K] in
lemma length_splice (i : ℕ) : (kept.take i ++ e :: kept.drop i).length = kept.length + 1 := by
  rw [List.length_append, List.length_cons, ← Nat.add_assoc, ← List.length_append,
    List.take_append_drop]

/-- A new entry between what comes before it and what comes after it keeps the order. -/
lemma pairwise_splice {i : ℕ} (hsorted : kept.Pairwise Before)
    (hbefore : ∀ w ∈ kept.take i, Before w e) (hafter : ∀ w ∈ kept.drop i, Before e w) :
    (kept.take i ++ e :: kept.drop i).Pairwise Before := by
  rw [← List.take_append_drop i kept, List.pairwise_append] at hsorted
  obtain ⟨htake, hdrop, hacross⟩ := hsorted
  refine List.pairwise_append.2 ⟨htake, List.pairwise_cons.2 ⟨hafter, hdrop⟩, ?_⟩
  intro a ha b hb
  rcases List.mem_cons.1 hb with rfl | hb
  · exact hbefore a ha
  · exact hacross a ha b hb

/-- An entry that comes after all that is kept is dropped if there is no room for it. -/
lemma Selects.drop (h : Selects k seen kept) (hfull : kept.length = k)
    (hbefore : ∀ w ∈ kept, Before w e) : Selects k (seen ++ [e]) kept := by
  refine ⟨h.sorted, fun w hw => List.mem_append_left _ (h.subset hw), h.length_le, ?_⟩
  intro w hw hnot
  rcases List.mem_append.1 hw with hw | hw
  · exact h.missing w hw hnot
  · rw [List.mem_singleton.1 hw]
    exact ⟨hfull, hbefore⟩

/-- An entry is put in its place, and what falls off the end comes after all that stays. -/
lemma Selects.splice {i : ℕ} (h : Selects k seen kept) (hi : i < k)
    (hbefore : ∀ w ∈ kept.take i, Before w e) (hafter : ∀ w ∈ kept.drop i, Before e w) :
    Selects k (seen ++ [e]) ((kept.take i ++ e :: kept.drop i).take k) := by
  have hsorted := pairwise_splice h.sorted hbefore hafter
  have hlength : (kept.take i ++ e :: kept.drop i).length = kept.length + 1 := length_splice i
  refine ⟨hsorted.sublist (List.take_sublist k _), ?_, List.length_take_le k _, ?_⟩
  · intro w hw
    rcases mem_splice.1 (List.mem_of_mem_take hw) with rfl | hw
    · exact List.mem_append_right _ (List.mem_singleton_self _)
    · exact List.mem_append_left _ (h.subset hw)
  · intro w hw hnot
    by_cases hspliced : w ∈ kept.take i ++ e :: kept.drop i
    · -- the entry that falls off the end
      rw [← List.take_append_drop k (kept.take i ++ e :: kept.drop i)] at hspliced hsorted
      have hdrop := (List.mem_append.1 hspliced).resolve_left hnot
      have hpos := List.length_pos_of_mem hdrop
      rw [List.length_drop] at hpos
      exact ⟨by rw [List.length_take]; omega, fun v hv =>
        (List.pairwise_append.1 hsorted).2.2 v hv w hdrop⟩
    · -- an entry that was missing before
      have hold : w ∈ seen ∧ w ∉ kept := by
        rw [mem_splice, not_or] at hspliced
        exact ⟨(List.mem_append.1 hw).resolve_right fun h => hspliced.1 (List.mem_singleton.1 h),
          hspliced.2⟩
      obtain ⟨hkept, hworse⟩ := h.missing w hold.1 hold.2
      refine ⟨by rw [List.length_take]; omega, fun v hv => ?_⟩
      rcases mem_splice.1 (List.mem_of_mem_take hv) with rfl | hv
      · have hget : kept[i] ∈ kept.drop i := by
          rw [List.drop_eq_getElem_cons (by omega)]
          exact List.mem_cons_self
        exact (hafter _ hget).trans (hworse _ (List.getElem_mem _))
      · exact hworse v hv

/-- One entry is inserted. -/
lemma Selects.insert (h : Selects k seen kept) (hlater : ∀ w ∈ seen, w.2 < e.2) :
    Selects k (seen ++ [e]) (insert k kept e) := by
  obtain ⟨hbefore, hafter⟩ := h.split hlater
  have hle : kept.findIdx (fun w => decide (e.1 < w.1)) ≤ kept.length :=
    List.findIdx_le_length
  have hk := h.length_le
  unfold BoundedSelection.insert
  generalize kept.findIdx (fun w => decide (e.1 < w.1)) = i at hbefore hafter hle ⊢
  simp only
  split_ifs with hi
  · -- all `k` entries kept come before the new one
    obtain rfl : i = kept.length := by omega
    rw [List.take_length] at hbefore
    exact h.drop (by omega) hbefore
  · exact h.splice (by omega) hbefore hafter

/-- A whole list with increasing indices is read. -/
lemma Selects.foldl {more : List (K × ℕ)} (h : Selects k seen kept)
    (hincreasing : (seen ++ more).Pairwise fun a b => a.2 < b.2) :
    Selects k (seen ++ more) (more.foldl (BoundedSelection.insert k) kept) := by
  induction more generalizing seen kept with
  | nil => simpa using h
  | cons e more ih =>
    have hlater : ∀ w ∈ seen, w.2 < e.2 := fun w hw =>
      (List.pairwise_append.1 hincreasing).2.2 w hw e List.mem_cons_self
    have hassoc : seen ++ e :: more = seen ++ [e] ++ more := by simp
    rw [hassoc] at hincreasing ⊢
    exact ih (h.insert hlater) hincreasing

/-- The entries kept are those with fewer than `k` entries before them. -/
theorem Selects.mem_iff (h : Selects k seen kept) (he : e ∈ seen) :
    e ∈ kept ↔ (seen.toFinset.filter (Before · e)).card < k := by
  have hnodup : kept.Nodup := by
    refine h.sorted.imp ?_
    rintro a _ hab rfl
    exact Before.irrefl a hab
  constructor
  · intro hkept
    have hsub : seen.toFinset.filter (Before · e) ⊆ kept.toFinset.erase e := by
      intro w hw
      rw [Finset.mem_filter, List.mem_toFinset] at hw
      refine Finset.mem_erase.2 ⟨fun heq => Before.irrefl _ (heq ▸ hw.2), List.mem_toFinset.2 ?_⟩
      by_contra hnot
      exact Before.irrefl _ (((h.missing w hw.1 hnot).2 e hkept).trans hw.2)
    calc (seen.toFinset.filter (Before · e)).card
        ≤ (kept.toFinset.erase e).card := Finset.card_le_card hsub
      _ < kept.toFinset.card := Finset.card_erase_lt_of_mem (List.mem_toFinset.2 hkept)
      _ ≤ kept.length := kept.toFinset_card_le
      _ ≤ k := h.length_le
  · intro hcard
    by_contra hnot
    obtain ⟨hlen, hbefore⟩ := h.missing e he hnot
    have hsub : kept.toFinset ⊆ seen.toFinset.filter (Before · e) := by
      intro w hw
      have hw := List.mem_toFinset.1 hw
      exact Finset.mem_filter.2 ⟨List.mem_toFinset.2 (h.subset hw), hbefore w hw⟩
    have := Finset.card_le_card hsub
    rw [List.toFinset_card_of_nodup hnodup] at this
    omega

/-! ### The selected indices -/

/-- The indices of the `k` first keys. -/
def select (k : ℕ) (keys : List K) : List ℕ :=
  (keys.zipIdx.foldl (BoundedSelection.insert k) []).map Prod.snd

lemma selects_zipIdx (k : ℕ) (keys : List K) :
    Selects k keys.zipIdx (keys.zipIdx.foldl (BoundedSelection.insert k) []) := by
  have hincreasing : ([] ++ keys.zipIdx).Pairwise fun (a b : K × ℕ) => a.2 < b.2 := by
    rw [List.nil_append, List.pairwise_iff_getElem]
    intro i j hi hj hij
    simpa using hij
  exact selects_nil.foldl hincreasing

lemma mem_select {keys : List K} {i : ℕ} (hi : i < keys.length) :
    i ∈ select k keys ↔ (keys[i], i) ∈ keys.zipIdx.foldl (BoundedSelection.insert k) [] := by
  rw [select, List.mem_map]
  constructor
  · rintro ⟨⟨c, j⟩, hw, rfl⟩
    obtain ⟨-, hj, heq⟩ := List.mem_zipIdx ((selects_zipIdx k keys).subset hw)
    simp only [Nat.sub_zero] at heq
    exact heq ▸ hw
  · exact fun h => ⟨_, h, rfl⟩

lemma select_lt {keys : List K} {i : ℕ} (h : i ∈ select k keys) : i < keys.length := by
  obtain ⟨⟨c, j⟩, hw, rfl⟩ := List.mem_map.1 h
  simpa using (List.mem_zipIdx ((selects_zipIdx k keys).subset hw)).2.1

lemma select_nodup (keys : List K) : (select k keys).Nodup := by
  have hzip : (keys.zipIdx.map Prod.snd).Nodup := by
    rw [List.zipIdx_map_snd]
    exact List.nodup_range'
  have hinj : ∀ a ∈ keys.zipIdx, ∀ b ∈ keys.zipIdx, a.2 = b.2 → a = b :=
    List.inj_on_of_nodup_map hzip
  have hselects := selects_zipIdx k keys
  rw [select, List.Nodup, List.pairwise_map]
  refine hselects.sorted.imp_of_mem ?_
  intro a b ha hb hab heq
  exact Before.irrefl a (hinj a (hselects.subset ha) b (hselects.subset hb) heq ▸ hab)

/-- An index is selected when fewer than `k` keys are smaller, or equal and earlier. -/
theorem mem_select_ofFn {n : ℕ} (key : Fin n → K) (i : Fin n) :
    i.val ∈ select k (List.ofFn key) ↔
      (Finset.univ.filter fun j => key j < key i ∨ key j = key i ∧ j < i).card < k := by
  have hi : i.val < (List.ofFn key).length := by simp
  have hentry : ((List.ofFn key)[i.val], i.val) ∈ (List.ofFn key).zipIdx := by
    rw [List.mem_iff_getElem]
    exact ⟨i, by simp, by simp⟩
  have hfilter : (List.ofFn key).zipIdx.toFinset.filter (Before · ((List.ofFn key)[i.val], i.val)) =
      (Finset.univ.filter fun j => key j < key i ∨ key j = key i ∧ j < i).map
        ⟨fun j => (key j, j.val), fun a b h => Fin.ext (Prod.mk.inj h).2⟩ := by
    ext ⟨c, j⟩
    simp only [Finset.mem_filter, List.mem_toFinset, Finset.mem_map, Finset.mem_univ, true_and,
      List.getElem_ofFn, Before]
    constructor
    · rintro ⟨hmem, h⟩
      obtain ⟨-, hj, hkey⟩ := List.mem_zipIdx hmem
      simp only [Nat.zero_add, List.length_ofFn] at hj
      simp only [Nat.sub_zero, List.getElem_ofFn] at hkey
      exact ⟨⟨j, hj⟩, hkey ▸ h, Prod.ext hkey.symm rfl⟩
    · rintro ⟨j, h, heq⟩
      obtain ⟨rfl, rfl⟩ := Prod.mk.inj heq
      refine ⟨?_, h⟩
      rw [List.mem_iff_getElem]
      exact ⟨j, by simp, by simp⟩
  rw [mem_select hi, (selects_zipIdx k _).mem_iff hentry, hfilter, Finset.card_map]

end BoundedSelection
