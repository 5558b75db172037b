import Mathlib.Data.List.AList
import Mathlib.Tactic

/-!
# Singly linked lists in a heap

A heap of nodes, each with a `next` pointer and a value. `Chain h p cells` says that following
`next` from `p` to NULL meets exactly the allocated nodes `cells`: their addresses and values, in
order. A chain is finite and every cell of it is allocated, so a chain is also the statement that
the list can be walked without touching freed memory.
-/

namespace LinkedHeap

abbrev Ptr := ℕ

/-- A list node. -/
structure Node (α : Type*) where
  next : Option Ptr
  value : α
deriving DecidableEq, Repr

/-- The allocated nodes; freeing a node removes its address. -/
abbrev Heap (α : Type*) := AList fun _ : Ptr => Node α

variable {α : Type*} {h h' : Heap α}

/-- Following `next` from the given pointer to NULL meets exactly these cells. -/
inductive Chain (h : Heap α) : Option Ptr → List (Ptr × α) → Prop
  | nil : Chain h none []
  | cons {p : Ptr} {next : Option Ptr} {v : α} {cells : List (Ptr × α)} :
      h.lookup p = some ⟨next, v⟩ → Chain h next cells → Chain h (some p) ((p, v) :: cells)

/-- The addresses of a list of cells. -/
abbrev addrs (cells : List (Ptr × α)) : List Ptr := cells.map Prod.fst

/-- The values of a list of cells. -/
abbrev vals (cells : List (Ptr × α)) : List α := cells.map Prod.snd

namespace Chain

@[simp] lemma nil_iff {q : Option Ptr} : Chain h q [] ↔ q = none := by
  constructor
  · intro hc
    cases hc
    rfl
  · rintro rfl
    exact .nil

@[simp] lemma none_iff {cells : List (Ptr × α)} : Chain h none cells ↔ cells = [] := by
  constructor
  · intro hc
    cases hc
    rfl
  · rintro rfl
    exact .nil

lemma cons_iff {q : Option Ptr} {p : Ptr} {v : α} {cells : List (Ptr × α)} :
    Chain h q ((p, v) :: cells) ↔
      q = some p ∧ ∃ next, h.lookup p = some ⟨next, v⟩ ∧ Chain h next cells := by
  constructor
  · intro hc
    cases hc with
    | cons hp ht => exact ⟨rfl, _, hp, ht⟩
  · rintro ⟨rfl, next, hp, ht⟩
    exact .cons hp ht

/-- A chain starts at its first cell. -/
lemma head_eq {q : Option Ptr} {cells : List (Ptr × α)} (hc : Chain h q cells) :
    q = cells.head?.map Prod.fst := by
  cases hc <;> rfl

/-- The heap and the first pointer determine the cells. -/
lemma det {q : Option Ptr} {cells cells' : List (Ptr × α)} (hc : Chain h q cells)
    (hc' : Chain h q cells') : cells = cells' := by
  induction hc generalizing cells' with
  | nil => exact (none_iff.mp hc').symm
  | cons hp _ ih =>
    cases hc' with
    | cons hp' ht' =>
      obtain ⟨rfl, rfl⟩ : _ ∧ _ := by simpa using hp.symm.trans hp'
      rw [ih ht']

/-- Every suffix of a chain is the chain that starts at the suffix's first cell. -/
lemma suffix {q : Option Ptr} {pre cells : List (Ptr × α)} (hc : Chain h q (pre ++ cells)) :
    Chain h (cells.head?.map Prod.fst) cells := by
  induction pre generalizing q with
  | nil => exact hc.head_eq ▸ hc
  | cons c pre ih =>
    obtain ⟨_, _, _, ht⟩ := cons_iff.mp hc
    exact ih ht

lemma lookup_of_mem {q : Option Ptr} {cells : List (Ptr × α)} (hc : Chain h q cells) {p : Ptr}
    {v : α} (hm : (p, v) ∈ cells) : ∃ next, h.lookup p = some ⟨next, v⟩ := by
  induction hc with
  | nil => cases hm
  | cons hp _ ih =>
    rcases List.mem_cons.mp hm with heq | hm
    · obtain ⟨rfl, rfl⟩ : _ ∧ _ := by simpa using heq
      exact ⟨_, hp⟩
    · exact ih hm

lemma mem_heap {q : Option Ptr} {cells : List (Ptr × α)} (hc : Chain h q cells) {p : Ptr}
    (hm : p ∈ addrs cells) : p ∈ h := by
  obtain ⟨⟨p, v⟩, hcell, rfl⟩ := List.mem_map.mp hm
  obtain ⟨next, hp⟩ := hc.lookup_of_mem hcell
  rw [← AList.lookup_isSome, hp]
  rfl

/-- No cycles: a second visit would start the same, hence equally long, chain again. -/
lemma nodup {q : Option Ptr} {cells : List (Ptr × α)} (hc : Chain h q cells) :
    (addrs cells).Nodup := by
  induction hc with
  | nil => simp
  | @cons p next v cells hp ht ih =>
    refine List.nodup_cons.mpr ⟨fun hm => ?_, ih⟩
    obtain ⟨⟨p', v'⟩, hmem, rfl⟩ := List.mem_map.mp hm
    obtain ⟨pre, post, rfl⟩ := List.append_of_mem hmem
    have hagain : Chain h (some p') ((p', v') :: post) := ht.suffix
    have hlen := congrArg List.length (hagain.det (.cons hp ht))
    simp at hlen
    omega

lemma length_le {q : Option Ptr} {cells : List (Ptr × α)} (hc : Chain h q cells) :
    cells.length ≤ h.keys.length := by
  have hsub : addrs cells ⊆ h.keys := fun p hp => AList.mem_keys.mp (hc.mem_heap hp)
  simpa using (hc.nodup.subperm hsub).length_le

/-- Frame rule: only the chain's own cells matter. -/
lemma congr {q : Option Ptr} {cells : List (Ptr × α)} (hc : Chain h q cells)
    (heq : ∀ p ∈ addrs cells, h'.lookup p = h.lookup p) : Chain h' q cells := by
  induction hc with
  | nil => exact .nil
  | cons hp _ ih =>
    refine .cons ((heq _ (by simp)).trans hp) (ih fun p hm => heq p ?_)
    exact List.mem_cons_of_mem _ hm

lemma erase {q : Option Ptr} {cells : List (Ptr × α)} (hc : Chain h q cells) {p : Ptr}
    (hp : p ∉ addrs cells) : Chain (h.erase p) q cells :=
  hc.congr fun _ hm => AList.lookup_erase_ne fun heq => hp (heq ▸ hm)

/-- Freeing the first cell leaves the chain of the others. -/
lemma erase_head {q next : Option Ptr} {p : Ptr} {v : α} {cells : List (Ptr × α)}
    (hc : Chain h q ((p, v) :: cells)) (hp : h.lookup p = some ⟨next, v⟩) :
    Chain (h.erase p) next cells := by
  obtain ⟨_, next', hp', ht⟩ := cons_iff.mp hc
  obtain rfl : next = next' := by simpa using hp.symm.trans hp'
  exact ht.erase (List.nodup_cons.mp hc.nodup).1

/-- A node of its own is a one-cell chain. -/
lemma singleton (h : Heap α) (p : Ptr) (v : α) :
    Chain (h.insert p ⟨none, v⟩) (some p) [(p, v)] :=
  .cons (AList.lookup_insert h) .nil

/-- Linking a fresh node behind the last cell appends it to every chain that ends in that cell. -/
lemma snoc {q : Option Ptr} {pre : List (Ptr × α)} {t p : Ptr} {w v : α}
    (hc : Chain h q (pre ++ [(t, w)])) (hp : p ∉ h) :
    Chain ((h.insert p ⟨none, v⟩).insert t ⟨some p, w⟩) q (pre ++ [(t, w)] ++ [(p, v)]) := by
  have hne : t ≠ p := fun heq => hp (heq ▸ hc.mem_heap (by simp))
  induction pre generalizing q with
  | nil =>
    obtain ⟨rfl, -⟩ := cons_iff.mp hc
    refine .cons (AList.lookup_insert _) (.cons ?_ .nil)
    rw [AList.lookup_insert_ne hne.symm, AList.lookup_insert]
  | cons c pre ih =>
    obtain ⟨p', v'⟩ := c
    obtain ⟨rfl, next, hp', ht⟩ := cons_iff.mp hc
    have hne' : p' ≠ p := fun heq => hp (heq ▸ hc.mem_heap (by simp))
    have hnt : p' ≠ t := by
      have := List.nodup_cons.mp hc.nodup
      rintro rfl
      simp at this
    refine .cons ?_ (ih ht)
    rw [AList.lookup_insert_ne hnt, AList.lookup_insert_ne hne', hp']

end Chain

/-- The values met by following `next` from a pointer, for at most `n` cells. -/
def follow (h : Heap α) : ℕ → Option Ptr → List α
  | _, none => []
  | 0, some _ => []
  | n + 1, some p =>
    match h.lookup p with
    | none => []
    | some node => node.value :: follow h n node.next

/-- The values from a pointer to the end of its list; a walk longer than the heap would be a cycle.
-/
def values (h : Heap α) (q : Option Ptr) : List α := follow h h.keys.length q

lemma Chain.follow_eq {q : Option Ptr} {cells : List (Ptr × α)} (hc : Chain h q cells) {n : ℕ}
    (hn : cells.length ≤ n) : follow h n q = vals cells := by
  induction hc generalizing n with
  | nil => simp [follow]
  | cons hp _ ih =>
    obtain ⟨n, rfl⟩ : ∃ m, n = m + 1 := ⟨n - 1, by simp at hn; omega⟩
    simp only [follow, hp, List.map_cons]
    rw [ih (by simpa using hn)]

lemma Chain.values_eq {q : Option Ptr} {cells : List (Ptr × α)} (hc : Chain h q cells) :
    values h q = vals cells :=
  hc.follow_eq hc.length_le

end LinkedHeap
