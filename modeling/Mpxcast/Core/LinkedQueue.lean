import Mpxcast.Core.LinkedHeap
import Mpxcast.Core.CMemory
import Mpxcast.Core.Loop

/-!
# Linked queues with shared cursors

A queue kept as a linked list with pointers to its first and its last node and a count. Readers hold
cursors into the list: a pointer to the next node they will read, or NULL once they have read
everything. Nodes are appended at the tail and freed at the head.
-/

namespace LinkedHeap

variable {α : Type}

structure Queue (α : Type) where
  heap : Heap α
  head : Option Ptr
  tail : Option Ptr
  count : ℕ

namespace Queue

/-- No node is allocated. -/
def empty : Queue α := ⟨∅, none, none, 0⟩

/-- The queue holds these cells, and no other node is allocated. -/
structure Holds (q : Queue α) (cells : List (Ptr × α)) : Prop where
  chain : Chain q.heap q.head cells
  tail_eq : q.tail = cells.getLast?.map Prod.fst
  count_eq : q.count = cells.length
  no_leak : ∀ p ∈ q.heap, p ∈ addrs cells

lemma holds_empty : (empty : Queue α).Holds [] :=
  ⟨.nil, rfl, rfl, fun p hp => absurd hp (AList.notMem_empty p)⟩

/-- The first node is unlinked and freed. -/
def popHead (q : Queue α) : Option (Queue α) := do
  let p ← q.head
  let node ← q.heap.lookup p
  let count ← CMemory.usub q.count 1
  return ⟨q.heap.erase p, node.next, if q.tail = some p then none else q.tail, count⟩

/-- A fresh node is linked behind the last one. -/
def append (q : Queue α) (p : Ptr) (v : α) : Option (Queue α) :=
  match q.tail with
  | none => some ⟨q.heap.insert p ⟨none, v⟩, some p, some p, q.count + 1⟩
  | some t => do
    let node ← q.heap.lookup t
    return ⟨(q.heap.insert p ⟨none, v⟩).insert t { node with next := some p }, q.head, some p,
      q.count + 1⟩

/-- One round of the loop that frees all nodes. -/
def clearRound (q : Queue α) : Option (Queue α) := do
  let p ← q.head
  let node ← q.heap.lookup p
  return { q with heap := q.heap.erase p, head := node.next }

/-- All nodes are freed. -/
def clear (q : Queue α) : Option (Queue α) := do
  let q ← Loop.run (fun q => q.head.isSome) clearRound q.heap.keys.length q
  return { q with tail := none, count := 0 }

/-- Nodes are freed from the head on as long as nobody needs them. -/
def prune (busy : Ptr → Bool) (q : Queue α) : Option (Queue α) :=
  Loop.run (fun q => match q.head with | none => false | some p => !busy p) popHead
    q.heap.keys.length q

variable {q : Queue α} {cells : List (Ptr × α)}

lemma Holds.head_eq (h : q.Holds cells) : q.head = cells.head?.map Prod.fst := h.chain.head_eq

lemma Holds.head_none_iff (h : q.Holds cells) : q.head = none ↔ cells = [] := by
  rw [h.head_eq]
  cases cells <;> simp

lemma Holds.popHead {p : Ptr} {v : α} (h : q.Holds ((p, v) :: cells)) :
    ∃ q', q.popHead = some q' ∧ q'.Holds cells := by
  obtain ⟨hhead, next, hp, hrest⟩ := Chain.cons_iff.mp h.chain
  have hcount : CMemory.usub q.count 1 = some cells.length := by
    rw [h.count_eq]
    exact CMemory.usub_of_le (Nat.le_add_left 1 _)
  refine ⟨⟨q.heap.erase p, next, if q.tail = some p then none else q.tail, cells.length⟩, ?_, ?_⟩
  · simp [Queue.popHead, hhead, hp, hcount]
  have hnodup := List.nodup_cons.mp h.chain.nodup
  refine ⟨h.chain.erase_head hp, ?_, rfl, fun p' hp' => ?_⟩
  · show (if q.tail = some p then none else q.tail) = _
    rw [h.tail_eq]
    rcases List.eq_nil_or_concat cells with rfl | ⟨init, ⟨t, w⟩, rfl⟩
    · simp
    · have hne : t ≠ p := by
        rintro rfl
        exact hnodup.1 (by simp)
      simp [List.getLast?_cons, hne]
  · obtain ⟨hne, hmem⟩ := (AList.mem_erase).mp hp'
    have := h.no_leak p' hmem
    simp only [List.map_cons, List.mem_cons] at this
    exact this.resolve_left hne

lemma Holds.append (h : q.Holds cells) {p : Ptr} (hp : p ∉ q.heap) (v : α) :
    ∃ q', q.append p v = some q' ∧ q'.Holds (cells ++ [(p, v)]) := by
  have hleak : ∀ p' ∈ q.heap, p' ∈ addrs (cells ++ [(p, v)]) := fun p' hp' => by
    rw [addrs, List.map_append]
    exact List.mem_append_left _ (h.no_leak p' hp')
  have hlast : p ∈ addrs (cells ++ [(p, v)]) := by simp
  have htail : some p = (cells ++ [(p, v)]).getLast?.map Prod.fst := by simp
  have hcount : q.count + 1 = (cells ++ [(p, v)]).length := by
    rw [h.count_eq, List.length_append, List.length_singleton]
  rcases List.eq_nil_or_concat cells with rfl | ⟨init, ⟨t, w⟩, rfl⟩
  · refine ⟨⟨q.heap.insert p ⟨none, v⟩, some p, some p, q.count + 1⟩, ?_,
      Chain.singleton q.heap p v, htail, hcount, fun p' hp' => ?_⟩
    · have htail' : q.tail = none := h.tail_eq
      rw [Queue.append, htail']
    · rcases (AList.mem_insert _).mp hp' with rfl | hp'
      · exact hlast
      · exact hleak p' hp'
  · rw [List.concat_eq_append] at h hleak hlast htail hcount ⊢
    obtain ⟨next, ht⟩ := h.chain.lookup_of_mem (p := t) (v := w) (by simp)
    refine ⟨⟨(q.heap.insert p ⟨none, v⟩).insert t ⟨some p, w⟩, q.head, some p, q.count + 1⟩, ?_,
      h.chain.snoc hp, htail, hcount, fun p' hp' => ?_⟩
    · have htail' : q.tail = some t := by simp [h.tail_eq]
      simp [Queue.append, htail', ht]
    · rcases (AList.mem_insert _).mp hp' with rfl | hp'
      · simp
      · rcases (AList.mem_insert _).mp hp' with rfl | hp'
        · exact hlast
        · exact hleak p' hp'

/-- The loop that frees all nodes frees one in each round. -/
lemma Holds.clear (h : q.Holds cells) : ∃ q', q.clear = some q' ∧ q'.Holds [] := by
  obtain ⟨q', hrun, ⟨cells', hchain, hleak⟩, hend⟩ :=
    Loop.run_total (fun q : Queue α => q.head.isSome) clearRound
      (fun q => ∃ cells, Chain q.heap q.head cells ∧ ∀ p ∈ q.heap, p ∈ addrs cells)
      (fun q => q.heap.keys.length) (by
        rintro q ⟨cells, hchain, hleak⟩ hsome
        obtain ⟨p, hhead⟩ := Option.isSome_iff_exists.mp hsome
        rcases cells with _ | ⟨⟨p', v⟩, cells⟩
        · rw [Chain.nil_iff.mp hchain] at hhead
          exact nomatch hhead
        · obtain ⟨hhead', next, hp, hrest⟩ := Chain.cons_iff.mp hchain
          refine ⟨{ q with heap := q.heap.erase p', head := next }, ?_, ⟨cells, ?_, ?_⟩, ?_⟩
          · simp [clearRound, hhead', hp]
          · exact hchain.erase_head hp
          · intro p'' hp''
            obtain ⟨hne, hmem⟩ := AList.mem_erase.mp hp''
            have hcons := hleak p'' hmem
            rw [addrs, List.map_cons, List.mem_cons] at hcons
            exact hcons.resolve_left hne
          · have hmem : p' ∈ q.heap.keys := AList.mem_keys.mp (hchain.mem_heap (by simp))
            show (q.heap.erase p').keys.length < q.heap.keys.length
            rw [AList.keys_erase, List.length_erase_of_mem hmem]
            exact Nat.sub_lt (List.length_pos_of_mem hmem) Nat.one_pos)
      q.heap.keys.length (s := q) ⟨cells, h.chain, h.no_leak⟩ le_rfl
  have hhead : q'.head = none := by simpa using hend
  rw [hhead, Chain.none_iff] at hchain
  subst hchain
  refine ⟨{ q' with tail := none, count := 0 }, by simp [Queue.clear, hrun], ?_, rfl, rfl, hleak⟩
  rw [hhead]
  exact .nil

/-- Pruning frees the cells in front of the first busy one. -/
lemma Holds.prune (h : q.Holds cells) (busy : Ptr → Bool) :
    ∃ q', q.prune busy = some q' ∧ q'.Holds (cells.dropWhile fun c => !busy c.1) := by
  obtain ⟨q', hrun, ⟨cells', hholds, hdrop⟩, hend⟩ :=
    Loop.run_total (fun q : Queue α => match q.head with | none => false | some p => !busy p)
      Queue.popHead
      (fun q => ∃ cells', q.Holds cells' ∧
        (cells'.dropWhile fun c => !busy c.1) = cells.dropWhile fun c => !busy c.1)
      (fun q => q.count) (by
        rintro q ⟨cells', hholds, hdrop⟩ hmore
        rcases cells' with _ | ⟨⟨p, v⟩, cells'⟩
        · rw [hholds.head_eq] at hmore
          exact nomatch hmore
        · rw [hholds.head_eq] at hmore
          obtain ⟨q', hpop, hholds'⟩ := hholds.popHead
          have hfree : (!busy p) = true := hmore
          rw [List.dropWhile_cons_of_pos (by exact hfree)] at hdrop
          refine ⟨q', hpop, ⟨cells', hholds', hdrop⟩, ?_⟩
          rw [hholds.count_eq, hholds'.count_eq]
          exact Nat.lt_succ_self _)
      q.heap.keys.length (s := q) ⟨cells, h, rfl⟩ (by rw [h.count_eq]; exact h.chain.length_le)
  refine ⟨q', hrun, ?_⟩
  rw [← hdrop]
  rcases cells' with _ | ⟨⟨p, v⟩, cells'⟩
  · exact hholds
  · rw [hholds.head_eq] at hend
    rw [List.dropWhile_cons_of_neg (by simpa using hend)]
    exact hholds

/-! ### Cursors -/

/-- A cursor in front of the cells `rest`: it points to the first of them, or is NULL when there are
none. -/
structure Cursor (cells : List (Ptr × α)) (c : Option Ptr) (rest : List (Ptr × α)) : Prop where
  suffix : rest <:+ cells
  ptr_eq : c = rest.head?.map Prod.fst

/-- What a reader with this cursor has not read yet. -/
def unread (q : Queue α) (c : Option Ptr) : List α := values q.heap c

lemma cursor_none (cells : List (Ptr × α)) : Cursor cells none [] := ⟨List.nil_suffix, rfl⟩

lemma Cursor.eq_nil {rest : List (Ptr × α)} (h : Cursor cells none rest) : rest = [] := by
  have hptr := h.ptr_eq
  cases rest with
  | nil => rfl
  | cons _ _ => exact nomatch hptr

lemma Cursor.chain {rest : List (Ptr × α)} {c : Option Ptr} (hc : Cursor cells c rest)
    (h : q.Holds cells) : Chain q.heap c rest := by
  obtain ⟨pre, hpre⟩ := hc.suffix
  have hchain := h.chain
  rw [← hpre] at hchain
  rw [hc.ptr_eq]
  exact hchain.suffix

lemma Cursor.unread_eq {rest : List (Ptr × α)} {c : Option Ptr} (hc : Cursor cells c rest)
    (h : q.Holds cells) : q.unread c = vals rest :=
  (hc.chain h).values_eq

/-- A cursor at the head has everything before it. -/
lemma Cursor.eq_of_head {rest : List (Ptr × α)} {c : Option Ptr} (hc : Cursor cells c rest)
    (h : q.Holds cells) (hhead : c = q.head) : rest = cells :=
  (hc.chain h).det (hhead ▸ h.chain)

/-- Reading a node moves the cursor behind it. -/
lemma Cursor.advance {rest : List (Ptr × α)} {p : Ptr} (hc : Cursor cells (some p) rest)
    (h : q.Holds cells) :
    ∃ next v rest', q.heap.lookup p = some ⟨next, v⟩ ∧ rest = (p, v) :: rest' ∧
      Cursor cells next rest' := by
  rcases rest with _ | ⟨⟨p', v⟩, rest'⟩
  · exact nomatch hc.ptr_eq
  · obtain ⟨heq, next, hp, hrest⟩ := Chain.cons_iff.mp (hc.chain h)
    obtain rfl : p = p' := by simpa using heq
    exact ⟨next, v, rest', hp, rfl, (List.suffix_cons _ _).trans hc.suffix, hrest.head_eq⟩

/-- A cursor whose node is kept survives pruning. -/
lemma Cursor.prune {rest : List (Ptr × α)} {c : Option Ptr} (hc : Cursor cells c rest)
    {busy : Ptr → Bool} (hbusy : ∀ p, c = some p → busy p = true) :
    Cursor (cells.dropWhile fun c => !busy c.1) c rest := by
  refine ⟨?_, hc.ptr_eq⟩
  rcases rest with _ | ⟨⟨p, v⟩, rest⟩
  · exact List.nil_suffix
  · obtain ⟨pre, rfl⟩ := hc.suffix
    have hp : busy p = true := hbusy p hc.ptr_eq
    rw [List.dropWhile_append]
    split_ifs
    · rw [List.dropWhile_cons_of_neg (by simp [hp])]
    · exact List.suffix_append _ _

/-- An appended node is unread by every reader; the ones that had read everything start at it. -/
lemma Cursor.append {rest : List (Ptr × α)} {c : Option Ptr} (hc : Cursor cells c rest) (p : Ptr)
    (v : α) :
    Cursor (cells ++ [(p, v)]) (if c = none then some p else c) (rest ++ [(p, v)]) := by
  obtain ⟨pre, rfl⟩ := hc.suffix
  refine ⟨⟨pre, (List.append_assoc pre rest _).symm⟩, ?_⟩
  rw [hc.ptr_eq]
  cases rest <;> simp

end Queue

end LinkedHeap
