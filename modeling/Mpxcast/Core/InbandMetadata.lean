import Mathlib.Tactic

/-!
# Metadata blocks inside a byte stream

A body with one metadata block after every `interval` bytes of it. A block is a length byte `n` and
`16 * n` further bytes. `Receiver.run` is the player that strips the blocks byte by byte.
-/

namespace InbandMetadata

/-- A block: the length byte and as many bytes as it announces. -/
def IsBlock : List UInt8 → Prop
  | [] => False
  | n :: rest => rest.length = 16 * n.toNat

instance : DecidablePred IsBlock
  | [] => isFalse id
  | n :: rest => inferInstanceAs (Decidable (rest.length = 16 * n.toNat))

/-- What the receiver expects next: body bytes up to the next block, the length byte, or the rest of
a block whose bytes so far are `got`. -/
inductive Phase
  | body (left : ℕ)
  | length
  | block (left : ℕ) (got : List UInt8)
deriving DecidableEq, Repr

structure Receiver where
  phase : Phase
  body : List UInt8
  blocks : List (List UInt8)
deriving DecidableEq, Repr

namespace Receiver

/-- A receiver at the first byte of the stream. -/
def start (interval : ℕ) : Receiver := ⟨.body interval, [], []⟩

/-- Takes one byte. -/
def step (interval : ℕ) (r : Receiver) (b : UInt8) : Receiver :=
  match r.phase with
  | .body left =>
    ⟨if left = 1 then .length else .body (left - 1), r.body ++ [b], r.blocks⟩
  | .length =>
    if b = 0 then ⟨.body interval, r.body, r.blocks ++ [[b]]⟩
    else ⟨.block (16 * b.toNat) [b], r.body, r.blocks⟩
  | .block left got =>
    if left = 1 then ⟨.body interval, r.body, r.blocks ++ [got ++ [b]]⟩
    else ⟨.block (left - 1) (got ++ [b]), r.body, r.blocks⟩

def run (interval : ℕ) (r : Receiver) (bytes : List UInt8) : Receiver :=
  bytes.foldl (step interval) r

variable {interval : ℕ}

@[simp] lemma run_nil (r : Receiver) : r.run interval [] = r := rfl

@[simp] lemma run_cons (r : Receiver) (b : UInt8) (bytes : List UInt8) :
    r.run interval (b :: bytes) = (r.step interval b).run interval bytes := rfl

lemma run_append (r : Receiver) (x y : List UInt8) :
    r.run interval (x ++ y) = (r.run interval x).run interval y :=
  List.foldl_append

/-- Body bytes short of the next block are passed on. -/
lemma run_body {left : ℕ} {x : List UInt8} (h : x.length < left) (body : List UInt8)
    (blocks : List (List UInt8)) :
    run interval ⟨.body left, body, blocks⟩ x = ⟨.body (left - x.length), body ++ x, blocks⟩ := by
  induction x generalizing left body with
  | nil => simp
  | cons b x ih =>
    rw [List.length_cons] at h
    have hne : left ≠ 1 := by omega
    simp only [run_cons, step, if_neg hne]
    rw [ih (by omega), Nat.sub_sub, Nat.add_comm 1, List.append_assoc, List.singleton_append,
      List.length_cons]

/-- The body bytes up to the next block leave the receiver at its length byte. -/
lemma run_body_full {left : ℕ} {x : List UInt8} (h : x.length = left) (hpos : 0 < left)
    (body : List UInt8) (blocks : List (List UInt8)) :
    run interval ⟨.body left, body, blocks⟩ x = ⟨.length, body ++ x, blocks⟩ := by
  obtain ⟨y, b, rfl⟩ : ∃ y b, x = y ++ [b] := by
    refine ⟨x.dropLast, x.getLast (List.ne_nil_of_length_pos (by omega)), ?_⟩
    rw [List.dropLast_append_getLast]
  rw [List.length_append, List.length_singleton] at h
  have hone : left - y.length = 1 := by omega
  rw [run_append, run_body (by omega)]
  simp [step, hone]

lemma run_blockRest {left : ℕ} {x : List UInt8} (h : x.length = left) (hpos : 0 < left)
    (got body : List UInt8) (blocks : List (List UInt8)) :
    run interval ⟨.block left got, body, blocks⟩ x
      = ⟨.body interval, body, blocks ++ [got ++ x]⟩ := by
  induction x generalizing left got with
  | nil => exact absurd h hpos.ne
  | cons b x ih =>
    rw [List.length_cons] at h
    by_cases hone : left = 1
    · obtain rfl : x = [] := List.length_eq_zero_iff.mp (by omega)
      simp [step, hone]
    · simp only [run_cons, step, if_neg hone]
      rw [ih (by omega) (by omega), List.append_assoc, List.singleton_append]

/-- A block is stripped and recorded. -/
theorem run_isBlock {block : List UInt8} (h : IsBlock block) (body : List UInt8)
    (blocks : List (List UInt8)) :
    run interval ⟨.length, body, blocks⟩ block = ⟨.body interval, body, blocks ++ [block]⟩ := by
  cases block with
  | nil => exact h.elim
  | cons n rest =>
    have hlen : rest.length = 16 * n.toNat := h
    by_cases hn : n = 0
    · subst hn
      obtain rfl : rest = [] := List.length_eq_zero_iff.mp (by simpa using hlen)
      simp [step]
    · have hpos : 0 < n.toNat := by
        apply Nat.pos_of_ne_zero
        intro h0
        exact hn (UInt8.toNat_inj.mp h0)
      simp only [run_cons, step, if_neg hn]
      rw [run_blockRest hlen (by omega), List.singleton_append]

end Receiver

end InbandMetadata
