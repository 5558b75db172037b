import Mathlib.Tactic

/-!
# Shift registers

A register of `w` bits that takes bits in from the right, and the words that are fed into it most
significant bit first.
-/

namespace ShiftRegister

variable {w n : ℕ}

/-- One bit enters from the right. -/
def shiftIn (r : BitVec w) (b : Bool) : BitVec w := (r <<< 1) ||| (if b then 1 else 0)

def feed (r : BitVec w) (bs : List Bool) : BitVec w := bs.foldl shiftIn r

/-- The bits of a word, most significant first. -/
def bits (x : BitVec n) : List Bool := (List.range n).map fun i => x.getMsbD i

@[simp] lemma bits_length (x : BitVec n) : (bits x).length = n := by
  simp [bits]

@[simp] lemma feed_nil (r : BitVec w) : feed r [] = r := rfl

@[simp] lemma feed_cons (r : BitVec w) (b : Bool) (bs : List Bool) :
    feed r (b :: bs) = feed (shiftIn r b) bs := rfl

lemma feed_append (r : BitVec w) (bs cs : List Bool) : feed r (bs ++ cs) = feed (feed r bs) cs :=
  List.foldl_append

lemma shiftIn_getLsbD (r : BitVec w) (b : Bool) {i : ℕ} (hi : i < w) :
    (shiftIn r b).getLsbD i = if i = 0 then b else r.getLsbD (i - 1) := by
  cases i with
  | zero => cases b <;> simp [shiftIn, hi]
  | succ i => cases b <;> simp [shiftIn, hi, BitVec.getLsbD_eq_getElem (Nat.lt_of_succ_lt hi)]

/-- The last bit fed is the lowest one; bits beyond the fed ones come from the old register. -/
lemma feed_getLsbD (r : BitVec w) (bs : List Bool) {i : ℕ} (hi : i < w) :
    (feed r bs).getLsbD i = bs.reverse[i]?.getD (r.getLsbD (i - bs.length)) := by
  induction bs using List.reverseRecOn generalizing i with
  | nil => simp
  | append_singleton bs b ih =>
    rw [feed_append, feed_cons, feed_nil, shiftIn_getLsbD _ _ hi, List.reverse_concat]
    cases i with
    | zero => simp
    | succ i =>
      rw [if_neg (Nat.succ_ne_zero i), ih (by omega)]
      simp

/-- A word that has just been fed stands in the low bits. -/
theorem feed_bits (r : BitVec w) (x : BitVec n) (h : n ≤ w) :
    (feed r (bits x)).setWidth n = x := by
  apply BitVec.eq_of_getLsbD_eq
  intro i hi
  rw [BitVec.getLsbD_setWidth, feed_getLsbD r _ (hi.trans_le h), decide_eq_true hi, Bool.true_and,
    List.getElem?_reverse (by simpa using hi)]
  have hlast : n - 1 - i < n := by omega
  simp [bits, hlast, BitVec.getMsbD, show n - 1 - (n - 1 - i) = i by omega]

/-- The low bits of a register do not depend on the bits above them. -/
lemma feed_setWidth (r : BitVec w) (bs : List Bool) (h : n ≤ w) :
    (feed r bs).setWidth n = feed (r.setWidth n) bs := by
  apply BitVec.eq_of_getLsbD_eq
  intro i hi
  rw [BitVec.getLsbD_setWidth, feed_getLsbD r _ (hi.trans_le h), feed_getLsbD _ _ hi,
    decide_eq_true hi, Bool.true_and, BitVec.getLsbD_setWidth, decide_eq_true (by omega : _ < n),
    Bool.true_and]

end ShiftRegister
