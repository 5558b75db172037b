import Mathlib.Tactic

/-!
# Cyclic redundancy checks

A register of `w` bits that is shifted towards its top bit; the bit that falls out decides whether
the polynomial is subtracted. Message bits enter at the top, and the check is what the register
holds in the end. Up to `w` bits can as well be put into the register at once: from this follow the
table-driven forms, that a message with its own check leaves nothing, and that no error within `w`
neighbouring bits goes unnoticed.
-/

namespace Crc

variable {w : ℕ} (poly : BitVec w)

def shift (reg : BitVec w) : BitVec w := if reg.msb then (reg <<< 1) ^^^ poly else reg <<< 1

/-- A register that is empty but for its top bit. -/
def top (bit : Bool) : BitVec w := if bit then BitVec.twoPow w (w - 1) else 0#w

/-- A message bit enters at the top. -/
def absorb (reg : BitVec w) (bit : Bool) : BitVec w := shift poly (reg ^^^ top bit)

def check (reg : BitVec w) (bits : List Bool) : BitVec w := bits.foldl (absorb poly) reg

/-- The register that holds these bits from its top bit on. -/
def load : List Bool → BitVec w
  | [] => 0#w
  | bit :: bits => top bit ^^^ (load bits >>> 1)

/-- The bits of a register from its top bit on. -/
def unload (reg : BitVec w) : List Bool := (List.range w).map reg.getMsbD

lemma getMsbD_top (bit : Bool) (i : ℕ) :
    (top bit : BitVec w).getMsbD i = (decide (i < w ∧ i = 0) && bit) := by
  unfold top
  cases bit with
  | false => simp
  | true =>
    rw [if_pos rfl, BitVec.getMsbD_twoPow, Bool.and_true]
    rw [← Bool.decide_and, decide_eq_decide]
    omega

lemma getMsbD_load (bits : List Bool) (i : ℕ) :
    (load bits : BitVec w).getMsbD i = (decide (i < w) && bits.getD i false) := by
  induction bits generalizing i with
  | nil => simp [load]
  | cons bit bits ih =>
    rw [load, BitVec.getMsbD_xor, getMsbD_top, BitVec.getMsbD_ushiftRight, ih]
    cases i with
    | zero => simp
    | succ i =>
      have hpred : i + 1 < w → i < w := fun h => by omega
      by_cases hi : i + 1 < w <;> simp [hi, hpred]

lemma load_unload (reg : BitVec w) : load (unload reg) = reg := by
  apply BitVec.eq_of_getMsbD_eq
  intro i hi
  rw [getMsbD_load, unload, List.getD_eq_getElem?_getD, List.getElem?_map, List.getElem?_range hi]
  simp [hi]

@[simp] lemma length_unload (reg : BitVec w) : (unload reg).length = w := by simp [unload]

/-! ### Shifting is linear -/

@[simp] lemma shift_zero : shift poly 0#w = 0#w := by simp [shift]

lemma shift_xor (a b : BitVec w) : shift poly (a ^^^ b) = shift poly a ^^^ shift poly b := by
  unfold shift
  rw [BitVec.msb_xor, BitVec.shiftLeft_xor_distrib]
  cases a.msb <;> cases b.msb
  · rfl
  · exact BitVec.xor_assoc ..
  · simp only [Bool.true_bne, Bool.not_false, if_true, Bool.false_eq_true, if_false]
    ac_rfl
  · have hcancel : ∀ x y : BitVec w, x ^^^ poly ^^^ (y ^^^ poly) = x ^^^ y := by
      intro x y
      rw [BitVec.xor_comm y, BitVec.xor_assoc, ← BitVec.xor_assoc poly, BitVec.xor_self,
        BitVec.zero_xor]
    simp [hcancel]

@[simp] lemma iterate_shift_zero (n : ℕ) : (shift poly)^[n] 0#w = 0#w :=
  Function.iterate_fixed (shift_zero poly) n

/-- A polynomial with a constant term makes a register that is not empty leave something. -/
lemma eq_zero_of_shift (hpoly : poly.getLsbD 0 = true) {reg : BitVec w} (h : shift poly reg = 0#w) :
    reg = 0#w := by
  have hmsb : reg.msb = false := by
    by_contra hmsb
    have hbit := congrArg (BitVec.getLsbD · 0) h
    rw [shift, if_pos (by simpa using hmsb)] at hbit
    simp [hpoly] at hbit
  rw [shift, hmsb, if_neg Bool.false_ne_true] at h
  apply BitVec.eq_of_getMsbD_eq
  intro i _
  cases i with
  | zero => simpa [BitVec.msb] using hmsb
  | succ i =>
    have hbit := congrArg (BitVec.getMsbD · i) h
    rw [BitVec.getMsbD_shiftLeft] at hbit
    simpa using hbit

lemma eq_zero_of_iterate_shift (hpoly : poly.getLsbD 0 = true) {n : ℕ} {reg : BitVec w}
    (h : (shift poly)^[n] reg = 0#w) : reg = 0#w := by
  induction n generalizing reg with
  | zero => exact h
  | succ n ih => exact eq_zero_of_shift poly hpoly (ih h)

/-! ### Loading at once -/

/-- What was moved down a place moves up again, unless it reached the bottom. -/
lemma shift_load {bits : List Bool} (h : bits.length < w) :
    shift poly (load bits >>> 1) = load bits := by
  have hmsb : (load bits >>> 1 : BitVec w).msb = false := by
    rw [BitVec.msb, BitVec.getMsbD_ushiftRight]
    simp
  rw [shift, hmsb, if_neg Bool.false_ne_true]
  apply BitVec.eq_of_getMsbD_eq
  intro i hi
  rw [BitVec.getMsbD_shiftLeft, BitVec.getMsbD_ushiftRight, Nat.add_sub_cancel, getMsbD_load]
  by_cases hlast : i + 1 < w
  · simp [hlast]
  · have hend : bits.length ≤ i := by omega
    simp [hlast, List.getElem?_eq_none hend]

/-- **Bits can enter one by one or all at once.** -/
theorem check_eq_load (reg : BitVec w) {bits : List Bool} (h : bits.length ≤ w) :
    check poly reg bits = (shift poly)^[bits.length] (reg ^^^ load bits) := by
  induction bits generalizing reg with
  | nil => simp [check, load]
  | cons bit bits ih =>
    have hbits : bits.length < w := h
    calc check poly reg (bit :: bits)
        = check poly (absorb poly reg bit) bits := rfl
      _ = (shift poly)^[bits.length] (shift poly (reg ^^^ top bit) ^^^ load bits) :=
          ih _ hbits.le
      _ = (shift poly)^[bits.length] (shift poly (reg ^^^ load (bit :: bits))) := by
          rw [load, ← BitVec.xor_assoc, shift_xor poly _ (load bits >>> 1), shift_load poly hbits]

lemma check_append (reg : BitVec w) (xs ys : List Bool) :
    check poly reg (xs ++ ys) = check poly (check poly reg xs) ys :=
  List.foldl_append

/-- **A message with its own check leaves nothing.** -/
theorem check_append_unload (reg : BitVec w) (bits : List Bool) :
    check poly reg (bits ++ unload (check poly reg bits)) = 0#w := by
  rw [check_append, check_eq_load poly _ (length_unload _).le, load_unload, BitVec.xor_self,
    iterate_shift_zero]

/-! ### Errors -/

lemma top_xor (x y : Bool) : (top (x ^^ y) : BitVec w) = top x ^^^ top y := by
  cases x <;> cases y <;> simp [top]

/-- The check of a sum is the sum of the checks. -/
lemma check_zipWith_xor (a b : BitVec w) {xs ys : List Bool} (h : xs.length = ys.length) :
    check poly (a ^^^ b) (List.zipWith xor xs ys) = check poly a xs ^^^ check poly b ys := by
  induction xs generalizing a b ys with
  | nil =>
    obtain rfl := List.length_eq_zero_iff.mp h.symm
    rfl
  | cons x xs ih =>
    cases ys with
    | nil => cases h
    | cons y ys =>
      have hstep : absorb poly (a ^^^ b) (x ^^ y) = absorb poly a x ^^^ absorb poly b y := by
        unfold absorb
        rw [← shift_xor, top_xor]
        congr 1
        ac_rfl
      rw [List.zipWith_cons_cons]
      show check poly (absorb poly (a ^^^ b) (x ^^ y)) _ = _
      rw [hstep]
      exact ih _ _ (Nat.succ.inj h)

lemma check_replicate_false (reg : BitVec w) (n : ℕ) :
    check poly reg (List.replicate n false) = (shift poly)^[n] reg := by
  induction n generalizing reg with
  | zero => rfl
  | succ n ih =>
    show check poly (absorb poly reg false) _ = _
    rw [ih, absorb, top, if_neg Bool.false_ne_true, BitVec.xor_zero]
    rfl

/-- An error within some neighbouring bits. -/
def burst (before : ℕ) (error : List Bool) (after : ℕ) : List Bool :=
  List.replicate before false ++ error ++ List.replicate after false

lemma length_burst (before : ℕ) (error : List Bool) (after : ℕ) :
    (burst before error after).length = before + error.length + after := by
  simp [burst, Nat.add_assoc]

/-- **No burst goes unnoticed.** An error within `w` neighbouring bits changes the check. -/
theorem check_burst_ne (hpoly : poly.getLsbD 0 = true) (reg : BitVec w) {bits error : List Bool}
    {before after : ℕ} (hlength : bits.length = (burst before error after).length)
    (hshort : error.length ≤ w) (herror : true ∈ error) :
    check poly reg (List.zipWith xor bits (burst before error after)) ≠ check poly reg bits := by
  intro h
  have hsum := check_zipWith_xor poly reg 0#w hlength
  have hzero : check poly 0#w (burst before error after) = 0#w := by
    rw [BitVec.xor_zero, h] at hsum
    have hcancel := congrArg (check poly reg bits ^^^ ·) hsum
    rw [BitVec.xor_self, ← BitVec.xor_assoc, BitVec.xor_self, BitVec.zero_xor] at hcancel
    exact hcancel.symm
  rw [burst, check_append, check_append, check_replicate_false, check_replicate_false,
    iterate_shift_zero, check_eq_load poly _ hshort, BitVec.zero_xor] at hzero
  have hload : (load error : BitVec w) = 0#w :=
    eq_zero_of_iterate_shift poly hpoly (eq_zero_of_iterate_shift poly hpoly hzero)
  obtain ⟨i, hi, hbit⟩ := List.getElem_of_mem herror
  have hget := congrArg (BitVec.getMsbD · i) hload
  simp [getMsbD_load, List.getElem?_eq_getElem hi, hbit, hi.trans_le hshort] at hget

end Crc
