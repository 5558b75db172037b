import Mathlib.Tactic

/-!
# Small pieces of C

Checked `size_t` subtraction, checked division, checked accesses to an array kept as a list,
`memcpy` into such an array, and the C string at the start of a character array.
-/

namespace CMemory

variable {α : Type*}

/-- `a - b` on `size_t`; `none` where the subtraction would wrap below zero. -/
def usub (a b : ℕ) : Option ℕ := if b ≤ a then some (a - b) else none

lemma usub_of_le {a b : ℕ} (h : b ≤ a) : usub a b = some (a - b) := if_pos h

/-- `a - b` on `size_t`, wrapping below zero. -/
def sizeSub (a b : ℕ) : ℕ := if b ≤ a then a - b else a + 2 ^ 64 - b

/-- `a / b`; `none` for a division by zero. -/
def divide {K : Type*} [DivisionRing K] [DecidableEq K] (a b : K) : Option K :=
  if b = 0 then none else some (a / b)

/-- `array[i] = x`; `none` outside the array. -/
def store (array : List α) (i : ℕ) (x : α) : Option (List α) :=
  if i < array.length then some (array.set i x) else none

lemma store_of_lt {array : List α} {i : ℕ} (h : i < array.length) (x : α) :
    store array i x = some (array.set i x) := if_pos h

/-- Storing one entry after the other, the stored part grows by one. -/
lemma take_set_succ {array : List α} {i : ℕ} (h : i < array.length) (x : α) :
    (array.set i x).take (i + 1) = array.take i ++ [x] := by
  rw [List.take_add_one, List.take_set_of_le le_rfl, List.getElem?_set_self h]
  rfl

/-- The `count` entries from `array + off` on; `none` where they reach beyond the array. -/
def slice (array : List α) (off count : ℕ) : Option (List α) :=
  if off + count ≤ array.length then some ((array.drop off).take count) else none

lemma slice_of_le {array : List α} {off count : ℕ} (h : off + count ≤ array.length) :
    slice array off count = some ((array.drop off).take count) := if_pos h

/-- `memcpy(dst + off, src, |src|)`. -/
def memcpy (dst : List α) (off : ℕ) (src : List α) : List α :=
  dst.take off ++ src ++ dst.drop (off + src.length)

lemma memcpy_length {dst src : List α} {off : ℕ} (h : off + src.length ≤ dst.length) :
    (memcpy dst off src).length = dst.length := by
  simp only [memcpy, List.length_append, List.length_take, List.length_drop]
  omega

/-- `memset(dst + off, value, count)`. -/
def memset (dst : List α) (off : ℕ) (value : α) (count : ℕ) : List α :=
  memcpy dst off (List.replicate count value)

@[simp] lemma memcpy_zero (dst src : List α) :
    memcpy dst 0 src = src ++ dst.drop src.length := by
  simp [memcpy]

@[simp] lemma memcpy_cons_succ (x : α) (dst src : List α) (off : ℕ) :
    memcpy (x :: dst) (off + 1) src = x :: memcpy dst off src := by
  simp [memcpy, Nat.succ_add]

lemma memcpy_append {pre dst src : List α} {off : ℕ} (h : off = pre.length) :
    memcpy (pre ++ dst) off src = pre ++ src ++ dst.drop src.length := by
  subst h
  simp [memcpy]

@[simp] lemma set_replicate_zero {n : ℕ} (hn : 0 < n) (x y : α) :
    (List.replicate n x).set 0 y = y :: List.replicate (n - 1) x := by
  obtain ⟨n, rfl⟩ := Nat.exists_eq_succ_of_ne_zero hn.ne'
  rfl

/-- A block written at the very end keeps the fill value in front of it. -/
lemma memcpy_replicate_end (pre : List α) {src : List α} {n : ℕ} (off : ℕ) (x : α)
    (h : src.length ≤ n) (hoff : off = pre.length + (n - src.length)) :
    memcpy (pre ++ List.replicate n x) off src
      = pre ++ List.replicate (n - src.length) x ++ src := by
  have hsplit : List.replicate n x
      = List.replicate (n - src.length) x ++ List.replicate src.length x := by
    rw [List.replicate_append_replicate, Nat.sub_add_cancel h]
  rw [hsplit, ← List.append_assoc, memcpy_append (by simp [hoff])]
  simp

/-- The C string stored at the start of a character array. -/
def cString (chars : List UInt8) : List UInt8 := chars.takeWhile (· ≠ 0)

lemma cString_length_le (chars : List UInt8) : (cString chars).length ≤ chars.length :=
  (List.takeWhile_sublist _).length_le

end CMemory
