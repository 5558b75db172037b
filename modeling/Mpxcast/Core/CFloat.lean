import Mathlib.Tactic

/-!
# Floating-point numbers

Two things in which `float` differs from a field. Its operations round, so no law is assumed of
them where a result does not need one. And its zeros have signs, which the two-argument arc tangent
and `copysign` tell apart: a signed number keeps the sign bit next to the exact value.
-/

namespace CFloat

/-! ### Operations that may round -/

/-- The operations of an arithmetic, without any law. -/
class RoundedOps (K : Type*) where
  zero : K
  one : K
  add : K → K → K
  div : K → K → K
  natCast : ℕ → K

section

variable {K : Type*} [RoundedOps K]

instance (priority := 10) instZeroRoundedOps : Zero K := ⟨RoundedOps.zero⟩

instance (priority := 10) instOneRoundedOps : One K := ⟨RoundedOps.one⟩

instance (priority := 10) instAddRoundedOps : Add K := ⟨RoundedOps.add⟩

instance (priority := 10) instDivRoundedOps : Div K := ⟨RoundedOps.div⟩

instance (priority := 10) instNatCastRoundedOps : NatCast K := ⟨RoundedOps.natCast⟩

end

variable {K : Type*} [Field K]

/-- Exact arithmetic. -/
instance (priority := low) instRoundedOpsField : RoundedOps K where
  zero := 0
  one := 1
  add := (· + ·)
  div := (· / ·)
  natCast := Nat.cast

/-! ### Signed zeros -/

/-- A number, with the sign that it has if it is zero. -/
structure Signed (K : Type*) where
  value : K
  negativeZero : Bool

namespace Signed

/-- A number that is not a negative zero. -/
def plain {K : Type*} (value : K) : Signed K := ⟨value, false⟩

instance instZero : Zero (Signed K) := ⟨plain 0⟩

variable [LinearOrder K] (a b : Signed K)

/-- `signbit` -/
def negative : Bool := if a.value = 0 then a.negativeZero else decide (a.value < 0)

instance instMul : Mul (Signed K) := ⟨fun a b => ⟨a.value * b.value, a.negative ^^ b.negative⟩⟩

/-- A zero sum is negative when both summands are negative zeros, as in rounding to nearest. -/
instance instAdd : Add (Signed K) := ⟨fun a b => ⟨a.value + b.value, a.negative && b.negative⟩⟩

instance instSub : Sub (Signed K) := ⟨fun a b => ⟨a.value - b.value, a.negative && !b.negative⟩⟩

@[simp] lemma value_mul : (a * b).value = a.value * b.value := rfl

@[simp] lemma value_add : (a + b).value = a.value + b.value := rfl

@[simp] lemma value_sub : (a - b).value = a.value - b.value := rfl

lemma negative_of_ne_zero {a : Signed K} (h : a.value ≠ 0) : a.negative = decide (a.value < 0) :=
  if_neg h

/-- `copysign` -/
def copysign (magnitude : K) (sign : Signed K) : K :=
  if sign.negative then -|magnitude| else |magnitude|

end Signed

end CFloat
