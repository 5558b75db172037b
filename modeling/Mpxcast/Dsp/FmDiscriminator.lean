import Mpxcast.Core.CFloat
import Mpxcast.Core.Loop
import Mpxcast.Dsp.MpxFilterBank

/-!
# The FM discriminator

`dsp/fm_discriminator.c`: each I/Q pair is compared with the one before it, in one of three ways.
The two-argument arc tangent of `<math.h>` is a parameter. Arithmetic is exact, in an ordered field
`K`, but samples have signed zeros: `atan2f` and `copysignf` look at the sign of a zero.
-/

namespace Mpxcast

open CFloat

inductive FmDiscriminatorImpl
  | approx
  | atan2Approx
  | atan2Libm
deriving DecidableEq, Repr

/-- The pointer to the function that processes blocks is told by `impl`. -/
structure FmDiscriminatorState (K : Type*) where
  prevI : Signed K
  prevQ : Signed K
  impl : FmDiscriminatorImpl
  havePrev : Bool

variable {K : Type*} [Field K]

def fmDiscriminatorResetState (state : FmDiscriminatorState K) : FmDiscriminatorState K :=
  { state with prevI := 0, prevQ := 0, havePrev := false }

def fmDiscriminatorInit : FmDiscriminatorState K :=
  fmDiscriminatorResetState ⟨0, 0, .atan2Libm, false⟩

def fmDiscriminatorSetImpl (state : FmDiscriminatorState K) (impl : FmDiscriminatorImpl) :
    FmDiscriminatorState K :=
  fmDiscriminatorResetState { state with impl := impl }

/-! ### One pair -/

section Pairs

variable [LinearOrder K] (inPhase quadrature prevI prevQ : Signed K)

def iqDot : Signed K := inPhase * prevI + quadrature * prevQ

def iqCross : Signed K := inPhase * prevQ - quadrature * prevI

/-- The answer of `fm_discriminator_process_block_approx` to a pair. -/
def fmDiscriminatorApprox : K :=
  let cross := iqCross inPhase quadrature prevI prevQ
  let denom := inPhase.value * inPhase.value + quadrature.value * quadrature.value + 1
  cross.value / denom

omit [LinearOrder K] in
/-- `PI_2_F` -/
def halfPiF : K := ((15707963 : ℕ) : K) / ((10000000 : ℕ) : K)

omit [LinearOrder K] in
/-- `FLT_MIN` -/
def fltMin : K := 1 / ((2 : ℕ) : K) ^ 126

omit [LinearOrder K] in
/-- `(float)flag` -/
def floatOfBool (flag : Bool) : K := if flag then 1 else 0

def atan2Fast (y x : Signed K) : K :=
  let absX := |x.value|
  let absY := |y.value|
  let high := max absX absY
  let z := min absX absY / (high + fltMin)
  let zSquared := z * z
  let angle := ((-((464964749 : ℕ) : K) / ((10000000000 : ℕ) : K) * zSquared
    + ((15931422 : ℕ) : K) / ((100000000 : ℕ) : K)) * zSquared
    - ((327622764 : ℕ) : K) / ((1000000000 : ℕ) : K)) * zSquared * z + z
  let angle := angle + floatOfBool (absY > absX) * (halfPiF - ((2 : ℕ) : K) * angle)
  let angle := angle + floatOfBool (x.value < 0) * (piF - ((2 : ℕ) : K) * angle)
  Signed.copysign angle y

end Pairs

/-! ### Blocks -/

/-- The loop over a block: the pair before the next one, and what was put out. -/
structure FmDiscriminatorLoop (K : Type*) where
  prevI : Signed K
  prevQ : Signed K
  output : List K

def fmDiscriminatorRound (answer : Signed K → Signed K → Signed K → Signed K → K)
    (inputIq : List (Signed K)) (loop : FmDiscriminatorLoop K) (i : ℕ) :
    Option (FmDiscriminatorLoop K) := do
  let inPhase ← inputIq[i * 2]?
  let quadrature ← inputIq[i * 2 + 1]?
  return ⟨inPhase, quadrature, loop.output ++ [answer inPhase quadrature loop.prevI loop.prevQ]⟩

/-- The three functions that process blocks, which differ in their answer to a pair. -/
def fmDiscriminatorProcessBlock (answer : Signed K → Signed K → Signed K → Signed K → K)
    (state : FmDiscriminatorState K) (inputIq : List (Signed K)) (sampleCount : ℕ) :
    Option (FmDiscriminatorState K × List K) := do
  let first := !state.havePrev && decide (0 < sampleCount)
  let start := if first then 1 else 0
  let prevI ← if first then inputIq[0]? else some state.prevI
  let prevQ ← if first then inputIq[1]? else some state.prevQ
  let output := if first then [0] else []
  let loop ← (List.range' start (sampleCount - start)).foldlM
    (fmDiscriminatorRound answer inputIq) ⟨prevI, prevQ, output⟩
  return ({ state with
    prevI := loop.prevI
    prevQ := loop.prevQ
    havePrev := state.havePrev || first }, loop.output)

variable [LinearOrder K]

def fmDiscriminatorProcessBlockApprox : FmDiscriminatorState K → List (Signed K) → ℕ →
    Option (FmDiscriminatorState K × List K) :=
  fmDiscriminatorProcessBlock fmDiscriminatorApprox

def fmDiscriminatorProcessBlockAtan2Libm (atan2f : Signed K → Signed K → K) :
    FmDiscriminatorState K → List (Signed K) → ℕ → Option (FmDiscriminatorState K × List K) :=
  fmDiscriminatorProcessBlock fun inPhase quadrature prevI prevQ =>
    atan2f (iqCross inPhase quadrature prevI prevQ) (iqDot inPhase quadrature prevI prevQ)

def fmDiscriminatorProcessBlockAtan2Approx : FmDiscriminatorState K → List (Signed K) → ℕ →
    Option (FmDiscriminatorState K × List K) :=
  fmDiscriminatorProcessBlock fun inPhase quadrature prevI prevQ =>
    atan2Fast (iqCross inPhase quadrature prevI prevQ) (iqDot inPhase quadrature prevI prevQ)

def fmDiscriminatorProcessBlockFloat (atan2f : Signed K → Signed K → K)
    (state : FmDiscriminatorState K) (inputIq : List (Signed K)) (sampleCount : ℕ) :
    Option (FmDiscriminatorState K × List K) :=
  match state.impl with
  | .approx => fmDiscriminatorProcessBlockApprox state inputIq sampleCount
  | .atan2Approx => fmDiscriminatorProcessBlockAtan2Approx state inputIq sampleCount
  | .atan2Libm => fmDiscriminatorProcessBlockAtan2Libm atan2f state inputIq sampleCount

/-! ### Streams -/

/-- What an implementation answers to a pair, next to the pair before it. -/
def fmDiscriminatorAnswer (atan2f : Signed K → Signed K → K) (impl : FmDiscriminatorImpl)
    (prev pair : Signed K × Signed K) : K :=
  match impl with
  | .approx => fmDiscriminatorApprox pair.1 pair.2 prev.1 prev.2
  | .atan2Approx =>
    atan2Fast (iqCross pair.1 pair.2 prev.1 prev.2) (iqDot pair.1 pair.2 prev.1 prev.2)
  | .atan2Libm => atan2f (iqCross pair.1 pair.2 prev.1 prev.2) (iqDot pair.1 pair.2 prev.1 prev.2)

lemma fmDiscriminatorProcessBlockFloat_eq (atan2f : Signed K → Signed K → K)
    (state : FmDiscriminatorState K) :
    fmDiscriminatorProcessBlockFloat atan2f state
      = fmDiscriminatorProcessBlock (fun inPhase quadrature prevI prevQ =>
          fmDiscriminatorAnswer atan2f state.impl (prevI, prevQ) (inPhase, quadrature)) state := by
  funext inputIq sampleCount
  unfold fmDiscriminatorProcessBlockFloat fmDiscriminatorAnswer
  cases state.impl <;> rfl

section Pairing

variable {α β : Type*}

/-- Pairs, as they stand in memory. -/
def interleaved (pairs : List (α × α)) : List α := pairs.flatMap fun pair => [pair.1, pair.2]

lemma getElem?_interleaved (pairs : List (α × α)) (i : ℕ) :
    (interleaved pairs)[i * 2]? = pairs[i]?.map Prod.fst ∧
      (interleaved pairs)[i * 2 + 1]? = pairs[i]?.map Prod.snd := by
  induction pairs generalizing i with
  | nil => simp [interleaved]
  | cons pair pairs ih =>
    cases i with
    | zero => exact ⟨rfl, rfl⟩
    | succ i =>
      rw [Nat.succ_mul]
      exact ih i

lemma interleaved_map (f : α → β) (pairs : List (α × α)) :
    interleaved (pairs.map (Prod.map f f)) = (interleaved pairs).map f := by
  induction pairs with
  | nil => rfl
  | cons pair pairs ih => exact congrArg (fun samples => f pair.1 :: f pair.2 :: samples) ih

variable {K : Type*} [Zero K]

/-- The demodulated stream: nothing can be told of the first pair. -/
def demodulated (answer : α → α → K) : List α → List K
  | [] => []
  | pair :: pairs => 0 :: Causal.successive answer pair pairs

@[simp] lemma length_demodulated (answer : α → α → K) (pairs : List α) :
    (demodulated answer pairs).length = pairs.length := by
  cases pairs with
  | nil => rfl
  | cons pair pairs =>
    rw [demodulated, List.length_cons, Causal.length_successive, List.length_cons]

lemma demodulated_append (answer : α → α → K) (front : List α) (pair : α) (input : List α) :
    demodulated answer (front ++ [pair] ++ input)
      = demodulated answer (front ++ [pair]) ++ Causal.successive answer pair input := by
  cases front with
  | nil => rfl
  | cons first front =>
    rw [List.cons_append, List.cons_append, demodulated, demodulated, Causal.successive_append,
      List.getLastD_concat, List.cons_append]

lemma causal_demodulated (answer : α → α → K) : Causal (demodulated answer) := by
  refine Causal.of_append fun history input => ?_
  rcases List.eq_nil_or_concat history with rfl | ⟨front, pair, rfl⟩
  · exact ⟨demodulated answer input, rfl⟩
  · exact ⟨_, List.concat_eq_append ▸ demodulated_append answer front pair input⟩

/-- A pair behind the first is compared with the one before it. -/
lemma getElem?_demodulated (answer : α → α → K) {pairs : List α} {n : ℕ}
    {prev pair : α} (hprev : pairs[n]? = some prev) (hpair : pairs[n + 1]? = some pair) :
    (demodulated answer pairs)[n + 1]? = some (answer prev pair) := by
  cases pairs with
  | nil => simp at hprev
  | cons first pairs => exact Causal.getElem?_successive hprev hpair

lemma demodulated_map (answer : β → β → K) (f : α → β) (pairs : List α) :
    demodulated answer (pairs.map f)
      = demodulated (fun prev pair => answer (f prev) (f pair)) pairs := by
  cases pairs with
  | nil => rfl
  | cons pair pairs =>
    refine congrArg (0 :: ·) ?_
    induction pairs generalizing pair with
    | nil => rfl
    | cons next pairs ih => exact congrArg (answer (f pair) (f next) :: ·) (ih next)

end Pairing

/-! ### Blocks of the stream -/

section Rounds

variable (answer : Signed K × Signed K → Signed K × Signed K → K)

omit [Field K] [LinearOrder K] in
/-- The loop from pair `start` on. -/
lemma fmDiscriminatorRounds (pairs : List (Signed K × Signed K)) (count : ℕ) :
    ∀ (start : ℕ) (prev : Signed K × Signed K) (output : List K), start + count = pairs.length →
      (List.range' start count).foldlM
        (fmDiscriminatorRound (fun inPhase quadrature prevI prevQ =>
          answer (prevI, prevQ) (inPhase, quadrature)) (interleaved pairs))
        ⟨prev.1, prev.2, output⟩
      = some ⟨((pairs.drop start).getLastD prev).1, ((pairs.drop start).getLastD prev).2,
          output ++ Causal.successive answer prev (pairs.drop start)⟩ := by
  induction count with
  | zero =>
    intro start prev output hend
    rw [List.drop_of_length_le (by omega)]
    simp [Causal.successive]
  | succ count ih =>
    intro start prev output hend
    have hstart : start < pairs.length := by omega
    obtain ⟨hfst, hsnd⟩ := getElem?_interleaved pairs start
    rw [List.getElem?_eq_getElem hstart, Option.map_some] at hfst hsnd
    rw [List.range'_succ, List.foldlM_cons, fmDiscriminatorRound, hfst, hsnd]
    simp only [Option.bind_eq_bind, Option.bind_some, Option.pure_def]
    rw [ih (start + 1) pairs[start] _ (by omega), List.drop_eq_getElem_cons hstart,
      List.getLastD_cons, Causal.successive_cons, List.append_assoc]
    rfl

omit [LinearOrder K] in
/-- A block behind a pair. -/
lemma fmDiscriminatorProcessBlock_have {state : FmDiscriminatorState K}
    (hprev : state.havePrev = true) (pairs : List (Signed K × Signed K)) :
    fmDiscriminatorProcessBlock (fun inPhase quadrature prevI prevQ =>
        answer (prevI, prevQ) (inPhase, quadrature)) state (interleaved pairs) pairs.length
      = some ({ state with
          prevI := (pairs.getLastD (state.prevI, state.prevQ)).1
          prevQ := (pairs.getLastD (state.prevI, state.prevQ)).2 },
        Causal.successive answer (state.prevI, state.prevQ) pairs) := by
  have hrounds := fmDiscriminatorRounds answer pairs pairs.length 0
    (state.prevI, state.prevQ) [] (Nat.zero_add _)
  rw [List.drop_zero, List.nil_append] at hrounds
  unfold fmDiscriminatorProcessBlock
  rw [hprev]
  simp only [Bool.not_true, Bool.false_and, Bool.false_eq_true, if_false, Option.bind_eq_bind,
    Option.bind_some, Nat.sub_zero]
  rw [hrounds]
  rfl

omit [LinearOrder K] in
/-- The first pair of a stream. -/
lemma fmDiscriminatorProcessBlock_first {state : FmDiscriminatorState K}
    (hprev : state.havePrev = false) (pair : Signed K × Signed K)
    (pairs : List (Signed K × Signed K)) :
    fmDiscriminatorProcessBlock (fun inPhase quadrature prevI prevQ =>
        answer (prevI, prevQ) (inPhase, quadrature)) state (interleaved (pair :: pairs))
          (pair :: pairs).length
      = some ({ state with
          prevI := (pairs.getLastD pair).1
          prevQ := (pairs.getLastD pair).2
          havePrev := true }, demodulated answer (pair :: pairs)) := by
  have hrounds := fmDiscriminatorRounds answer (pair :: pairs) pairs.length 1 pair [0]
    (Nat.add_comm _ _)
  obtain ⟨hfst, hsnd⟩ := getElem?_interleaved (pair :: pairs) 0
  unfold fmDiscriminatorProcessBlock
  rw [hprev]
  simp only [Bool.not_false, Bool.true_and, List.length_cons, Nat.zero_lt_succ, decide_true,
    if_true, Nat.add_sub_cancel]
  rw [show (interleaved (pair :: pairs))[0]? = some pair.1 from hfst,
    show (interleaved (pair :: pairs))[1]? = some pair.2 from hsnd]
  simp only [Option.bind_eq_bind, Option.bind_some]
  rw [hrounds]
  rfl

omit [LinearOrder K] in
lemma fmDiscriminatorProcessBlock_empty {state : FmDiscriminatorState K}
    (hprev : state.havePrev = false) :
    fmDiscriminatorProcessBlock (fun inPhase quadrature prevI prevQ =>
        answer (prevI, prevQ) (inPhase, quadrature)) state (interleaved []) 0
      = some (state, []) := by
  unfold fmDiscriminatorProcessBlock
  rw [hprev]
  cases state
  cases hprev
  rfl

end Rounds

/-- The discriminator has heard the history. -/
structure FmDiscriminatorState.Heard (state : FmDiscriminatorState K) (impl : FmDiscriminatorImpl)
    (history : List (Signed K × Signed K)) : Prop where
  impl_eq : state.impl = impl
  prev : history = [] ∧ state.havePrev = false ∨
    state.havePrev = true ∧ ∃ front, history = front ++ [(state.prevI, state.prevQ)]

omit [LinearOrder K] in
lemma fmDiscriminatorSetImpl_heard (state : FmDiscriminatorState K) (impl : FmDiscriminatorImpl) :
    (fmDiscriminatorSetImpl state impl).Heard impl [] := ⟨rfl, Or.inl ⟨rfl, rfl⟩⟩

omit [Field K] [LinearOrder K] in
lemma exists_append_getLastD (front input : List (Signed K × Signed K))
    (pair : Signed K × Signed K) :
    ∃ rest, front ++ [pair] ++ input = rest ++ [input.getLastD pair] := by
  rcases List.eq_nil_or_concat input with rfl | ⟨middle, last, rfl⟩
  · exact ⟨front, List.append_nil _⟩
  · refine ⟨front ++ [pair] ++ middle, ?_⟩
    rw [List.concat_eq_append, List.getLastD_concat, List.append_assoc _ middle]

/-- A block is answered with what it adds to the demodulated stream. -/
lemma FmDiscriminatorState.Heard.process {state : FmDiscriminatorState K}
    {impl : FmDiscriminatorImpl} {history : List (Signed K × Signed K)}
    (atan2f : Signed K → Signed K → K) (h : state.Heard impl history)
    (pairs : List (Signed K × Signed K)) :
    ∃ next, fmDiscriminatorProcessBlockFloat atan2f state (interleaved pairs) pairs.length
        = some (next,
          Causal.since (demodulated (fmDiscriminatorAnswer atan2f impl)) history pairs) ∧
      next.Heard impl (history ++ pairs) := by
  rw [fmDiscriminatorProcessBlockFloat_eq, h.impl_eq]
  rcases h.prev with ⟨rfl, hprev⟩ | ⟨hprev, front, rfl⟩
  · cases pairs with
    | nil =>
      refine ⟨state, ?_, h.impl_eq, Or.inl ⟨rfl, hprev⟩⟩
      rw [Causal.since_nil]
      exact fmDiscriminatorProcessBlock_empty _ hprev
    | cons pair pairs =>
      refine ⟨_, fmDiscriminatorProcessBlock_first _ hprev pair pairs, h.impl_eq, Or.inr ⟨rfl, ?_⟩⟩
      exact exists_append_getLastD [] pairs pair
  · have hblock := fmDiscriminatorProcessBlock_have (fmDiscriminatorAnswer atan2f impl) hprev pairs
    rw [← Causal.since_eq (demodulated_append _ front _ pairs)] at hblock
    exact ⟨_, hblock, h.impl_eq, Or.inr ⟨hprev, exists_append_getLastD front pairs _⟩⟩

/-- The blocks of a stream of samples, from a reset on. -/
lemma fmDiscriminatorProcessBlocks {ι : Type*} (atan2f : Signed K → Signed K → K)
    (state : FmDiscriminatorState K) (impl : FmDiscriminatorImpl)
    (pair : ι → Signed K × Signed K) (blocks : List (List ι)) :
    ∃ next outputs,
      Loop.calls (fun state block =>
          fmDiscriminatorProcessBlockFloat atan2f state (interleaved (block.map pair)) block.length)
        (fmDiscriminatorSetImpl state impl) blocks = some (next, outputs) ∧
      outputs.flatten
        = demodulated (fmDiscriminatorAnswer atan2f impl) (blocks.flatten.map pair) := by
  obtain ⟨next, outputs, hcalls, -, hflatten, -⟩ := Causal.calls_compute
    (causal_demodulated (fmDiscriminatorAnswer atan2f impl)) rfl (List.map pair)
    (fun (state : FmDiscriminatorState K) history => state.Heard impl history)
    (fun state history block h => by
      have hprocess := h.process atan2f (block.map pair)
      rwa [List.length_map] at hprocess)
    (fmDiscriminatorSetImpl_heard state impl) blocks
  rw [List.flatMap_def, ← List.map_flatten] at hflatten
  exact ⟨next, outputs, hcalls, hflatten⟩

end Mpxcast
