import Mpxcast.Core.OnePole

/-!
# Deemphasis

`dsp/deemphasis.c`: a one-pole low pass. Samples are elements of an ordered field `K`, and `expf` is
a parameter. Everything is exact: `float` loses the difference of `expf` from 1 when the time
constant is long, and the last steps towards a sample when `alpha` is small.
-/

namespace Mpxcast

open OnePole

structure DeemphasisState (K : Type*) where
  alpha : K
  output : K

variable {K : Type*} [Field K] [LinearOrder K]

def deemphasisInit (expf : K → K) (sampleRate tauSeconds : K) : DeemphasisState K :=
  let dt := 1 / sampleRate
  if tauSeconds ≤ 0 then ⟨1, 0⟩
  else
    let alpha := 1 - expf (-dt / tauSeconds)
    let alpha := if alpha < 0 then 0 else alpha
    let alpha := if alpha > 1 then 1 else alpha
    ⟨alpha, 0⟩

/-- The samples of the buffer are replaced one by one. -/
def deemphasisProcessBuffer (state : DeemphasisState K) :
    List K → DeemphasisState K × List K
  | [] => (state, [])
  | sample :: samples =>
    let output := state.output + state.alpha * (sample - state.output)
    let (state, rest) := deemphasisProcessBuffer { state with output } samples
    (state, output :: rest)

omit [LinearOrder K] in
lemma deemphasisProcessBuffer_eq (state : DeemphasisState K) (samples : List K) :
    deemphasisProcessBuffer state samples
      = ({ state with output := last state.alpha state.output samples },
        smoothed state.alpha state.output samples) := by
  induction samples generalizing state with
  | nil => rfl
  | cons sample samples ih =>
    rw [deemphasisProcessBuffer, ih]
    rfl

lemma deemphasisInit_output (expf : K → K) (sampleRate tauSeconds : K) :
    (deemphasisInit expf sampleRate tauSeconds).output = 0 := by
  unfold deemphasisInit
  dsimp only
  split_ifs <;> rfl

end Mpxcast
