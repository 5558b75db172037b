import Mpxcast.Core.RcNetwork
import Mpxcast.Dsp.Deemphasis

/-!
# The response of the deemphasis

With the exponential function of the reals and in exact arithmetic the deemphasis is the RC network
it stands for. The clamps of its coefficient are never reached.
-/

namespace Mpxcast

open OnePole RcNetwork

variable {sampleRate tauSeconds : ℝ}

lemma deemphasisInit_exp (hrate : 0 < sampleRate) (htau : 0 < tauSeconds) :
    deemphasisInit Real.exp sampleRate tauSeconds = ⟨covered tauSeconds (1 / sampleRate), 0⟩ := by
  have hexponent : -(1 / sampleRate) / tauSeconds < 0 :=
    div_neg_of_neg_of_pos (neg_lt_zero.2 (one_div_pos.2 hrate)) htau
  have hpos : 0 < 1 - Real.exp (-(1 / sampleRate) / tauSeconds) :=
    sub_pos.2 (Real.exp_lt_one_iff.2 hexponent)
  have hlt : 1 - Real.exp (-(1 / sampleRate) / tauSeconds) < 1 :=
    sub_lt_self 1 (Real.exp_pos _)
  unfold deemphasisInit
  dsimp only
  rw [if_neg (not_le.2 htau), if_neg (not_lt.2 hpos.le), if_neg (not_lt.2 hlt.le)]
  rfl

/-- Buffers one after the other. -/
lemma deemphasisProcessBuffers {K : Type*} [Field K] (state : DeemphasisState K)
    (buffers : List (List K)) :
    ∃ next outputs,
      Loop.calls (fun state samples => some (deemphasisProcessBuffer state samples)) state buffers
        = some (next, outputs) ∧
      outputs.flatten = smoothed state.alpha state.output buffers.flatten := by
  induction buffers generalizing state with
  | nil => exact ⟨state, [], rfl, rfl⟩
  | cons samples buffers ih =>
    obtain ⟨next, outputs, hcalls, hflatten⟩ :=
      ih { state with output := last state.alpha state.output samples }
    refine ⟨next, smoothed state.alpha state.output samples :: outputs, ?_, ?_⟩
    · rw [Loop.calls, deemphasisProcessBuffer_eq, Option.bind_some, hcalls, Option.map_some]
    · rw [List.flatten_cons, hflatten, List.flatten_cons, smoothed_append]

/-- **Deemphasis is an RC network.** In exact arithmetic, however the samples are cut into buffers,
what comes out are the voltages of the network with this time constant at the ends of the sampling
periods, when each sample is held for one period. -/
theorem deemphasis_is_rc_network (hrate : 0 < sampleRate) (htau : 0 < tauSeconds)
    (buffers : List (List ℝ)) :
    ∃ next outputs,
      Loop.calls (fun state samples => some (deemphasisProcessBuffer state samples))
          (deemphasisInit Real.exp sampleRate tauSeconds) buffers = some (next, outputs) ∧
      (∃ y, Responds tauSeconds (1 / sampleRate) buffers.flatten y) ∧
      ∀ y, Responds tauSeconds (1 / sampleRate) buffers.flatten y →
        outputs.flatten = (List.range buffers.flatten.length).map fun n =>
          y ((n + 1 : ℕ) * (1 / sampleRate)) := by
  have hdt : 0 < 1 / sampleRate := one_div_pos.2 hrate
  obtain ⟨next, outputs, hcalls, hflatten⟩ :=
    deemphasisProcessBuffers (deemphasisInit Real.exp sampleRate tauSeconds) buffers
  refine ⟨next, outputs, hcalls, exists_responds tauSeconds hdt buffers.flatten, fun y hy => ?_⟩
  rw [hflatten, deemphasisInit_exp hrate htau]
  refine List.ext_getElem? fun n => ?_
  rw [List.getElem?_map]
  rcases lt_or_ge n buffers.flatten.length with hn | hn
  · rw [smoothed_getElem? 0 hn, List.getElem?_range hn, Option.map_some,
      hy.eq_last htau.ne' hdt (n + 1) hn]
  · rw [List.getElem?_eq_none (by rwa [length_smoothed]),
      List.getElem?_eq_none (by rwa [List.length_range])]
    rfl

/-- At 48 kHz and 50 µs, a step in two buffers. -/
theorem deemphasis_is_rc_network_step :
    ∃ next outputs,
      Loop.calls (fun state samples => some (deemphasisProcessBuffer state samples))
          (deemphasisInit Real.exp 48000 (1 / 20000)) [[0, 1], [1, 1, 1]] = some (next, outputs) ∧
      (∃ y, Responds (1 / 20000) (1 / 48000) [0, 1, 1, 1, 1] y) ∧
      ∀ y, Responds (1 / 20000) (1 / 48000) [0, 1, 1, 1, 1] y →
        outputs.flatten = (List.range 5).map fun n => y ((n + 1 : ℕ) * (1 / 48000)) :=
  deemphasis_is_rc_network (by norm_num) (by norm_num) [[0, 1], [1, 1, 1]]

end Mpxcast
