import Mpxcast.Core.Framing
import Mpxcast.Core.Loop
import Mpxcast.Dsp.RdsFrontEnd

/-!
# The frames of the RDS decimator

Blocks of any length are mixed down and cut into frames of 24 samples; up to 23 samples wait for the
next block. The arrays on the stack are just large enough for the longest block behind the longest
rest, so the guard on them never drops an output, and the frames do not depend on the blocks.
-/

namespace Mpxcast

open CMemory Framing

universe u

variable {K Nco Decimator Agc SymbolSync : Type u}

lemma rdsDecimationFactor_pos : 0 < rdsDecimationFactor := by decide

/-! ### The decimator input -/

/-- The front end is set up, and `pending` waits in the decimator input. -/
structure RdsFrontEndState.Pending
    (state : RdsFrontEndState K Nco Decimator Agc SymbolSync) (nco : Nco) (pending : List (K × K)) :
    Prop where
  nco : state.subcarrierNco = some nco
  decimator : state.basebandDecimator.isSome
  agc : state.agc.isSome
  length : state.decimatorInput.length = rdsDecimationFactor
  count : state.decimatorInputCount = pending.length
  input : state.decimatorInput.take pending.length = pending
  lt : pending.length < rdsDecimationFactor

section

variable {state : RdsFrontEndState K Nco Decimator Agc SymbolSync} {nco : Nco}
  {pending : List (K × K)}

/-- The state with one more mixed sample in the decimator input. -/
def RdsFrontEndState.stored (state : RdsFrontEndState K Nco Decimator Agc SymbolSync) (nco : Nco)
    (pending : List (K × K)) (mixed : K × K) : RdsFrontEndState K Nco Decimator Agc SymbolSync :=
  { state with
    subcarrierNco := some nco
    decimatorInput := state.decimatorInput.set pending.length mixed
    decimatorInputCount := pending.length + 1 }

lemma RdsFrontEndState.Pending.lt_length (h : state.Pending nco pending) :
    pending.length < state.decimatorInput.length := by
  rw [h.length]
  exact h.lt

lemma RdsFrontEndState.Pending.take_stored (h : state.Pending nco pending) (next : Nco)
    (mixed : K × K) :
    (state.stored next pending mixed).decimatorInput.take (pending.length + 1)
      = pending ++ [mixed] := by
  have htake := take_set_succ h.lt_length mixed
  rw [h.input] at htake
  exact htake

lemma RdsFrontEndState.Pending.length_stored (h : state.Pending nco pending) (next : Nco)
    (mixed : K × K) :
    (state.stored next pending mixed).decimatorInput.length = rdsDecimationFactor :=
  List.length_set.trans h.length

/-- A sample that does not fill the input waits too. -/
lemma RdsFrontEndState.Pending.stored (h : state.Pending nco pending) (next : Nco) {mixed : K × K}
    (hshort : (pending ++ [mixed]).length < rdsDecimationFactor) :
    (state.stored next pending mixed).Pending next (pending ++ [mixed]) := by
  refine ⟨rfl, h.decimator, h.agc, h.length_stored next mixed, ?_, ?_, hshort⟩
  · rw [List.length_append, List.length_singleton]
    rfl
  · rw [List.length_append, List.length_singleton, h.take_stored]

/-- A full input is one frame. -/
lemma RdsFrontEndState.Pending.stored_full (h : state.Pending nco pending) (next : Nco)
    (mixed : K × K) (hfull : pending.length + 1 = rdsDecimationFactor) :
    (state.stored next pending mixed).decimatorInput = pending ++ [mixed] := by
  rw [← h.take_stored next mixed, hfull, List.take_of_length_le (h.length_stored next mixed).le]

end

variable [Field K]

/-! ### The mixer -/

/-- A stream of samples, mixed down. -/
def ncoMixStream (liquid : LiquidDsp K Nco Decimator Agc SymbolSync) : Nco → List K → List (K × K)
  | _, [] => []
  | nco, sample :: samples =>
    liquid.ncoMixDown nco (sample, 0) :: ncoMixStream liquid (liquid.ncoStep nco) samples

/-- The oscillator behind a stream of samples. -/
def ncoAfter (liquid : LiquidDsp K Nco Decimator Agc SymbolSync) (nco : Nco) (samples : List K) :
    Nco :=
  liquid.ncoStep^[samples.length] nco

variable (liquid : LiquidDsp K Nco Decimator Agc SymbolSync)

@[simp] lemma length_ncoMixStream (nco : Nco) (samples : List K) :
    (ncoMixStream liquid nco samples).length = samples.length := by
  induction samples generalizing nco with
  | nil => rfl
  | cons sample samples ih => rw [ncoMixStream, List.length_cons, List.length_cons, ih]

lemma ncoMixStream_append (nco : Nco) (xs ys : List K) :
    ncoMixStream liquid nco (xs ++ ys)
      = ncoMixStream liquid nco xs ++ ncoMixStream liquid (ncoAfter liquid nco xs) ys := by
  induction xs generalizing nco with
  | nil => rfl
  | cons x xs ih =>
    rw [List.cons_append, ncoMixStream, ih, ncoMixStream, List.cons_append]
    rfl

omit [Field K] in
lemma ncoAfter_append (nco : Nco) (xs ys : List K) :
    ncoAfter liquid nco (xs ++ ys) = ncoAfter liquid (ncoAfter liquid nco xs) ys := by
  rw [ncoAfter, ncoAfter, ncoAfter, List.length_append, Nat.add_comm, Function.iterate_add_apply]

/-! ### States between the samples -/

variable [LinearOrder K]

/-- A configuration that takes effect leaves nothing pending. -/
lemma rdsDemodConfigure_pending (before : RdsFrontEndState K Nco Decimator Agc SymbolSync)
    {sampleRate : K} (hrate : before.configuredInputRate ≠ sampleRate) :
    (rdsDemodConfigure liquid before sampleRate).Pending
      (rdsConfigureNco liquid before.subcarrierNco sampleRate) [] := by
  rw [rdsDemodConfigure, if_neg hrate]
  exact ⟨rfl, rfl, rfl, List.length_replicate, rfl, rfl, rdsDecimationFactor_pos⟩

section

variable {liquid} {state : RdsFrontEndState K Nco Decimator Agc SymbolSync} {nco : Nco}
  {pending : List (K × K)}

lemma RdsFrontEndState.Pending.carrierRenormalize (h : state.Pending nco pending) (sqrtf : K → K) :
    (rdsCarrierRenormalize sqrtf state).Pending nco pending := by
  unfold rdsCarrierRenormalize
  dsimp only
  by_cases hfull : state.carrierRotationRenormCount + 1 = rdsCarrierRotatorRenormPeriod
  · rw [if_pos hfull]
    exact ⟨h.nco, h.decimator, h.agc, h.length, h.count, h.input, h.lt⟩
  · rw [if_neg hfull]
    exact ⟨h.nco, h.decimator, h.agc, h.length, h.count, h.input, h.lt⟩

/-- The carrier loop leaves the decimator alone. -/
lemma RdsFrontEndState.Pending.carrierCorrect (h : state.Pending nco pending) (sqrtf : K → K)
    (sample : K × K) : (rdsCarrierCorrectSample sqrtf state sample).1.Pending nco pending := by
  unfold rdsCarrierCorrectSample
  refine RdsFrontEndState.Pending.carrierRenormalize ?_ sqrtf
  exact ⟨h.nco, h.decimator, h.agc, h.length, h.count, h.input, h.lt⟩

/-- So do the symbols. -/
lemma RdsFrontEndState.Pending.processResampled (h : state.Pending nco pending)
    (resampled : List (K × K)) :
    (rdsProcessResampled liquid state resampled).Pending nco pending := by
  unfold rdsProcessResampled
  cases state.symbolSync with
  | none => exact h
  | some symbolSync => exact ⟨h.nco, h.decimator, h.agc, h.length, h.count, h.input, h.lt⟩

end

/-! ### The loop over a block -/

/-- The loop behind a part of its samples: `taken` is what the decimator input held at the start,
and what was mixed down since. -/
structure RdsMpxBlockRun.Cut (run : RdsMpxBlockRun K Nco Decimator Agc SymbolSync) (nco : Nco)
    (taken : List (K × K)) : Prop where
  pending : run.state.Pending nco (rest rdsDecimationFactor taken)
  room : run.symbolSyncInput.length = rdsMaxResampledBlockSamples
  resampled : run.resampledCount = (frames rdsDecimationFactor taken).length
  frames : run.record.frames = frames rdsDecimationFactor taken
  dropped : run.record.dropped = []

/-- A full input goes through the decimator, and its output is stored as long as there is room. -/
lemma rdsDecimate_eq (run : RdsMpxBlockRun K Nco Decimator Agc SymbolSync)
    (hdecimator : run.state.basebandDecimator.isSome)
    (hagc : run.state.agc.isSome)
    (hroom : run.symbolSyncInput.length = rdsMaxResampledBlockSamples)
    (hcount : run.resampledCount < rdsMaxResampledBlockSamples) :
    ∃ decimator agc levelled symbolSyncInput,
      symbolSyncInput.length = rdsMaxResampledBlockSamples ∧
      rdsDecimate liquid run = some
        { state := (rdsCarrierCorrectSample liquid.sqrtf { run.state with
            basebandDecimator := some decimator
            decimatorInputCount := 0
            agc := some agc } levelled).1
          symbolSyncInput := symbolSyncInput
          resampledCount := run.resampledCount + 1
          record := { run.record with
            frames := run.record.frames ++ [run.state.decimatorInput] } } := by
  obtain ⟨decimator, hsomeDecimator⟩ := Option.isSome_iff_exists.1 hdecimator
  obtain ⟨agc, hsomeAgc⟩ := Option.isSome_iff_exists.1 hagc
  have hlt : run.resampledCount < run.symbolSyncInput.length := by
    rw [hroom]
    exact hcount
  unfold rdsDecimate rdsStoreResampled
  simp only [hsomeDecimator, hsomeAgc, Option.bind_eq_bind, Option.bind_some, if_pos hcount,
    store_of_lt hlt]
  exact ⟨_, _, _, _, (List.length_set).trans hroom, rfl⟩

variable {run : RdsMpxBlockRun K Nco Decimator Agc SymbolSync} {nco : Nco} {taken : List (K × K)}

lemma rdsMixSample_eq {pending : List (K × K)} (h : run.state.Pending nco pending)
    (mpxSample : K) {mixed : K × K} (hmixed : liquid.ncoMixDown nco (mpxSample, 0) = mixed) :
    rdsMixSample liquid run mpxSample =
      let stored := { run with state := run.state.stored (liquid.ncoStep nco) pending mixed }
      if pending.length + 1 = rdsDecimationFactor then rdsDecimate liquid stored
      else some stored := by
  unfold rdsMixSample
  simp only [h.nco, h.count, hmixed, Option.bind_eq_bind, Option.bind_some,
    store_of_lt h.lt_length]
  rfl

/-- One sample. -/
lemma RdsMpxBlockRun.Cut.mixSample (h : run.Cut nco taken)
    (hroom : (taken.length + 1) / rdsDecimationFactor ≤ rdsMaxResampledBlockSamples)
    (mpxSample : K) :
    ∃ next, rdsMixSample liquid run mpxSample = some next ∧
      next.Cut (liquid.ncoStep nco) (taken ++ [liquid.ncoMixDown nco (mpxSample, 0)]) := by
  obtain ⟨mixed, hmixed⟩ : ∃ mixed, liquid.ncoMixDown nco (mpxSample, 0) = mixed := ⟨_, rfl⟩
  obtain ⟨pending, hpending⟩ : ∃ pending, rest rdsDecimationFactor taken = pending := ⟨_, rfl⟩
  have hstate := h.pending
  have hframes := frames_append rdsDecimationFactor_pos taken [mixed]
  have hrest := rest_append rdsDecimationFactor_pos taken [mixed]
  rw [hpending] at hstate hframes hrest
  rw [rdsMixSample_eq liquid hstate mpxSample hmixed, hmixed]
  by_cases hfull : pending.length + 1 = rdsDecimationFactor
  · have hframe : (pending ++ [mixed]).length = rdsDecimationFactor := by
      rw [List.length_append, List.length_singleton, hfull]
    rw [frames_frame rdsDecimationFactor_pos hframe] at hframes
    rw [rest_frame rdsDecimationFactor_pos hframe] at hrest
    have hcount : run.resampledCount < rdsMaxResampledBlockSamples := by
      have hnext := congrArg List.length hframes
      rw [length_frames, List.length_append, List.length_append, List.length_singleton,
        List.length_singleton, ← h.resampled] at hnext
      omega
    obtain ⟨decimator, agc, levelled, symbolSyncInput, hsame, hdecimate⟩ := rdsDecimate_eq liquid
      { run with state := run.state.stored (liquid.ncoStep nco) pending mixed }
      hstate.decimator hstate.agc h.room hcount
    refine ⟨_, (if_pos hfull).trans hdecimate, ?_, hsame, ?_, ?_, h.dropped⟩
    · rw [hrest]
      apply RdsFrontEndState.Pending.carrierCorrect
      exact ⟨rfl, rfl, rfl, hstate.length_stored nco mixed, rfl, rfl, rdsDecimationFactor_pos⟩
    · rw [hframes, List.length_append, ← h.resampled]
      rfl
    · rw [hframes, ← h.frames, ← hstate.stored_full (liquid.ncoStep nco) mixed hfull]
  · have hshort : (pending ++ [mixed]).length < rdsDecimationFactor := by
      have hlt := hstate.lt
      rw [List.length_append, List.length_singleton]
      omega
    rw [frames_of_lt hshort, List.append_nil] at hframes
    rw [rest_of_lt hshort] at hrest
    refine ⟨_, if_neg hfull, ?_, h.room, ?_, ?_, h.dropped⟩
    · rw [hrest]
      exact hstate.stored _ hshort
    · rw [hframes, h.resampled]
    · rw [hframes, h.frames]

/-- The samples of a block. -/
lemma RdsMpxBlockRun.Cut.mixSamples (h : run.Cut nco taken) (mpxSamples : List K)
    (hroom : (taken.length + mpxSamples.length) / rdsDecimationFactor
      ≤ rdsMaxResampledBlockSamples) :
    ∃ next, mpxSamples.foldlM (rdsMixSample liquid) run = some next ∧
      next.Cut (ncoAfter liquid nco mpxSamples)
        (taken ++ ncoMixStream liquid nco mpxSamples) := by
  induction mpxSamples generalizing run nco taken with
  | nil =>
    refine ⟨run, rfl, ?_⟩
    rw [ncoMixStream, List.append_nil]
    exact h
  | cons mpxSample mpxSamples ih =>
    have hlength : taken.length + (mpxSample :: mpxSamples).length
        = taken.length + 1 + mpxSamples.length := by
      rw [List.length_cons, Nat.add_assoc, Nat.add_comm 1]
    rw [hlength] at hroom
    obtain ⟨next, hround, hnext⟩ := h.mixSample liquid
      ((Nat.div_le_div_right (Nat.le_add_right _ _)).trans hroom) mpxSample
    obtain ⟨last, hrounds, hlast⟩ := ih hnext (by rwa [List.length_append, List.length_singleton])
    refine ⟨last, ?_, ?_⟩
    · rw [List.foldlM_cons, hround]
      exact hrounds
    · rw [List.append_assoc] at hlast
      exact hlast

/-! ### Calls -/

/-- The samples of a call, unless it is ignored. -/
def acceptedSamples (mpxSamples : List K) : List K :=
  if mpxSamples.length = 0 ∨ mpxSamples.length > rdsMaxInputSamples then [] else mpxSamples

variable {state : RdsFrontEndState K Nco Decimator Agc SymbolSync} {pending : List (K × K)}

/-- One call. Behind 23 samples, the longest block fills the arrays to the last entry. -/
lemma RdsFrontEndState.Pending.processMpxBlock (h : state.Pending nco pending)
    (mpxSamples : List K) :
    ∃ next record, rdsDemodProcessMpxBlock liquid state mpxSamples = some (next, record) ∧
      next.Pending (ncoAfter liquid nco (acceptedSamples mpxSamples)) (rest rdsDecimationFactor
        (pending ++ ncoMixStream liquid nco (acceptedSamples mpxSamples))) ∧
      record.frames = frames rdsDecimationFactor
        (pending ++ ncoMixStream liquid nco (acceptedSamples mpxSamples)) ∧
      record.dropped = [] := by
  unfold rdsDemodProcessMpxBlock acceptedSamples
  by_cases hignored : mpxSamples.length = 0 ∨ mpxSamples.length > rdsMaxInputSamples
  · rw [if_pos hignored, if_pos hignored, ncoMixStream, List.append_nil, rest_of_lt h.lt,
      frames_of_lt h.lt]
    exact ⟨state, {}, rfl, h, rfl, rfl⟩
  · rw [if_neg hignored, if_neg hignored]
    have hmost : mpxSamples.length ≤ rdsMaxInputSamples := by omega
    have hroom : (pending.length + mpxSamples.length) / rdsDecimationFactor
        ≤ rdsMaxResampledBlockSamples := by
      have hlt := h.lt
      unfold rdsMaxResampledBlockSamples
      exact Nat.div_le_div_right (by omega)
    have hstart : RdsMpxBlockRun.Cut
        { state := state
          symbolSyncInput := List.replicate rdsMaxResampledBlockSamples (0, 0)
          resampledCount := 0
          record := {} } nco pending := by
      refine ⟨?_, List.length_replicate, ?_, ?_, rfl⟩
      · rw [rest_of_lt h.lt]
        exact h
      · rw [frames_of_lt h.lt]
        rfl
      · rw [frames_of_lt h.lt]
    obtain ⟨run, hrounds, hrun⟩ := hstart.mixSamples liquid mpxSamples hroom
    rw [hrounds, Option.map_some]
    by_cases hnone : run.resampledCount = 0
    · rw [if_pos hnone]
      exact ⟨_, _, rfl, hrun.pending, hrun.frames, hrun.dropped⟩
    · rw [if_neg hnone]
      exact ⟨_, _, rfl, hrun.pending.processResampled _, hrun.frames, hrun.dropped⟩

/-- A sequence of calls. -/
lemma RdsFrontEndState.Pending.processMpxBlocks (h : state.Pending nco pending)
    (blocks : List (List K)) :
    ∃ next records, Loop.calls (rdsDemodProcessMpxBlock liquid) state blocks
        = some (next, records) ∧
      next.Pending (ncoAfter liquid nco (blocks.flatMap acceptedSamples)) (rest rdsDecimationFactor
        (pending ++ ncoMixStream liquid nco (blocks.flatMap acceptedSamples))) ∧
      records.flatMap RdsDecimatorRecord.frames = frames rdsDecimationFactor
        (pending ++ ncoMixStream liquid nco (blocks.flatMap acceptedSamples)) ∧
      ∀ record ∈ records, record.dropped = [] := by
  induction blocks generalizing state nco pending with
  | nil =>
    refine ⟨state, [], rfl, ?_, ?_, fun record hrecord => absurd hrecord List.not_mem_nil⟩
    · rw [List.flatMap_nil, ncoMixStream, List.append_nil, rest_of_lt h.lt]
      exact h
    · rw [List.flatMap_nil, List.flatMap_nil, ncoMixStream, List.append_nil, frames_of_lt h.lt]
  | cons block blocks ih =>
    obtain ⟨next, record, hcall, hnext, hframes, hdropped⟩ :=
      h.processMpxBlock liquid block
    obtain ⟨last, records, hcalls, hlast, hlater, hnone⟩ := ih hnext
    rw [List.flatMap_cons, ncoMixStream_append, ncoAfter_append, ← List.append_assoc]
    refine ⟨last, record :: records, ?_, ?_, ?_, ?_⟩
    · rw [Loop.calls, hcall, Option.bind_some, hcalls, Option.map_some]
    · rw [rest_append rdsDecimationFactor_pos]
      exact hlast
    · rw [List.flatMap_cons, hlater, hframes, ← frames_append rdsDecimationFactor_pos]
    · rintro other (_ | ⟨_, hother⟩)
      · exact hdropped
      · exact hnone other hother

/-- **The framing of the decimator loses nothing.** After a configuration, whatever the lengths of
the blocks: fewer than 24 samples wait between the calls, no output of the decimator is dropped or
stored outside of the array, and what the decimator is given is the mixed input that was accepted,
cut into consecutive frames. -/
theorem rdsDemodProcessMpxBlock_framing
    (before : RdsFrontEndState K Nco Decimator Agc SymbolSync) (sampleRate : K)
    (hrate : before.configuredInputRate ≠ sampleRate) (blocks : List (List K)) :
    let accepted := blocks.flatMap acceptedSamples
    ∃ nco state records,
      (rdsDemodConfigure liquid before sampleRate).subcarrierNco = some nco ∧
      Loop.calls (rdsDemodProcessMpxBlock liquid) (rdsDemodConfigure liquid before sampleRate)
        blocks = some (state, records) ∧
      state.decimatorInputCount < rdsDecimationFactor ∧
      (∀ record ∈ records, record.dropped = []) ∧
      records.flatMap RdsDecimatorRecord.frames
        = frames rdsDecimationFactor (ncoMixStream liquid nco accepted) ∧
      (records.flatMap RdsDecimatorRecord.frames).length
        = accepted.length / rdsDecimationFactor ∧
      (records.flatMap RdsDecimatorRecord.frames).flatten
          ++ state.decimatorInput.take state.decimatorInputCount
        = ncoMixStream liquid nco accepted := by
  intro accepted
  have hstart := rdsDemodConfigure_pending liquid before hrate
  obtain ⟨state, records, hcalls, hstate, hframes, hdropped⟩ :=
    hstart.processMpxBlocks liquid blocks
  rw [List.nil_append] at hstate hframes
  refine ⟨_, state, records, hstart.nco, hcalls, ?_, hdropped, hframes, ?_, ?_⟩
  · rw [hstate.count]
    exact hstate.lt
  · rw [hframes, length_frames, length_ncoMixStream]
  · rw [hframes, hstate.count, hstate.input]
    exact flatten_frames_append_rest rdsDecimationFactor_pos _

/-- The objects of liquid-dsp on silence; the synchroniser counts its samples and puts out every
third. -/
def silentLiquid : LiquidDsp ℚ Unit Unit Unit ℕ where
  ncoCreate := ()
  ncoReset := id
  ncoSetFrequency nco _ := nco
  ncoSetPhase nco _ := nco
  ncoMixDown _ sample := sample
  ncoStep := id
  firdesKaiser count _ _ _ := List.replicate count 0
  firdecimCreate _ _ := ()
  firdecimExecute decimator _ := (decimator, (0, 0))
  agcCreate := ()
  agcReset := id
  agcSetBandwidth agc _ := agc
  agcSetGain agc _ := agc
  agcExecute agc sample := (agc, sample)
  symsyncCreateRnyquist _ _ _ _ := 0
  symsyncReset _ := 0
  symsyncSetOutputRate symbolSync _ := symbolSync
  symsyncSetLfBw symbolSync _ := symbolSync
  symsyncExecute seen samples := (seen + samples.length,
    ((List.range' seen samples.length).filter fun n => n % 3 = 0).map fun _ => (0, 0))
  sqrtf := id

/-- 30 samples, an ignored call and 18 samples are two frames. -/
theorem rdsDemodProcessMpxBlock_framing_silence :
    ∃ state records, Loop.calls (rdsDemodProcessMpxBlock silentLiquid)
        (rdsDemodConfigure silentLiquid rdsFrontEndInit 171000)
        [List.replicate 30 0, [], List.replicate 18 0] = some (state, records) ∧
      state.decimatorInputCount < rdsDecimationFactor ∧
      (records.flatMap RdsDecimatorRecord.frames).length = 2 := by
  obtain ⟨nco, state, records, -, hcalls, hlt, -, -, hlength, -⟩ :=
    rdsDemodProcessMpxBlock_framing silentLiquid rdsFrontEndInit 171000
      (by norm_num [rdsFrontEndInit]) [List.replicate 30 0, [], List.replicate 18 0]
  exact ⟨state, records, hcalls, hlt, hlength.trans rfl⟩

end Mpxcast
