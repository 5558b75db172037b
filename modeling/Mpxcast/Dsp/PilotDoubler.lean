import Mpxcast.Core.Loop
import Mpxcast.Core.ToneDoubler
import Mpxcast.Dsp.FmStereo

/-!
# The pilot doubler

Over a stream of blocks the difference signal is the subchannel times the doubled pilot, of which
each value depends on two successive pilot samples only: the last sample of a block is kept for the
first one of the next. The loop is also run with a record of the values it computes, where a
division by zero would end it.
-/

namespace Mpxcast

open CMemory ToneDoubler

variable {K : Type*} [Field K] [LinearOrder K]

/-! ### The loop with a record -/

/-- `fmStereoDoubledPilot`, with `none` for a division by zero. -/
def fmStereoDoubledPilotChecked (state : FmStereoState K) (pilotSample : K) : Option K :=
  let x := pilotSample * state.pilotSinStep
  let y := pilotSample * state.pilotCosStep - state.prevPilotSample
  let denom := x * x + y * y
  if denom ≤ 0 then some 0 else divide (((2 : ℕ) : K) * x * y) denom

/-- A round of the loop, the doubled pilot put on record. -/
def fmStereoDifferenceRoundRecorded (run : FmStereoState K × List K) (i : ℕ) :
    Option (FmStereoState K × List K) := do
  let pilotSample ← run.1.pilotMpx.load i
  let subchannel ← run.1.stereoSubchannel.load i
  let doubledPilot ← fmStereoDoubledPilotChecked run.1 pilotSample
  let stereoDifference ← run.1.stereoDifference.store i (subchannel * doubledPilot)
  return ({ run.1 with stereoDifference := stereoDifference, prevPilotSample := pilotSample },
    run.2 ++ [doubledPilot])

/-- The doubled pilot of a block. -/
def fmStereoDoublePilotBlock (state : FmStereoState K) (bank : MpxBlock K × MpxBlock K) :
    Option (FmStereoState K × List K) :=
  (List.range fmPipelineDspBlockSamples).foldlM fmStereoDifferenceRoundRecorded
    ({ state with pilotMpx := bank.1, stereoSubchannel := bank.2 }, [])

/-! ### One sample -/

lemma fmStereoDoubledPilot_eq (state : FmStereoState K) (pilotSample : K) :
    fmStereoDoubledPilot state pilotSample
      = double state.pilotSinStep state.pilotCosStep state.prevPilotSample pilotSample := rfl

/-- The guard leaves positive denominators only. -/
lemma fmStereoDoubledPilotChecked_eq (state : FmStereoState K) (pilotSample : K) :
    fmStereoDoubledPilotChecked state pilotSample
      = some (fmStereoDoubledPilot state pilotSample) := by
  unfold fmStereoDoubledPilotChecked fmStereoDoubledPilot
  dsimp only
  split_ifs with hsilent
  · rfl
  · exact if_neg (not_le.1 hsilent).ne'

/-! ### Blocks -/

/-- What the loop has done after `n` rounds: the record, and the part of the difference signal that
is in place. -/
structure FmStereoState.Doubled (state next : FmStereoState K) (doubled : List K) (n : ℕ) :
    Prop where
  sinStep : next.pilotSinStep = state.pilotSinStep
  cosStep : next.pilotCosStep = state.pilotCosStep
  pilot : next.pilotMpx = state.pilotMpx
  subchannel : next.stereoSubchannel = state.stereoSubchannel
  prev : next.prevPilotSample = (state.pilotMpx.samples.take n).getLastD state.prevPilotSample
  record : doubled = doubleAll state.pilotSinStep state.pilotCosStep state.prevPilotSample
    (state.pilotMpx.samples.take n)
  difference : next.stereoDifference.samples.take n
    = List.zipWith (· * ·) (state.stereoSubchannel.samples.take n) doubled

/-- One round, with and without the record. -/
lemma FmStereoState.Doubled.round {state next : FmStereoState K} {doubled : List K} {n : ℕ}
    (h : state.Doubled next doubled n) (hn : n < fmPipelineDspBlockSamples) :
    ∃ last d, fmStereoDifferenceRound next n = some last ∧
      fmStereoDifferenceRoundRecorded (next, doubled) n = some (last, doubled ++ [d]) ∧
      state.Doubled last (doubled ++ [d]) (n + 1) := by
  obtain ⟨x, hx⟩ := state.pilotMpx.exists_load hn
  obtain ⟨y, hy⟩ := state.stereoSubchannel.exists_load hn
  have hpilot : next.pilotMpx.load n = some x := by rw [h.pilot, hx]
  have hsubchannel : next.stereoSubchannel.load n = some y := by rw [h.subchannel, hy]
  obtain ⟨stored, hstore, hset⟩ :=
    next.stereoDifference.store_eq hn (y * fmStereoDoubledPilot next x)
  refine ⟨{ next with stereoDifference := stored, prevPilotSample := x },
    fmStereoDoubledPilot next x, ?_, ?_, h.sinStep, h.cosStep, h.pilot, h.subchannel, ?_, ?_, ?_⟩
  · simp [fmStereoDifferenceRound, hpilot, hsubchannel, hstore]
  · simp [fmStereoDifferenceRoundRecorded, hpilot, hsubchannel, hstore,
      fmStereoDoubledPilotChecked_eq]
  · rw [MpxBlock.take_load hx, List.getLastD_concat]
  · rw [MpxBlock.take_load hx, doubleAll_append, ← h.record, ← h.prev, ← h.sinStep, ← h.cosStep]
    rfl
  · have hlength : (state.stereoSubchannel.samples.take n).length = doubled.length := by
      rw [h.record, length_doubleAll, List.length_take, List.length_take,
        state.stereoSubchannel.length_eq, state.pilotMpx.length_eq]
    rw [MpxBlock.take_store hn hset, MpxBlock.take_load hy, List.zipWith_append hlength,
      h.difference]
    rfl

lemma fmStereoDifferenceRounds_doubled (state : FmStereoState K) {n : ℕ}
    (hn : n ≤ fmPipelineDspBlockSamples) :
    ∃ next doubled, (List.range n).foldlM fmStereoDifferenceRound state = some next ∧
      (List.range n).foldlM fmStereoDifferenceRoundRecorded (state, []) = some (next, doubled) ∧
      state.Doubled next doubled n := by
  induction n with
  | zero => exact ⟨state, [], rfl, rfl, rfl, rfl, rfl, rfl, rfl, rfl, rfl⟩
  | succ n ih =>
    obtain ⟨next, doubled, hrounds, hrecorded, hnext⟩ := ih (by omega)
    obtain ⟨last, d, hround, hrecord, hlast⟩ := hnext.round hn
    refine ⟨last, doubled ++ [d], ?_, ?_, hlast⟩
    · rw [List.range_succ, List.foldlM_append, hrounds]
      simpa using hround
    · rw [List.range_succ, List.foldlM_append, hrecorded]
      simpa using hrecord

/-- The effect of a block: its pilot is doubled, and its last sample kept. -/
lemma fmStereoReceiveBlock_doubled (state : FmStereoState K) (bank : MpxBlock K × MpxBlock K) :
    ∃ next doubled, fmStereoReceiveBlock state bank
        = some (next, List.zipWith (· * ·) bank.2.samples doubled) ∧
      fmStereoDoublePilotBlock state bank = some (next, doubled) ∧
      doubled = doubleAll state.pilotSinStep state.pilotCosStep state.prevPilotSample
        bank.1.samples ∧
      next.pilotSinStep = state.pilotSinStep ∧ next.pilotCosStep = state.pilotCosStep ∧
      next.prevPilotSample = bank.1.samples.getLastD state.prevPilotSample := by
  obtain ⟨next, doubled, hrounds, hrecorded, hnext⟩ := fmStereoDifferenceRounds_doubled
    { state with pilotMpx := bank.1, stereoSubchannel := bank.2 } le_rfl
  obtain ⟨hsin, hcos, -, -, hprev, hrecord, hdifference⟩ := hnext
  dsimp only at hsin hcos hprev hrecord hdifference
  rw [List.take_of_length_le bank.1.length_eq.le] at hprev hrecord
  rw [List.take_of_length_le bank.2.length_eq.le,
    List.take_of_length_le next.stereoDifference.length_eq.le] at hdifference
  refine ⟨next, doubled, ?_, hrecorded, hrecord, hsin, hcos, hprev⟩
  rw [fmStereoReceiveBlock, fmStereoProcessStereoDifference, hrounds, Option.map_some, hdifference]

/-! ### Streams of blocks -/

/-- The pilot of a stream of blocks. -/
def pilotStream (banks : List (MpxBlock K × MpxBlock K)) : List K :=
  banks.flatMap fun bank => bank.1.samples

def subchannelStream (banks : List (MpxBlock K × MpxBlock K)) : List K :=
  banks.flatMap fun bank => bank.2.samples

/-- The cuts between the blocks do not show. -/
lemma fmStereoReceiveBlocks_doubled (state : FmStereoState K)
    (banks : List (MpxBlock K × MpxBlock K)) :
    ∃ next differences doubled,
      Loop.calls fmStereoReceiveBlock state banks = some (next, differences) ∧
      Loop.calls fmStereoDoublePilotBlock state banks = some (next, doubled) ∧
      doubled.flatten = doubleAll state.pilotSinStep state.pilotCosStep state.prevPilotSample
        (pilotStream banks) ∧
      differences.flatten
        = List.zipWith (· * ·) (subchannelStream banks) doubled.flatten := by
  induction banks generalizing state with
  | nil => exact ⟨state, [], [], rfl, rfl, rfl, rfl⟩
  | cons bank banks ih =>
    obtain ⟨next, first, hreceive, hdouble, hfirst, hsin, hcos, hprev⟩ :=
      fmStereoReceiveBlock_doubled state bank
    obtain ⟨last, differences, doubled, hreceives, hdoubles, hpilot, hdifferences⟩ := ih next
    have hlength : bank.2.samples.length = first.length := by
      rw [hfirst, length_doubleAll, bank.1.length_eq, bank.2.length_eq]
    refine ⟨last, List.zipWith (· * ·) bank.2.samples first :: differences, first :: doubled,
      ?_, ?_, ?_, ?_⟩
    · rw [Loop.calls, hreceive, Option.bind_some, hreceives, Option.map_some]
    · rw [Loop.calls, hdouble, Option.bind_some, hdoubles, Option.map_some]
    · rw [List.flatten_cons, hpilot, hfirst, hsin, hcos, hprev, ← doubleAll_append]
      rfl
    · rw [List.flatten_cons, hdifferences, ← List.zipWith_append hlength]
      rfl

variable [IsStrictOrderedRing K]

/-- **The pilot doubler is bounded and blind to the amplitude.** Whatever the pilot and the step, no
division by zero ends the loop, the values lie between -1 and 1 and are multiplied with the
subchannel; and a sine is doubled exactly, at the first sample of a block too. -/
theorem fmStereo_doubles_pilot (state : FmStereoState K)
    (banks : List (MpxBlock K × MpxBlock K)) :
    ∃ next differences doubled,
      Loop.calls fmStereoReceiveBlock state banks = some (next, differences) ∧
      Loop.calls fmStereoDoublePilotBlock state banks = some (next, doubled) ∧
      differences.flatten = List.zipWith (· * ·) (subchannelStream banks) doubled.flatten ∧
      doubled.flatten.length = (pilotStream banks).length ∧
      (∀ d ∈ doubled.flatten, -1 ≤ d ∧ d ≤ 1) ∧
      ∀ (n : ℕ) (A s c : K), state.pilotSinStep ≠ 0 → A ≠ 0 → s ^ 2 + c ^ 2 = 1 →
        (state.prevPilotSample :: pilotStream banks)[n]?
          = some (A * (s * state.pilotCosStep - c * state.pilotSinStep)) →
        (pilotStream banks)[n]? = some (A * s) →
        doubled.flatten[n]? = some (((2 : ℕ) : K) * s * c) := by
  obtain ⟨next, differences, doubled, hreceives, hdoubles, hpilot, hdifferences⟩ :=
    fmStereoReceiveBlocks_doubled state banks
  refine ⟨next, differences, doubled, hreceives, hdoubles, hdifferences, ?_, ?_, ?_⟩
  · rw [hpilot, length_doubleAll]
  · intro d hd
    rw [hpilot] at hd
    exact mem_unitInterval_doubleAll hd
  · intro n A s c hstep hA hunit hbefore hsample
    rw [hpilot, getElem?_doubleAll hbefore hsample, double_tone _ hstep hA hunit]

/-- A doubler for a pilot that makes a quarter of a turn with each sample. -/
def quarterTurnDoubler : FmStereoState ℚ := { fmStereoInit with pilotSinStep := 1 }

def constantBank (pilot : ℚ) : MpxBlock ℚ × MpxBlock ℚ := (.ofFn fun _ => pilot, .ofFn fun _ => 1)

/-- The first sample of a second block: the amplitude of 5 is gone. -/
theorem fmStereo_doubles_pilot_across :
    ∃ next doubled, Loop.calls fmStereoDoublePilotBlock quarterTurnDoubler
        [constantBank (-4), constantBank 3] = some (next, doubled) ∧
      doubled.flatten[(5120 : ℕ)]? = some (24 / 25) := by
  obtain ⟨next, -, doubled, -, hdoubles, -, -, -, hsine⟩ :=
    fmStereo_doubles_pilot quarterTurnDoubler [constantBank (-4), constantBank 3]
  refine ⟨next, doubled, hdoubles, ?_⟩
  have hlength : (constantBank (-4)).1.samples.length = 5120 := (constantBank (-4)).1.length_eq
  have hbefore : (0 :: pilotStream [constantBank (-4), constantBank 3])[(5120 : ℕ)]?
      = some (-4) := by
    rw [pilotStream, List.flatMap_cons, List.getElem?_cons_succ,
      List.getElem?_append_left (by rw [hlength]; decide)]
    exact MpxBlock.load_ofFn _ (by decide)
  have hsample : (pilotStream [constantBank (-4), constantBank 3])[(5120 : ℕ)]? = some 3 := by
    rw [pilotStream, List.flatMap_cons, List.getElem?_append_right hlength.le, hlength,
      List.flatMap_cons, List.flatMap_nil, List.append_nil]
    exact MpxBlock.load_ofFn _ (by decide)
  have hvalue := hsine 5120 5 (3 / 5) (4 / 5) one_ne_zero (by norm_num) (by norm_num)
    (hbefore.trans (by norm_num [quarterTurnDoubler, fmStereoInit]))
    (hsample.trans (by norm_num))
  rw [hvalue]
  norm_num

end Mpxcast
