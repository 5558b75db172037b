import Mathlib.Data.List.GetD
import Mpxcast.Core.DelayLine
import Mpxcast.Dsp.Fir

/-!
# Filters over streams

The filter and the decimator as functions of everything they were fed since they were configured. A
stream may be cut into blocks in any way.
-/

namespace Mpxcast

open CMemory Convolution DelayLine RecentWindow

variable {K : Type*} [CommRing K] {taps history : List K} {state : FirState K}

/-- What the filter puts out behind a history. -/
def firResponse (taps history : List K) : K := folded taps (window taps.length 0 history)

/-! ### One sample -/

/-- The filter has the taps, and its ring holds the last samples of the history. -/
structure FirState.Represents (state : FirState K) (taps history : List K) : Prop where
  configured : state.configured = true
  tapCount : state.tapCount = taps.length
  pairCount : state.pairCount = taps.length / 2
  stored : ∃ rest, state.taps = taps ++ rest
  ring : Doubled state.history taps.length state.writeIndex 0 history

lemma firConfigure_represents (hpos : 0 < taps.length) (hmax : taps.length ≤ firMaxTaps) :
    (firConfigure taps taps.length).Represents taps [] := by
  unfold firConfigure
  rw [if_neg (not_lt.2 hmax)]
  refine ⟨rfl, rfl, rfl, ⟨firInit.taps.drop taps.length, ?_⟩, ?_⟩
  · dsimp only
    rw [List.take_length, memcpy_zero]
  · exact doubled_replicate hpos (by rw [Nat.mul_two]; exact Nat.add_le_add hmax hmax) 0

lemma FirState.Represents.getElem?_tap (h : state.Represents taps history) {k : ℕ}
    (hk : k < taps.length) : state.taps[k]? = some (taps.getD k 0) := by
  obtain ⟨rest, hrest⟩ := h.stored
  rw [hrest, List.getElem?_append_left hk, List.getD_eq_getElem _ _ hk, List.getElem?_eq_getElem hk]

/-- A loop that adds up. -/
lemma foldlM_range_add {f : K → ℕ → Option K} {g : ℕ → K} {n : ℕ}
    (h : ∀ acc, ∀ k < n, f acc k = some (acc + g k)) :
    (List.range n).foldlM f 0 = some (∑ k ∈ Finset.range n, g k) := by
  induction n with
  | zero => rfl
  | succ n ih =>
    rw [List.range_succ, List.foldlM_append, ih fun acc k hk => h acc k (hk.trans n.lt_succ_self),
      Finset.sum_range_succ]
    simp [h _ n n.lt_succ_self]

/-- What is computed from the window that starts at the oldest sample. -/
lemma FirState.Represents.compute (h : state.Represents taps history) :
    firComputeCurrentFromWindow state state.writeIndex = some (firResponse taps history) := by
  have hpos : 0 < taps.length := Nat.zero_lt_of_lt h.ring.lt
  have hpairs := foldlM_range_add (n := taps.length / 2)
    (f := fun acc tapIndex => do
      let front ← state.history[state.writeIndex + tapIndex]?
      let back ← state.history[state.writeIndex + (taps.length - 1 - tapIndex)]?
      let tap ← state.taps[tapIndex]?
      return acc + (front + back) * tap)
    (g := fun k => ((window taps.length 0 history).getD k 0 +
      (window taps.length 0 history).getD (taps.length - 1 - k) 0) * taps.getD k 0)
    fun acc k hk => by
      rw [h.ring.load (by omega), h.ring.load (by omega), h.getElem?_tap (by omega)]
      rfl
  unfold firComputeCurrentFromWindow firResponse folded
  rw [h.tapCount, h.pairCount, hpairs]
  simp only [Option.bind_eq_bind, Option.bind_some]
  split_ifs with hodd
  · rw [h.ring.load (by omega), h.getElem?_tap (by omega)]
    rfl
  · rw [add_zero]
    rfl

/-- A sample extends the history. -/
lemma FirState.Represents.push (h : state.Represents taps history) (sample : K) :
    ∃ next, firPush state sample = some next ∧ next.Represents taps (history ++ [sample]) := by
  obtain ⟨first, second, hfirst, hsecond, hring⟩ := h.ring.store sample
  unfold firPush
  rw [h.tapCount, hfirst, Option.bind_eq_bind, Option.bind_some, hsecond]
  exact ⟨_, rfl, h.configured, rfl, h.pairCount, h.stored, hring⟩

lemma FirState.Represents.pushes (samples : List K) :
    ∀ {state : FirState K} {history : List K}, state.Represents taps history →
      ∃ next, samples.foldlM firPush state = some next ∧
        next.Represents taps (history ++ samples) := by
  induction samples with
  | nil => exact fun h => ⟨_, rfl, by rwa [List.append_nil]⟩
  | cons sample samples ih =>
    intro state history h
    obtain ⟨next, hpush, hnext⟩ := h.push sample
    obtain ⟨last, hpushes, hlast⟩ := ih hnext
    refine ⟨last, ?_, by rwa [List.append_assoc] at hlast⟩
    rw [List.foldlM_cons, hpush, Option.bind_eq_bind, Option.bind_some, hpushes]

/-! ### The filter -/

/-- A block of the stream: every sample is answered. -/
lemma FirState.Represents.execute (input : List K) :
    ∀ {state : FirState K} {history : List K}, state.Represents taps history →
      ∃ next, firExecuteBlock state input = some (next, due 1 (firResponse taps) history input) ∧
        next.Represents taps (history ++ input) := by
  induction input with
  | nil => exact fun h => ⟨_, rfl, by rwa [List.append_nil]⟩
  | cons sample input ih =>
    intro state history h
    obtain ⟨next, hpush, hnext⟩ := h.push sample
    obtain ⟨last, hexecute, hlast⟩ := ih hnext
    refine ⟨last, ?_, by rwa [List.append_assoc] at hlast⟩
    rw [firExecuteBlock, hpush]
    simp only [Option.bind_eq_bind, Option.bind_some]
    rw [hnext.compute, Option.bind_some, hexecute, Option.bind_some, due, if_pos (one_dvd _)]
    rfl

/-! ### The decimator -/

/-- The decimator has the taps and the factor, and it has seen the history. -/
structure FirDecimatorState.Represents (state : FirDecimatorState K) (factor : ℕ)
    (taps history : List K) : Prop where
  configured : state.configured = true
  factor_eq : state.factor = factor
  phase : state.phase = history.length % factor
  fir : state.fir.Represents taps history

lemma firDecimatorConfigure_represents {factor : ℕ} (hfactor : 2 ≤ factor)
    (hpos : 0 < taps.length) (hmax : taps.length ≤ firMaxTaps) :
    (firDecimatorConfigure factor taps taps.length).Represents factor taps [] := by
  refine ⟨?_, rfl, (Nat.zero_mod _).symm, firConfigure_represents hpos hmax⟩
  exact Bool.and_eq_true_iff.2 ⟨decide_eq_true hfactor, rfl⟩

omit [CommRing K] in
/-- Outputs there is no room for are dropped. -/
lemma firOutput_take (capacity : ℕ) (outputs : List K) (acc : K) :
    firOutput capacity (outputs.take capacity) acc = (outputs ++ [acc]).take capacity := by
  unfold firOutput
  split_ifs with hroom
  · have hlt : outputs.length < capacity := by
      rw [List.length_take] at hroom
      omega
    rw [List.take_of_length_le hlt.le, List.take_of_length_le]
    rw [List.length_append, List.length_singleton]
    exact hlt
  · have hle : capacity ≤ outputs.length := by
      rw [List.length_take] at hroom
      omega
    rw [List.take_append_of_le_length hle]

/-- The loop has consumed the front of the input and put out what was due. -/
structure FirDecimatorLoop.Invariant (factor capacity : ℕ) (taps history input : List K)
    (loop : FirDecimatorLoop K) : Prop where
  consumed : ∃ front, input = front ++ loop.input ∧
    loop.fir.Represents taps (history ++ front) ∧
    loop.phase = (history ++ front).length % factor ∧
    loop.output = (due factor (firResponse taps) history front).take capacity
  stopped : loop.stopped = true → loop.input = []

/-- One round of the loop. -/
lemma FirDecimatorLoop.Invariant.round {factor capacity : ℕ} {input : List K}
    {loop : FirDecimatorLoop K} (hfactor : 2 ≤ factor)
    (h : loop.Invariant factor capacity taps history input)
    (hmore : firDecimatorMore loop = true) :
    ∃ next, firDecimatorRound factor capacity loop = some next ∧
      next.Invariant factor capacity taps history input ∧
      next.input.length < loop.input.length := by
  obtain ⟨front, hinput, hfir, hphase, houtput⟩ := h.consumed
  obtain ⟨hstopped, hleft⟩ : loop.stopped = false ∧ 0 < loop.input.length := by
    simpa [firDecimatorMore] using hmore
  have hlt : loop.phase < factor := hphase ▸ Nat.mod_lt _ (by omega)
  obtain ⟨batch, hbatch⟩ : ∃ batch, batch = if loop.input.length < factor - loop.phase then
      loop.input.length else factor - loop.phase := ⟨_, rfl⟩
  obtain ⟨fir, hpushes, hrepresents⟩ := hfir.pushes (loop.input.take batch)
  have hsplit : input = (front ++ loop.input.take batch) ++ loop.input.drop batch := by
    rw [List.append_assoc, List.take_append_drop, hinput]
  rw [List.append_assoc] at hrepresents
  unfold firDecimatorRound
  rw [usub_of_le hlt.le, Option.bind_some, ← hbatch]
  dsimp only
  rw [hpushes, Option.bind_eq_bind, Option.bind_some]
  by_cases hshort : loop.input.length < factor - loop.phase
  · -- the input ends within a frame
    rw [if_pos hshort] at hbatch
    subst hbatch
    rw [List.take_length] at hrepresents hsplit
    have hmod : (history ++ (front ++ loop.input)).length % factor
        = loop.phase + loop.input.length := by
      rw [← List.append_assoc, List.length_append, Nat.add_mod, ← hphase,
        Nat.mod_eq_of_lt (by omega : loop.input.length < factor), Nat.mod_eq_of_lt (by omega)]
    have hnone : due factor (firResponse taps) (history ++ front) loop.input = [] :=
      due_eq_nil _ (by omega)
    rw [if_pos (by omega)]
    refine ⟨_, rfl, ⟨⟨front ++ loop.input, hsplit, hrepresents, hmod.symm, ?_⟩, ?_⟩, ?_⟩
    · rw [due_append, hnone, List.append_nil]
      exact houtput
    · exact fun _ => List.drop_length
    · rw [List.drop_length]
      exact hleft
  · -- the frame is completed
    rw [if_neg hshort] at hbatch
    have hlength : (loop.input.take batch).length = batch := by
      rw [List.length_take]
      omega
    have hframe : (history ++ front).length % factor + (loop.input.take batch).length = factor := by
      omega
    have hmod : (history ++ (front ++ loop.input.take batch)).length % factor = 0 := by
      rw [← List.append_assoc, List.length_append, ← Nat.mod_add_mod, hframe, Nat.mod_self]
    have hone := due_frame (firResponse taps) (by omega : 0 < factor) _ hframe
    rw [if_neg (by omega), hrepresents.compute, Option.bind_eq_bind, Option.bind_some]
    refine ⟨_, rfl, ⟨⟨_, hsplit, hrepresents, hmod.symm, ?_⟩, ?_⟩, ?_⟩
    · dsimp only
      rw [houtput, firOutput_take, due_append, hone, List.append_assoc]
    · exact fun hstop => absurd (hstopped.symm.trans hstop) Bool.false_ne_true
    · rw [List.length_drop]
      omega

/-- A block of the stream: an output for each frame that ends in it. -/
lemma FirDecimatorState.Represents.process {state : FirDecimatorState K} {factor : ℕ}
    (hfactor : 2 ≤ factor) (h : state.Represents factor taps history) (input : List K)
    (capacity : ℕ) :
    ∃ next, firDecimatorProcessBlock state input capacity
        = some (next, (due factor (firResponse taps) history input).take capacity) ∧
      next.Represents factor taps (history ++ input) := by
  have hstart : FirDecimatorLoop.Invariant factor capacity taps history input
      ⟨state.fir, state.phase, input, [], false⟩ := by
    refine ⟨⟨[], rfl, ?_, ?_, ?_⟩, fun hstop => absurd hstop Bool.false_ne_true⟩
    · rw [List.append_nil]
      exact h.fir
    · rw [List.append_nil]
      exact h.phase
    · rw [due_nil, List.take_nil]
  obtain ⟨loop, hrun, hinvariant, hdone⟩ := Loop.run_total firDecimatorMore
    (firDecimatorRound state.factor capacity)
    (FirDecimatorLoop.Invariant factor capacity taps history input) (fun loop => loop.input.length)
    (fun loop hloop hmore => by
      rw [h.factor_eq]
      exact hloop.round hfactor hmore)
    input.length hstart le_rfl
  have hempty : loop.input = [] := by
    rcases Bool.and_eq_false_iff.1 hdone with hstopped | hleft
    · exact hinvariant.stopped (by simpa using hstopped)
    · exact List.eq_nil_of_length_eq_zero (by simpa using hleft)
  obtain ⟨front, hinput, hfir, hphase, houtput⟩ := hinvariant.consumed
  rw [hempty, List.append_nil] at hinput
  subst hinput
  have hready : ¬((!state.configured) = true ∨ state.factor < 2) := by
    rw [h.configured, h.factor_eq]
    simp only [Bool.not_true, Bool.false_eq_true, false_or]
    exact not_lt.2 hfactor
  refine ⟨{ state with fir := loop.fir, phase := loop.phase }, ?_, h.configured, h.factor_eq,
    hphase, hfir⟩
  unfold firDecimatorProcessBlock
  rw [if_neg hready, hrun, ← houtput]
  rfl

/-! ### Streams in blocks -/

/-- Each block comes with room for the outputs that are due in it, when `seen` samples came before.
-/
def SufficientCapacity (factor : ℕ) : ℕ → List (List K × ℕ) → Prop
  | _, [] => True
  | seen, (input, capacity) :: blocks =>
    (seen + input.length) / factor - seen / factor ≤ capacity ∧
      SufficientCapacity factor (seen + input.length) blocks

omit [CommRing K] in
lemma answers_sufficient {factor : ℕ} (out : List K → K) (blocks : List (List K × ℕ)) :
    ∀ history : List K, SufficientCapacity factor history.length blocks →
      Loop.answers (fun history block => (due factor out history block.1).take block.2)
          (fun history block => history ++ block.1) history blocks
        = Loop.answers (due factor out) (· ++ ·) history (blocks.map Prod.fst) := by
  induction blocks with
  | nil => exact fun _ _ => rfl
  | cons block blocks ih =>
    intro history hcapacity
    obtain ⟨hroom, hrest⟩ := hcapacity
    rw [← length_due factor out] at hroom
    rw [← List.length_append] at hrest
    rw [Loop.answers, List.map_cons, Loop.answers, ih _ hrest, List.take_of_length_le hroom]

/-- For symmetric taps the response behind a part of the stream is the convolution at its end. -/
lemma firResponse_take (hsymmetric : taps.reverse = taps) (xs : List K) {n : ℕ}
    (hn : n < xs.length) : firResponse taps (xs.take (n + 1)) = convolve taps xs n := by
  rw [firResponse, ← dot_eq_folded hsymmetric, dot_window taps xs hn]

/-! ### Any taps -/

/-- Of taps that are not symmetric, the first half is used and its mirror image. -/
lemma firResponse_take_mirrored (taps xs : List K) {n : ℕ} (hn : n < xs.length) :
    firResponse taps (xs.take (n + 1)) = convolve (mirrored taps) xs n := by
  rw [firResponse, folded_eq_dot_mirrored, ← dot_window (mirrored taps) xs hn, length_mirrored]

/-- The filter, from the start of a stream on. -/
lemma due_one_eq_convolved (taps xs : List K) :
    due 1 (firResponse taps) [] xs = convolved (mirrored taps) xs := by
  rw [due_start, Nat.div_one]
  refine List.map_congr_left fun n hn => ?_
  rw [Nat.mul_one, firResponse_take_mirrored taps xs (List.mem_range.1 hn)]

/-- The decimator, from the start of a stream on. -/
lemma due_eq_decimated {factor : ℕ} (hfactor : 0 < factor) (taps xs : List K) :
    due factor (firResponse taps) [] xs = decimated factor (convolved (mirrored taps) xs) := by
  rw [due_start, decimated, length_convolved]
  refine List.map_congr_left fun j hj => ?_
  have hle : (j + 1) * factor ≤ xs.length :=
    (Nat.mul_le_mul_right factor (List.mem_range.1 hj)).trans (Nat.div_mul_le_self _ _)
  have hone : 1 ≤ (j + 1) * factor := Nat.mul_pos j.succ_pos hfactor
  have hlt : (j + 1) * factor - 1 < xs.length := by omega
  rw [getD_convolved _ _ hlt, ← firResponse_take_mirrored taps xs hlt, Nat.sub_add_cancel hone]

/-- **Streaming is convolution.** However a stream is cut into blocks, the filter puts out its
convolution with the taps, and the decimator every `factor`-th value of it. -/
theorem fir_streaming (taps : List K) (hsymmetric : taps.reverse = taps) (hpos : 0 < taps.length)
    (hmax : taps.length ≤ firMaxTaps) (factor : ℕ) (hfactor : 2 ≤ factor)
    (blocks : List (List K × ℕ)) (xs : List K) (hxs : xs = (blocks.map Prod.fst).flatten) :
    (∃ state outputs,
      Loop.calls firExecuteBlock (firConfigure taps taps.length) (blocks.map Prod.fst)
          = some (state, outputs) ∧
        outputs.flatten = (List.range xs.length).map (convolve taps xs) ∧
        state.writeIndex < taps.length) ∧
      ∃ state outputs,
        Loop.calls (fun state block => firDecimatorProcessBlock state block.1 block.2)
            (firDecimatorConfigure factor taps taps.length) blocks = some (state, outputs) ∧
          (SufficientCapacity factor 0 blocks → outputs.flatten
            = (List.range (xs.length / factor)).map fun j =>
                convolve taps xs ((j + 1) * factor - 1)) ∧
          state.fir.writeIndex < taps.length ∧ state.phase < factor := by
  constructor
  · obtain ⟨state, hcalls, hstate⟩ := Loop.calls_refine
      (fun (state : FirState K) history => state.Represents taps history) (fun _ => True)
      (fun state history input h _ => FirState.Represents.execute input h)
      (blocks.map Prod.fst) (firConfigure_represents hpos hmax) fun _ _ => trivial
    refine ⟨state, _, hcalls, ?_, hstate.ring.lt⟩
    rw [flatten_answers_due, ← hxs, due_start, Nat.div_one]
    refine List.map_congr_left fun n hn => ?_
    rw [Nat.mul_one, firResponse_take hsymmetric xs (List.mem_range.1 hn)]
  · obtain ⟨state, hcalls, hstate⟩ := Loop.calls_refine
      (fun (state : FirDecimatorState K) history => state.Represents factor taps history)
      (fun _ => True)
      (fun state history block h _ => h.process hfactor block.1 block.2)
      blocks (firDecimatorConfigure_represents hfactor hpos hmax) fun _ _ => trivial
    refine ⟨state, _, hcalls, fun hcapacity => ?_, hstate.fir.ring.lt, ?_⟩
    · rw [answers_sufficient _ _ _ hcapacity, flatten_answers_due, ← hxs, due_start]
      refine List.map_congr_left fun j hj => ?_
      have hle : (j + 1) * factor ≤ xs.length :=
        (Nat.mul_le_mul_right factor (List.mem_range.1 hj)).trans (Nat.div_mul_le_self _ _)
      have hone : 1 ≤ (j + 1) * factor := Nat.mul_pos j.succ_pos (by omega)
      rw [← firResponse_take hsymmetric xs (by omega), Nat.sub_add_cancel hone]
    · rw [hstate.phase]
      exact Nat.mod_lt _ (by omega)

/-- Three taps and five samples in blocks of two, none and three. -/
theorem fir_streaming_three_taps :
    (∃ state outputs,
      Loop.calls firExecuteBlock (firConfigure ([1, 2, 1] : List ℤ) 3) [[1, 0], [], [0, 4, 5]]
          = some (state, outputs) ∧
        outputs.flatten = (List.range 5).map (convolve [1, 2, 1] [1, 0, 0, 4, 5]) ∧
        state.writeIndex < 3) ∧
      ∃ state outputs,
        Loop.calls (fun state block => firDecimatorProcessBlock state block.1 block.2)
            (firDecimatorConfigure 2 ([1, 2, 1] : List ℤ) 3) [([1, 0], 1), ([], 0), ([0, 4, 5], 2)]
            = some (state, outputs) ∧
          (SufficientCapacity 2 0 [(([1, 0] : List ℤ), 1), ([], 0), ([0, 4, 5], 2)] →
            outputs.flatten
              = (List.range 2).map fun j => convolve [1, 2, 1] [1, 0, 0, 4, 5] ((j + 1) * 2 - 1)) ∧
          state.fir.writeIndex < 3 ∧ state.phase < 2 :=
  fir_streaming [1, 2, 1] rfl (by decide) (by decide) 2 le_rfl
    [([1, 0], 1), ([], 0), ([0, 4, 5], 2)] [1, 0, 0, 4, 5] rfl

end Mpxcast
