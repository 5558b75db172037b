import Mpxcast.Core.ScratchWindow
import Mpxcast.Dsp.FirStreaming

/-!
# The decimator for 90 taps and factor 5

The hand-written decimator slides a window of 180 slots over its input, and moves its last 85
samples to the front when the window is used up. Between blocks it keeps these samples at the start
of the history. It answers every block as the general decimator does.
-/

namespace Mpxcast

open CMemory Convolution DelayLine RecentWindow ScratchWindow

variable {K : Type*}

/-! ### The sliding window -/

/-- From slot `start` on, the window holds the samples. -/
structure WindowHolds (slots : List (Option K)) (start : ℕ) (samples : List K) : Prop where
  length_eq : slots.length = firSpecializedDecimatorTapCount * 2
  holds : Holds slots start samples

variable {slots : List (Option K)} {start : ℕ} {samples : List K}

/-- The last samples stay, whether or not they are moved to the front. -/
lemma WindowHolds.rebase (h : WindowHolds slots start samples)
    (hsamples : samples.length = firSpecializedDecimatorOverlapSamples)
    (hstart : start ≤ firSpecializedDecimatorTapCount)
    (hdvd : firSpecializedDecimatorFactor ∣ start) :
    ∃ next nextStart, firSpecializedRebase slots start = some (next, nextStart) ∧
      WindowHolds next nextStart samples ∧
      nextStart + firSpecializedDecimatorFactor ≤ firSpecializedDecimatorTapCount ∧
      firSpecializedDecimatorFactor ∣ nextStart := by
  unfold firSpecializedRebase
  split_ifs with hend
  · have hle : 0 + (samples.map some).length ≤ slots.length := by
      rw [List.length_map, hsamples, h.length_eq]
      decide
    rw [← hsamples, h.holds.slice, Option.bind_eq_bind, Option.bind_some]
    exact ⟨_, 0, rfl, ⟨(memcpy_length hle).trans h.length_eq, holds_memcpy _ _⟩, by decide,
      dvd_zero _⟩
  · refine ⟨slots, start, rfl, h, ?_, hdvd⟩
    unfold firSpecializedDecimatorFactor firSpecializedDecimatorTapCount at *
    omega

lemma exists_five_of_le_length {input : List K}
    (h : firSpecializedDecimatorFactor ≤ input.length) :
    ∃ x₀ x₁ x₂ x₃ x₄ rest, input = x₀ :: x₁ :: x₂ :: x₃ :: x₄ :: rest := by
  rcases input with _ | ⟨x₀, _ | ⟨x₁, _ | ⟨x₂, _ | ⟨x₃, _ | ⟨x₄, rest⟩⟩⟩⟩⟩
  case cons.cons.cons.cons.cons => exact ⟨x₀, x₁, x₂, x₃, x₄, rest, rfl⟩
  all_goals simp [firSpecializedDecimatorFactor] at h

/-- Five more samples fill the window up. -/
lemma WindowHolds.storeFive (h : WindowHolds slots start samples)
    (hsamples : samples.length = firSpecializedDecimatorOverlapSamples)
    (hstart : start + firSpecializedDecimatorFactor ≤ firSpecializedDecimatorTapCount)
    {input : List K} (hinput : firSpecializedDecimatorFactor ≤ input.length) :
    ∃ next, firSpecializedStore slots start input = some next ∧
      WindowHolds next start (samples ++ input.take firSpecializedDecimatorFactor) := by
  obtain ⟨x₀, x₁, x₂, x₃, x₄, rest, rfl⟩ := exists_five_of_le_length hinput
  have hlength : samples.length = 85 := hsamples
  have hstep (more : List K) (hle : more.length < 5) {slots : List (Option K)}
      (h : WindowHolds slots start (samples ++ more)) (x : K) :
      ∃ next, store slots (start + (85 + more.length)) (some x) = some next ∧
        WindowHolds next start (samples ++ (more ++ [x])) := by
    have hroom : start + (samples ++ more).length < slots.length := by
      rw [h.length_eq, List.length_append]
      unfold firSpecializedDecimatorFactor firSpecializedDecimatorTapCount at *
      omega
    obtain ⟨next, hstore, hnext, hholds⟩ := h.holds.store hroom x
    rw [List.length_append, hlength] at hstore
    rw [List.append_assoc] at hholds
    exact ⟨next, hstore, hnext.trans h.length_eq, hholds⟩
  rw [← List.append_nil samples] at h
  obtain ⟨slots₀, hstore₀, h₀⟩ := hstep [] (by simp) h x₀
  obtain ⟨slots₁, hstore₁, h₁⟩ := hstep [x₀] (by simp) h₀ x₁
  obtain ⟨slots₂, hstore₂, h₂⟩ := hstep [x₀, x₁] (by simp) h₁ x₂
  obtain ⟨slots₃, hstore₃, h₃⟩ := hstep [x₀, x₁, x₂] (by simp) h₂ x₃
  obtain ⟨slots₄, hstore₄, h₄⟩ := hstep [x₀, x₁, x₂, x₃] (by simp) h₃ x₄
  refine ⟨slots₄, ?_, h₄⟩
  simp only [List.length_nil, List.length_cons] at hstore₀ hstore₁ hstore₂ hstore₃ hstore₄
  simp [firSpecializedStore, hstore₀, hstore₁, hstore₂, hstore₃, hstore₄]

/-! ### The products -/

lemma firSpecializedProducts_eq :
    firSpecializedProducts = (List.range 45).map fun k => (k, k, 2 * 45 - 1 - k) := rfl

variable [CommRing K] {taps history : List K}

/-- The products add up to the folded sum over the window. -/
lemma WindowHolds.sum (h : WindowHolds slots start samples)
    (hsamples : samples.length = firSpecializedDecimatorTapCount)
    (htaps : taps.length = firSpecializedDecimatorTapCount) (rest : List K) :
    firSpecializedSum (taps ++ rest) slots start = some (folded taps samples) := by
  have hninety : taps.length = 2 * 45 := htaps
  unfold firSpecializedSum
  rw [firSpecializedProducts_eq]
  refine productSum_eq_folded taps samples hninety (fun k hk => ?_) fun k hk => ?_
  · have htap : k < taps.length := by omega
    rw [List.getElem?_append_left htap, List.getElem?_eq_getElem htap,
      List.getD_eq_getElem _ _ htap]
  · exact h.holds.load (by rw [hsamples, ← htaps, hninety]; exact hk) 0

/-! ### The loop -/

/-- The loop has consumed whole frames of the input and put out what was due. -/
structure FirSpecializedLoop.Invariant (capacity : ℕ) (taps history input : List K)
    (loop : FirSpecializedLoop K) : Prop where
  consumed : ∃ front, input = front ++ loop.input ∧
    firSpecializedDecimatorFactor ∣ front.length ∧
    WindowHolds loop.window loop.windowStart
      (RecentWindow.window firSpecializedDecimatorOverlapSamples 0 (history ++ front)) ∧
    loop.output
      = (due firSpecializedDecimatorFactor (firResponse taps) history front).take capacity
  start_le : loop.windowStart ≤ firSpecializedDecimatorTapCount
  start_dvd : firSpecializedDecimatorFactor ∣ loop.windowStart

/-- One round of the loop. -/
lemma FirSpecializedLoop.Invariant.round {capacity : ℕ} {input : List K} (rest : List K)
    {loop : FirSpecializedLoop K} (htaps : taps.length = firSpecializedDecimatorTapCount)
    (hhistory : firSpecializedDecimatorFactor ∣ history.length)
    (h : loop.Invariant capacity taps history input) (hmore : firSpecializedMore loop = true) :
    ∃ next, firSpecializedRound (taps ++ rest) capacity loop = some next ∧
      next.Invariant capacity taps history input ∧ next.input.length < loop.input.length := by
  obtain ⟨front, hinput, hfront, hwindow, houtput⟩ := h.consumed
  have hfive := of_decide_eq_true hmore
  obtain ⟨slots, start, hrebase, hrebased, hend, hstart⟩ :=
    hwindow.rebase (length_window _ _ _) h.start_le h.start_dvd
  obtain ⟨next, hstore, hfull⟩ := hrebased.storeFive (length_window _ _ _) hend hfive
  obtain ⟨five, left, hsplit, hlength, htake, hdrop⟩ : ∃ five left, loop.input = five ++ left ∧
      five.length = firSpecializedDecimatorFactor ∧
      loop.input.take firSpecializedDecimatorFactor = five ∧
      loop.input.drop firSpecializedDecimatorFactor = left :=
    ⟨_, _, (List.take_append_drop _ _).symm, List.length_take_of_le hfive, rfl, rfl⟩
  have hwhole : RecentWindow.window firSpecializedDecimatorOverlapSamples 0 (history ++ front)
      ++ five = RecentWindow.window taps.length 0 (history ++ (front ++ five)) := by
    rw [window_append, hlength, htaps, List.append_assoc]
    rfl
  rw [htake, hwhole] at hfull
  have hsum := hfull.sum ((length_window _ _ _).trans htaps) htaps rest
  have hframe : (history ++ front).length % firSpecializedDecimatorFactor + five.length
      = firSpecializedDecimatorFactor := by
    rw [List.length_append, Nat.mod_eq_zero_of_dvd (Nat.dvd_add hhistory hfront), hlength,
      Nat.zero_add]
  have hdue := due_frame (firResponse taps) (by decide) _ hframe
  have hrecent : Holds next (start + firSpecializedDecimatorFactor)
      ((RecentWindow.window taps.length 0 (history ++ (front ++ five))).drop
        firSpecializedDecimatorFactor) :=
    hfull.holds.drop (by rw [length_window, htaps]; decide)
  have hdropped := window_drop firSpecializedDecimatorFactor firSpecializedDecimatorOverlapSamples
    0 (history ++ (front ++ five))
  rw [htaps] at hrecent
  unfold firSpecializedRound
  rw [hrebase, Option.bind_eq_bind, Option.bind_some]
  dsimp only
  rw [hstore, Option.bind_eq_bind, Option.bind_some, hsum, Option.bind_eq_bind, Option.bind_some,
    hdrop]
  refine ⟨_, rfl, ⟨⟨front ++ five, ?_, ?_, ?_, ?_⟩, hend, ?_⟩, ?_⟩
  · rw [hinput, hsplit, List.append_assoc]
  · rw [List.length_append, hlength]
    exact Nat.dvd_add hfront dvd_rfl
  · exact ⟨hfull.length_eq, hdropped ▸ hrecent⟩
  · dsimp only
    rw [houtput, firOutput_take, due_append, hdue, List.append_assoc]
    rfl
  · exact Nat.dvd_add hstart dvd_rfl
  · dsimp only
    rw [hsplit, List.length_append, hlength]
    exact Nat.lt_add_of_pos_left (by decide)

/-! ### Blocks -/

/-- Between blocks the history starts with the overlap. -/
structure FirDecimatorState.Overlaps (state : FirDecimatorState K) (taps history : List K) :
    Prop where
  stored : ∃ rest, state.fir.taps = taps ++ rest
  overlap : ∃ rest, state.fir.history
    = window firSpecializedDecimatorOverlapSamples 0 history ++ rest
  frames : firSpecializedDecimatorFactor ∣ history.length

lemma firDecimatorConfigure_overlaps (htaps : taps.length = firSpecializedDecimatorTapCount) :
    (firDecimatorConfigure firSpecializedDecimatorFactor taps
      firSpecializedDecimatorTapCount).Overlaps taps [] := by
  have hpos : 0 < taps.length := by
    rw [htaps]
    decide
  have hmax : taps.length ≤ firMaxTaps := by
    rw [htaps]
    decide
  rw [← htaps]
  refine ⟨(firConfigure_represents hpos hmax).stored, ?_, dvd_zero _⟩
  refine ⟨List.replicate (firMaxTaps * 2 - firSpecializedDecimatorOverlapSamples) 0, ?_⟩
  rw [window_nil, List.replicate_append_replicate]
  rfl

/-- A block of whole frames: an output for each of them. -/
lemma FirDecimatorState.Overlaps.process {state : FirDecimatorState K}
    (htaps : taps.length = firSpecializedDecimatorTapCount) (h : state.Overlaps taps history)
    (input : List K) (hinput : firSpecializedDecimatorFactor ∣ input.length) (capacity : ℕ) :
    ∃ next, firDecimatorProcessBlockSpecialized90x5 state input capacity = some (next,
        (due firSpecializedDecimatorFactor (firResponse taps) history input).take capacity) ∧
      next.Overlaps taps (history ++ input) := by
  obtain ⟨restTaps, htapsEq⟩ := h.stored
  obtain ⟨restHistory, hhistoryEq⟩ := h.overlap
  have hslice : slice state.fir.history 0 firSpecializedDecimatorOverlapSamples
      = some (window firSpecializedDecimatorOverlapSamples 0 history) := by
    rw [hhistoryEq, slice_of_le (by simp), List.drop_zero, List.take_left' (length_window _ _ _)]
  obtain ⟨slots, hslots, hholds⟩ : ∃ slots,
      memcpy (List.replicate (firSpecializedDecimatorTapCount * 2) none) 0
          ((window firSpecializedDecimatorOverlapSamples 0 history).map some) = slots ∧
        WindowHolds slots 0 (window firSpecializedDecimatorOverlapSamples 0 history) := by
    refine ⟨_, rfl, (memcpy_length ?_).trans List.length_replicate, holds_memcpy _ _⟩
    rw [List.length_map, length_window, List.length_replicate]
    decide
  have hstart : FirSpecializedLoop.Invariant capacity taps history input ⟨slots, 0, input, []⟩ := by
    refine ⟨⟨[], rfl, dvd_zero _, ?_, ?_⟩, Nat.zero_le _, dvd_zero _⟩
    · rw [List.append_nil]
      exact hholds
    · rw [due_nil, List.take_nil]
  obtain ⟨loop, hrun, hinvariant, hdone⟩ := Loop.run_total firSpecializedMore
    (firSpecializedRound state.fir.taps capacity)
    (FirSpecializedLoop.Invariant capacity taps history input) (fun loop => loop.input.length)
    (fun loop hloop hmore => by
      rw [htapsEq]
      exact hloop.round restTaps htaps h.frames hmore)
    input.length hstart le_rfl
  obtain ⟨front, hfront, hfrontDvd, hwindow, houtput⟩ := hinvariant.consumed
  have hempty : loop.input = [] := by
    have hlt : loop.input.length < firSpecializedDecimatorFactor :=
      not_le.1 (of_decide_eq_false hdone)
    have hdvd : firSpecializedDecimatorFactor ∣ loop.input.length := by
      rw [hfront, List.length_append] at hinput
      exact (Nat.dvd_add_right hfrontDvd).1 hinput
    exact List.eq_nil_of_length_eq_zero (Nat.eq_zero_of_dvd_of_lt hdvd hlt)
  rw [hempty, List.append_nil] at hfront
  subst hfront
  have hoverlap := hwindow.holds.slice
  rw [length_window] at hoverlap
  obtain ⟨recent, hrecent⟩ : ∃ recent, window firSpecializedDecimatorOverlapSamples 0
      (history ++ input) = recent := ⟨_, rfl⟩
  rw [hrecent] at hoverlap
  refine ⟨{ state with
      phase := 0
      fir := { state.fir with history := memcpy state.fir.history 0 recent, writeIndex := 0 } },
    ?_, ⟨restTaps, htapsEq⟩, ⟨state.fir.history.drop recent.length, ?_⟩, ?_⟩
  · unfold firDecimatorProcessBlockSpecialized90x5
    rw [hslice, Option.bind_eq_bind, Option.bind_some, hslots]
    dsimp only
    rw [hrun, Option.bind_eq_bind, Option.bind_some, hoverlap, Option.bind_eq_bind,
      Option.bind_some, mapM_map_some, ← houtput]
    rfl
  · rw [hrecent]
    exact memcpy_zero _ _
  · rw [List.length_append]
    exact Nat.dvd_add h.frames hinput

/-- **The hand-written decimator is the general one.** On blocks of whole frames both answer every
call alike, and no access leaves the window or finds it unset. -/
theorem firDecimatorProcessBlockSpecialized90x5_eq (taps : List K)
    (htaps : taps.length = firSpecializedDecimatorTapCount) (blocks : List (List K × ℕ))
    (hblocks : ∀ block ∈ blocks, firSpecializedDecimatorFactor ∣ block.1.length) :
    ∃ outputs specialized generic,
      Loop.calls (fun state block => firDecimatorProcessBlockSpecialized90x5 state block.1 block.2)
          (firDecimatorConfigure firSpecializedDecimatorFactor taps
            firSpecializedDecimatorTapCount) blocks = some (specialized, outputs) ∧
        Loop.calls (fun state block => firDecimatorProcessBlock state block.1 block.2)
          (firDecimatorConfigure firSpecializedDecimatorFactor taps
            firSpecializedDecimatorTapCount) blocks = some (generic, outputs) := by
  have hpos : 0 < taps.length := by
    rw [htaps]
    decide
  have hmax : taps.length ≤ firMaxTaps := by
    rw [htaps]
    decide
  have hfactor : 2 ≤ firSpecializedDecimatorFactor := by decide
  have hconfigure := firDecimatorConfigure_represents hfactor hpos hmax
  rw [htaps] at hconfigure
  obtain ⟨specialized, hspecialized, -⟩ := Loop.calls_refine
    (fun (state : FirDecimatorState K) history => state.Overlaps taps history)
    (fun block => firSpecializedDecimatorFactor ∣ block.1.length)
    (fun state history block h hblock => h.process htaps block.1 hblock block.2)
    blocks (firDecimatorConfigure_overlaps htaps) hblocks
  obtain ⟨generic, hgeneric, -⟩ := Loop.calls_refine
    (fun (state : FirDecimatorState K) history =>
      state.Represents firSpecializedDecimatorFactor taps history) (fun _ => True)
    (fun state history block h _ => h.process hfactor block.1 block.2)
    blocks hconfigure fun _ _ => trivial
  exact ⟨_, specialized, generic, hspecialized, hgeneric⟩

/-- A block of one frame, an empty one, and one of two frames with room for one output. -/
theorem firDecimatorProcessBlockSpecialized90x5_eq_ones :
    ∃ outputs specialized generic,
      Loop.calls (fun state block => firDecimatorProcessBlockSpecialized90x5 state block.1 block.2)
          (firDecimatorConfigure firSpecializedDecimatorFactor (List.replicate 90 (1 : ℤ))
            firSpecializedDecimatorTapCount)
          [([1, 2, 3, 4, 5], 1), ([], 0), (List.replicate 10 7, 1)]
          = some (specialized, outputs) ∧
        Loop.calls (fun state block => firDecimatorProcessBlock state block.1 block.2)
          (firDecimatorConfigure firSpecializedDecimatorFactor (List.replicate 90 (1 : ℤ))
            firSpecializedDecimatorTapCount)
          [([1, 2, 3, 4, 5], 1), ([], 0), (List.replicate 10 7, 1)] = some (generic, outputs) :=
  firDecimatorProcessBlockSpecialized90x5_eq (List.replicate 90 1) List.length_replicate _
    (by simp [firSpecializedDecimatorFactor])

end Mpxcast
