import Mpxcast.Core.DelayLine
import Mpxcast.Core.ScratchWindow
import Mpxcast.Input.RtlIqDecimator

/-!
# Both IQ decimators

The decimator over rings and the one over shifted windows answer every block alike: both filter the
stream of I/Q pairs of the blocks that could be read, and keep every eighth output. A block that
could not be read leaves no trace in the histories.
-/

namespace Mpxcast

open CMemory Convolution DelayLine RecentWindow ScratchWindow

variable {K : Type*} [CommRing K]

/-! ### Samples -/

/-- The I/Q pairs of a block of bytes. -/
def iqSamples : List UInt8 → List (K × K)
  | inPhase :: quadrature :: bytes => (iqSample inPhase, iqSample quadrature) :: iqSamples bytes
  | _ => []

lemma length_iqSamples (bytes : List UInt8) :
    (iqSamples bytes : List (K × K)).length = bytes.length / 2 := by
  induction bytes using iqSamples.induct with
  | case1 inPhase quadrature bytes ih =>
    rw [iqSamples, List.length_cons, ih, List.length_cons, List.length_cons]
    omega
  | case2 bytes h =>
    rcases bytes with _ | ⟨x, _ | ⟨y, bytes⟩⟩
    · rfl
    · simp [iqSamples]
    · exact absurd rfl (h x y bytes)

/-- A pair is at twice its index among the bytes. -/
lemma getElem?_iqSamples (bytes : List UInt8) :
    ∀ m < (iqSamples bytes : List (K × K)).length, ∃ pair : K × K,
      (iqSamples bytes)[m]? = some pair ∧ bytes[2 * m]?.map iqSample = some pair.1 ∧
        bytes[2 * m + 1]?.map iqSample = some pair.2 := by
  induction bytes using iqSamples.induct with
  | case1 inPhase quadrature bytes ih =>
    rintro (_ | m) hm
    · exact ⟨_, rfl, rfl, rfl⟩
    · rw [iqSamples, List.length_cons] at hm
      exact ih m (Nat.lt_of_succ_lt_succ hm)
  | case2 bytes h =>
    rcases bytes with _ | ⟨x, _ | ⟨y, bytes⟩⟩
    · exact fun m hm => absurd hm (Nat.not_lt_zero m)
    · exact fun m hm => absurd hm (Nat.not_lt_zero m)
    · exact absurd rfl (h x y bytes)

/-- The filtered pair behind a history. -/
def iqResponse (taps : List K) (history : List (K × K)) : K × K :=
  (folded taps (window rtlIqDecimatorTapCount 0 (history.map Prod.fst)),
    folded taps (window rtlIqDecimatorTapCount 0 (history.map Prod.snd)))

/-- Pairs as they are written to the output. -/
def iqOutput (pairs : List (K × K)) : List K := pairs.flatMap fun pair => [pair.1, pair.2]

lemma rtlIqDecimatorProducts_eq :
    rtlIqDecimatorProducts = (List.range 8).map fun k => (k, k, 2 * 8 - 1 - k) := rfl

/-- The frame behind `n` others is answered by one pair. -/
lemma iqOutput_due_frame (taps : List K) {history samples : List (K × K)}
    (hhistory : rtlIqDecimatorFactor ∣ history.length) {n : ℕ}
    (hn : rtlIqDecimatorFactor * (n + 1) ≤ samples.length) :
    iqOutput (due rtlIqDecimatorFactor (iqResponse taps) history
        (samples.take (rtlIqDecimatorFactor * (n + 1))))
      = iqOutput (due rtlIqDecimatorFactor (iqResponse taps) history
          (samples.take (rtlIqDecimatorFactor * n))) ++
        [(iqResponse taps (history ++ samples.take (rtlIqDecimatorFactor * (n + 1)))).1,
          (iqResponse taps (history ++ samples.take (rtlIqDecimatorFactor * (n + 1)))).2] := by
  have hlength : (samples.take (rtlIqDecimatorFactor * n)).length = rtlIqDecimatorFactor * n :=
    List.length_take_of_le (by rw [Nat.mul_succ] at hn; omega)
  have hframe : (history ++ samples.take (rtlIqDecimatorFactor * n)).length % rtlIqDecimatorFactor
      + ((samples.drop (rtlIqDecimatorFactor * n)).take rtlIqDecimatorFactor).length
        = rtlIqDecimatorFactor := by
    rw [List.length_append, hlength,
      Nat.mod_eq_zero_of_dvd (Nat.dvd_add hhistory (Nat.dvd_mul_right _ _)), Nat.zero_add,
      List.length_take_of_le]
    rw [List.length_drop]
    rw [Nat.mul_succ] at hn
    omega
  have hsplit : samples.take (rtlIqDecimatorFactor * (n + 1))
      = samples.take (rtlIqDecimatorFactor * n) ++
        (samples.drop (rtlIqDecimatorFactor * n)).take rtlIqDecimatorFactor := by
    rw [Nat.mul_succ, List.take_add]
  rw [hsplit, due_append, due_frame (iqResponse taps) (by decide) _ hframe, List.append_assoc]
  simp [iqOutput]

/-! ### The rings -/

/-- The rings hold the last pairs of the history. -/
structure RtlIqDecimatorState.Represents (state : RtlIqDecimatorState K) (taps : List K)
    (history : List (K × K)) : Prop where
  taps_eq : state.taps.values = taps
  inPhase : Doubled state.historyInPhase rtlIqDecimatorTapCount state.historyWriteIndex 0
    (history.map Prod.fst)
  quadrature : Doubled state.historyQuadrature rtlIqDecimatorTapCount state.historyWriteIndex 0
    (history.map Prod.snd)

variable {taps : List K} {history : List (K × K)} {state : RtlIqDecimatorState K}
  {bytes : List UInt8}

/-- A pair extends the history. -/
lemma RtlIqDecimatorState.Represents.push (h : state.Represents taps history) {input : ℕ}
    {pair : K × K} (hinPhase : state.inputBytes[input]?.map iqSample = some pair.1)
    (hquadrature : state.inputBytes[input + 1]?.map iqSample = some pair.2) :
    ∃ next, rtlIqDecimatorPush state input = some next ∧
      next.Represents taps (history ++ [pair]) ∧ next.inputBytes = state.inputBytes := by
  obtain ⟨firstI, secondI, hfirstI, hsecondI, hringI⟩ := h.inPhase.store pair.1
  obtain ⟨firstQ, secondQ, hfirstQ, hsecondQ, hringQ⟩ := h.quadrature.store pair.2
  unfold rtlIqDecimatorPush
  simp only [hinPhase, hquadrature, hfirstI, hsecondI, hfirstQ, hsecondQ, Option.bind_eq_bind,
    Option.bind_some]
  refine ⟨_, rfl, ⟨h.taps_eq, ?_, ?_⟩, rfl⟩
  · rw [List.map_append]
    exact hringI
  · rw [List.map_append]
    exact hringQ

/-- Pairs `m` to `m + n` of the block. -/
lemma RtlIqDecimatorState.Represents.pushes {m : ℕ}
    (h : state.Represents taps (history ++ (iqSamples state.inputBytes).take m)) (n : ℕ)
    (hn : m + n ≤ (iqSamples state.inputBytes : List (K × K)).length) :
    ∃ next, (List.range n).foldlM (fun state sampleIndex =>
        rtlIqDecimatorPush state (2 * m + sampleIndex * 2)) state = some next ∧
      next.Represents taps (history ++ (iqSamples state.inputBytes).take (m + n)) ∧
      next.inputBytes = state.inputBytes := by
  induction n with
  | zero => exact ⟨state, rfl, h, rfl⟩
  | succ n ih =>
    obtain ⟨next, hpushes, hnext, hbytes⟩ := ih (by omega)
    obtain ⟨pair, hpair, hinPhase, hquadrature⟩ :=
      getElem?_iqSamples (K := K) state.inputBytes (m + n) (by omega)
    have hoffset : 2 * m + n * 2 = 2 * (m + n) := by omega
    rw [← hbytes, ← hoffset] at hinPhase hquadrature
    obtain ⟨last, hpush, hlast, hlastBytes⟩ := hnext.push hinPhase hquadrature
    refine ⟨last, ?_, ?_, hlastBytes.trans hbytes⟩
    · rw [List.range_succ, List.foldlM_append, hpushes, Option.bind_eq_bind, Option.bind_some]
      simp [hpush]
    · rw [← Nat.add_assoc, List.take_add_one, hpair, ← List.append_assoc]
      exact hlast

/-- The response of the filter to both components. -/
lemma RtlIqDecimatorState.Represents.products (htaps : taps.length = rtlIqDecimatorTapCount)
    (h : state.Represents taps history) :
    (productSum rtlIqDecimatorProducts (state.taps.values[·]?) fun i =>
        state.historyInPhase[state.historyWriteIndex + i]?)
        = some (iqResponse taps history).1 ∧
      (productSum rtlIqDecimatorProducts (state.taps.values[·]?) fun i =>
        state.historyQuadrature[state.historyWriteIndex + i]?)
        = some (iqResponse taps history).2 := by
  have htap (k : ℕ) (hk : k < 8) : state.taps.values[k]? = some (taps.getD k 0) := by
    have hlt : k < taps.length := by rw [htaps]; exact hk.trans (by decide)
    rw [h.taps_eq, List.getElem?_eq_getElem hlt, List.getD_eq_getElem _ _ hlt]
  have hsixteen : taps.length = 2 * 8 := htaps
  rw [rtlIqDecimatorProducts_eq]
  exact ⟨productSum_eq_folded taps _ hsixteen htap fun k hk => h.inPhase.load hk,
    productSum_eq_folded taps _ hsixteen htap fun k hk => h.quadrature.load hk⟩

/-- The rounds of a block up to the `n`-th. -/
lemma RtlIqDecimatorState.Represents.rounds (htaps : taps.length = rtlIqDecimatorTapCount)
    (hhistory : rtlIqDecimatorFactor ∣ history.length) (h : state.Represents taps history) (n : ℕ)
    (hn : rtlIqDecimatorFactor * n ≤ (iqSamples state.inputBytes : List (K × K)).length) :
    ∃ next, (List.range n).foldlM rtlIqDecimatorGenericRound (state, []) = some (next,
        iqOutput (due rtlIqDecimatorFactor (iqResponse taps) history
          ((iqSamples state.inputBytes).take (rtlIqDecimatorFactor * n)))) ∧
      next.Represents taps
        (history ++ (iqSamples state.inputBytes).take (rtlIqDecimatorFactor * n)) ∧
      next.inputBytes = state.inputBytes := by
  induction n with
  | zero => exact ⟨state, rfl, by simpa using h, rfl⟩
  | succ n ih =>
    obtain ⟨next, hrounds, hnext, hbytes⟩ := ih (by rw [Nat.mul_succ] at hn; omega)
    have hoffset : n * rtlIqDecimatorFactor * 2 = 2 * (rtlIqDecimatorFactor * n) := by ring
    rw [← hbytes] at hnext hn
    obtain ⟨last, hpushes, hlast, hlastBytes⟩ := hnext.pushes rtlIqDecimatorFactor hn
    obtain ⟨hinPhase, hquadrature⟩ := hlast.products htaps
    rw [hbytes] at hn hlast hinPhase hquadrature
    refine ⟨last, ?_, hlast, hlastBytes.trans hbytes⟩
    rw [List.range_succ, List.foldlM_append, hrounds, Option.bind_eq_bind, Option.bind_some,
      iqOutput_due_frame taps hhistory hn]
    simp only [List.foldlM_cons, List.foldlM_nil, rtlIqDecimatorGenericRound, hoffset, hpushes,
      Option.bind_eq_bind, Option.bind_some]
    rw [hinPhase, hquadrature]
    rfl

/-! ### The windows -/

/-- The window has all its slots, and the samples are at its start. -/
structure WindowHasRecent (slots : List (Option K)) (samples : List K) : Prop where
  length_eq : slots.length = rtlIqDecimatorTapCount
  holds : Holds slots 0 samples

/-- Both windows hold the last `n` pairs of the history. -/
structure RtlIqWindows.Represents (windows : RtlIqWindows K) (n : ℕ) (history : List (K × K)) :
    Prop where
  inPhase : WindowHasRecent windows.inPhase (window n 0 (history.map Prod.fst))
  quadrature : WindowHasRecent windows.quadrature (window n 0 (history.map Prod.snd))

variable {windows : RtlIqWindows K} {slots : List (Option K)}

lemma rtlIqDecimatorLoads_eq : rtlIqDecimatorLoads
    = (List.range rtlIqDecimatorFactor).map fun k => (8 + k, k * 2, k * 2 + 1) := rfl

lemma rtlIqDecimatorMoves_eq : rtlIqDecimatorMoves = (List.range 8).map fun k => (k, k + 8) := rfl

/-- A sample is stored behind the last `n`. -/
lemma WindowHasRecent.store {n : ℕ} {xs : List K} (h : WindowHasRecent slots (window n 0 xs))
    (hn : n < rtlIqDecimatorTapCount) (x : K) :
    ∃ next, store slots n (some x) = some next ∧
      WindowHasRecent next (window (n + 1) 0 (xs ++ [x])) := by
  have hroom : 0 + (window n 0 xs).length < slots.length := by
    rw [length_window, h.length_eq, Nat.zero_add]
    exact hn
  obtain ⟨next, hstore, hlength, hholds⟩ := h.holds.store hroom x
  rw [length_window, Nat.zero_add] at hstore
  rw [window_append] at hholds
  exact ⟨next, hstore, hlength.trans h.length_eq, hholds⟩

/-- A pair is loaded behind the last `n`. -/
lemma RtlIqWindows.Represents.load {n : ℕ} (h : windows.Represents n history)
    (hn : n < rtlIqDecimatorTapCount) {input : ℕ} {pair : K × K} (load : ℕ × ℕ × ℕ)
    (hslot : load.1 = n) (hinPhase : bytes[input + load.2.1]?.map iqSample = some pair.1)
    (hquadrature : bytes[input + load.2.2]?.map iqSample = some pair.2) :
    ∃ next, rtlIqDecimatorLoad bytes input windows load = some next ∧
      next.Represents (n + 1) (history ++ [pair]) := by
  obtain ⟨nextI, hstoreI, hnextI⟩ := h.inPhase.store hn pair.1
  obtain ⟨nextQ, hstoreQ, hnextQ⟩ := h.quadrature.store hn pair.2
  unfold rtlIqDecimatorLoad
  simp only [hinPhase, hquadrature, hslot, hstoreI, hstoreQ, Option.bind_eq_bind, Option.bind_some]
  refine ⟨_, rfl, ?_, ?_⟩
  · rw [List.map_append]
    exact hnextI
  · rw [List.map_append]
    exact hnextQ

/-- Pairs `m` to `m + n` of the block. -/
lemma RtlIqWindows.Represents.loads {m : ℕ}
    (h : windows.Represents 8 (history ++ (iqSamples bytes).take m)) (n : ℕ) (hmax : n ≤ 8)
    (hn : m + n ≤ (iqSamples bytes : List (K × K)).length) :
    ∃ next, ((List.range n).map fun k => (8 + k, k * 2, k * 2 + 1)).foldlM
        (rtlIqDecimatorLoad bytes (2 * m)) windows = some next ∧
      next.Represents (8 + n) (history ++ (iqSamples bytes).take (m + n)) := by
  induction n with
  | zero => exact ⟨windows, rfl, h⟩
  | succ n ih =>
    obtain ⟨next, hloads, hnext⟩ := ih (by omega) (by omega)
    obtain ⟨pair, hpair, hinPhase, hquadrature⟩ :=
      getElem?_iqSamples (K := K) bytes (m + n) (by omega)
    have hoffset : 2 * (m + n) = 2 * m + n * 2 := by omega
    have hslots : 8 + n < rtlIqDecimatorTapCount :=
      (Nat.add_lt_add_left hmax 8 : 8 + n < 16)
    rw [hoffset] at hinPhase hquadrature
    obtain ⟨last, hload, hlast⟩ :=
      hnext.load hslots (8 + n, n * 2, n * 2 + 1) rfl hinPhase hquadrature
    refine ⟨last, ?_, ?_⟩
    · rw [List.range_succ, List.map_append, List.foldlM_append, hloads, Option.bind_eq_bind,
        Option.bind_some]
      simp [hload]
    · rw [← Nat.add_assoc m, List.take_add_one, hpair, ← List.append_assoc]
      exact hlast

omit [CommRing K] in
/-- The first `n` moves. -/
lemma foldlM_rtlIqDecimatorMove {samples : List K} (hlength : samples.length = 16) (n : ℕ)
    (hn : n ≤ 8) :
    ((List.range n).map fun k => (k, k + 8)).foldlM rtlIqDecimatorMove (samples.map some)
      = some (((samples.drop 8).take n ++ samples.drop n).map some) := by
  induction n with
  | zero => rfl
  | succ n ih =>
    have hfront : ((samples.drop 8).take n).length = n :=
      List.length_take_of_le (by rw [List.length_drop]; omega)
    have hsource : n + 8 < samples.length := by omega
    have hload : ((samples.drop 8).take n ++ samples.drop n)[n + 8]? = some samples[n + 8] := by
      rw [List.getElem?_append_right (by omega), hfront, List.getElem?_drop,
        show n + (n + 8 - n) = n + 8 by omega, List.getElem?_eq_getElem hsource]
    have htarget : samples.drop n = samples[n] :: samples.drop (n + 1) :=
      List.drop_eq_getElem_cons (by omega)
    have hset : ((samples.drop 8).take n ++ samples.drop n).set n samples[n + 8]
        = (samples.drop 8).take (n + 1) ++ samples.drop (n + 1) := by
      rw [htarget, List.set_append_right _ _ hfront.le, hfront, Nat.sub_self, List.set_cons_zero,
        List.take_add_one, List.getElem?_drop, Nat.add_comm 8 n, List.getElem?_eq_getElem hsource,
        List.append_assoc]
      rfl
    have hroom : n < (((samples.drop 8).take n ++ samples.drop n).map some).length := by
      rw [List.length_map, List.length_append, hfront, List.length_drop]
      omega
    have hmove :
        rtlIqDecimatorMove (((samples.drop 8).take n ++ samples.drop n).map some) (n, n + 8)
          = some (((samples.drop 8).take (n + 1) ++ samples.drop (n + 1)).map some) := by
      unfold rtlIqDecimatorMove
      dsimp only
      rw [List.getElem?_map, hload, Option.map_some, Option.join_some, Option.bind_eq_bind,
        Option.bind_some, store_of_lt hroom, ← List.map_set, hset]
    rw [List.range_succ, List.map_append, List.foldlM_append, ih (by omega), Option.bind_eq_bind,
      Option.bind_some, List.map_singleton, List.foldlM_cons, hmove]
    rfl

omit [CommRing K] in
/-- The moves take the second half of a window to its first half. -/
lemma WindowHasRecent.moves {samples : List K} (h : WindowHasRecent slots samples)
    (hlength : samples.length = rtlIqDecimatorTapCount) :
    ∃ next, rtlIqDecimatorMoves.foldlM rtlIqDecimatorMove slots = some next ∧
      WindowHasRecent next (samples.drop rtlIqDecimatorFactor) := by
  obtain ⟨before, after, hslots, hbefore⟩ := h.holds
  obtain rfl := List.eq_nil_of_length_eq_zero hbefore
  have hafter : after = [] := by
    have htotal := h.length_eq
    rw [hslots, List.nil_append, List.length_append, List.length_map, hlength] at htotal
    exact List.eq_nil_of_length_eq_zero (by omega)
  rw [hafter, List.append_nil, List.nil_append] at hslots
  have hhalf : (samples.drop 8).take 8 = samples.drop 8 :=
    List.take_of_length_le (by rw [List.length_drop, hlength]; decide)
  rw [rtlIqDecimatorMoves_eq, hslots, foldlM_rtlIqDecimatorMove hlength 8 le_rfl, hhalf]
  refine ⟨_, rfl, ?_, [], (samples.drop 8).map some, ?_, rfl⟩
  · rw [List.length_map, List.length_append, List.length_drop, hlength]
    rfl
  · rw [List.map_append]
    rfl

/-- The response of the filter to both components. -/
lemma RtlIqWindows.Represents.products (htaps : taps.length = rtlIqDecimatorTapCount)
    (h : windows.Represents rtlIqDecimatorTapCount history) :
    productSum rtlIqDecimatorProducts (taps[·]?) (windows.inPhase[·]?.join)
        = some (iqResponse taps history).1 ∧
      productSum rtlIqDecimatorProducts (taps[·]?) (windows.quadrature[·]?.join)
        = some (iqResponse taps history).2 := by
  have htap (k : ℕ) (hk : k < 8) : taps[k]? = some (taps.getD k 0) := by
    have hlt : k < taps.length := by rw [htaps]; exact hk.trans (by decide)
    rw [List.getElem?_eq_getElem hlt, List.getD_eq_getElem _ _ hlt]
  have hload {slots : List (Option K)} {xs : List K}
      (h : WindowHasRecent slots (window rtlIqDecimatorTapCount 0 xs)) (k : ℕ) (hk : k < 2 * 8) :
      slots[k]?.join = some ((window rtlIqDecimatorTapCount 0 xs).getD k 0) := by
    have hk' : k < (window rtlIqDecimatorTapCount (0 : K) xs).length := by
      rw [length_window]
      exact hk
    have hread := h.holds.load hk' 0
    rwa [Nat.zero_add] at hread
  have hsixteen : taps.length = 2 * 8 := htaps
  rw [rtlIqDecimatorProducts_eq]
  exact ⟨productSum_eq_folded taps _ hsixteen htap (hload h.inPhase),
    productSum_eq_folded taps _ hsixteen htap (hload h.quadrature)⟩

/-- The rounds of a block up to the `n`-th. -/
lemma RtlIqWindows.Represents.rounds (htaps : taps.length = rtlIqDecimatorTapCount)
    (hhistory : rtlIqDecimatorFactor ∣ history.length) (h : windows.Represents 8 history) (n : ℕ)
    (hn : rtlIqDecimatorFactor * n ≤ (iqSamples bytes : List (K × K)).length) :
    ∃ next, (List.range n).foldlM (rtlIqDecimatorSpecializedRound taps bytes) (windows, [])
        = some (next, iqOutput (due rtlIqDecimatorFactor (iqResponse taps) history
          ((iqSamples bytes).take (rtlIqDecimatorFactor * n)))) ∧
      next.Represents 8 (history ++ (iqSamples bytes).take (rtlIqDecimatorFactor * n)) := by
  induction n with
  | zero => exact ⟨windows, rfl, by simpa using h⟩
  | succ n ih =>
    obtain ⟨next, hrounds, hnext⟩ := ih (by rw [Nat.mul_succ] at hn; omega)
    have hoffset : n * rtlIqDecimatorFactor * 2 = 2 * (rtlIqDecimatorFactor * n) := by ring
    obtain ⟨loaded, hloads, hloaded⟩ := hnext.loads rtlIqDecimatorFactor le_rfl hn
    obtain ⟨hinPhase, hquadrature⟩ := hloaded.products htaps
    obtain ⟨lastI, hmovesI, hlastI⟩ := hloaded.inPhase.moves (length_window _ _ _)
    obtain ⟨lastQ, hmovesQ, hlastQ⟩ := hloaded.quadrature.moves (length_window _ _ _)
    have hdrop (xs : List K) : (window (8 + rtlIqDecimatorFactor) 0 xs).drop rtlIqDecimatorFactor
        = window 8 0 xs := window_drop rtlIqDecimatorFactor 8 0 xs
    rw [← rtlIqDecimatorLoads_eq] at hloads
    rw [hdrop] at hlastI hlastQ
    refine ⟨⟨lastI, lastQ⟩, ?_, hlastI, hlastQ⟩
    rw [List.range_succ, List.foldlM_append, hrounds, Option.bind_eq_bind, Option.bind_some,
      iqOutput_due_frame taps hhistory hn]
    simp only [List.foldlM_cons, List.foldlM_nil, rtlIqDecimatorSpecializedRound, hoffset, hloads,
      hmovesI, hmovesQ, Option.bind_eq_bind, Option.bind_some]
    rw [hinPhase, hquadrature]
    rfl

/-! ### Blocks -/

/-- How a block is answered behind the pairs of the blocks that were read before. -/
def iqAnswer (taps : List K) (history : List (K × K)) (read : RtlBlockRead) : Int × List K :=
  if read.result ≠ 0 then (-1, [])
  else (0, iqOutput
    (due rtlIqDecimatorFactor (iqResponse taps) history (iqSamples read.inputBytes)))

/-- The pairs that have been read after a block. -/
def iqExtend (history : List (K × K)) (read : RtlBlockRead) : List (K × K) :=
  if read.result ≠ 0 then history else history ++ iqSamples read.inputBytes

/-- A block is made of frames. -/
lemma RtlBlockRead.length_samples (read : RtlBlockRead) :
    (iqSamples read.inputBytes : List (K × K)).length
      = rtlIqDecimatorFactor * rtlIqDecimatorOutputBlockSamples := by
  rw [length_iqSamples, read.length_eq, rtlIqDecimatorBlockInputBytes,
    Nat.mul_div_cancel _ two_pos, Nat.mul_comm]

lemma RtlBlockRead.take_samples (read : RtlBlockRead) :
    (iqSamples read.inputBytes : List (K × K)).take
      (rtlIqDecimatorFactor * rtlIqDecimatorOutputBlockSamples) = iqSamples read.inputBytes :=
  List.take_of_length_le read.length_samples.le

lemma dvd_length_iqExtend (hhistory : rtlIqDecimatorFactor ∣ history.length)
    (read : RtlBlockRead) : rtlIqDecimatorFactor ∣ (iqExtend history read).length := by
  unfold iqExtend
  split_ifs
  · exact hhistory
  · rw [List.length_append, read.length_samples]
    exact Nat.dvd_add hhistory (Nat.dvd_mul_right _ _)

/-- A block that could not be read leaves the rings as they are. -/
lemma rtlIqDecimatorReadBlockGeneric_failed (state : RtlIqDecimatorState K) {read : RtlBlockRead}
    (hfailed : read.result ≠ 0) : rtlIqDecimatorReadBlockGeneric state read
      = some ({ state with inputBytes := read.inputBytes }, -1, []) := if_pos hfailed

lemma rtlIqDecimatorReadBlockSpecialized16x8_failed (state : RtlIqDecimatorState K)
    {read : RtlBlockRead} (hfailed : read.result ≠ 0) :
    rtlIqDecimatorReadBlockSpecialized16x8 state read
      = some ({ state with inputBytes := read.inputBytes }, -1, []) := if_pos hfailed

/-- A block for the decimator over rings. -/
lemma RtlIqDecimatorState.Represents.readBlock (htaps : taps.length = rtlIqDecimatorTapCount)
    (hhistory : rtlIqDecimatorFactor ∣ history.length) (h : state.Represents taps history)
    (read : RtlBlockRead) :
    ∃ next, rtlIqDecimatorReadBlockGeneric state read = some (next, iqAnswer taps history read) ∧
      next.Represents taps (iqExtend history read) := by
  unfold iqAnswer iqExtend
  by_cases hfailed : read.result ≠ 0
  · rw [rtlIqDecimatorReadBlockGeneric_failed state hfailed, if_pos hfailed, if_pos hfailed]
    exact ⟨_, rfl, h.taps_eq, h.inPhase, h.quadrature⟩
  · have hfilled : RtlIqDecimatorState.Represents { state with inputBytes := read.inputBytes }
        taps history := ⟨h.taps_eq, h.inPhase, h.quadrature⟩
    obtain ⟨next, hrounds, hnext, -⟩ := hfilled.rounds htaps hhistory
      rtlIqDecimatorOutputBlockSamples read.length_samples.ge
    rw [read.take_samples] at hrounds hnext
    unfold rtlIqDecimatorReadBlockGeneric
    rw [if_neg hfailed, if_neg hfailed, if_neg hfailed, hrounds]
    exact ⟨next, rfl, hnext⟩

/-- Between blocks the histories start with the overlap. -/
structure RtlIqDecimatorState.Overlaps (state : RtlIqDecimatorState K) (taps : List K)
    (history : List (K × K)) : Prop where
  taps_eq : state.taps.values = taps
  inPhase : ∃ rest, state.historyInPhase = window 8 0 (history.map Prod.fst) ++ rest
  quadrature : ∃ rest, state.historyQuadrature = window 8 0 (history.map Prod.snd) ++ rest

lemma rtlIqDecimatorOpenWindow_eq (xs rest : List K) :
    ∃ slots, rtlIqDecimatorOpenWindow (window 8 0 xs ++ rest) = some slots ∧
      WindowHasRecent slots (window 8 0 xs) := by
  have hslice : slice (window 8 0 xs ++ rest) 0 rtlIqDecimatorSpecializedOverlapSamples
      = some (window 8 0 xs) := by
    have height : (window 8 0 xs).length = rtlIqDecimatorSpecializedOverlapSamples :=
      length_window _ _ _
    rw [slice_of_le, List.drop_zero, List.take_left' height]
    rw [List.length_append, height, Nat.zero_add]
    exact Nat.le_add_right _ _
  unfold rtlIqDecimatorOpenWindow
  rw [hslice, Option.bind_eq_bind, Option.bind_some]
  refine ⟨_, rfl, (memcpy_length ?_).trans List.length_replicate, holds_memcpy _ _⟩
  rw [List.length_map, length_window, List.length_replicate]
  decide

lemma WindowHasRecent.close {xs : List K} (h : WindowHasRecent slots (window 8 0 xs))
    (history : List K) :
    rtlIqDecimatorCloseWindow history slots = some (window 8 0 xs ++ history.drop 8) := by
  have hslice := h.holds.slice
  have hlength : (window 8 0 xs).length = 8 := length_window _ _ _
  have height : rtlIqDecimatorSpecializedOverlapSamples = 8 := rfl
  rw [hlength] at hslice
  unfold rtlIqDecimatorCloseWindow
  rw [height, hslice, Option.bind_eq_bind, Option.bind_some, mapM_map_some, Option.bind_eq_bind,
    Option.bind_some, memcpy_zero, hlength]
  rfl

/-- A block for the decimator over windows. -/
lemma RtlIqDecimatorState.Overlaps.readBlock (htaps : taps.length = rtlIqDecimatorTapCount)
    (hhistory : rtlIqDecimatorFactor ∣ history.length) (h : state.Overlaps taps history)
    (read : RtlBlockRead) :
    ∃ next, rtlIqDecimatorReadBlockSpecialized16x8 state read
        = some (next, iqAnswer taps history read) ∧
      next.Overlaps taps (iqExtend history read) := by
  unfold iqAnswer iqExtend
  by_cases hfailed : read.result ≠ 0
  · rw [rtlIqDecimatorReadBlockSpecialized16x8_failed state hfailed, if_pos hfailed,
      if_pos hfailed]
    exact ⟨_, rfl, h.taps_eq, h.inPhase, h.quadrature⟩
  · obtain ⟨restI, hrestI⟩ := h.inPhase
    obtain ⟨restQ, hrestQ⟩ := h.quadrature
    obtain ⟨slotsI, hopenI, hrecentI⟩ :=
      rtlIqDecimatorOpenWindow_eq (history.map Prod.fst) restI
    obtain ⟨slotsQ, hopenQ, hrecentQ⟩ :=
      rtlIqDecimatorOpenWindow_eq (history.map Prod.snd) restQ
    have hwindows : RtlIqWindows.Represents ⟨slotsI, slotsQ⟩ 8 history := ⟨hrecentI, hrecentQ⟩
    have hwhole : rtlIqDecimatorFactor * rtlIqDecimatorOutputBlockSamples
        ≤ (iqSamples read.inputBytes : List (K × K)).length := read.length_samples.ge
    obtain ⟨next, hrounds, hnext⟩ := hwindows.rounds htaps hhistory _ hwhole
    rw [read.take_samples] at hrounds hnext
    unfold rtlIqDecimatorReadBlockSpecialized16x8
    rw [if_neg hfailed, if_neg hfailed, if_neg hfailed]
    dsimp only
    rw [hrestI, hrestQ, hopenI, hopenQ, h.taps_eq]
    simp only [Option.bind_eq_bind, Option.bind_some]
    rw [hrounds]
    simp only [Option.bind_some, hnext.inPhase.close, hnext.quadrature.close]
    exact ⟨_, rfl, h.taps_eq, ⟨_, rfl⟩, ⟨_, rfl⟩⟩

/-! ### Runs -/

/-- The pairs of the blocks that could be read. -/
def iqStream (reads : List RtlBlockRead) : List (K × K) :=
  (reads.filter fun read => read.result = 0).flatMap fun read => iqSamples read.inputBytes

/-- Taps with the given first half, and symmetric. -/
def symmetricTaps (taps : List K) : List K := taps.take 8 ++ (taps.take 8).reverse

/-- The status of every block, and how much it puts out. -/
lemma answers_status (taps : List K) (reads : List RtlBlockRead) :
    ∀ history : List (K × K),
      (Loop.answers (iqAnswer taps) iqExtend history reads).map
          (fun result => (result.1, result.2.length))
        = reads.map fun read =>
            if read.result = 0 then (0, rtlIqDecimatorOutputBlockSamples * 2) else (-1, 0) := by
  induction reads with
  | nil => exact fun _ => rfl
  | cons read reads ih =>
    intro history
    rw [Loop.answers, List.map_cons, ih, List.map_cons]
    refine congrArg (· :: _) ?_
    unfold iqAnswer
    by_cases hread : read.result = 0
    · have hpairs : (due rtlIqDecimatorFactor (iqResponse taps) history
          (iqSamples read.inputBytes)).length = rtlIqDecimatorOutputBlockSamples := by
        rw [length_due, read.length_samples, Nat.add_mul_div_left _ _ (by decide),
          Nat.add_sub_cancel_left]
      have hflat (pairs : List (K × K)) : (iqOutput pairs).length = pairs.length * 2 := by
        simp [iqOutput]
      rw [if_neg (not_not.2 hread), if_pos hread, hflat, hpairs]
    · rw [if_pos hread, if_neg hread]
      rfl

/-- The blocks together put out what is due for the stream. -/
lemma answers_flatten (taps : List K) (reads : List RtlBlockRead) :
    ∀ history : List (K × K),
      ((Loop.answers (iqAnswer taps) iqExtend history reads).map Prod.snd).flatten
        = iqOutput (due rtlIqDecimatorFactor (iqResponse taps) history (iqStream reads)) := by
  induction reads with
  | nil => exact fun _ => rfl
  | cons read reads ih =>
    intro history
    rw [Loop.answers, List.map_cons, List.flatten_cons, ih]
    unfold iqAnswer iqExtend iqStream
    by_cases hread : read.result = 0
    · have hfilter : (read :: reads).filter (fun read => decide (read.result = 0))
          = read :: reads.filter fun read => decide (read.result = 0) :=
        List.filter_cons_of_pos (by simpa using hread)
      rw [if_neg (not_not.2 hread), if_neg (not_not.2 hread), hfilter, List.flatMap_cons,
        due_append, iqOutput, iqOutput, iqOutput, List.flatMap_append]
    · rw [if_pos hread, if_pos hread, List.filter_cons_of_neg (by simpa using hread),
        List.nil_append]

/-- The response behind a part of the stream is the convolution at its end. -/
lemma iqResponse_take (htaps : taps.length = rtlIqDecimatorTapCount) (stream : List (K × K))
    {n : ℕ} (hn : n < stream.length) :
    iqResponse taps (stream.take (n + 1))
      = (convolve (symmetricTaps taps) (stream.map Prod.fst) n,
          convolve (symmetricTaps taps) (stream.map Prod.snd) n) := by
  have height : (taps.take 8).length = 8 :=
    List.length_take_of_le (by rw [htaps]; decide)
  have hlength : (symmetricTaps taps).length = rtlIqDecimatorTapCount := by
    rw [symmetricTaps, List.length_append, List.length_reverse, height]
    rfl
  have hsymmetric : (symmetricTaps taps).reverse = symmetricTaps taps := by
    rw [symmetricTaps, List.reverse_append, List.reverse_reverse]
  have hfirst (k : ℕ) (hk : k < (taps.length + 1) / 2) :
      taps.getD k 0 = (symmetricTaps taps).getD k 0 := by
    rw [htaps] at hk
    have hk : k < 8 := hk
    rw [symmetricTaps, List.getD_append _ _ _ _ (height.symm ▸ hk), List.getD_eq_getElem?_getD,
      List.getD_eq_getElem?_getD, List.getElem?_take_of_lt hk]
  have hcomponent (xs : List K) (hxs : n < xs.length) :
      folded taps (window rtlIqDecimatorTapCount 0 (xs.take (n + 1)))
        = convolve (symmetricTaps taps) xs n := by
    rw [folded_congr (htaps.trans hlength.symm) hfirst, ← dot_eq_folded hsymmetric, ← hlength,
      dot_window _ _ hxs]
  rw [iqResponse, List.map_take, List.map_take, hcomponent _ (by rwa [List.length_map]),
    hcomponent _ (by rwa [List.length_map])]

/-- A decimator that answers every block from the history answers a sequence of them so. -/
lemma calls_iqAnswer
    {readBlock : RtlIqDecimatorState K → RtlBlockRead →
      Option (RtlIqDecimatorState K × Int × List K)}
    {R : RtlIqDecimatorState K → List (K × K) → Prop}
    (hread : ∀ state history read, rtlIqDecimatorFactor ∣ history.length → R state history →
      ∃ next, readBlock state read = some (next, iqAnswer taps history read) ∧
        R next (iqExtend history read))
    {state : RtlIqDecimatorState K} (hstate : R state []) (reads : List RtlBlockRead) :
    ∃ next, Loop.calls readBlock state reads
      = some (next, Loop.answers (iqAnswer taps) iqExtend [] reads) := by
  obtain ⟨next, hcalls, -⟩ := Loop.calls_refine
    (fun state (history : List (K × K)) =>
      R state history ∧ rtlIqDecimatorFactor ∣ history.length) (fun _ => True)
    (fun state history read h _ => by
      obtain ⟨next, hblock, hnext⟩ := hread state history read h.2 h.1
      exact ⟨next, hblock, hnext, dvd_length_iqExtend h.2 read⟩)
    reads ⟨hstate, dvd_zero _⟩ fun _ _ => trivial
  exact ⟨next, hcalls⟩

/-- **Both IQ decimators answer alike.** For every sequence of blocks, some of which cannot be read,
they return the same statuses and outputs: the blocks that were read are filtered with the symmetric
taps, and every eighth output is kept. A failed read changes neither of the histories. -/
theorem rtlIqDecimatorReadBlockSpecialized16x8_eq (taps : List K)
    (htaps : taps.length = rtlIqDecimatorTapCount) (reads : List RtlBlockRead) :
    (∃ results specialized generic,
      Loop.calls rtlIqDecimatorReadBlockSpecialized16x8
          (rtlIqDecimatorConfigure rtlIqDecimatorInit taps) reads = some (specialized, results) ∧
        Loop.calls rtlIqDecimatorReadBlockGeneric
          (rtlIqDecimatorConfigure rtlIqDecimatorInit taps) reads = some (generic, results) ∧
        (results.map fun result => (result.1, result.2.length))
          = (reads.map fun read =>
              if read.result = 0 then (0, rtlIqDecimatorOutputBlockSamples * 2) else (-1, 0)) ∧
        (results.map Prod.snd).flatten
          = (List.range ((iqStream reads : List (K × K)).length / rtlIqDecimatorFactor)).flatMap
              fun j =>
                [convolve (symmetricTaps taps) ((iqStream reads).map Prod.fst)
                    ((j + 1) * rtlIqDecimatorFactor - 1),
                  convolve (symmetricTaps taps) ((iqStream reads).map Prod.snd)
                    ((j + 1) * rtlIqDecimatorFactor - 1)]) ∧
      ∀ (state : RtlIqDecimatorState K) (read : RtlBlockRead), read.result ≠ 0 →
        rtlIqDecimatorReadBlockSpecialized16x8 state read
            = some ({ state with inputBytes := read.inputBytes }, -1, []) ∧
          rtlIqDecimatorReadBlockGeneric state read
            = some ({ state with inputBytes := read.inputBytes }, -1, []) := by
  have hrings : (rtlIqDecimatorConfigure rtlIqDecimatorInit taps).Represents taps [] :=
    ⟨rfl, doubled_replicate (by decide) (by decide) 0, doubled_replicate (by decide) (by decide) 0⟩
  have hwindows : (rtlIqDecimatorConfigure rtlIqDecimatorInit taps).Overlaps taps [] := by
    refine ⟨rfl, ⟨List.replicate 24 0, ?_⟩, ⟨List.replicate 24 0, ?_⟩⟩
    · rw [List.map_nil, window_nil, List.replicate_append_replicate]
      rfl
    · rw [List.map_nil, window_nil, List.replicate_append_replicate]
      rfl
  obtain ⟨specialized, hspecialized⟩ := calls_iqAnswer
    (R := fun state history => state.Overlaps taps history)
    (fun _ _ read hhistory h => h.readBlock htaps hhistory read) hwindows reads
  obtain ⟨generic, hgeneric⟩ := calls_iqAnswer
    (R := fun state history => state.Represents taps history)
    (fun _ _ read hhistory h => h.readBlock htaps hhistory read) hrings reads
  constructor
  · refine ⟨_, specialized, generic, hspecialized, hgeneric, answers_status taps reads [], ?_⟩
    rw [answers_flatten, due_start, iqOutput, List.flatMap_map]
    refine List.flatMap_congr fun j hj => ?_
    have hle : (j + 1) * rtlIqDecimatorFactor ≤ (iqStream reads : List (K × K)).length :=
      (Nat.mul_le_mul_right _ (List.mem_range.1 hj)).trans (Nat.div_mul_le_self _ _)
    have hone : 1 ≤ (j + 1) * rtlIqDecimatorFactor := Nat.mul_pos j.succ_pos (by decide)
    have htake := iqResponse_take htaps (iqStream reads)
      (n := (j + 1) * rtlIqDecimatorFactor - 1) (by omega)
    rw [Nat.sub_add_cancel hone] at htake
    rw [htake]
  · intro state read hfailed
    exact ⟨rtlIqDecimatorReadBlockSpecialized16x8_failed state hfailed,
      rtlIqDecimatorReadBlockGeneric_failed state hfailed⟩

/-- A failed read and a block of zeros. -/
def failedThenZeros : List RtlBlockRead :=
  [⟨-1, List.replicate rtlIqDecimatorBlockInputBytes 0, List.length_replicate⟩,
    ⟨0, List.replicate rtlIqDecimatorBlockInputBytes 0, List.length_replicate⟩]

theorem rtlIqDecimatorReadBlockSpecialized16x8_eq_zeros :
    (∃ results specialized generic,
      Loop.calls rtlIqDecimatorReadBlockSpecialized16x8
          (rtlIqDecimatorConfigure rtlIqDecimatorInit (List.replicate 16 (1 : ℤ))) failedThenZeros
            = some (specialized, results) ∧
        Loop.calls rtlIqDecimatorReadBlockGeneric
          (rtlIqDecimatorConfigure rtlIqDecimatorInit (List.replicate 16 (1 : ℤ))) failedThenZeros
            = some (generic, results) ∧
        (results.map fun result => (result.1, result.2.length))
          = (failedThenZeros.map fun read =>
              if read.result = 0 then (0, rtlIqDecimatorOutputBlockSamples * 2) else (-1, 0)) ∧
        (results.map Prod.snd).flatten
          = (List.range ((iqStream failedThenZeros : List (ℤ × ℤ)).length /
              rtlIqDecimatorFactor)).flatMap fun j =>
                [convolve (symmetricTaps (List.replicate 16 1))
                    ((iqStream failedThenZeros).map Prod.fst) ((j + 1) * rtlIqDecimatorFactor - 1),
                  convolve (symmetricTaps (List.replicate 16 1))
                    ((iqStream failedThenZeros).map Prod.snd)
                    ((j + 1) * rtlIqDecimatorFactor - 1)]) ∧
      ∀ (state : RtlIqDecimatorState ℤ) (read : RtlBlockRead), read.result ≠ 0 →
        rtlIqDecimatorReadBlockSpecialized16x8 state read
            = some ({ state with inputBytes := read.inputBytes }, -1, []) ∧
          rtlIqDecimatorReadBlockGeneric state read
            = some ({ state with inputBytes := read.inputBytes }, -1, []) :=
  rtlIqDecimatorReadBlockSpecialized16x8_eq (List.replicate 16 1) List.length_replicate
    failedThenZeros

end Mpxcast
