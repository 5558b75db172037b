import Mathlib.Algebra.Order.Field.Basic
import Mathlib.Data.List.Chain
import Mathlib.Tactic

/-!
# The FM quality monitor

`dsp/fm_quality.c`: the noise next to the pilot is filtered out of the multiplex, its power is
smoothed and turned into a percentage, and changes are reported to the log. The filter of the liquid
library and the functions of `<math.h>` are parameters. Samples are elements of an ordered field
`K`, so that nothing is rounded; a sample that is not finite is `none`.
-/

namespace Mpxcast

/-- `iirfilt_rrrf`: a reset takes the filter back to how it was created. -/
structure Iirfilt (σ K : Type*) where
  created : σ
  reset : σ → σ
  execute : σ → K → σ × Option K
  reset_eq : ∀ filter, reset filter = created

structure QualityMath (K : Type*) where
  expm1 : K → K
  log10 : K → K

def fmQualitySampleRateHz : ℕ := 240000

/-- The text of a message is told by its values. -/
inductive FmQualityMessage (K : Type*)
  | unavailable (frequencyHz : ℕ)
  | quality (frequencyHz : ℕ) (qualityPercent noiseDb : Option K)

/-- `NAN` is `none`. -/
structure FmQualityResult (K : Type*) where
  valid : Bool
  noiseDb : Option K
  qualityPercent : Option K

structure FmQualityState (σ K : Type*) where
  filter : Option σ
  reportIntervalSeconds : K
  settlingSamples : ℕ
  smoothedPower : K
  result : FmQualityResult K
  haveReported : Bool
  reportedValid : Bool
  lastReportTime : K

/-- What the receive loop asks of the monitor. -/
inductive FmQualityCall (K : Type*)
  | processBlock (mpx : List (Option K))
  | reset
  | report (frequencyHz : ℕ) (clock : Option (ℕ × ℕ))

variable {σ K : Type*} [Field K]

def fmQualityCleanNoiseDb : K := -((50 : ℕ) : K)

def fmQualityPoorNoiseDb : K := -((20 : ℕ) : K)

def fmQualityPowerFloor : K := 1 / ((10 : ℕ) : K) ^ 20

def fmQualityAverageSeconds : K := 1 / ((2 : ℕ) : K)

def fmQualityReset (iirfilt : Iirfilt σ K) (state : FmQualityState σ K) : FmQualityState σ K :=
  { state with
    filter := state.filter.map iirfilt.reset
    settlingSamples := fmQualitySampleRateHz / 10
    smoothedPower := 0
    result := ⟨false, none, none⟩ }

/-- Everything is zero. -/
def fmQualityDestroy : FmQualityState σ K where
  filter := none
  reportIntervalSeconds := 0
  settlingSamples := 0
  smoothedPower := 0
  result := ⟨false, some 0, some 0⟩
  haveReported := false
  reportedValid := false
  lastReportTime := 0

def fmQualityInit (iirfilt : Iirfilt σ K) (reportIntervalSeconds : K) : FmQualityState σ K :=
  fmQualityReset iirfilt { (fmQualityDestroy : FmQualityState σ K) with
    filter := some iirfilt.created
    reportIntervalSeconds := reportIntervalSeconds }

/-- The loop over a block: the filter behind it, and the power of what it let through unless a
sample was not finite. -/
def fmQualityFilterBlock (iirfilt : Iirfilt σ K) : σ → K → List (Option K) → σ × Option K
  | filter, power, [] => (filter, some power)
  | filter, _, none :: _ => (filter, none)
  | filter, power, some sample :: mpx =>
    match iirfilt.execute filter sample with
    | (filter, none) => (filter, none)
    | (filter, some filtered) =>
      fmQualityFilterBlock iirfilt filter (power + filtered * filtered) mpx

def fmQualityAlpha (math : QualityMath K) (count : ℕ) : K :=
  -math.expm1 (-(count : K) / ((fmQualitySampleRateHz : K) * fmQualityAverageSeconds))

variable [LinearOrder K]

/-- Exact but for `log10`; a `double` also rounds the product and the quotient. -/
def fmQualityResultOf (math : QualityMath K) (smoothedPower : K) : FmQualityResult K :=
  let noiseDb := ((10 : ℕ) : K) * math.log10 (max smoothedPower fmQualityPowerFloor)
  let fraction := (fmQualityPoorNoiseDb - noiseDb) / (fmQualityPoorNoiseDb - fmQualityCleanNoiseDb)
  ⟨true, some noiseDb, some (((100 : ℕ) : K) * max 0 (min 1 fraction))⟩

/-- A block that was filtered: it is discarded until the filter has settled. -/
def fmQualityUpdate (iirfilt : Iirfilt σ K) (math : QualityMath K) (state : FmQualityState σ K)
    (power : K) (count : ℕ) : FmQualityState σ K :=
  if state.settlingSamples ≠ 0 then
    { state with
      settlingSamples :=
        if count ≥ state.settlingSamples then 0 else state.settlingSamples - count }
  else
    let power := power / (count : K)
    let alpha := fmQualityAlpha math count
    let smoothedPower :=
      if !state.result.valid then power
      else state.smoothedPower + alpha * (power - state.smoothedPower)
    let state := { state with smoothedPower := smoothedPower }
    if smoothedPower < 0 then fmQualityReset iirfilt state
    else { state with result := fmQualityResultOf math smoothedPower }

def fmQualityProcessBlock (iirfilt : Iirfilt σ K) (math : QualityMath K)
    (state : FmQualityState σ K) (mpx : List (Option K)) : FmQualityState σ K :=
  match state.filter with
  | none => fmQualityReset iirfilt state
  | some filter =>
    if mpx.length = 0 then fmQualityReset iirfilt state
    else
      match fmQualityFilterBlock iirfilt filter 0 mpx with
      | (filter, none) => fmQualityReset iirfilt { state with filter := some filter }
      | (filter, some power) =>
        fmQualityUpdate iirfilt math { state with filter := some filter } power mpx.length

/-- A time in seconds and nanoseconds. The sum is exact; a `double` rounds it, so that times which
compare as an interval apart may fall short of it by about a nanosecond. -/
def fmQualityNow (time : ℕ × ℕ) : K := (time.1 : K) + (time.2 : K) * (1 / ((10 : ℕ) : K) ^ 9)

/-- `clock` is what `clock_gettime` gives when it succeeds. -/
def fmQualityReport (state : FmQualityState σ K) (frequencyHz : ℕ) (clock : Option (ℕ × ℕ)) :
    FmQualityState σ K × Option (FmQualityMessage K) :=
  let result := state.result
  if !result.valid then
    ({ state with haveReported := true, reportedValid := false },
      if !state.haveReported || state.reportedValid then some (.unavailable frequencyHz) else none)
  else
    match clock with
    | none => (state, none)
    | some time =>
      let now := fmQualityNow time
      if state.haveReported && state.reportedValid &&
          decide (now - state.lastReportTime < state.reportIntervalSeconds) then (state, none)
      else
        ({ state with haveReported := true, reportedValid := true, lastReportTime := now },
          some (.quality frequencyHz result.qualityPercent result.noiseDb))

/-! ### The log -/

/-- A message with what the clock showed. -/
abbrev FmQualityEntry (K : Type*) := FmQualityMessage K × Option (ℕ × ℕ)

def fmQualityCall (iirfilt : Iirfilt σ K) (math : QualityMath K)
    (run : FmQualityState σ K × List (FmQualityEntry K)) :
    FmQualityCall K → FmQualityState σ K × List (FmQualityEntry K)
  | .processBlock mpx => (fmQualityProcessBlock iirfilt math run.1 mpx, run.2)
  | .reset => (fmQualityReset iirfilt run.1, run.2)
  | .report frequencyHz clock =>
    let reported := fmQualityReport run.1 frequencyHz clock
    (reported.1, run.2 ++ (reported.2.map fun message => (message, clock)).toList)

/-- The monitor from its creation on, and what it has logged. -/
def fmQualityRun (iirfilt : Iirfilt σ K) (math : QualityMath K) (reportIntervalSeconds : K)
    (calls : List (FmQualityCall K)) : FmQualityState σ K × List (FmQualityEntry K) :=
  calls.foldl (fmQualityCall iirfilt math) (fmQualityInit iirfilt reportIntervalSeconds, [])

def FmQualityMessage.hasReading : FmQualityMessage K → Bool
  | .unavailable _ => false
  | .quality _ _ _ => true

/-- An entry may come next: a reading is not said to be missing twice, and readings are the
interval apart. -/
def FmQualityFollows (interval : K) (a b : FmQualityEntry K) : Prop :=
  (a.1.hasReading = true ∨ b.1.hasReading = true) ∧
  (a.1.hasReading = true → b.1.hasReading = true →
    ∃ before after, a.2 = some before ∧ b.2 = some after ∧
      interval ≤ fmQualityNow after - fmQualityNow before)

/-- What reports go by. -/
def FmQualityState.reporting (state : FmQualityState σ K) : K × Bool × Bool × K :=
  (state.reportIntervalSeconds, state.haveReported, state.reportedValid, state.lastReportTime)

omit [LinearOrder K] in
@[simp] lemma fmQualityReset_reporting (iirfilt : Iirfilt σ K) (state : FmQualityState σ K) :
    (fmQualityReset iirfilt state).reporting = state.reporting := rfl

lemma fmQualityUpdate_reporting (iirfilt : Iirfilt σ K) (math : QualityMath K)
    (state : FmQualityState σ K) (power : K) (count : ℕ) :
    (fmQualityUpdate iirfilt math state power count).reporting = state.reporting := by
  unfold fmQualityUpdate
  dsimp only
  split_ifs <;> rfl

/-- Measuring does not touch them. -/
lemma fmQualityProcessBlock_reporting (iirfilt : Iirfilt σ K) (math : QualityMath K)
    (state : FmQualityState σ K) (mpx : List (Option K)) :
    (fmQualityProcessBlock iirfilt math state mpx).reporting = state.reporting := by
  unfold fmQualityProcessBlock
  split
  · rfl
  · split_ifs
    · rfl
    · split
      · rfl
      · exact fmQualityUpdate_reporting iirfilt math _ _ _

/-- What is measured. -/
def FmQualityState.measuring (state : FmQualityState σ K) : Option σ × ℕ × K × FmQualityResult K :=
  (state.filter, state.settlingSamples, state.smoothedPower, state.result)

/-- Reporting does not touch it. -/
lemma fmQualityReport_measuring (state : FmQualityState σ K) (frequencyHz : ℕ)
    (clock : Option (ℕ × ℕ)) :
    (fmQualityReport state frequencyHz clock).1.measuring = state.measuring := by
  unfold fmQualityReport
  dsimp only
  split
  · rfl
  · split
    · rfl
    · split <;> rfl

/-- What the reporting fields say of the log. -/
structure FmQualityLogged (interval : K) (state : FmQualityState σ K)
    (log : List (FmQualityEntry K)) : Prop where
  interval_eq : state.reportIntervalSeconds = interval
  haveReported_iff : state.haveReported = true ↔ log ≠ []
  last : ∀ entry ∈ log.getLast?, state.reportedValid = entry.1.hasReading ∧
    (entry.1.hasReading = true →
      ∃ time, entry.2 = some time ∧ state.lastReportTime = fmQualityNow time)
  chain : log.IsChain (FmQualityFollows interval)

lemma FmQualityLogged.of_reporting {interval : K} {state next : FmQualityState σ K}
    {log : List (FmQualityEntry K)} (h : FmQualityLogged interval state log)
    (hnext : next.reporting = state.reporting) : FmQualityLogged interval next log := by
  obtain ⟨hinterval, hreporting⟩ := Prod.mk.inj hnext
  obtain ⟨hhave, hreporting⟩ := Prod.mk.inj hreporting
  obtain ⟨hvalid, htime⟩ := Prod.mk.inj hreporting
  constructor
  · exact hinterval.trans h.interval_eq
  · rw [hhave]
    exact h.haveReported_iff
  · rw [hvalid, htime]
    exact h.last
  · exact h.chain

/-- One more entry. -/
lemma FmQualityLogged.append {interval : K} {state next : FmQualityState σ K}
    {log : List (FmQualityEntry K)} (h : FmQualityLogged interval state log)
    {entry : FmQualityEntry K} (hinterval : next.reportIntervalSeconds = interval)
    (hhave : next.haveReported = true) (hvalid : next.reportedValid = entry.1.hasReading)
    (htime : entry.1.hasReading = true →
      ∃ time, entry.2 = some time ∧ next.lastReportTime = fmQualityNow time)
    (hfollows : ∀ before ∈ log.getLast?, FmQualityFollows interval before entry) :
    FmQualityLogged interval next (log ++ [entry]) := by
  constructor
  · exact hinterval
  · simp [hhave]
  · intro last hlast
    rw [List.getLast?_concat, Option.mem_some_iff] at hlast
    exact hlast ▸ ⟨hvalid, htime⟩
  · rw [List.isChain_append]
    refine ⟨h.chain, List.isChain_singleton entry, fun before hbefore after hafter => ?_⟩
    rw [List.head?_cons, Option.mem_some_iff] at hafter
    exact hafter ▸ hfollows before hbefore

/-- The log as it is tells whether there is a reading, once something was reported. -/
lemma FmQualityLogged.getLast? {interval : K} {state : FmQualityState σ K}
    {log : List (FmQualityEntry K)} (h : FmQualityLogged interval state log)
    (hhave : state.haveReported = true) :
    ∃ entry, log.getLast? = some entry ∧ entry.1.hasReading = state.reportedValid := by
  have hne := h.haveReported_iff.1 hhave
  exact ⟨log.getLast hne, List.getLast?_eq_some_getLast hne,
    (h.last _ (List.getLast?_eq_some_getLast hne)).1.symm⟩

/-- A report without a reading. -/
lemma FmQualityLogged.report_unavailable {interval : K} {state : FmQualityState σ K}
    {log : List (FmQualityEntry K)} (h : FmQualityLogged interval state log)
    (hinvalid : state.result.valid = false) (frequencyHz : ℕ) (clock : Option (ℕ × ℕ)) :
    let reported := fmQualityReport state frequencyHz clock
    let entries := log ++ (reported.2.map fun message => (message, clock)).toList
    FmQualityLogged interval reported.1 entries ∧
      ∃ entry, entries.getLast? = some entry ∧ entry.1.hasReading = false := by
  have hreport : fmQualityReport state frequencyHz clock
      = ({ state with haveReported := true, reportedValid := false },
          if !state.haveReported || state.reportedValid then some (.unavailable frequencyHz)
          else none) := by
    simp [fmQualityReport, hinvalid]
  intro reported entries
  cases hnew : !state.haveReported || state.reportedValid with
  | true =>
    have hentries : entries = log ++ [(.unavailable frequencyHz, clock)] := by
      simp only [entries, reported, hreport, hnew, if_true, Option.map_some, Option.toList_some]
    have hfollows : ∀ before ∈ log.getLast?,
        FmQualityFollows interval before (.unavailable frequencyHz, clock) := by
      intro before hbefore
      have hhave : state.haveReported = true :=
        h.haveReported_iff.2 fun hnil => by simp [hnil] at hbefore
      rw [hhave, Bool.not_true, Bool.false_or] at hnew
      exact ⟨.inl ((h.last before hbefore).1.symm.trans hnew), fun _ hfalse => nomatch hfalse⟩
    rw [hentries]
    refine ⟨?_, _, List.getLast?_concat, rfl⟩
    simp only [reported, hreport]
    exact h.append h.interval_eq rfl rfl (fun hfalse => nomatch hfalse) hfollows
  | false =>
    obtain ⟨hhave, hvalid⟩ := Bool.or_eq_false_iff.1 hnew
    rw [Bool.not_eq_false'] at hhave
    have hentries : entries = log := by
      simp only [entries, reported, hreport, hnew, Bool.false_eq_true, if_false, Option.map_none,
        Option.toList_none, List.append_nil]
    rw [hentries]
    constructor
    · refine h.of_reporting ?_
      simp only [reported, hreport, FmQualityState.reporting, hhave, hvalid]
    · obtain ⟨entry, hlast, hentry⟩ := h.getLast? hhave
      exact ⟨entry, hlast, hentry.trans hvalid⟩

/-- A report of a reading, at a time that the clock gave. -/
lemma FmQualityLogged.report_quality {interval : K} {state : FmQualityState σ K}
    {log : List (FmQualityEntry K)} (h : FmQualityLogged interval state log)
    (hvalid : state.result.valid = true) (frequencyHz : ℕ) (time : ℕ × ℕ) :
    let reported := fmQualityReport state frequencyHz (some time)
    let entries := log ++ (reported.2.map fun message => (message, some time)).toList
    FmQualityLogged interval reported.1 entries ∧
      ∃ entry, entries.getLast? = some entry ∧ entry.1.hasReading = true := by
  intro reported entries
  cases hsoon : state.haveReported && state.reportedValid &&
      decide (fmQualityNow time - state.lastReportTime < state.reportIntervalSeconds) with
  | true =>
    have hreport : reported = (state, none) := by
      simp only [reported, fmQualityReport, hvalid, Bool.not_true, Bool.false_eq_true, if_false,
        hsoon, if_true]
    have hentries : entries = log := by
      simp only [entries, hreport, Option.map_none, Option.toList_none, List.append_nil]
    obtain ⟨hboth, -⟩ := Bool.and_eq_true_iff.1 hsoon
    obtain ⟨hhave, hlastValid⟩ := Bool.and_eq_true_iff.1 hboth
    rw [hentries, hreport]
    obtain ⟨entry, hlast, hentry⟩ := h.getLast? hhave
    exact ⟨h, entry, hlast, hentry.trans hlastValid⟩
  | false =>
    have hreport : reported
        = ({ state with haveReported := true, reportedValid := true
                        lastReportTime := fmQualityNow time },
            some (.quality frequencyHz state.result.qualityPercent state.result.noiseDb)) := by
      simp only [reported, fmQualityReport, hvalid, Bool.not_true, Bool.false_eq_true, if_false,
        hsoon]
    have hentries : entries = log ++
        [(.quality frequencyHz state.result.qualityPercent state.result.noiseDb, some time)] := by
      simp only [entries, hreport, Option.map_some, Option.toList_some]
    have hfollows : ∀ before ∈ log.getLast?, FmQualityFollows interval before
        (.quality frequencyHz state.result.qualityPercent state.result.noiseDb, some time) := by
      refine fun before hbefore => ⟨.inr rfl, fun hreading _ => ?_⟩
      obtain ⟨hlastValid, htime⟩ := h.last before hbefore
      obtain ⟨earlier, hearlier, hlastTime⟩ := htime hreading
      have hhave : state.haveReported = true :=
        h.haveReported_iff.2 fun hnil => by simp [hnil] at hbefore
      rw [hhave, hlastValid, hreading, Bool.and_true, Bool.true_and, decide_eq_false_iff_not,
        not_lt, h.interval_eq, hlastTime] at hsoon
      exact ⟨earlier, time, hearlier, rfl, hsoon⟩
    rw [hentries, hreport]
    exact ⟨h.append h.interval_eq rfl rfl (fun _ => ⟨time, rfl, rfl⟩) hfollows, _,
      List.getLast?_concat, rfl⟩

lemma FmQualityLogged.call {interval : K} {iirfilt : Iirfilt σ K} {math : QualityMath K}
    {run : FmQualityState σ K × List (FmQualityEntry K)}
    (h : FmQualityLogged interval run.1 run.2) (call : FmQualityCall K) :
    FmQualityLogged interval (fmQualityCall iirfilt math run call).1
      (fmQualityCall iirfilt math run call).2 := by
  cases call with
  | processBlock mpx => exact h.of_reporting (fmQualityProcessBlock_reporting iirfilt math _ mpx)
  | reset => exact h.of_reporting (fmQualityReset_reporting iirfilt _)
  | report frequencyHz clock =>
    cases hvalid : run.1.result.valid with
    | false => exact (h.report_unavailable hvalid frequencyHz clock).1
    | true =>
      cases clock with
      | none =>
        have hreport : fmQualityReport run.1 frequencyHz none = (run.1, none) := by
          simp [fmQualityReport, hvalid]
        simp only [fmQualityCall, hreport, Option.map_none, Option.toList_none, List.append_nil]
        exact h
      | some time => exact (h.report_quality hvalid frequencyHz time).1

lemma fmQualityRun_logged (iirfilt : Iirfilt σ K) (math : QualityMath K) (interval : K)
    (calls : List (FmQualityCall K)) :
    FmQualityLogged interval (fmQualityRun iirfilt math interval calls).1
      (fmQualityRun iirfilt math interval calls).2 := by
  induction calls using List.reverseRecOn with
  | nil =>
    exact ⟨rfl, by simp [fmQualityRun, fmQualityInit, fmQualityReset, fmQualityDestroy],
      by simp [fmQualityRun], by simp [fmQualityRun]⟩
  | append_singleton calls call ih =>
    rw [fmQualityRun, List.foldl_append]
    exact ih.call call

/-- **The log is to the point.** Whatever the receive loop does and whatever the clock shows, it is
never said twice in a row that there is no reading, readings that follow one another are the
interval apart, and behind a report that could read the clock, or did not need to, the last entry
says whether there is a reading. -/
theorem fmQuality_log (iirfilt : Iirfilt σ K) (math : QualityMath K) (interval : K)
    (calls : List (FmQualityCall K)) :
    let run := fmQualityRun iirfilt math interval calls
    run.2.IsChain (FmQualityFollows interval) ∧
    ∀ frequencyHz clock, (run.1.result.valid = true → clock.isSome = true) →
      ∃ entry,
        (fmQualityCall iirfilt math run (.report frequencyHz clock)).2.getLast? = some entry ∧
        entry.1.hasReading = run.1.result.valid := by
  intro run
  have hlogged : FmQualityLogged interval run.1 run.2 :=
    fmQualityRun_logged iirfilt math interval calls
  refine ⟨hlogged.chain, fun frequencyHz clock hclock => ?_⟩
  cases hvalid : run.1.result.valid with
  | false => exact (hlogged.report_unavailable hvalid frequencyHz clock).2
  | true =>
    obtain ⟨time, rfl⟩ := Option.isSome_iff_exists.1 (hclock hvalid)
    exact (hlogged.report_quality hvalid frequencyHz time).2

end Mpxcast
