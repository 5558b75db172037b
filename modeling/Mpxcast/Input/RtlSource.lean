import Mpxcast.Core.CMemory
import Mpxcast.Core.Loop
import Mpxcast.Core.Lts
import Mpxcast.Core.Ring

/-!
# The RTL-SDR source

`input/rtl/rtl_source.c`: a byte ring filled by the asynchronous device callback and drained by the
DSP, and an IQ file that is replayed in a loop. A `size_t` subtraction that would wrap makes the
model return `none`.

`rtl_source_read` gives up the mutex while it waits, so its model is one critical section: from
taking the mutex to returning or waiting. The transition system interleaves these sections with
those of the callback, of `rtl_source_tune` and of the device thread.
-/

namespace Mpxcast

open CMemory

def rtlSourceSampleRateHz : ℕ := 1920000

/-- `RTL_SOURCE_BUFFER_BYTES`; irreducible, so that no proof counts up to it. -/
@[irreducible] def rtlSourceBufferBytes : ℕ := rtlSourceSampleRateHz * 2

lemma rtlSourceBufferBytes_pos : 0 < rtlSourceBufferBytes := by
  unfold rtlSourceBufferBytes rtlSourceSampleRateHz
  decide

lemma two_dvd_rtlSourceBufferBytes : 2 ∣ rtlSourceBufferBytes := by
  unfold rtlSourceBufferBytes
  exact Nat.dvd_mul_left 2 _

/-- An IQ file opened for reading. -/
structure RtlFile where
  contents : List UInt8
  position : ℕ
deriving Repr

structure RtlSource where
  device : Bool
  file : Option RtlFile
  fileInput : Bool
  running : Bool
  failed : Bool
  asyncStarted : Bool
  tunedFrequencyHz : ℕ
  buffer : ℕ → UInt8
  readOffset : ℕ
  writeOffset : ℕ
  bufferedBytes : ℕ

def rtlSourceInit : RtlSource where
  device := false
  file := none
  fileInput := false
  running := false
  failed := false
  asyncStarted := false
  tunedFrequencyHz := 0
  buffer := fun _ => 0
  readOffset := 0
  writeOffset := 0
  bufferedBytes := 0

/-- `rtl_source_start`: the buffer is not cleared, and a failed allocation, `pthread_*` or
`rtlsdr_*` call undoes everything. -/
def rtlSourceStart (source : RtlSource) (opened : Bool) (memory : ℕ → UInt8) : RtlSource × Int :=
  if opened then
    ({ source with
        buffer := memory, device := true, running := false, failed := false,
        asyncStarted := false, tunedFrequencyHz := 0 }, 0)
  else (rtlSourceInit, -1)

/-- `rtl_source_start_file`, for a path that names a regular file with the given contents, or not.
-/
def rtlSourceStartFile (source : RtlSource) (contents : Option (List UInt8)) : RtlSource × Int :=
  match contents with
  | none => (source, -1)
  | some bytes =>
    if bytes.length = 0 || bytes.length % 2 != 0 then (source, -1)
    else ({ source with file := some ⟨bytes, 0⟩, fileInput := true }, 0)

/-! ### The device callback -/

/-- `rtl_source_push_bytes`, oversize inputs: only their end is kept, in an emptied ring. -/
def pushTrim (source : RtlSource) (input : List UInt8) : RtlSource × List UInt8 :=
  if input.length ≥ rtlSourceBufferBytes then
    ({ source with readOffset := 0, writeOffset := 0, bufferedBytes := 0 },
      input.drop (input.length - rtlSourceBufferBytes))
  else (source, input)

/-- `read_offset` and `buffered_bytes` after `k` bytes left the ring on the read side. -/
def RtlSource.advanceRead (source : RtlSource) (k : ℕ) : Option RtlSource := do
  let buffered ← usub source.bufferedBytes k
  some { source with
    readOffset := (source.readOffset + k) % rtlSourceBufferBytes, bufferedBytes := buffered }

/-- `rtl_source_push_bytes`, overflow: the oldest bytes are dropped from the read side. -/
def pushMakeRoom (source : RtlSource) (byteCount : ℕ) : Option RtlSource :=
  if source.bufferedBytes + byteCount > rtlSourceBufferBytes then do
    let dropped ← usub (source.bufferedBytes + byteCount) rtlSourceBufferBytes
    source.advanceRead dropped
  else some source

def pushMore : RtlSource × List UInt8 → Bool := fun (_, input) => 0 < input.length

/-- One round of the copy loop of `rtl_source_push_bytes`: up to the end of the buffer. -/
def pushRound : RtlSource × List UInt8 → Option (RtlSource × List UInt8) :=
  fun (source, input) => do
  let contiguous ← usub rtlSourceBufferBytes source.writeOffset
  let contiguous := if contiguous > input.length then input.length else contiguous
  some ({ source with
      buffer := Ring.copyIn source.buffer source.writeOffset (input.take contiguous),
      writeOffset := (source.writeOffset + contiguous) % rtlSourceBufferBytes,
      bufferedBytes := source.bufferedBytes + contiguous }, input.drop contiguous)

def rtlSourcePushBytes (source : RtlSource) (input : List UInt8) : Option RtlSource := do
  let (source, input) := pushTrim source input
  let source ← pushMakeRoom source input.length
  let (source, _) ← Loop.run pushMore pushRound input.length (source, input)
  some source

/-! ### Tuning -/

/-- Which of the external calls of `rtl_source_tune` succeed. -/
structure RtlTuneEnv where
  setCenterFreq : Bool
  resetBuffer : Bool
  threadCreate : Bool

/-- The first critical section of `rtl_source_tune`. -/
def RtlSource.flush (source : RtlSource) (frequencyHz : ℕ) : RtlSource :=
  { source with
    tunedFrequencyHz := frequencyHz, readOffset := 0, writeOffset := 0, bufferedBytes := 0 }

def rtlSourceTune (source : RtlSource) (frequencyHz : ℕ) (env : RtlTuneEnv) : RtlSource × Int :=
  if source.fileInput then (source, 0)
  else if !source.device then (source, -1)
  else if !env.setCenterFreq then (source, -1)
  else
    let source := source.flush frequencyHz
    if source.asyncStarted then (source, 0)
    else if !env.resetBuffer then (source, -1)
    else
      let source := { source with running := true, failed := false }
      if !env.threadCreate then ({ source with running := false }, -1)
      else ({ source with asyncStarted := true }, 0)

/-- The last critical section of `rtl_source_thread_main`. -/
def RtlSource.threadExit (source : RtlSource) (result : Int) : RtlSource :=
  { source with running := false, failed := if result ≠ 0 then true else source.failed }

/-! ### Reading -/

/-- A call of `rtl_source_read` under way: how much was asked for, and what was copied so far. -/
structure PendingRead where
  byteCount : ℕ
  copied : List UInt8
deriving DecidableEq, Repr

/-- How a critical section of `rtl_source_read` ends. -/
inductive RtlReadStatus
  | waiting (read : PendingRead)
  | returned (code : Int) (read : PendingRead)
deriving DecidableEq, Repr

/-- The innermost loop of `rtl_source_read` runs while bytes are missing and bytes are there. -/
def readMore : RtlSource × PendingRead → Bool := fun (source, read) =>
  read.copied.length < read.byteCount && 0 < source.bufferedBytes

/-- One round of that loop. -/
def readRound : RtlSource × PendingRead → Option (RtlSource × PendingRead) :=
  fun (source, read) => do
    let contiguous ← usub rtlSourceBufferBytes source.readOffset
    let contiguous :=
      if contiguous > source.bufferedBytes then source.bufferedBytes else contiguous
    let missing ← usub read.byteCount read.copied.length
    let contiguous := if contiguous > missing then missing else contiguous
    let bytes := Ring.copyOut source.buffer source.readOffset contiguous
    let source ← source.advanceRead contiguous
    some (source, { read with copied := read.copied ++ bytes })

/-- A critical section of `rtl_source_read` on a device. The copy loop does nothing when no byte is
buffered; once it has stopped short, nothing is buffered and the call waits or fails. -/
def rtlSourceReadSection (source : RtlSource) (read : PendingRead) :
    Option (RtlSource × RtlReadStatus) := do
  let (source, read) ← Loop.run readMore readRound read.byteCount (source, read)
  if read.copied.length < read.byteCount then
    if source.running && !source.failed then some (source, .waiting read)
    else some (source, .returned (-1) read)
  else some (source, .returned 0 read)

def fileMore : RtlFile × PendingRead → Bool := fun (_, read) =>
  read.copied.length < read.byteCount

/-- One round of the file loop of `rtl_source_read`: `fread`, and a seek to the start when it came
back short. -/
def fileRound : RtlFile × PendingRead → Option (RtlFile × PendingRead) := fun (file, read) =>
  let got := (file.contents.drop file.position).take (read.byteCount - read.copied.length)
  let read := { read with copied := read.copied ++ got }
  let file := { file with position := file.position + got.length }
  if read.copied.length = read.byteCount then some (file, read)
  else some ({ file with position := 0 }, read)

/-- `rtl_source_read` on a file, when neither `fread` nor `fseek` reports an error. -/
def rtlSourceReadFile (file : RtlFile) (byteCount : ℕ) : Option (RtlFile × List UInt8) := do
  let (file, read) ← Loop.run fileMore fileRound (byteCount + 1) (file, ⟨byteCount, []⟩)
  some (file, read.copied)

/-! ### Interleavings -/

/-- The source and the calls of `rtl_source_read` that wait, by reader. -/
structure RtlSystem where
  source : RtlSource
  reads : ℕ → Option PendingRead

/-- The critical sections that touch a device source. -/
inductive RtlLabel
  | push (bytes : List UInt8)
  | flush (frequencyHz : ℕ)
  | setRunning (running failed : Bool)
  | setStarted
  | threadExit (result : Int)
  | enter (reader : ℕ) (byteCount : ℕ) (status : RtlReadStatus)
  | wake (reader : ℕ) (status : RtlReadStatus)

/-- The call that is still under way after a section. -/
def RtlReadStatus.pending : RtlReadStatus → Option PendingRead
  | .waiting read => some read
  | .returned _ _ => none

inductive RtlStep : RtlSystem → RtlLabel → RtlSystem → Prop
  | push {s : RtlSystem} {bytes : List UInt8} {source : RtlSource} :
      rtlSourcePushBytes s.source bytes = some source →
      RtlStep s (.push bytes) { s with source := source }
  | flush (s : RtlSystem) (frequencyHz : ℕ) :
      RtlStep s (.flush frequencyHz) { s with source := s.source.flush frequencyHz }
  | setRunning (s : RtlSystem) (running failed : Bool) :
      RtlStep s (.setRunning running failed)
        { s with source := { s.source with running := running, failed := failed } }
  | setStarted (s : RtlSystem) :
      RtlStep s .setStarted { s with source := { s.source with asyncStarted := true } }
  | threadExit (s : RtlSystem) (result : Int) :
      RtlStep s (.threadExit result) { s with source := s.source.threadExit result }
  | enter {s : RtlSystem} {reader byteCount : ℕ} {source : RtlSource} {status : RtlReadStatus} :
      s.reads reader = none →
      rtlSourceReadSection s.source ⟨byteCount, []⟩ = some (source, status) →
      RtlStep s (.enter reader byteCount status)
        ⟨source, Function.update s.reads reader status.pending⟩
  | wake {s : RtlSystem} {reader : ℕ} {read : PendingRead} {source : RtlSource}
      {status : RtlReadStatus} :
      s.reads reader = some read →
      rtlSourceReadSection s.source read = some (source, status) →
      RtlStep s (.wake reader status) ⟨source, Function.update s.reads reader status.pending⟩

/-- A source that `rtl_source_start` opened, nobody reading from it. -/
def rtlLts : Lts RtlSystem RtlLabel where
  init s := (∃ memory, s.source = (rtlSourceStart rtlSourceInit true memory).1) ∧
    ∀ reader, s.reads reader = none
  step := RtlStep

/-- A section of `rtl_source_tune`. -/
def RtlLabel.Tunes : RtlLabel → Prop
  | .flush _ | .setRunning _ _ | .setStarted => True
  | _ => False

/-- The locked sections of `rtl_source_tune`, in its order. -/
theorem rtlSourceTune_run (s : RtlSystem) (frequencyHz : ℕ) (env : RtlTuneEnv) :
    ∃ ls, rtlLts.Run s ls { s with source := (rtlSourceTune s.source frequencyHz env).1 } ∧
      ∀ l ∈ ls, l.Tunes := by
  have hflush := RtlStep.flush s frequencyHz
  unfold rtlSourceTune
  by_cases hfile : s.source.fileInput
  · exact ⟨[], by simp [hfile]⟩
  by_cases hdev : s.source.device
  swap
  · exact ⟨[], by simp [hfile, hdev]⟩
  by_cases hfreq : env.setCenterFreq
  swap
  · exact ⟨[], by simp [hfile, hdev, hfreq]⟩
  by_cases hstarted : s.source.asyncStarted
  · refine ⟨[.flush frequencyHz], .cons hflush ?_, by simp [RtlLabel.Tunes]⟩
    simp [hfile, hdev, hfreq, hstarted, RtlSource.flush]
  by_cases hreset : env.resetBuffer
  swap
  · refine ⟨[.flush frequencyHz], .cons hflush ?_, by simp [RtlLabel.Tunes]⟩
    simp [hfile, hdev, hfreq, hstarted, hreset, RtlSource.flush]
  by_cases hcreate : env.threadCreate
  · refine ⟨[.flush frequencyHz, .setRunning true false, .setStarted],
      .cons hflush (.cons (.setRunning _ true false) (.cons (.setStarted _) ?_)),
      by simp [RtlLabel.Tunes]⟩
    simp [hfile, hdev, hfreq, hstarted, hreset, hcreate, RtlSource.flush]
  · refine ⟨[.flush frequencyHz, .setRunning true false, .setRunning false false],
      .cons hflush (.cons (.setRunning _ true false) (.cons (.setRunning _ false false) ?_)),
      by simp [RtlLabel.Tunes]⟩
    simp [hfile, hdev, hfreq, hstarted, hreset, hcreate, RtlSource.flush]

end Mpxcast
