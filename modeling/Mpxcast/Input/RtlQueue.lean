import Mpxcast.Input.RtlSource

/-!
# The byte ring is a bounded queue

The abstract queue knows nothing of offsets: a push keeps the last `rtlSourceBufferBytes` bytes,
tuning empties it, a reader takes what it still misses from the front. Every interleaving of the
source's critical sections is a run of that queue, no offset ever underflows, and even pushes and
reads keep the bytes in I/Q pairs.
-/

namespace Mpxcast

open CMemory

/-- The buffered bytes, oldest first. -/
def RtlSource.logical (source : RtlSource) : List UInt8 :=
  Ring.window source.buffer rtlSourceBufferBytes source.readOffset source.bufferedBytes

/-- The ring's bookkeeping is consistent. -/
structure RingOk (source : RtlSource) : Prop where
  read_lt : source.readOffset < rtlSourceBufferBytes
  write_eq : source.writeOffset =
    (source.readOffset + source.bufferedBytes) % rtlSourceBufferBytes
  buffered_le : source.bufferedBytes ≤ rtlSourceBufferBytes

lemma RingOk.write_lt {source : RtlSource} (h : RingOk source) :
    source.writeOffset < rtlSourceBufferBytes :=
  h.write_eq ▸ Nat.mod_lt _ rtlSourceBufferBytes_pos

@[simp] lemma RtlSource.logical_length (source : RtlSource) :
    source.logical.length = source.bufferedBytes := by simp [RtlSource.logical]

/-! ### Pushing -/

/-- Source and remaining input of the copy loop: together they hold `target`, and it fits. -/
structure PushInv (target : List UInt8) (s : RtlSource × List UInt8) : Prop where
  ok : RingOk s.1
  room : s.1.bufferedBytes + s.2.length ≤ rtlSourceBufferBytes
  bytes : s.1.logical ++ s.2 = target

lemma pushRound_spec {target : List UInt8} {source : RtlSource} {input : List UInt8}
    (h : PushInv target (source, input)) (hpos : 0 < input.length) :
    ∃ s', pushRound (source, input) = some s' ∧ PushInv target s' ∧
      s'.2.length < input.length := by
  have hok : RingOk source := h.ok
  have hroom : source.bufferedBytes + input.length ≤ rtlSourceBufferBytes := h.room
  have hw := hok.write_lt
  -- the piece up to the end of the buffer, or all of it
  obtain ⟨k, hk, hkw, hki, hk0⟩ : ∃ k,
      (if rtlSourceBufferBytes - source.writeOffset > input.length then input.length
        else rtlSourceBufferBytes - source.writeOffset) = k ∧
      source.writeOffset + k ≤ rtlSourceBufferBytes ∧ k ≤ input.length ∧ 0 < k := by
    refine ⟨_, rfl, ?_⟩
    split_ifs <;> omega
  have hlen : (input.take k).length = k := by simp [hki]
  refine ⟨_, by
      simp only [pushRound, usub_of_le hw.le, Option.bind_eq_bind, Option.bind_some, hk]
      rfl,
    ⟨⟨hok.read_lt, ?_, ?_⟩, ?_, ?_⟩, ?_⟩
  · simp only [hok.write_eq, Nat.mod_add_mod, Nat.add_assoc]
  · simp only
    omega
  · simp only [List.length_drop]
    omega
  · have hwin := Ring.window_copyIn source.buffer rtlSourceBufferBytes source.readOffset
      source.bufferedBytes (input.take k) (by rw [hlen, ← hok.write_eq]; exact hkw) (by omega)
    rw [hlen, ← hok.write_eq] at hwin
    have hbytes : source.logical ++ input = target := h.bytes
    simp only [RtlSource.logical] at hbytes ⊢
    rw [hwin, List.append_assoc, List.take_append_drop, hbytes]
  · simp only [List.length_drop]
    omega

lemma pushLoop_spec {source : RtlSource} {input : List UInt8} (hok : RingOk source)
    (hroom : source.bufferedBytes + input.length ≤ rtlSourceBufferBytes) :
    ∃ source' rest, Loop.run pushMore pushRound input.length (source, input) =
        some (source', rest) ∧ RingOk source' ∧ source'.logical = source.logical ++ input := by
  obtain ⟨⟨source', rest⟩, hrun, hinv, hexit⟩ :=
    Loop.run_total pushMore pushRound (PushInv (source.logical ++ input)) (fun s => s.2.length)
      (fun s hs hcond => pushRound_spec hs (by simpa [pushMore] using hcond)) input.length
      (s := (source, input)) ⟨hok, hroom, rfl⟩ le_rfl
  obtain rfl : rest = [] := by simpa [pushMore] using hexit
  exact ⟨source', [], hrun, hinv.ok, by simpa using hinv.bytes⟩

lemma advanceRead_eq {source : RtlSource} {k : ℕ} (hk : k ≤ source.bufferedBytes) :
    source.advanceRead k = some { source with
      readOffset := (source.readOffset + k) % rtlSourceBufferBytes,
      bufferedBytes := source.bufferedBytes - k } := by
  rw [RtlSource.advanceRead, usub_of_le hk]
  rfl

/-- Bytes that leave on the read side are the oldest ones. -/
lemma advanceRead_spec {source : RtlSource} (hok : RingOk source) {k : ℕ}
    (hk : k ≤ source.bufferedBytes) :
    ∃ source', source.advanceRead k = some source' ∧ RingOk source' ∧
      source'.logical = source.logical.drop k := by
  refine ⟨_, advanceRead_eq hk, ⟨?_, ?_, ?_⟩, ?_⟩
  · exact Nat.mod_lt _ rtlSourceBufferBytes_pos
  · show source.writeOffset = _
    rw [hok.write_eq, Nat.mod_add_mod, Nat.add_assoc, Nat.add_sub_cancel' hk]
  · exact (Nat.sub_le source.bufferedBytes k).trans hok.buffered_le
  · simp only [RtlSource.logical]
    rw [Ring.window_drop hk]

lemma pushMakeRoom_spec {source : RtlSource} (hok : RingOk source) {n : ℕ}
    (hn : n ≤ rtlSourceBufferBytes) :
    ∃ source', pushMakeRoom source n = some source' ∧ RingOk source' ∧
      source'.bufferedBytes + n ≤ rtlSourceBufferBytes ∧
      source'.logical = source.logical.drop (source.bufferedBytes + n - rtlSourceBufferBytes) := by
  have hle := hok.buffered_le
  by_cases hover : source.bufferedBytes + n > rtlSourceBufferBytes
  · obtain ⟨source', hadv, hok', hlog⟩ := advanceRead_spec hok
      (k := source.bufferedBytes + n - rtlSourceBufferBytes) (by omega)
    have hbuf := congrArg List.length hlog
    simp only [RtlSource.logical_length, List.length_drop] at hbuf
    refine ⟨source', ?_, hok', by omega, hlog⟩
    rw [pushMakeRoom, if_pos hover, usub_of_le hover.le, Option.bind_eq_bind, Option.bind_some,
      hadv]
  · refine ⟨source, by rw [pushMakeRoom, if_neg hover], hok, by omega, ?_⟩
    rw [Nat.sub_eq_zero_of_le (by omega), List.drop_zero]

lemma pushTrim_spec {source : RtlSource} (hok : RingOk source) (input : List UInt8) :
    RingOk (pushTrim source input).1 ∧ (pushTrim source input).2.length ≤ rtlSourceBufferBytes ∧
      Ring.push rtlSourceBufferBytes (pushTrim source input).1.logical (pushTrim source input).2 =
        Ring.push rtlSourceBufferBytes source.logical input := by
  by_cases hbig : input.length ≥ rtlSourceBufferBytes
  · simp only [pushTrim, if_pos hbig, List.length_drop]
    refine ⟨⟨rtlSourceBufferBytes_pos, by simp, Nat.zero_le _⟩, by omega, ?_⟩
    rw [Ring.push_of_le hbig, Ring.push_of_le (by rw [List.length_drop]; omega)]
    simp only [List.rtake, List.length_drop, List.drop_drop]
    congr 1
    omega
  · rw [pushTrim, if_neg hbig]
    exact ⟨hok, (not_le.mp hbig).le, rfl⟩

/-- `rtl_source_push_bytes` never underflows and appends to the bounded queue. -/
theorem rtlSourcePushBytes_spec {source : RtlSource} (hok : RingOk source) (input : List UInt8) :
    ∃ source', rtlSourcePushBytes source input = some source' ∧ RingOk source' ∧
      source'.logical = Ring.push rtlSourceBufferBytes source.logical input := by
  obtain ⟨hok₁, hlen, hpush⟩ := pushTrim_spec hok input
  obtain ⟨source₂, hroom, hok₂, hle, hlog₂⟩ := pushMakeRoom_spec hok₁ hlen
  obtain ⟨source', rest, hrun, hok', hlog⟩ := pushLoop_spec hok₂ hle
  refine ⟨source', by simp [rtlSourcePushBytes, hroom, hrun], hok', ?_⟩
  rw [hlog, hlog₂, ← hpush, Ring.push_of_lt hlen, RtlSource.logical_length]

/-! ### Reading -/

/-- Where the copy loop of a read that started from `source` and `read` stands: the bytes `x` have
moved from the ring to the reader. -/
structure ReadInv (source : RtlSource) (read : PendingRead) (s : RtlSource × PendingRead) :
    Prop where
  ok : RingOk s.1
  byteCount : s.2.byteCount = read.byteCount
  le : s.2.copied.length ≤ read.byteCount
  moved : ∃ x, s.2.copied = read.copied ++ x ∧ x ++ s.1.logical = source.logical

lemma readRound_spec {source₀ source : RtlSource} {read₀ read : PendingRead}
    (h : ReadInv source₀ read₀ (source, read)) (hmore : readMore (source, read) = true) :
    ∃ s', readRound (source, read) = some s' ∧ ReadInv source₀ read₀ s' ∧
      s'.2.byteCount - s'.2.copied.length < read.byteCount - read.copied.length := by
  obtain ⟨hok, hcount, -, x, hx, hlog⟩ := h
  simp only at hok hcount hx hlog
  obtain ⟨hmiss, hbuf⟩ : read.copied.length < read.byteCount ∧ 0 < source.bufferedBytes := by
    simpa [readMore] using hmore
  have hr := hok.read_lt
  -- the piece up to the end of the buffer, of the buffered bytes, and of the missing ones
  obtain ⟨k, hk, hk0, hkr, hkb, hkm⟩ : ∃ k,
      (if (if rtlSourceBufferBytes - source.readOffset > source.bufferedBytes
            then source.bufferedBytes else rtlSourceBufferBytes - source.readOffset) >
          read.byteCount - read.copied.length
        then read.byteCount - read.copied.length
        else (if rtlSourceBufferBytes - source.readOffset > source.bufferedBytes
            then source.bufferedBytes else rtlSourceBufferBytes - source.readOffset)) = k ∧
      0 < k ∧ source.readOffset + k ≤ rtlSourceBufferBytes ∧ k ≤ source.bufferedBytes ∧
      k ≤ read.byteCount - read.copied.length := by
    refine ⟨_, rfl, ?_⟩
    split_ifs <;> omega
  obtain ⟨source', hadv, hok', hlog'⟩ := advanceRead_spec hok hkb
  have hout : Ring.copyOut source.buffer source.readOffset k = source.logical.take k := by
    rw [Ring.copyOut_eq_window hkr, RtlSource.logical, Ring.window_take hkb]
  have hlen : (source.logical.take k).length = k := by simp [hkb]
  refine ⟨(source', { read with copied := read.copied ++ source.logical.take k }), ?_,
    ⟨hok', hcount, ?_, x ++ source.logical.take k, ?_, ?_⟩, ?_⟩
  · simp only [readRound, usub_of_le hr.le, usub_of_le hmiss.le, Option.bind_eq_bind,
      Option.bind_some, hk, hadv, hout]
  · simp only [List.length_append, hlen]
    omega
  · simp only [hx, List.append_assoc]
  · rw [hlog', List.append_assoc, List.take_append_drop, hlog]
  · simp only [List.length_append, hlen]
    omega

/-- What a reader takes from a queue: the bytes it misses, from the front. If those are not all
there it takes what there is, and waits or gives up. -/
inductive QueueRead (q : List UInt8) (read : PendingRead) : List UInt8 → RtlReadStatus → Prop
  | complete : read.byteCount - read.copied.length ≤ q.length →
      QueueRead q read (q.drop (read.byteCount - read.copied.length)) (.returned 0
        { read with copied := read.copied ++ q.take (read.byteCount - read.copied.length) })
  | wait : q.length < read.byteCount - read.copied.length →
      QueueRead q read [] (.waiting { read with copied := read.copied ++ q })
  | fail : q.length < read.byteCount - read.copied.length →
      QueueRead q read [] (.returned (-1) { read with copied := read.copied ++ q })

/-- A critical section of `rtl_source_read` never underflows and reads from the queue. -/
theorem rtlSourceReadSection_spec {source : RtlSource} (hok : RingOk source) (read : PendingRead)
    (hread : read.copied.length ≤ read.byteCount) :
    ∃ source' status, rtlSourceReadSection source read = some (source', status) ∧
      RingOk source' ∧ QueueRead source.logical read source'.logical status := by
  obtain ⟨⟨source', read'⟩, hrun, ⟨hok', hcount, hle, x, hx, hlog⟩, hexit⟩ :=
    Loop.run_total readMore readRound (ReadInv source read)
      (fun s => s.2.byteCount - s.2.copied.length)
      (fun s hs hmore => readRound_spec hs hmore) read.byteCount
      (s := (source, read)) ⟨hok, rfl, hread, [], by simp, rfl⟩ (Nat.sub_le _ _)
  simp only at hok' hcount hle hx hlog
  obtain rfl : read' = { read with copied := read.copied ++ x } := by
    rw [← hx, ← hcount]
  have hxlen : read.copied.length + x.length ≤ read.byteCount := by
    simpa only [List.length_append] using hle
  by_cases hfull : read.byteCount ≤ read.copied.length + x.length
  · have hn : read.byteCount - read.copied.length = x.length := by omega
    refine ⟨source', .returned 0 { read with copied := read.copied ++ x }, ?_, hok', ?_⟩
    · simp [rtlSourceReadSection, hrun, hfull]
    · have h : QueueRead source.logical read _ _ := .complete (by rw [hn, ← hlog]; simp)
      rw [hn, ← hlog, List.drop_left, List.take_left, hlog] at h
      exact h
  · -- the loop stopped short, so the ring is empty
    have hempty : source'.logical = [] := by
      have hbuf : source'.bufferedBytes = 0 := by
        simpa [readMore, not_le.mp hfull] using hexit
      simp [RtlSource.logical, hbuf]
    obtain rfl : x = source.logical := by rw [← hlog, hempty, List.append_nil]
    have hlt : source.logical.length < read.byteCount - read.copied.length := by omega
    by_cases hwait : source'.running && !source'.failed
    · refine ⟨source', _, ?_, hok', by rw [hempty]; exact .wait hlt⟩
      simp only [rtlSourceReadSection, hrun, Option.bind_eq_bind, Option.bind_some,
        List.length_append]
      rw [if_pos (by omega), if_pos hwait]
    · refine ⟨source', _, ?_, hok', by rw [hempty]; exact .fail hlt⟩
      simp only [rtlSourceReadSection, hrun, Option.bind_eq_bind, Option.bind_some,
        List.length_append]
      rw [if_pos (by omega), if_neg hwait]

/-! ### The abstract queue and its runs -/

/-- The purpose of the source: a queue of bytes and the readers that wait for more of them. -/
structure ByteQueue where
  bytes : List UInt8
  reads : ℕ → Option PendingRead

inductive ByteQueueStep : ByteQueue → RtlLabel → ByteQueue → Prop
  | push (q : ByteQueue) (bytes : List UInt8) :
      ByteQueueStep q (.push bytes)
        { q with bytes := Ring.push rtlSourceBufferBytes q.bytes bytes }
  | flush (q : ByteQueue) (frequencyHz : ℕ) :
      ByteQueueStep q (.flush frequencyHz) { q with bytes := [] }
  | setRunning (q : ByteQueue) (running failed : Bool) :
      ByteQueueStep q (.setRunning running failed) q
  | setStarted (q : ByteQueue) : ByteQueueStep q .setStarted q
  | threadExit (q : ByteQueue) (result : Int) : ByteQueueStep q (.threadExit result) q
  | enter {q : ByteQueue} {reader byteCount : ℕ} {bytes : List UInt8} {status : RtlReadStatus} :
      q.reads reader = none → QueueRead q.bytes ⟨byteCount, []⟩ bytes status →
      ByteQueueStep q (.enter reader byteCount status)
        ⟨bytes, Function.update q.reads reader status.pending⟩
  | wake {q : ByteQueue} {reader : ℕ} {read : PendingRead} {bytes : List UInt8}
      {status : RtlReadStatus} :
      q.reads reader = some read → QueueRead q.bytes read bytes status →
      ByteQueueStep q (.wake reader status)
        ⟨bytes, Function.update q.reads reader status.pending⟩

def byteQueueLts : Lts ByteQueue RtlLabel where
  init q := q.bytes = [] ∧ ∀ reader, q.reads reader = none
  step := ByteQueueStep

/-- No reader has more bytes than it asked for. -/
def ReadsOk (reads : ℕ → Option PendingRead) : Prop :=
  ∀ reader read, reads reader = some read → read.copied.length ≤ read.byteCount

/-- The ring stands for the queue. -/
structure RtlRefines (s : RtlSystem) (q : ByteQueue) : Prop where
  ok : RingOk s.source
  bytes : s.source.logical = q.bytes
  reads : s.reads = q.reads
  reads_ok : ReadsOk s.reads

/-- The call a section leaves under way, if any, has not been served in full. -/
lemma QueueRead.pending_le {q q' : List UInt8} {read read' : PendingRead} {status : RtlReadStatus}
    (h : QueueRead q read q' status) (hread : read.copied.length ≤ read.byteCount)
    (hp : status.pending = some read') : read'.copied.length ≤ read'.byteCount := by
  cases h with
  | complete => simp [RtlReadStatus.pending] at hp
  | fail => simp [RtlReadStatus.pending] at hp
  | wait hlt =>
    simp only [RtlReadStatus.pending, Option.some.injEq] at hp
    subst hp
    simp only [List.length_append]
    omega

lemma ReadsOk.update {reads : ℕ → Option PendingRead} {q q' : List UInt8} {read : PendingRead}
    {status : RtlReadStatus} (hreads : ReadsOk reads) (hq : QueueRead q read q' status)
    (hread : read.copied.length ≤ read.byteCount) (reader : ℕ) :
    ReadsOk (Function.update reads reader status.pending) := by
  intro reader' read' h
  by_cases heq : reader' = reader
  · subst heq
    rw [Function.update_self] at h
    exact hq.pending_le hread h
  · rw [Function.update_of_ne heq] at h
    exact hreads reader' read' h

/-- Every critical section of the source is a step of the queue. -/
theorem RtlRefines.step {s t : RtlSystem} {l : RtlLabel} {q : ByteQueue} (h : RtlRefines s q)
    (hstep : rtlLts.step s l t) : ∃ q', byteQueueLts.step q l q' ∧ RtlRefines t q' := by
  obtain ⟨bytes, reads⟩ := q
  obtain ⟨hok, hbytes, hreads, hle⟩ := h
  obtain rfl : s.source.logical = bytes := hbytes
  obtain rfl : s.reads = reads := hreads
  cases hstep with
  | @push input source hpush =>
    obtain ⟨source', hpush', hok', hlog⟩ := rtlSourcePushBytes_spec hok input
    obtain rfl : source' = source := Option.some.inj (hpush'.symm.trans hpush)
    exact ⟨_, .push _ input, hok', hlog, rfl, hle⟩
  | flush frequencyHz =>
    exact ⟨_, .flush _ frequencyHz, ⟨rtlSourceBufferBytes_pos, by simp [RtlSource.flush],
      Nat.zero_le _⟩, rfl, rfl, hle⟩
  | setRunning running failed =>
    exact ⟨_, .setRunning _ running failed, ⟨hok.read_lt, hok.write_eq, hok.buffered_le⟩, rfl,
      rfl, hle⟩
  | setStarted =>
    exact ⟨_, .setStarted _, ⟨hok.read_lt, hok.write_eq, hok.buffered_le⟩, rfl, rfl, hle⟩
  | threadExit result =>
    exact ⟨_, .threadExit _ result, ⟨hok.read_lt, hok.write_eq, hok.buffered_le⟩, rfl, rfl, hle⟩
  | @enter reader byteCount source status hnone hsec =>
    obtain ⟨source', status', hsec', hok', hq⟩ :=
      rtlSourceReadSection_spec hok ⟨byteCount, []⟩ (Nat.zero_le _)
    obtain ⟨rfl, rfl⟩ : source' = source ∧ status' = status := by
      simpa using hsec'.symm.trans hsec
    exact ⟨_, .enter hnone hq, hok', rfl, rfl, hle.update hq (Nat.zero_le _) reader⟩
  | @wake reader read source status hsome hsec =>
    have hread := hle reader read hsome
    obtain ⟨source', status', hsec', hok', hq⟩ := rtlSourceReadSection_spec hok read hread
    obtain ⟨rfl, rfl⟩ : source' = source ∧ status' = status := by
      simpa using hsec'.symm.trans hsec
    exact ⟨_, .wake hsome hq, hok', rfl, rfl, hle.update hq hread reader⟩

lemma RtlRefines.init {s : RtlSystem} (h : rtlLts.init s) :
    RtlRefines s ⟨[], fun _ => none⟩ := by
  obtain ⟨⟨memory, hsource⟩, hreads⟩ := h
  have hzero : s.source.readOffset = 0 ∧ s.source.writeOffset = 0 ∧
      s.source.bufferedBytes = 0 := by simp [hsource, rtlSourceStart, rtlSourceInit]
  refine ⟨⟨?_, ?_, ?_⟩, ?_, funext hreads, fun reader read hr => ?_⟩
  · rw [hzero.1]
    exact rtlSourceBufferBytes_pos
  · simp [hzero]
  · rw [hzero.2.2]
    exact Nat.zero_le _
  · simp [RtlSource.logical, hzero]
  · simp [hreads] at hr

/-! ### What readers get -/

/-- The status a read section ends with. -/
def RtlLabel.status : RtlLabel → Option RtlReadStatus
  | .enter _ _ status => some status
  | .wake _ status => some status
  | _ => none

/-- Every push and every read asks for whole I/Q pairs. -/
def RtlLabel.Even : RtlLabel → Prop
  | .push bytes => 2 ∣ bytes.length
  | .enter _ byteCount _ => 2 ∣ byteCount
  | _ => True

/-- `pair` is an I/Q pair of some push in `ls`: its two bytes from an even offset on. -/
def IqPairOf (ls : List RtlLabel) (pair : List UInt8) : Prop :=
  ∃ bytes i, .push bytes ∈ ls ∧ pair = (bytes.drop (2 * i)).take 2

/-- `bytes` is a sequence of whole I/Q pairs that were pushed in `ls`. -/
abbrev WholePairs (ls : List RtlLabel) (bytes : List UInt8) : Prop :=
  Ring.Framed (IqPairOf ls) 2 bytes

/-- A read that returned 0 has what it asked for. -/
def RtlLabel.Full (l : RtlLabel) : Prop :=
  ∀ read, l.status = some (.returned 0 read) → read.copied.length = read.byteCount

lemma QueueRead.full {q q' : List UInt8} {read read' : PendingRead}
    (h : QueueRead q read q' (.returned 0 read')) (hread : read.copied.length ≤ read.byteCount) :
    read'.copied.length = read'.byteCount := by
  cases h with
  | complete hle =>
    simp only [List.length_append, List.length_take]
    omega

/-- Readers under way have not been served in full, and finished ones have. -/
lemma byteQueue_full {q q' : ByteQueue} {l : RtlLabel} (hreads : ReadsOk q.reads)
    (hstep : byteQueueLts.step q l q') : ReadsOk q'.reads ∧ l.Full := by
  cases hstep with
  | @enter reader byteCount bytes status hnone hq =>
    refine ⟨hreads.update hq (Nat.zero_le _) reader, fun read' h => ?_⟩
    obtain rfl : status = _ := Option.some.inj h
    exact hq.full (Nat.zero_le _)
  | @wake reader read bytes status hsome hq =>
    refine ⟨hreads.update hq (hreads reader read hsome) reader, fun read' h => ?_⟩
    obtain rfl : status = _ := Option.some.inj h
    exact hq.full (hreads reader read hsome)
  | push => exact ⟨hreads, fun _ h => by simp [RtlLabel.status] at h⟩
  | flush => exact ⟨hreads, fun _ h => by simp [RtlLabel.status] at h⟩
  | setRunning => exact ⟨hreads, fun _ h => by simp [RtlLabel.status] at h⟩
  | setStarted => exact ⟨hreads, fun _ h => by simp [RtlLabel.status] at h⟩
  | threadExit => exact ⟨hreads, fun _ h => by simp [RtlLabel.status] at h⟩

/-- A section of a read that is for whole pairs, on a queue of whole pairs, takes whole pairs. -/
lemma QueueRead.wholePairs {ls : List RtlLabel} {q q' : List UInt8} {read : PendingRead}
    {status : RtlReadStatus} (h : QueueRead q read q' status) (hq : WholePairs ls q)
    (hread : WholePairs ls read.copied) (heven : 2 ∣ read.byteCount) :
    WholePairs ls q' ∧ ∀ read', status.pending = some read' ∨
      (∃ code, status = .returned code read') →
      WholePairs ls read'.copied ∧ 2 ∣ read'.byteCount := by
  cases h with
  | complete hle =>
    obtain ⟨htake, hdrop⟩ := hq.take_drop (Nat.dvd_sub heven hread.dvd_length)
    refine ⟨hdrop, fun read' hr => ?_⟩
    obtain rfl : read' = _ := by simpa [RtlReadStatus.pending, eq_comm] using hr
    exact ⟨hread.append htake, heven⟩
  | wait hlt =>
    refine ⟨.nil, fun read' hr => ?_⟩
    obtain rfl : read' = _ := by simpa [RtlReadStatus.pending, eq_comm] using hr
    exact ⟨hread.append hq, heven⟩
  | fail hlt =>
    refine ⟨.nil, fun read' hr => ?_⟩
    obtain rfl : read' = _ := by simpa [RtlReadStatus.pending, eq_comm] using hr
    exact ⟨hread.append hq, heven⟩

/-- A queue of whole pairs whose readers have, and want, whole pairs. -/
structure QueuePairs (ls : List RtlLabel) (q : ByteQueue) : Prop where
  bytes : WholePairs ls q.bytes
  reads : ∀ reader read, q.reads reader = some read →
    WholePairs ls read.copied ∧ 2 ∣ read.byteCount

lemma QueuePairs.read {ls : List RtlLabel} {q : ByteQueue} (h : QueuePairs ls q)
    {read : PendingRead} {bytes : List UInt8} {status : RtlReadStatus}
    (hq : QueueRead q.bytes read bytes status) (hread : WholePairs ls read.copied)
    (heven : 2 ∣ read.byteCount) (reader : ℕ) :
    QueuePairs ls ⟨bytes, Function.update q.reads reader status.pending⟩ ∧
      ∀ read', status = .returned 0 read' → WholePairs ls read'.copied := by
  obtain ⟨hbytes, hpairs⟩ := hq.wholePairs h.bytes hread heven
  refine ⟨⟨hbytes, fun reader' read' hr => ?_⟩, fun read' hr => (hpairs read' (.inr ⟨0, hr⟩)).1⟩
  simp only at hr
  by_cases heq : reader' = reader
  · subst heq
    rw [Function.update_self] at hr
    exact hpairs read' (.inl hr)
  · rw [Function.update_of_ne heq] at hr
    exact h.reads reader' read' hr

/-- Even pushes and reads keep the queue and all its readers in whole pairs. -/
lemma QueuePairs.step {ls : List RtlLabel} {q q' : ByteQueue} {l : RtlLabel}
    (h : QueuePairs ls q) (hl : l ∈ ls ∧ l.Even) (hstep : byteQueueLts.step q l q') :
    QueuePairs ls q' ∧
      ∀ read, l.status = some (.returned 0 read) → WholePairs ls read.copied := by
  obtain ⟨hmem, heven⟩ := hl
  cases hstep with
  | push bytes =>
    have hnew : WholePairs ls bytes := (Ring.Framed.of_dvd heven).mono fun f hf => by
      obtain ⟨i, rfl⟩ := hf
      exact ⟨bytes, i, hmem, rfl⟩
    exact ⟨⟨h.bytes.push hnew two_dvd_rtlSourceBufferBytes, h.reads⟩,
      fun _ hs => by simp [RtlLabel.status] at hs⟩
  | flush => exact ⟨⟨.nil, h.reads⟩, fun _ hs => by simp [RtlLabel.status] at hs⟩
  | setRunning => exact ⟨h, fun _ hs => by simp [RtlLabel.status] at hs⟩
  | setStarted => exact ⟨h, fun _ hs => by simp [RtlLabel.status] at hs⟩
  | threadExit => exact ⟨h, fun _ hs => by simp [RtlLabel.status] at hs⟩
  | @enter reader byteCount bytes status hnone hq =>
    obtain ⟨hpairs, hret⟩ := h.read hq .nil heven reader
    exact ⟨hpairs, fun read hs => hret read (Option.some.inj hs)⟩
  | @wake reader read bytes status hsome hq =>
    obtain ⟨hread, heven⟩ := h.reads reader read hsome
    obtain ⟨hpairs, hret⟩ := h.read hq hread heven reader
    exact ⟨hpairs, fun read' hs => hret read' (Option.some.inj hs)⟩

/-! ### The refinement -/

/-- Over every interleaving the ring is a run of the bounded queue with the same labels: pushes keep
the last bytes, tuning empties, reads take from the front. Its offsets stay consistent and nothing
underflows, a read that returned 0 is full, and with even lengths it holds whole I/Q pairs. -/
theorem rtlSource_refines_byteQueue {s₀ s : RtlSystem} {ls : List RtlLabel}
    (hinit : rtlLts.init s₀) (hrun : rtlLts.Run s₀ ls s) :
    (∃ q, byteQueueLts.Run ⟨[], fun _ => none⟩ ls q ∧ s.source.logical = q.bytes ∧
      s.reads = q.reads) ∧
    s.source.writeOffset =
      (s.source.readOffset + s.source.bufferedBytes) % rtlSourceBufferBytes ∧
    s.source.bufferedBytes ≤ rtlSourceBufferBytes ∧
    (∀ bytes, (rtlSourcePushBytes s.source bytes).isSome) ∧
    (∀ byteCount, (rtlSourceReadSection s.source ⟨byteCount, []⟩).isSome) ∧
    (∀ reader read, s.reads reader = some read → (rtlSourceReadSection s.source read).isSome) ∧
    (∀ l ∈ ls, l.Full) ∧
    ((∀ l ∈ ls, l.Even) →
      ∀ l ∈ ls, ∀ read, l.status = some (.returned 0 read) → WholePairs ls read.copied) := by
  obtain ⟨q, hq, href⟩ := hrun.simulate_lockstep (R := RtlRefines)
    (fun _ _ _ _ hR hstep => hR.step hstep) (RtlRefines.init hinit)
  refine ⟨⟨q, hq, href.bytes, href.reads⟩, href.ok.write_eq, href.ok.buffered_le, ?_, ?_, ?_, ?_,
    ?_⟩
  · intro bytes
    obtain ⟨source, hpush, -⟩ := rtlSourcePushBytes_spec href.ok bytes
    simp [hpush]
  · intro byteCount
    obtain ⟨source, status, hsec, -⟩ :=
      rtlSourceReadSection_spec href.ok ⟨byteCount, []⟩ (Nat.zero_le _)
    simp [hsec]
  · intro reader read hr
    obtain ⟨source, status, hsec, -⟩ :=
      rtlSourceReadSection_spec href.ok read (href.reads_ok reader read hr)
    simp [hsec]
  · exact (hq.guarantee (I := fun q => ReadsOk q.reads) (A := fun _ => True)
      (fun _ _ _ hI _ hstep => byteQueue_full hI hstep) (fun _ _ h => by simp at h)
      (fun _ _ => trivial)).2
  · intro heven
    refine (hq.guarantee (I := QueuePairs ls) (A := fun l => l ∈ ls ∧ l.Even)
      (fun _ _ _ hI hl hstep => hI.step hl hstep) ⟨.nil, fun _ _ h => by simp at h⟩
      (fun l hl => ⟨hl, heven l hl⟩)).2

/-- The device is tuned, four bytes are pushed, and two of them read. -/
theorem rtlSource_refines_byteQueue_tune_push_read :
    ∃ ls s, rtlLts.Run ⟨(rtlSourceStart rtlSourceInit true fun _ => 0).1, fun _ => none⟩
        (ls ++ [.push [1, 2, 3, 4], .enter 0 2 (.returned 0 ⟨2, [1, 2]⟩)]) s ∧
      (∀ l ∈ ls, l.Tunes) ∧ s.source.bufferedBytes ≤ rtlSourceBufferBytes ∧
      WholePairs (ls ++ [.push [1, 2, 3, 4], .enter 0 2 (.returned 0 ⟨2, [1, 2]⟩)]) [1, 2] := by
  obtain ⟨start, hstart⟩ : ∃ start, start = (rtlSourceStart rtlSourceInit true fun _ => 0).1 :=
    ⟨_, rfl⟩
  have hinit : rtlLts.init ⟨start, fun _ => none⟩ := ⟨⟨fun _ => 0, hstart⟩, fun _ => rfl⟩
  obtain ⟨ls, htune, hls⟩ :=
    rtlSourceTune_run ⟨start, fun _ => none⟩ 100000000 ⟨true, true, true⟩
  obtain ⟨q, -, href⟩ := htune.simulate_lockstep (R := RtlRefines)
    (fun _ _ _ _ hR hstep => hR.step hstep) (RtlRefines.init hinit)
  have hempty : (rtlSourceTune start 100000000 ⟨true, true, true⟩).1.logical = [] := by
    rw [← List.length_eq_zero_iff, RtlSource.logical_length, hstart]
    rfl
  obtain ⟨source₁, hpush, hok₁, hlog₁⟩ := rtlSourcePushBytes_spec href.ok [1, 2, 3, 4]
  have hbytes : source₁.logical = [1, 2, 3, 4] := by
    rw [hlog₁, hempty, Ring.push_of_lt (by unfold rtlSourceBufferBytes; decide)]
    simp
  obtain ⟨source₂, status, hsec, hok₂, hq⟩ :=
    rtlSourceReadSection_spec hok₁ ⟨2, []⟩ (Nat.zero_le _)
  rw [hbytes] at hq
  generalize source₂.logical = rest at hq
  obtain rfl : status = .returned 0 ⟨2, [1, 2]⟩ := by
    cases hq with
    | complete => rfl
    | wait hlt => exact absurd hlt (by decide)
    | fail hlt => exact absurd hlt (by decide)
  have hrun : rtlLts.Run ⟨start, fun _ => none⟩
      (ls ++ [.push [1, 2, 3, 4], .enter 0 2 (.returned 0 ⟨2, [1, 2]⟩)]) _ :=
    htune.append (.cons (.push hpush) (.cons (.enter rfl hsec) (.nil _)))
  obtain ⟨-, -, hle, -, -, -, -, hpairs⟩ := rtlSource_refines_byteQueue hinit hrun
  refine ⟨ls, _, hstart ▸ hrun, hls, hle, hpairs (fun l hl => ?_)
    (.enter 0 2 (.returned 0 ⟨2, [1, 2]⟩)) (by simp) _ rfl⟩
  rcases List.mem_append.mp hl with hl | hl
  · have htunes := hls l hl
    cases l <;> trivial
  · rcases List.mem_pair.mp hl with rfl | rfl <;> simp [RtlLabel.Even]

end Mpxcast
