import Mpxcast.Core.CStream
import Mpxcast.Core.Loop
import Mpxcast.Input.RtlSource

/-!
# Replaying an IQ file

The file branch of `rtl_source_read`, with the stream that `rtl_source_start_file` opened. Calls of
any sizes deliver the endless repetition of the file; the end of the file can fall within a call,
several times within a call, or between two calls.
-/

namespace Mpxcast

open CMemory
open Stream' (cycle drop_drop length_take take_add)

/-- What the external calls of one round of the file loop meet: `fread` a device that fails after
some bytes, `fseek` an error. -/
structure RtlFileEnv where
  readFault : Option ℕ
  seekFails : Bool

def RtlFileEnv.succeeds : RtlFileEnv := ⟨none, false⟩

/-- A call of `rtl_source_read`, and what its rounds meet. -/
structure RtlFileCall where
  byteCount : ℕ
  env : ℕ → RtlFileEnv

/-- A call of which no round meets a failure. -/
def RtlFileCall.succeeding (byteCount : ℕ) : RtlFileCall := ⟨byteCount, fun _ => .succeeds⟩

@[simp] lemma RtlFileCall.succeeding_env (byteCount round : ℕ) :
    (RtlFileCall.succeeding byteCount).env round = .succeeds := rfl

/-- A call of `rtl_source_read` on a file under way; `returned` is the code of an early return. -/
structure RtlFileRead where
  stream : CStream UInt8
  copied : List UInt8
  round : ℕ
  returned : Option Int

def streamMore (call : RtlFileCall) : RtlFileRead → Bool := fun read =>
  read.returned.isNone && read.copied.length < call.byteCount

/-- One round of the file loop of `rtl_source_read`. -/
def streamRound (call : RtlFileCall) : RtlFileRead → Option RtlFileRead := fun read => do
  let env := call.env read.round
  let missing ← usub call.byteCount read.copied.length
  let (got, stream) := read.stream.fread env.readFault missing
  let copied := read.copied ++ got
  if copied.length = call.byteCount then some ⟨stream, copied, read.round + 1, some 0⟩
  else if stream.error then some ⟨stream, copied, read.round + 1, some (-1)⟩
  else
    let (stream, code) := stream.clearerr.fseekStart env.seekFails
    some ⟨stream, copied, read.round + 1, if code ≠ 0 then some (-1) else none⟩

/-- `rtl_source_read` when `file_input` is set, with the stream behind `source->file`. -/
def rtlSourceReadStream (stream : CStream UInt8) (call : RtlFileCall) :
    Option (CStream UInt8 × Int × List UInt8) := do
  let read ← Loop.run (streamMore call) (streamRound call) (call.byteCount + 1)
    ⟨stream, [], 0, none⟩
  some (read.stream, read.returned.getD 0, read.copied)

/-- The stream of a file that was just opened. -/
def RtlFile.stream (file : RtlFile) : CStream UInt8 :=
  ⟨file.contents, file.position, false, false⟩

/-! ### One round -/

section Rounds

variable {call : RtlFileCall} {read : RtlFileRead}

/-- What `fread` returns in the next round, and the stream it leaves. -/
abbrev RtlFileRead.fread (read : RtlFileRead) (call : RtlFileCall) : List UInt8 × CStream UInt8 :=
  read.stream.fread (call.env read.round).readFault (call.byteCount - read.copied.length)

lemma RtlFileRead.fread_length_le (read : RtlFileRead) (call : RtlFileCall) :
    (read.fread call).1.length ≤ call.byteCount - read.copied.length :=
  read.stream.fread_length_le _ _

lemma streamMore_eq_true (hmore : streamMore call read = true) :
    read.returned = none ∧ read.copied.length < call.byteCount := by
  simpa [streamMore] using hmore

lemma streamRound_full (hlt : read.copied.length < call.byteCount)
    (hfull : (read.fread call).1.length = call.byteCount - read.copied.length) :
    streamRound call read
      = some ⟨(read.fread call).2, read.copied ++ (read.fread call).1, read.round + 1, some 0⟩ := by
  have hcopied : (read.copied ++ (read.fread call).1).length = call.byteCount := by
    rw [List.length_append, hfull]
    omega
  unfold streamRound
  rw [usub_of_le hlt.le]
  exact if_pos hcopied

lemma streamRound_short (hlt : read.copied.length < call.byteCount)
    (hshort : (read.fread call).1.length < call.byteCount - read.copied.length) :
    streamRound call read
      = if (read.fread call).2.error then
          some ⟨(read.fread call).2, read.copied ++ (read.fread call).1, read.round + 1, some (-1)⟩
        else
          some ⟨((read.fread call).2.clearerr.fseekStart (call.env read.round).seekFails).1,
            read.copied ++ (read.fread call).1, read.round + 1,
            if (call.env read.round).seekFails then some (-1) else none⟩ := by
  have hcopied : (read.copied ++ (read.fread call).1).length ≠ call.byteCount := by
    rw [List.length_append]
    omega
  unfold streamRound
  rw [usub_of_le hlt.le]
  refine (if_neg hcopied).trans ?_
  cases (call.env read.round).seekFails <;> rfl

end Rounds

/-! ### Every call returns -/

/-- At most that many rounds are left: each of them copies a byte, but for one at the end of the
file. -/
def RtlFileRead.roundsLeft (byteCount : ℕ) (read : RtlFileRead) : ℕ :=
  if read.returned.isSome then 0
  else byteCount - read.copied.length + if read.stream.eof || read.stream.rest.isEmpty then 1 else 0

/-- A call that has failed came short, and one that has returned early did not. -/
structure RtlFileRead.Bounded (contents : List UInt8) (byteCount : ℕ) (read : RtlFileRead) :
    Prop where
  contents_eq : read.stream.contents = contents
  length_le : read.copied.length ≤ byteCount
  returned : ∀ code, read.returned = some code →
    code = 0 ∧ read.copied.length = byteCount ∨ code = -1 ∧ read.copied.length < byteCount

section Total

variable {contents : List UInt8} {call : RtlFileCall} {read : RtlFileRead}

/-- At the start of the file every round copies a byte. -/
lemma roundsLeft_rewind {stream : CStream UInt8} (hne : stream.contents ≠ []) {byteCount : ℕ}
    {copied : List UInt8} {round : ℕ} :
    RtlFileRead.roundsLeft byteCount ⟨(stream.clearerr.fseekStart false).1, copied, round, none⟩
      = byteCount - copied.length := by
  simp [RtlFileRead.roundsLeft, CStream.fseekStart, CStream.clearerr, CStream.rest, hne]

/-- A round that comes to the end of the file copies a byte, or there was nothing left to copy. -/
lemma sub_lt_roundsLeft (hnone : read.returned = none)
    (hlt : read.copied.length < call.byteCount)
    (hshort : (read.fread call).1.length < call.byteCount - read.copied.length)
    (herror : (read.fread call).2.error = false) :
    call.byteCount - (read.copied ++ (read.fread call).1).length
      < read.roundsLeft call.byteCount := by
  have hgot := CStream.fread_of_short hshort herror
  rw [RtlFileRead.roundsLeft, hnone, List.length_append, hgot]
  by_cases hend : read.stream.eof = true ∨ read.stream.rest = []
  · rcases hend with hend | hend <;> simp [hend]
  · obtain ⟨heof, hrest⟩ := not_or.mp hend
    have hpos : 0 < read.stream.rest.length := List.length_pos_iff.mpr hrest
    simp only [heof, Bool.false_eq_true, if_false, Option.isSome_none]
    omega

/-- A round makes progress, whatever it meets. -/
lemma streamRound_total (hne : contents ≠ []) (h : read.Bounded contents call.byteCount)
    (hmore : streamMore call read = true) :
    ∃ next, streamRound call read = some next ∧ next.Bounded contents call.byteCount ∧
      next.roundsLeft call.byteCount < read.roundsLeft call.byteCount := by
  obtain ⟨hnone, hlt⟩ := streamMore_eq_true hmore
  have hleft : 0 < read.roundsLeft call.byteCount := by
    rw [RtlFileRead.roundsLeft, hnone]
    exact Nat.add_pos_left (Nat.sub_pos_of_lt hlt) _
  have hcopied : ∀ (bytes : List UInt8), (read.copied ++ bytes).length
      = read.copied.length + bytes.length := fun _ => List.length_append
  rcases (read.fread_length_le call).eq_or_lt with hfull | hshort
  · have hbyteCount : (read.copied ++ (read.fread call).1).length = call.byteCount := by
      rw [hcopied, hfull]
      omega
    refine ⟨_, streamRound_full hlt hfull, ⟨h.contents_eq, hbyteCount.le, ?_⟩, hleft⟩
    rintro code ⟨⟩
    exact .inl ⟨rfl, hbyteCount⟩
  · have hbyteCount : (read.copied ++ (read.fread call).1).length < call.byteCount := by
      rw [hcopied]
      omega
    have hfailed : ∀ stream : CStream UInt8, stream.contents = contents →
        RtlFileRead.Bounded contents call.byteCount
          ⟨stream, read.copied ++ (read.fread call).1, read.round + 1, some (-1)⟩ := by
      refine fun stream hstream => ⟨hstream, hbyteCount.le, ?_⟩
      rintro code ⟨⟩
      exact .inr ⟨rfl, hbyteCount⟩
    rw [streamRound_short hlt hshort]
    cases herror : (read.fread call).2.error with
    | true => exact ⟨_, rfl, hfailed _ h.contents_eq, hleft⟩
    | false =>
      cases hseek : (call.env read.round).seekFails with
      | true => exact ⟨_, rfl, hfailed _ h.contents_eq, hleft⟩
      | false =>
        refine ⟨_, rfl, ⟨h.contents_eq, hbyteCount.le, by simp⟩, ?_⟩
        refine (roundsLeft_rewind (by rwa [CStream.fread_contents, h.contents_eq])).trans_lt ?_
        exact sub_lt_roundsLeft hnone hlt hshort herror

/-- A call on a file that is not empty returns, whatever its rounds meet: with all the bytes, or
with an error and less. -/
theorem rtlSourceReadStream_total {stream : CStream UInt8} (hne : stream.contents ≠ [])
    (call : RtlFileCall) :
    ∃ next code buffer, rtlSourceReadStream stream call = some (next, code, buffer) ∧
      (code = 0 ∧ buffer.length = call.byteCount ∨
        code = -1 ∧ buffer.length < call.byteCount) := by
  have hstart : RtlFileRead.Bounded stream.contents call.byteCount ⟨stream, [], 0, none⟩ :=
    ⟨rfl, Nat.zero_le _, by simp⟩
  have hfuel : RtlFileRead.roundsLeft call.byteCount ⟨stream, [], 0, none⟩
      ≤ call.byteCount + 1 := by
    rw [RtlFileRead.roundsLeft]
    split_ifs <;> simp
  obtain ⟨read, hrun, hread, hexit⟩ := Loop.run_total (streamMore call) (streamRound call) _ _
    (fun _ => streamRound_total hne) _ hstart hfuel
  have hcall : rtlSourceReadStream stream call
      = some (read.stream, read.returned.getD 0, read.copied) := by
    rw [rtlSourceReadStream, hrun]
    rfl
  refine ⟨_, _, _, hcall, ?_⟩
  cases hreturned : read.returned with
  | some code => exact hread.returned code hreturned
  | none =>
    refine .inl ⟨rfl, hread.length_le.antisymm ?_⟩
    simpa [streamMore, hreturned] using hexit

end Total

/-! ### Endless replay -/

section Replay

variable {contents : List UInt8} {hne : contents ≠ []} {ahead : Stream' UInt8}
  {call : RtlFileCall} {read : RtlFileRead}

/-- The call has copied the start of `ahead`, and the stream will deliver the rest. -/
structure RtlFileRead.Replaying (hne : contents ≠ []) (ahead : Stream' UInt8) (read : RtlFileRead) :
    Prop where
  stream : CStream.Replays hne read.stream (ahead.drop read.copied.length)
  copied : read.copied = ahead.take read.copied.length
  returned : read.returned ≠ some (-1)

/-- What comes next in the stream is appended to what was copied. -/
lemma RtlFileRead.Replaying.append (h : read.Replaying hne ahead) {bytes : List UInt8} {n : ℕ}
    (hbytes : bytes = (ahead.drop read.copied.length).take n) :
    (read.copied ++ bytes).length = read.copied.length + n ∧
      read.copied ++ bytes = ahead.take (read.copied.length + n) := by
  rw [take_add, ← hbytes, ← h.copied, List.length_append, hbytes, length_take]
  exact ⟨rfl, rfl⟩

lemma streamRound_replays (hok : ∀ round, call.env round = .succeeds)
    (h : read.Replaying hne ahead) (hmore : streamMore call read = true) {next : RtlFileRead}
    (hnext : streamRound call read = some next) : next.Replaying hne ahead := by
  obtain ⟨hnone, hlt⟩ := streamMore_eq_true hmore
  have hfread : read.fread call = read.stream.fread none (call.byteCount - read.copied.length) := by
    rw [RtlFileRead.fread, hok]
    rfl
  by_cases hrest : call.byteCount - read.copied.length ≤ read.stream.rest.length
  · obtain ⟨hgot, hstream⟩ := h.stream.fread_of_le hrest
    rw [← hfread] at hgot hstream
    obtain ⟨hlength, hcopied⟩ := h.append hgot
    rw [streamRound_full hlt (by rw [hgot, length_take]), Option.some.injEq] at hnext
    subst hnext
    refine ⟨?_, by rw [hlength, hcopied], by simp⟩
    rwa [hlength, ← drop_drop]
  · obtain ⟨hgot, herror, hstream⟩ := h.stream.fread_of_lt (not_le.mp hrest)
    rw [← hfread] at hgot herror hstream
    obtain ⟨hlength, hcopied⟩ := h.append hgot
    have hshort : (read.fread call).1.length < call.byteCount - read.copied.length := by
      rw [hgot, length_take]
      exact not_le.mp hrest
    rw [streamRound_short hlt hshort, herror, hok] at hnext
    obtain rfl := Option.some.inj hnext
    refine ⟨?_, by rw [hlength, hcopied], by simp [RtlFileEnv.succeeds]⟩
    rwa [hlength, ← drop_drop]

/-- A call delivers what the stream has ahead, and leaves the stream behind it. -/
theorem rtlSourceReadStream_replays {stream : CStream UInt8}
    (hok : ∀ round, call.env round = .succeeds) (h : CStream.Replays hne stream ahead) :
    ∃ next, rtlSourceReadStream stream call = some (next, 0, ahead.take call.byteCount) ∧
      CStream.Replays hne next (ahead.drop call.byteCount) := by
  have hstart : RtlFileRead.Replaying hne ahead ⟨stream, [], 0, none⟩ := ⟨h, rfl, by simp⟩
  obtain ⟨next, code, buffer, hcall, hresult⟩ :=
    rtlSourceReadStream_total (h.contents_eq ▸ hne) call
  have hrun := hcall
  rw [rtlSourceReadStream, Option.bind_eq_bind, Option.bind_eq_some_iff] at hrun
  obtain ⟨read, hrun, hread⟩ := hrun
  obtain ⟨rfl, rfl, rfl⟩ : read.stream = next ∧ read.returned.getD 0 = code ∧
      read.copied = buffer := by
    simpa using hread
  obtain ⟨hreplaying, -⟩ := Loop.run_invariant (RtlFileRead.Replaying hne ahead)
    (fun _ _ hread hmore hnext => streamRound_replays hok hread hmore hnext) _ hstart hrun
  have hcode : read.returned.getD 0 ≠ -1 := by
    cases hreturned : read.returned with
    | none => simp
    | some code => simpa [hreturned] using hreplaying.returned
  rcases hresult with ⟨hzero, hlength⟩ | ⟨hfail, -⟩
  · have hstream := hreplaying.stream
    have hcopied := hreplaying.copied
    rw [hlength] at hstream hcopied
    exact ⟨read.stream, by rw [hcall, hzero, hcopied], hstream⟩
  · exact absurd hfail hcode

end Replay

/-! ### The stream without its indicators -/

/-- The position and the bytes that a call has copied. -/
def RtlFileRead.pending (byteCount : ℕ) (read : RtlFileRead) : RtlFile × PendingRead :=
  (⟨read.stream.contents, read.stream.position⟩, ⟨byteCount, read.copied⟩)

/-- Between two rounds no indicator is set. -/
structure RtlFileRead.Clear (byteCount : ℕ) (read : RtlFileRead) : Prop where
  eof : read.stream.eof = false
  error : read.stream.error = false
  returned : read.returned = none ∨ read.returned = some 0 ∧ read.copied.length = byteCount

lemma fileMore_pending {byteCount : ℕ} {read : RtlFileRead} (h : read.Clear byteCount) :
    fileMore (read.pending byteCount) = streamMore (.succeeding byteCount) read := by
  rcases h.returned with hnone | ⟨hzero, hlength⟩
  · rw [streamMore, hnone]
    rfl
  · simp [fileMore, streamMore, RtlFileRead.pending, hzero, hlength]

lemma fileRound_pending {byteCount : ℕ} {read : RtlFileRead} (h : read.Clear byteCount)
    (hmore : streamMore (.succeeding byteCount) read = true) :
    fileRound (read.pending byteCount)
        = (streamRound (.succeeding byteCount) read).map (RtlFileRead.pending byteCount) ∧
      ∀ next, streamRound (.succeeding byteCount) read = some next → next.Clear byteCount := by
  obtain ⟨-, hlt⟩ := streamMore_eq_true hmore
  have hfread : read.fread (.succeeding byteCount) = _ :=
    CStream.fread_none h.eof (byteCount - read.copied.length)
  have hcopied : (read.copied ++ (read.fread (.succeeding byteCount)).1).length
      = read.copied.length + (read.fread (.succeeding byteCount)).1.length := List.length_append
  rcases (read.fread_length_le (.succeeding byteCount)).eq_or_lt with hfull | hshort
  · have hbyteCount : (read.copied ++ (read.fread (.succeeding byteCount)).1).length
        = byteCount := by
      rw [hcopied, hfull]
      exact Nat.add_sub_cancel' hlt.le
    rw [streamRound_full hlt hfull]
    rw [hfread] at hfull hbyteCount ⊢
    refine ⟨if_pos hbyteCount, ?_⟩
    rintro next ⟨⟩
    exact ⟨decide_eq_false hfull.not_lt, h.error, .inr ⟨rfl, hbyteCount⟩⟩
  · have hbyteCount : (read.copied ++ (read.fread (.succeeding byteCount)).1).length
        ≠ byteCount := by
      rw [hcopied]
      exact (Nat.add_lt_of_lt_sub' hshort).ne
    rw [streamRound_short hlt hshort]
    rw [hfread] at hbyteCount ⊢
    rw [if_neg (by simp [h.error])]
    refine ⟨if_neg hbyteCount, ?_⟩
    rintro next ⟨⟩
    exact ⟨rfl, rfl, .inl rfl⟩

/-- The model of the file branch that drops the indicators is right as long as no call fails. -/
theorem rtlSourceReadFile_eq (file : RtlFile) (byteCount : ℕ) :
    rtlSourceReadFile file byteCount
      = (rtlSourceReadStream file.stream (.succeeding byteCount)).map
        fun (stream, _, buffer) => (⟨stream.contents, stream.position⟩, buffer) := by
  have hrun : Loop.run fileMore fileRound (byteCount + 1)
        (RtlFileRead.pending byteCount ⟨file.stream, [], 0, none⟩)
      = (Loop.run (streamMore (.succeeding byteCount))
          (streamRound (.succeeding byteCount)) (byteCount + 1)
          ⟨file.stream, [], 0, none⟩).map (RtlFileRead.pending byteCount) :=
    Loop.run_map _ (RtlFileRead.Clear byteCount) (fun _ => fileMore_pending)
      (fun _ => fileRound_pending) _ ⟨rfl, rfl, .inl rfl⟩
  have hstart : RtlFileRead.pending byteCount ⟨file.stream, [], 0, none⟩
      = (file, ⟨byteCount, []⟩) := rfl
  rw [rtlSourceReadFile, ← hstart, hrun, rtlSourceReadStream, Option.bind_eq_bind,
    Option.bind_eq_bind, Option.bind_map, Option.map_bind]
  rfl

/-! ### Sequences of calls -/

/-- The place in the file where the buffer of the `k`-th call starts. -/
def rtlFileOffset (contents : List UInt8) (calls : List RtlFileCall) (k : ℕ) : ℕ :=
  ((calls.take k).map RtlFileCall.byteCount).sum % contents.length

/-- Buffers of even sizes start on an I sample. -/
lemma even_rtlFileOffset {contents : List UInt8} (heven : Even contents.length)
    {calls : List RtlFileCall} (hcalls : ∀ call ∈ calls, Even call.byteCount) (k : ℕ) :
    Even (rtlFileOffset contents calls k) := by
  have hsum : 2 ∣ ((calls.take k).map RtlFileCall.byteCount).sum := by
    refine List.dvd_sum fun n hn => ?_
    obtain ⟨call, hcall, rfl⟩ := List.mem_map.mp hn
    exact (hcalls call (List.mem_of_mem_take hcall)).two_dvd
  exact even_iff_two_dvd.mpr ((Nat.dvd_mod_iff heven.two_dvd).mpr hsum)

/-- Buffers without an error code are the pieces of what the stream has ahead. -/
lemma answers_eq_pieces (ahead : Stream' UInt8) (calls : List RtlFileCall) :
    Loop.answers (fun (ahead : Stream' UInt8) call => ((0 : Int), ahead.take call.byteCount))
        (fun ahead call => ahead.drop call.byteCount) ahead calls
      = (CStream.pieces ahead (calls.map RtlFileCall.byteCount)).map fun buffer => (0, buffer) := by
  induction calls generalizing ahead with
  | nil => rfl
  | cons call calls ih => rw [Loop.answers, ih, List.map_cons, CStream.pieces, List.map_cons]

/-- A file of non-zero even length is replayed without a gap: every call returns 0 with as many
bytes as it asked for, and together the buffers are the file, repeated. -/
theorem rtlSourceReadStream_cycles (source : RtlSource) {contents : List UInt8}
    (hne : contents ≠ []) (heven : Even contents.length) (calls : List RtlFileCall)
    (hok : ∀ call ∈ calls, ∀ round, call.env round = .succeeds) :
    ∃ (source' : RtlSource) (file : RtlFile) (stream : CStream UInt8) (buffers : List (List UInt8)),
      rtlSourceStartFile source (some contents) = (source', 0) ∧
      source'.fileInput = true ∧ source'.file = some file ∧
      Loop.calls rtlSourceReadStream file.stream calls
        = some (stream, buffers.map fun buffer => (0, buffer)) ∧
      buffers.map List.length = calls.map RtlFileCall.byteCount ∧
      buffers.flatten = (cycle contents hne).take (calls.map RtlFileCall.byteCount).sum ∧
      (∀ k call, calls[k]? = some call →
        buffers[k]? = some ((contents.drop (rtlFileOffset contents calls k) ++ₛ
          cycle contents hne).take call.byteCount)) ∧
      ((∀ call ∈ calls, Even call.byteCount) →
        ∀ k, Even (rtlFileOffset contents calls k)) := by
  have hcall : ∀ (stream : CStream UInt8) (ahead : Stream' UInt8) (call : RtlFileCall),
      CStream.Replays hne stream ahead → (∀ round, call.env round = .succeeds) →
      ∃ next, rtlSourceReadStream stream call = some (next, 0, ahead.take call.byteCount) ∧
        CStream.Replays hne next (ahead.drop call.byteCount) :=
    fun _ _ _ h hok => rtlSourceReadStream_replays hok h
  obtain ⟨stream, hcalls, -⟩ :=
    Loop.calls_refine _ _ hcall calls (CStream.replays_fopen hne) hok
  have hstart : rtlSourceStartFile source (some contents)
      = ({ source with file := some ⟨contents, 0⟩, fileInput := true }, 0) := by
    simp [rtlSourceStartFile, hne, Nat.even_iff.mp heven]
  refine ⟨_, _, stream, CStream.pieces (cycle contents hne) (calls.map RtlFileCall.byteCount),
    hstart, rfl, rfl, hcalls.trans ?_, CStream.length_pieces _ _, CStream.flatten_pieces _ _,
    fun k call hk => ?_, fun heach => even_rtlFileOffset heven heach⟩
  · rw [answers_eq_pieces]
  · rw [CStream.getElem?_pieces, List.getElem?_map, hk, Option.map_some, Option.map_some,
      ← List.map_take, CStream.drop_cycle]
    rfl

theorem rtlSourceReadStream_cycles_short_file :
    ∃ (source' : RtlSource) (file : RtlFile) (stream : CStream UInt8) (buffers : List (List UInt8)),
      rtlSourceStartFile rtlSourceInit (some [1, 2]) = (source', 0) ∧
      source'.fileInput = true ∧ source'.file = some file ∧
      Loop.calls rtlSourceReadStream file.stream
          [.succeeding 3, .succeeding 0, .succeeding 5]
        = some (stream, buffers.map fun buffer => (0, buffer)) ∧
      buffers.map List.length = [3, 0, 5] ∧
      buffers.flatten = [1, 2, 1, 2, 1, 2, 1, 2] := by
  obtain ⟨source', file, stream, buffers, hstart, hinput, hfile, hcalls, hlengths, hflatten, -⟩ :=
    rtlSourceReadStream_cycles rtlSourceInit (List.cons_ne_nil 1 [2]) (by decide)
      [.succeeding 3, .succeeding 0, .succeeding 5] (by simp)
  exact ⟨source', file, stream, buffers, hstart, hinput, hfile, hcalls, hlengths, hflatten⟩

end Mpxcast
