import Mpxcast.Core.Pacer
import Mpxcast.Stream.FanOut

/-!
# Production in real time

Every reader that has run out of chunks may start the clock of the session and produce, in sections
of the lock that interleave in any order. What counts is the clock: the session is a pacer, and a
step of the server leaves it alone, polls it, lets it produce a portion that is due, or begins a new
session with a fresh one.
-/

namespace Mpxcast

/-! ### The session as a pacer -/

def StreamSession.pacer (session : StreamSession) : Pacer ℚ where
  start := if session.streamClockStarted then some session.streamStartedAt else none
  count := session.audioFramesQueued

lemma StreamSession.pacer_start_eq {session : StreamSession} {start : ℚ} :
    session.pacer.start = some start
      ↔ session.streamClockStarted = true ∧ session.streamStartedAt = start := by
  unfold pacer
  cases session.streamClockStarted with
  | false => simp
  | true => simp

lemma streamSessionStartClock_pacer (session : StreamSession) (now : ℚ) :
    (streamSessionStartClock session now).pacer = session.pacer.poll now := by
  unfold streamSessionStartClock StreamSession.pacer Pacer.poll
  cases hstarted : session.streamClockStarted with
  | false => rfl
  | true => simp [hstarted]

lemma streamSessionNoteQueuedFrames_pacer (session : StreamSession) (frameCount : ℕ) :
    (streamSessionNoteQueuedFrames session frameCount).pacer
      = session.pacer.produce frameCount := rfl

/-- Without a delay, the next portion is due. -/
lemma streamSessionComputeAudioDelay_due (session : StreamSession) {startedAt now : ℚ}
    (h : streamSessionComputeAudioDelay (streamSessionStartClock session startedAt) now ≤ 0) :
    (session.pacer.poll startedAt).Due streamSessionSampleRate now := by
  rw [← streamSessionStartClock_pacer]
  refine ⟨(streamSessionStartClock session startedAt).streamStartedAt, ?_, ?_⟩
  · rw [StreamSession.pacer_start_eq]
    refine ⟨?_, rfl⟩
    unfold streamSessionStartClock
    cases hstarted : session.streamClockStarted with
    | false => rfl
    | true => exact hstarted
  · exact sub_nonpos.1 h

lemma streamSessionRefreshMetadata_pacer (session : StreamSession) :
    (streamSessionRefreshMetadata session).1.pacer = session.pacer := by
  unfold streamSessionRefreshMetadata
  split_ifs
  · rfl
  · dsimp only
    split_ifs <;> rfl

/-- A chunk always has the same number of frames, and filling it does not touch the clock. -/
lemma streamSessionFillPcmChunk_pacer (session : StreamSession) (live : LiveBlock) :
    (streamSessionFillPcmChunk session live).1.pacer = session.pacer ∧
      (streamSessionFillPcmChunk session live).2.1 = streamSessionMaxAudioFramesPerChunk := by
  have hrefresh := streamSessionRefreshMetadata_pacer
    { session with
      fmPipeline := fmPipelineProcessLiveBlock session.fmPipeline live
      pcmBuffer := live.samples }
  unfold streamSessionFillPcmChunk
  dsimp only
  split_ifs
  · exact ⟨hrefresh, rfl⟩
  · exact ⟨hrefresh, rfl⟩
  · exact ⟨rfl, rfl⟩

/-- A new session begins with a fresh pacer. -/
lemma streamSessionConfigure_pacer (request : StreamHttpRequest) :
    (streamSessionRefreshMetadata (streamSessionConfigure streamSessionInit request)).1.pacer
      = .idle := by
  rw [streamSessionRefreshMetadata_pacer]
  rfl

namespace Server

/-! ### What a step does to the pacer -/

/-- The four things that a step may do. -/
inductive Paces (s : Server) : ServerLabel → Server → Prop
  | kept {l : ServerLabel} {s' : Server} :
      s'.session.pacer = s.session.pacer → s'.activeSessionId = s.activeSessionId →
      (∀ id, chunksProduced id [l] = []) → Paces s l s'
  | polled {client : ClientId} {env : ReaderEnv} {outcome : ReaderOutcome} {s' : Server} :
      s'.session.pacer = s.session.pacer.poll env.startedAt →
      s'.activeSessionId = s.activeSessionId →
      (∀ id, chunksProduced id [.read client env outcome] = []) →
      Paces s (.read client env outcome) s'
  | produced {client : ClientId} {env : ReaderEnv} {chunk : PcmChunk} {s' : Server} :
      (s.session.pacer.poll env.startedAt).Due streamSessionSampleRate env.now →
      s'.session.pacer
        = (s.session.pacer.poll env.startedAt).produce streamSessionMaxAudioFramesPerChunk →
      s'.activeSessionId = s.activeSessionId →
      Paces s (.read client env (.produced s.activeSessionId chunk)) s'
  | replaced {client : ClientId} {env : RequestEnv} {s' : Server} :
      s'.session.pacer = .idle → s'.activeSessionId = s.activeSessionId + 1 →
      Paces s (.request env (.connected client)) s'

variable {s s' : Server}

lemma QueueOnly.pacer (h : s.QueueOnly s') : s'.session.pacer = s.session.pacer := by rw [h.session]

/-- Producing leaves the pacer alone, or adds the frames of one chunk to it. -/
lemma serverProduceChunk_pacer {env : ProduceEnv} {chunk : Option PcmChunk}
    (h : serverProduceChunk s env = some (s', chunk)) :
    s'.activeSessionId = s.activeSessionId ∧ s'.session.pacer = if chunk.isSome then
      s.session.pacer.produce streamSessionMaxAudioFramesPerChunk else s.session.pacer := by
  obtain ⟨⟨roomy, room⟩, hroom, hrest⟩ := Option.bind_eq_some_iff.mp h
  have hroomy := QueueOnly.makeChunkRoom hroom
  dsimp only at hrest
  split at hrest
  · obtain ⟨rfl, rfl⟩ := Prod.mk.inj (Option.some.inj hrest)
    exact ⟨hroomy.activeSessionId, hroomy.pacer⟩
  split at hrest
  · obtain ⟨rfl, rfl⟩ := Prod.mk.inj (Option.some.inj hrest)
    exact ⟨hroomy.activeSessionId, hroomy.pacer⟩
  obtain ⟨hfill, hcount⟩ := streamSessionFillPcmChunk_pacer roomy.session env.live
  rw [hroomy.pacer] at hfill
  generalize streamSessionFillPcmChunk roomy.session env.live = filled at hrest hfill hcount
  obtain ⟨session, frameCount, result⟩ := filled
  dsimp only at hrest hfill hcount
  split_ifs at hrest
  · obtain ⟨rfl, rfl⟩ := Prod.mk.inj (Option.some.inj hrest)
    exact ⟨hroomy.activeSessionId, hfill⟩
  · obtain ⟨linked, hlink, heq⟩ := Option.bind_eq_some_iff.mp hrest
    obtain ⟨rfl, rfl⟩ := Prod.mk.inj (Option.some.inj heq)
    have hlinked := QueueOnly.linkChunk hlink
    refine ⟨hlinked.activeSessionId.trans hroomy.activeSessionId, ?_⟩
    rw [streamSessionNoteQueuedFrames_pacer, hlinked.pacer, hfill, hcount]
    rfl

lemma paces_produce {client : ClientId} {env : ReaderEnv} {outcome : ReaderOutcome}
    (h : streamContentProduce s env = some (s', outcome)) :
    s.Paces (.read client env outcome) s' := by
  have hpoll := streamSessionStartClock_pacer s.session env.startedAt
  unfold streamContentProduce at h
  dsimp only at h
  split_ifs at h with hdelay
  · have hdue := streamSessionComputeAudioDelay_due s.session hdelay
    obtain ⟨⟨produced, chunk⟩, hproduce, hrest⟩ := Option.bind_eq_some_iff.mp h
    obtain ⟨hid, hpacer⟩ := serverProduceChunk_pacer hproduce
    rw [hpoll] at hpacer
    cases chunk with
    | none =>
      obtain ⟨rfl, rfl⟩ := Prod.mk.inj (Option.some.inj hrest)
      exact .polled hpacer hid fun id => rfl
    | some chunk =>
      obtain ⟨rfl, rfl⟩ := Prod.mk.inj (Option.some.inj hrest)
      rw [hid]
      exact .produced hdue hpacer hid
  · obtain ⟨rfl, rfl⟩ := Prod.mk.inj (Option.some.inj h)
    exact .polled hpoll rfl fun id => rfl

lemma chunksProduced_read {client : ClientId} {env : ReaderEnv} {outcome : ReaderOutcome}
    (h : ∀ sessionId chunk, outcome ≠ .produced sessionId chunk) (id : ℕ) :
    chunksProduced id [.read client env outcome] = [] := by
  cases outcome with
  | produced sessionId chunk => exact absurd rfl (h sessionId chunk)
  | _ => rfl

lemma paces_read {client : ClientId} {stream : ClientStream} {env : ReaderEnv}
    {outcome : ReaderOutcome} (h : streamContentReader s client stream env = some (s', outcome)) :
    s.Paces (.read client env outcome) s' := by
  unfold streamContentReader at h
  split_ifs at h
  · obtain ⟨hqueue, hnone⟩ := QueueOnly.prelude (Option.some.inj h)
    exact .kept hqueue.pacer hqueue.activeSessionId (chunksProduced_read hnone)
  · obtain ⟨rfl, rfl⟩ := Prod.mk.inj (Option.some.inj h)
    exact .kept rfl rfl fun id => rfl
  split at h
  · obtain ⟨hqueue, hnone⟩ := QueueOnly.pack h
    exact .kept hqueue.pacer hqueue.activeSessionId (chunksProduced_read hnone)
  · exact paces_produce h

lemma paces_request {env : RequestEnv} {outcome : RequestOutcome}
    (h : handleRequest s env = some (s', outcome)) : s.Paces (.request env outcome) s' := by
  rcases handleRequest_cases h with ⟨rfl, -⟩ | ⟨client, request, -, rfl⟩ |
    ⟨client, request, replaced, rfl, rfl, hreplace⟩ | ⟨request, reason, -, hreplace⟩
  · exact .kept rfl rfl fun id => rfl
  · exact .kept rfl rfl fun id => rfl
  · rcases serverReplaceSession_cases hreplace with ⟨hsome, -⟩ | ⟨-, -, hid, hsession⟩
    · exact nomatch hsome
    · refine .replaced ?_ hid
      exact (congrArg StreamSession.pacer hsession).trans (streamSessionConfigure_pacer request)
  · rcases serverReplaceSession_cases hreplace with ⟨-, hsame, -⟩ | ⟨hnone, -⟩
    · rw [hsame]
      exact .kept rfl rfl fun id => rfl
    · exact nomatch hnone

lemma paces_free {client : ClientId} (h : streamContentFree s client = some s') :
    s.Paces (.free client) s' := by
  have herase : s.QueueOnly { s with clients := s.clients.erase client } := ⟨rfl, rfl, rfl, rfl⟩
  unfold streamContentFree at h
  dsimp only at h
  split_ifs at h
  · obtain ⟨cleared, hclear, heq⟩ := Option.bind_eq_some_iff.mp h
    obtain rfl := Option.some.inj heq
    have hcleared := herase.trans (QueueOnly.clear hclear)
    exact .kept hcleared.pacer hcleared.activeSessionId fun id => rfl
  · have hpruned := herase.trans (QueueOnly.prune h)
    exact .kept hpruned.pacer hpruned.activeSessionId fun id => rfl

lemma paces_of_step {l : ServerLabel} (h : ServerStep s l s') : s.Paces l s' := by
  cases h with
  | request _ hrequest => exact paces_request hrequest
  | read _ _ hread => exact paces_read hread
  | free _ hfree => exact paces_free hfree
  | source _ => exact .kept rfl rfl fun id => rfl

/-! ### Sessions along a run -/

/-- What becomes of the session: as long as it is the same, its clock is not set again. The frames
of the last session are those of the chunks produced for it. -/
structure Continues (s : Server) (ls : List ServerLabel) (s' : Server) : Prop where
  id_le : s.activeSessionId ≤ s'.activeSessionId
  none_ahead : ∀ id, s'.activeSessionId < id → chunksProduced id ls = []
  start_eq : s'.activeSessionId = s.activeSessionId → ∀ start,
    s.session.pacer.start = some start → s'.session.pacer.start = some start
  count_eq : s'.session.pacer.count
    = (if s'.activeSessionId = s.activeSessionId then s.session.pacer.count else 0)
      + streamSessionMaxAudioFramesPerChunk * (chunksProduced s'.activeSessionId ls).length

lemma Continues.refl (s : Server) : s.Continues [] s where
  id_le := le_rfl
  none_ahead _ _ := rfl
  start_eq _ _ h := h
  count_eq := by
    rw [if_pos rfl]
    rfl

lemma Paces.continues {l : ServerLabel} (h : s.Paces l s') : s.Continues [l] s' := by
  cases h with
  | kept hpacer hid hnone =>
    refine ⟨hid.ge, fun id _ => hnone id, fun _ start hstart => hpacer.symm ▸ hstart, ?_⟩
    rw [if_pos hid, hpacer, hnone]
    rfl
  | polled hpacer hid hnone =>
    refine ⟨hid.ge, fun id _ => hnone id, fun _ start hstart => ?_, ?_⟩
    · rw [hpacer, Pacer.poll_of_start hstart, hstart]
    · rw [if_pos hid, hpacer, hnone]
      rfl
  | produced hdue hpacer hid =>
    refine ⟨hid.ge, fun id hlt => ?_, fun _ start hstart => ?_, ?_⟩
    · rw [chunksProduced_produced, if_neg (hid ▸ hlt).ne]
    · rw [hpacer, Pacer.produce, Pacer.poll_of_start hstart, hstart]
    · rw [if_pos hid, hpacer, chunksProduced_produced, if_pos hid.symm]
      rfl
  | replaced hpacer hid =>
    have hne : s'.activeSessionId ≠ s.activeSessionId := by omega
    refine ⟨by omega, fun id _ => rfl, fun heq => absurd heq hne, ?_⟩
    rw [if_neg hne, hpacer]
    rfl

lemma Continues.trans {t : Server} {ls ls' : List ServerLabel} (h : s.Continues ls t)
    (h' : t.Continues ls' s') : s.Continues (ls ++ ls') s' where
  id_le := h.id_le.trans h'.id_le
  none_ahead id hlt := by
    rw [chunksProduced_append, h.none_ahead id (h'.id_le.trans_lt hlt), h'.none_ahead id hlt]
    rfl
  start_eq heq start hstart := by
    have hid := h.id_le
    have hid' := h'.id_le
    exact h'.start_eq (by omega) start (h.start_eq (by omega) start hstart)
  count_eq := by
    have hid := h.id_le
    have hid' := h'.id_le
    rw [chunksProduced_append, List.length_append, Nat.mul_add, h'.count_eq]
    by_cases hlast : s'.activeSessionId = t.activeSessionId
    · rw [if_pos hlast, h.count_eq, hlast, Nat.add_assoc]
    · rw [if_neg hlast, h.none_ahead _ (by omega), if_neg (by omega), List.length_nil,
        Nat.mul_zero, Nat.zero_add, Nat.zero_add]

lemma continues_of_run {ls : List ServerLabel} (h : serverLts.Run s ls s') :
    s.Continues ls s' := by
  induction h with
  | nil s => exact .refl s
  | cons hstep _ ih => exact (paces_of_step hstep).continues.trans ih

end Server

/-! ### Runs in time -/

/-- The two readings of the clock come one after the other, not before the step begins and not after
it ends. A read that does not look at the clock is given any two times in between. -/
def ServerLabel.Within (before after : ℚ) : ServerLabel → Prop
  | .read _ env _ => before ≤ env.startedAt ∧ env.startedAt ≤ env.now ∧ env.now ≤ after
  | _ => before ≤ after

/-- The server with a clock that never goes back. -/
def timedServerLts : Lts (Server × ℚ) ServerLabel where
  init s := serverLts.init s.1
  step s l s' := ServerStep s.1 l s'.1 ∧ l.Within s.2 s'.2

lemma ServerLabel.Within.le {before after : ℚ} {l : ServerLabel} (h : l.Within before after) :
    before ≤ after := by
  cases l with
  | read client env outcome => exact h.1.trans (h.2.1.trans h.2.2)
  | _ => exact h

lemma serverRun_of_timed {s s' : Server × ℚ} {ls : List ServerLabel}
    (h : timedServerLts.Run s ls s') : serverLts.Run s.1 ls s'.1 := by
  induction h with
  | nil s => exact .nil s.1
  | cons hstep _ ih => exact .cons hstep.1 ih

/-- The pacer of the session is on time. -/
def Server.OnTime (s : Server × ℚ) : Prop :=
  s.1.session.pacer.Paced streamSessionSampleRate streamSessionMaxAudioFramesPerChunk s.2

lemma Server.OnTime.step {s s' : Server × ℚ} {l : ServerLabel} (hs : OnTime s)
    (h : timedServerLts.step s l s') : OnTime s' := by
  obtain ⟨hstep, hwithin⟩ := h
  have hrate : (0 : ℚ) < streamSessionSampleRate := by norm_num [streamSessionSampleRate]
  unfold OnTime at hs ⊢
  cases paces_of_step hstep with
  | kept hpacer =>
    rw [hpacer]
    exact hs.later hrate.le hwithin.le
  | polled hpacer =>
    obtain ⟨hbegin, horder, hend⟩ := hwithin
    rw [hpacer]
    exact (hs.later hrate.le hbegin).poll.later hrate.le (horder.trans hend)
  | produced hdue hpacer =>
    obtain ⟨hbegin, horder, hend⟩ := hwithin
    have hpolled := (hs.later hrate.le hbegin).poll.later hrate.le horder
    rw [hpacer]
    exact (hpolled.produce hrate hdue).later hrate.le hend
  | replaced hpacer =>
    rw [hpacer]
    exact Pacer.paced_idle _ _ _

lemma Server.onTime_of_run {s₀ : Server} {clock₀ : ℚ} {s : Server × ℚ} {ls : List ServerLabel}
    (hinit : serverLts.init s₀) (hrun : timedServerLts.Run (s₀, clock₀) ls s) : OnTime s := by
  have hstart : OnTime (s₀, clock₀) := by
    obtain ⟨source, rfl, -⟩ := hinit
    exact Pacer.paced_idle _ _ clock₀
  exact hrun.invariant (fun _ _ _ hs hstep => hs.step hstep) hstart

/-- **Production keeps pace with the clock.** However many clients read, and however their reads
interleave: at any time after the clock of the session was started, the frames that were queued are
at most those played since then and one chunk more. They are the frames of the chunks produced for
the session, and while it lasts its clock is not set again. -/
theorem streamContentReader_paced {s₀ s : Server} {clock₀ clock : ℚ} {ls : List ServerLabel}
    (hinit : serverLts.init s₀) (hrun : timedServerLts.Run (s₀, clock₀) ls (s, clock)) :
    (s.session.streamClockStarted = true → s.session.streamStartedAt ≤ clock ∧
      ∀ now, clock ≤ now → (s.session.audioFramesQueued : ℚ)
        ≤ streamSessionSampleRate * (now - s.session.streamStartedAt)
          + streamSessionMaxAudioFramesPerChunk) ∧
    s.session.audioFramesQueued
      = streamSessionMaxAudioFramesPerChunk * (chunksProduced s.activeSessionId ls).length ∧
    ∀ ls' s' clock', timedServerLts.Run (s, clock) ls' (s', clock') →
      s.session.streamClockStarted = true → s'.activeSessionId = s.activeSessionId →
      s'.session.streamClockStarted = true ∧
        s'.session.streamStartedAt = s.session.streamStartedAt := by
  have hpaced := Server.onTime_of_run hinit hrun
  have hrate : (0 : ℚ) ≤ streamSessionSampleRate := Nat.cast_nonneg _
  refine ⟨fun hstarted => ?_, ?_, fun ls' s' clock' hlater hstarted hid => ?_⟩
  · have hstart := StreamSession.pacer_start_eq.2 ⟨hstarted, rfl⟩
    refine ⟨hpaced.start_le _ hstart, fun now hnow => ?_⟩
    exact (hpaced.later hrate hnow).count_le _ hstart
  · have hcount := (Server.continues_of_run (serverRun_of_timed hrun)).count_eq
    obtain ⟨source, rfl, -⟩ := hinit
    have hnone : (if s.activeSessionId = (serverInit source).activeSessionId then
        (serverInit source).session.pacer.count else 0) = 0 := ite_self 0
    rw [hnone, Nat.zero_add] at hcount
    exact hcount
  · have hsame := (Server.continues_of_run (serverRun_of_timed hlater)).start_eq hid
    exact StreamSession.pacer_start_eq.1 (hsame _ (StreamSession.pacer_start_eq.2 ⟨hstarted, rfl⟩))

lemma streamClockStarted_of_produced {s s' : Server} {client : ClientId} {env : ReaderEnv} {id : ℕ}
    {chunk : PcmChunk} (h : ServerStep s (.read client env (.produced id chunk)) s') :
    s'.session.streamClockStarted = true := by
  have hone : chunksProduced id [.read client env (.produced id chunk)] = [chunk] := by
    rw [chunksProduced_produced, if_pos rfl]
  cases Server.paces_of_step h with
  | kept _ _ hnone => exact absurd (hone.symm.trans (hnone id)) (List.cons_ne_nil chunk [])
  | polled _ _ hnone => exact absurd (hone.symm.trans (hnone id)) (List.cons_ne_nil chunk [])
  | produced _ hpacer =>
    exact (StreamSession.pacer_start_eq.1 (congrArg Pacer.start hpacer)).1

lemma punctualReader_now {s : Server} (hstarted : s.session.streamClockStarted = false)
    (hframes : s.session.audioFramesQueued = 0) : (punctualReader s).now = 0 := by
  simp [punctualReader, streamSessionComputeAudioDelay, streamSessionStartClock, hstarted, hframes]

/-- A client connects, reads its prelude and has a first chunk produced, all at time zero. -/
theorem streamContentReader_paced_oneChunk : ∃ ls s,
    timedServerLts.Run (serverInit Server.silentFile, 0) ls (s, 0) ∧
      s.session.streamClockStarted = true ∧
      (s.session.audioFramesQueued : ℚ) ≤ streamSessionSampleRate
        * (0 - s.session.streamStartedAt) + streamSessionMaxAudioFramesPerChunk := by
  obtain ⟨s₁, st₁, hconnect, -, -, -, -, hid, hstarted, hframes⟩ := Server.exists_connected
  have hinit := Server.serverInit_silentFile
  obtain ⟨cells, h₁⟩ := (Server.Reached.of_step hinit hconnect trivial).consistent
  obtain ⟨hmail, hpreludes⟩ := connected_spec hconnect ⟨_, consistent_serverInit _⟩
  obtain ⟨s₂, bytes, hprelude, h₂, hmail₂, hpreludes₂, hsession⟩ :=
    exists_prelude_step h₁ hpreludes
  obtain ⟨s₃, -, -, chunk, -, hproduce, -⟩ :=
    exists_chunk_steps h₂ (hmail₂ ▸ hmail) hpreludes₂
  have hnow₁ := punctualReader_now hstarted hframes
  have hnow₂ := punctualReader_now (s := s₂) (hsession ▸ hstarted) (hsession ▸ hframes)
  have hconnect' : timedServerLts.step (serverInit Server.silentFile, 0) _ (s₁, 0) :=
    ⟨hconnect, le_rfl⟩
  have hprelude' : timedServerLts.step (s₁, 0) _ (s₂, 0) :=
    ⟨hprelude, le_rfl, hnow₁.ge, hnow₁.le⟩
  have hproduce' : timedServerLts.step (s₂, 0) _ (s₃, 0) :=
    ⟨hproduce, le_rfl, hnow₂.ge, hnow₂.le⟩
  have hrun := Lts.Run.cons hconnect' (.cons hprelude' (.cons hproduce' (.nil _)))
  have hclock := streamClockStarted_of_produced hproduce
  exact ⟨_, s₃, hrun, hclock, ((streamContentReader_paced hinit hrun).1 hclock).2 0 le_rfl⟩

end Mpxcast
