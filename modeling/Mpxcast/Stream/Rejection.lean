import Mpxcast.Stream.Server

/-!
# Rejected requests

A request that is answered with an empty response leaves the server as it was. Tuning is what could
spoil this: it fails at three points, two of them after it has emptied the ring. Those two are
behind the start of the device thread, which an active session has behind it.
-/

namespace Mpxcast

open LinkedHeap

/-! ### The source -/

/-- The source delivers samples: it is a file, or its thread was started. -/
def RtlSource.Started (source : RtlSource) : Prop :=
  source.fileInput = true ∨ source.asyncStarted = true

/-- What neither the device callback nor a reader changes. -/
structure RtlSource.SameSetup (source source' : RtlSource) : Prop where
  fileInput : source'.fileInput = source.fileInput
  asyncStarted : source'.asyncStarted = source.asyncStarted

namespace RtlSource.SameSetup

variable {source source' source'' : RtlSource}

lemma refl (source : RtlSource) : source.SameSetup source := ⟨rfl, rfl⟩

lemma trans (h : source.SameSetup source') (h' : source'.SameSetup source'') :
    source.SameSetup source'' :=
  ⟨h'.fileInput.trans h.fileInput, h'.asyncStarted.trans h.asyncStarted⟩

lemma started (h : source.SameSetup source') (hs : source.Started) : source'.Started := by
  rw [RtlSource.Started, h.fileInput, h.asyncStarted]
  exact hs

lemma advanceRead {k : ℕ} (h : source.advanceRead k = some source') : source.SameSetup source' := by
  obtain ⟨buffered, -, heq⟩ := Option.bind_eq_some_iff.mp h
  obtain rfl := Option.some.inj heq
  exact ⟨rfl, rfl⟩

lemma pushTrim (source : RtlSource) (input : List UInt8) :
    source.SameSetup (pushTrim source input).1 := by
  unfold Mpxcast.pushTrim
  split_ifs <;> exact ⟨rfl, rfl⟩

lemma pushMakeRoom {n : ℕ} (h : pushMakeRoom source n = some source') :
    source.SameSetup source' := by
  unfold Mpxcast.pushMakeRoom at h
  split_ifs at h
  · obtain ⟨dropped, -, hadvance⟩ := Option.bind_eq_some_iff.mp h
    exact advanceRead hadvance
  · exact Option.some.inj h ▸ refl source

lemma pushBytes {input : List UInt8} (h : rtlSourcePushBytes source input = some source') :
    source.SameSetup source' := by
  have htrimmed := pushTrim source input
  unfold rtlSourcePushBytes at h
  rcases htrim : Mpxcast.pushTrim source input with ⟨trimmed, kept⟩
  rw [htrim] at h htrimmed
  obtain ⟨room, hroom, hrest⟩ := Option.bind_eq_some_iff.mp h
  obtain ⟨⟨pushed, left⟩, hloop, heq⟩ := Option.bind_eq_some_iff.mp hrest
  obtain rfl := Option.some.inj heq
  have hround : ∀ s s' : RtlSource × List UInt8, source.SameSetup s.1 → pushMore s = true →
      pushRound s = some s' → source.SameSetup s'.1 := by
    rintro ⟨s, input⟩ s' hs - hstep
    obtain ⟨contiguous, -, heq⟩ := Option.bind_eq_some_iff.mp hstep
    obtain rfl := Option.some.inj heq
    exact hs.trans ⟨rfl, rfl⟩
  exact (Loop.run_invariant (fun s => source.SameSetup s.1) hround _
    (htrimmed.trans (pushMakeRoom hroom)) hloop).1

lemma readSection {read : PendingRead} {status : RtlReadStatus}
    (h : rtlSourceReadSection source read = some (source', status)) : source.SameSetup source' := by
  obtain ⟨⟨drained, got⟩, hloop, hrest⟩ := Option.bind_eq_some_iff.mp h
  have hround : ∀ s s' : RtlSource × PendingRead, source.SameSetup s.1 → readMore s = true →
      readRound s = some s' → source.SameSetup s'.1 := by
    rintro ⟨s, read⟩ s' hs - hstep
    obtain ⟨contiguous, -, hstep⟩ := Option.bind_eq_some_iff.mp hstep
    obtain ⟨missing, -, hstep⟩ := Option.bind_eq_some_iff.mp hstep
    obtain ⟨advanced, hadvance, heq⟩ := Option.bind_eq_some_iff.mp hstep
    obtain rfl := Option.some.inj heq
    exact hs.trans (advanceRead hadvance)
  have hdrained := (Loop.run_invariant (fun s => source.SameSetup s.1) hround _
    (refl source) hloop).1
  dsimp only at hrest
  split_ifs at hrest <;> obtain ⟨rfl, -⟩ := Prod.mk.inj (Option.some.inj hrest) <;> exact hdrained

end RtlSource.SameSetup

/-- The callback and the readers leave a started source started. -/
lemma SourceEvolves.sameSetup {source source' : RtlSource} (h : SourceEvolves source source') :
    source.SameSetup source' := by
  induction h with
  | refl => exact .refl source
  | tail _ hstep ih =>
    refine ih.trans ?_
    cases hstep with
    | push hpush => exact .pushBytes hpush
    | threadExit result => exact ⟨rfl, rfl⟩
    | read hread => exact .readSection hread
    | readFile hfile hread => exact ⟨rfl, rfl⟩

/-- Tuning succeeds only on a started source, and when it fails on one it has changed nothing. -/
lemma rtlSourceTune_started (source : RtlSource) (frequencyHz : ℕ) (env : RtlTuneEnv) :
    ((rtlSourceTune source frequencyHz env).2 = 0 →
      (rtlSourceTune source frequencyHz env).1.Started) ∧
    ((rtlSourceTune source frequencyHz env).2 ≠ 0 → source.Started →
      (rtlSourceTune source frequencyHz env).1 = source) := by
  have hfail : (-1 : Int) ≠ 0 := by decide
  unfold rtlSourceTune
  by_cases hfile : source.fileInput = true
  · rw [if_pos hfile]
    exact ⟨fun _ => .inl hfile, fun _ _ => rfl⟩
  rw [if_neg hfile]
  by_cases hdevice : (!source.device) = true
  · rw [if_pos hdevice]
    exact ⟨fun h => absurd h hfail, fun _ _ => rfl⟩
  rw [if_neg hdevice]
  by_cases hfreq : (!env.setCenterFreq) = true
  · rw [if_pos hfreq]
    exact ⟨fun h => absurd h hfail, fun _ _ => rfl⟩
  rw [if_neg hfreq]
  -- from here on the ring is empty
  dsimp only
  by_cases hasync : (source.flush frequencyHz).asyncStarted = true
  · rw [if_pos hasync]
    exact ⟨fun _ => .inr hasync, fun h => absurd rfl h⟩
  have hstopped : ¬source.Started := fun h => h.elim hfile hasync
  rw [if_neg hasync]
  split_ifs
  · exact ⟨fun h => absurd h hfail, fun _ h => absurd h hstopped⟩
  · exact ⟨fun h => absurd h hfail, fun _ h => absurd h hstopped⟩
  · exact ⟨fun _ => .inr rfl, fun h => absurd rfl h⟩

/-! ### The server -/

namespace Server

/-- Only the queue and the clients differ. -/
structure QueueOnly (s s' : Server) : Prop where
  rtlSource : s'.rtlSource = s.rtlSource
  session : s'.session = s.session
  activeSessionId : s'.activeSessionId = s.activeSessionId
  sessionActive : s'.sessionActive = s.sessionActive

namespace QueueOnly

variable {s s' s'' : Server}

lemma refl (s : Server) : s.QueueOnly s := ⟨rfl, rfl, rfl, rfl⟩

lemma trans (h : s.QueueOnly s') (h' : s'.QueueOnly s'') : s.QueueOnly s'' :=
  ⟨h'.rtlSource.trans h.rtlSource, h'.session.trans h.session,
    h'.activeSessionId.trans h.activeSessionId, h'.sessionActive.trans h.sessionActive⟩

lemma clear (h : serverClearChunks s = some s') : s.QueueOnly s' := by
  obtain ⟨chunks, -, heq⟩ := Option.bind_eq_some_iff.mp h
  exact Option.some.inj heq ▸ ⟨rfl, rfl, rfl, rfl⟩

lemma prune (h : serverPruneChunks s = some s') : s.QueueOnly s' := by
  obtain ⟨chunks, -, heq⟩ := Option.bind_eq_some_iff.mp h
  exact Option.some.inj heq ▸ ⟨rfl, rfl, rfl, rfl⟩

lemma makeChunkRoom {room : Bool} (h : serverMakeChunkRoom s = some (s', room)) :
    s.QueueOnly s' := by
  have hround : ∀ t t' : Server × Bool, s.QueueOnly t.1 →
      (t.2 && decide (streamMaxBufferedChunks ≤ t.1.chunks.count)) = true →
      serverMakeChunkRoomRound t = some t' → s.QueueOnly t'.1 := by
    rintro ⟨t, room⟩ t' ht - hstep
    unfold serverMakeChunkRoomRound at hstep
    dsimp only at hstep
    split_ifs at hstep
    · exact Option.some.inj hstep ▸ ht
    · obtain ⟨pruned, hprune, heq⟩ := Option.bind_eq_some_iff.mp hstep
      obtain rfl := Option.some.inj heq
      have hdropped : s.QueueOnly t.dropLagging := ht.trans ⟨rfl, rfl, rfl, rfl⟩
      exact hdropped.trans (prune hprune)
  exact (Loop.run_invariant (fun t => s.QueueOnly t.1) hround _ (refl s) h).1

lemma linkChunk {p : LinkedHeap.Ptr} {chunk : PcmChunk} (h : s.linkChunk p chunk = some s') :
    s.QueueOnly s' := by
  obtain ⟨chunks, -, heq⟩ := Option.bind_eq_some_iff.mp h
  exact Option.some.inj heq ▸ ⟨rfl, rfl, rfl, rfl⟩

lemma setClient (s : Server) (client : ClientId) (stream : ClientStream) :
    s.QueueOnly (s.setClient client stream) := ⟨rfl, rfl, rfl, rfl⟩

/-- Packing and the prelude produce nothing. -/
lemma prelude {client : ClientId} {stream : ClientStream} {max : ℕ} {outcome : ReaderOutcome}
    (h : streamContentPrelude s client stream max = (s', outcome)) :
    s.QueueOnly s' ∧ ∀ sessionId chunk, outcome ≠ .produced sessionId chunk := by
  unfold streamContentPrelude at h
  split at h
  · obtain ⟨rfl, rfl⟩ := Prod.mk.inj h
    exact ⟨setClient s client _, nofun⟩
  · split_ifs at h <;> obtain ⟨rfl, rfl⟩ := Prod.mk.inj h <;> exact ⟨setClient s client _, nofun⟩

lemma pack {client : ClientId} {stream : ClientStream} {p : LinkedHeap.Ptr} {max : ℕ}
    {outcome : ReaderOutcome} (h : streamContentPack s client stream p max = some (s', outcome)) :
    s.QueueOnly s' ∧ ∀ sessionId chunk, outcome ≠ .produced sessionId chunk := by
  obtain ⟨node, -, hrest⟩ := Option.bind_eq_some_iff.mp h
  obtain ⟨⟨stream, packed⟩, -, hrest⟩ := Option.bind_eq_some_iff.mp hrest
  dsimp only at hrest
  split at hrest
  · obtain ⟨rfl, rfl⟩ := Prod.mk.inj (Option.some.inj hrest)
    exact ⟨setClient s client _, nofun⟩
  split_ifs at hrest
  · obtain ⟨rfl, rfl⟩ := Prod.mk.inj (Option.some.inj hrest)
    exact ⟨setClient s client _, nofun⟩
  · obtain ⟨pruned, hprune, heq⟩ := Option.bind_eq_some_iff.mp hrest
    obtain ⟨rfl, rfl⟩ := Prod.mk.inj (Option.some.inj heq)
    exact ⟨(setClient s client _).trans (prune hprune), nofun⟩

end QueueOnly

/-- An active session has a started source. -/
def SourceStarted (s : Server) : Prop := s.sessionActive = true → s.rtlSource.Started

/-- What all calls but a request leave alone. -/
structure SameSource (s s' : Server) : Prop where
  sessionActive : s'.sessionActive = true → s.sessionActive = true
  rtlSource : s.rtlSource.SameSetup s'.rtlSource

lemma QueueOnly.sameSource {s s' : Server} (h : s.QueueOnly s') : s.SameSource s' :=
  ⟨fun hactive => h.sessionActive.symm.trans hactive, h.rtlSource ▸ .refl _⟩

namespace SameSource

variable {s s' s'' : Server}

lemma refl (s : Server) : s.SameSource s := ⟨fun h => h, .refl _⟩

lemma trans (h : s.SameSource s') (h' : s'.SameSource s'') : s.SameSource s'' :=
  ⟨fun hactive => h.sessionActive (h'.sessionActive hactive), h.rtlSource.trans h'.rtlSource⟩

lemma started (h : s.SameSource s') (hs : s.SourceStarted) : s'.SourceStarted :=
  fun hactive => h.rtlSource.started (hs (h.sessionActive hactive))

lemma produce {env : ProduceEnv} (henv : s.rtlSource.SameSetup env.rtlSource)
    {chunk : Option PcmChunk} (h : serverProduceChunk s env = some (s', chunk)) :
    s.SameSource s' := by
  obtain ⟨⟨roomy, room⟩, hroom, hrest⟩ := Option.bind_eq_some_iff.mp h
  have hroomy := (QueueOnly.makeChunkRoom hroom).sameSource
  dsimp only at hrest
  split at hrest
  · obtain ⟨rfl, -⟩ := Prod.mk.inj (Option.some.inj hrest)
    exact hroomy
  split at hrest
  · obtain ⟨rfl, -⟩ := Prod.mk.inj (Option.some.inj hrest)
    exact hroomy
  rcases hfill : streamSessionFillPcmChunk roomy.session env.live with ⟨session, frameCount, result⟩
  rw [hfill] at hrest
  have hfilled : s.SameSource { roomy with session, rtlSource := env.rtlSource } :=
    ⟨hroomy.sessionActive, henv⟩
  dsimp only at hrest
  split_ifs at hrest
  · obtain ⟨rfl, -⟩ := Prod.mk.inj (Option.some.inj hrest)
    exact hfilled
  · obtain ⟨linked, hlink, heq⟩ := Option.bind_eq_some_iff.mp hrest
    obtain ⟨rfl, -⟩ := Prod.mk.inj (Option.some.inj heq)
    exact hfilled.trans ((QueueOnly.linkChunk hlink).sameSource.trans ⟨fun h => h, .refl _⟩)

lemma read {client : ClientId} {stream : ClientStream} {env : ReaderEnv} {outcome : ReaderOutcome}
    (henv : s.rtlSource.SameSetup env.rtlSource)
    (h : streamContentReader s client stream env = some (s', outcome)) : s.SameSource s' := by
  unfold streamContentReader at h
  split_ifs at h
  · exact (QueueOnly.prelude (Option.some.inj h)).1.sameSource
  · obtain ⟨rfl, -⟩ := Prod.mk.inj (Option.some.inj h)
    exact refl s
  split at h
  · exact (QueueOnly.pack h).1.sameSource
  · unfold streamContentProduce at h
    dsimp only at h
    have hclock : s.SameSource
        { s with session := streamSessionStartClock s.session env.startedAt } :=
      ⟨fun h => h, .refl _⟩
    split_ifs at h
    · obtain ⟨⟨produced, chunk⟩, hproduce, hrest⟩ := Option.bind_eq_some_iff.mp h
      have hproduced := hclock.trans (produce henv hproduce)
      dsimp only at hrest
      split at hrest <;> obtain ⟨rfl, -⟩ := Prod.mk.inj (Option.some.inj hrest) <;> exact hproduced
    · obtain ⟨rfl, -⟩ := Prod.mk.inj (Option.some.inj h)
      exact hclock

lemma free {client : ClientId} (h : streamContentFree s client = some s') : s.SameSource s' := by
  have herase : s.SameSource { s with clients := s.clients.erase client } :=
    ⟨fun h => h, .refl _⟩
  unfold streamContentFree at h
  dsimp only at h
  split_ifs at h
  · obtain ⟨cleared, hclear, heq⟩ := Option.bind_eq_some_iff.mp h
    obtain rfl := Option.some.inj heq
    exact (herase.trans (QueueOnly.clear hclear).sameSource).trans ⟨Bool.noConfusion, .refl _⟩
  · exact herase.trans (QueueOnly.prune h).sameSource

end SameSource

/-! ### Requests -/

/-- How replacing the session ends. The metadata of a freshly configured session never fails. -/
lemma serverReplaceSession_cases {s s' : Server} {request : StreamHttpRequest} {tune : RtlTuneEnv}
    {failed : Option RejectReason}
    (h : serverReplaceSession s request tune = some (s', failed)) :
    (failed = some .tune ∧
      s' = { s with rtlSource := (rtlSourceTune s.rtlSource request.frequencyHz tune).1 } ∧
      (s.rtlSource.Started → s'.rtlSource = s.rtlSource)) ∨
    (failed = none ∧ s'.rtlSource.Started ∧ s'.activeSessionId = s.activeSessionId + 1 ∧
      s'.session
        = (streamSessionRefreshMetadata (streamSessionConfigure streamSessionInit request)).1) := by
  obtain ⟨hsuccess, hfailure⟩ := rtlSourceTune_started s.rtlSource request.frequencyHz tune
  obtain ⟨session, hrefresh, -⟩ := streamSessionConfigure_ready request
  unfold serverReplaceSession at h
  rcases htune : rtlSourceTune s.rtlSource request.frequencyHz tune with ⟨rtlSource, tuned⟩
  rw [htune] at h hsuccess hfailure
  dsimp only at h
  by_cases htuned : tuned = 0
  · right
    rw [if_neg (not_not.mpr htuned)] at h
    obtain ⟨cleared, hclear, hrest⟩ := Option.bind_eq_some_iff.mp h
    obtain ⟨chunks, -, hchunks⟩ := Option.bind_eq_some_iff.mp hclear
    obtain rfl := Option.some.inj hchunks
    rw [hrefresh] at hrest
    obtain ⟨rfl, rfl⟩ := Prod.mk.inj (Option.some.inj hrest)
    rw [hrefresh]
    exact ⟨rfl, hsuccess htuned, rfl, rfl⟩
  · left
    rw [if_pos htuned] at h
    obtain ⟨rfl, rfl⟩ := Prod.mk.inj (Option.some.inj h)
    exact ⟨rfl, rfl, hfailure htuned⟩

/-- How a request is handled: nothing happens, a client joins the session or a new one, or replacing
the session fails. -/
lemma handleRequest_cases {s s' : Server} {env : RequestEnv} {outcome : RequestOutcome}
    (h : handleRequest s env = some (s', outcome)) :
    (s' = s ∧ outcome ≠ .rejected .metadata) ∨
    (∃ client request, outcome = .connected client ∧ s' = s.connect client request) ∨
    (∃ client request replaced, outcome = .connected client ∧ s' = replaced.connect client request ∧
      serverReplaceSession s request env.tune = some (replaced, none)) ∨
    ∃ request reason, outcome = .rejected reason ∧
      serverReplaceSession s request env.tune = some (s', some reason) := by
  unfold handleRequest at h
  split_ifs at h
  · obtain ⟨rfl, rfl⟩ := Prod.mk.inj (Option.some.inj h)
    exact .inl ⟨rfl, nofun⟩
  · obtain ⟨rfl, rfl⟩ := Prod.mk.inj (Option.some.inj h)
    exact .inl ⟨rfl, nofun⟩
  cases hparsed : env.parsed with
  | error status =>
    rw [hparsed] at h
    obtain ⟨rfl, rfl⟩ := Prod.mk.inj (Option.some.inj h)
    exact .inl ⟨rfl, nofun⟩
  | ok request =>
    cases hcalloc : env.calloc with
    | none =>
      rw [hparsed, hcalloc] at h
      obtain ⟨rfl, rfl⟩ := Prod.mk.inj (Option.some.inj h)
      exact .inl ⟨rfl, nofun⟩
    | some client =>
      rw [hparsed, hcalloc] at h
      dsimp only at h
      split_ifs at h
      · obtain ⟨rfl, rfl⟩ := Prod.mk.inj (Option.some.inj h)
        exact .inr (.inl ⟨client, request, rfl, rfl⟩)
      · obtain ⟨⟨replaced, failed⟩, hreplace, hrest⟩ := Option.bind_eq_some_iff.mp h
        cases failed with
        | none =>
          obtain ⟨rfl, rfl⟩ := Prod.mk.inj (Option.some.inj hrest)
          exact .inr (.inr (.inl ⟨client, request, replaced, rfl, rfl, hreplace⟩))
        | some reason =>
          obtain ⟨rfl, rfl⟩ := Prod.mk.inj (Option.some.inj hrest)
          exact .inr (.inr (.inr ⟨request, reason, rfl, hreplace⟩))

/-- A request keeps an active session's source started. -/
lemma SourceStarted.request {s s' : Server} (hs : s.SourceStarted) {env : RequestEnv}
    {outcome : RequestOutcome} (h : handleRequest s env = some (s', outcome)) :
    s'.SourceStarted := by
  rcases handleRequest_cases h with ⟨rfl, -⟩ | ⟨client, request, -, rfl⟩ |
    ⟨client, request, replaced, -, rfl, hreplace⟩ | ⟨request, reason, -, hreplace⟩
  · exact hs
  · exact hs
  · rcases serverReplaceSession_cases hreplace with ⟨hsome, -⟩ | ⟨-, hstarted, -⟩
    · exact nomatch hsome
    · exact fun _ => hstarted
  · rcases serverReplaceSession_cases hreplace with ⟨-, hsame, hkept⟩ | ⟨hnone, -⟩
    · intro hactive
      have hwas : s.sessionActive = true := by
        rw [hsame] at hactive
        exact hactive
      rw [hkept (hs hwas)]
      exact hs hwas
    · exact nomatch hnone

lemma SourceStarted.step {s s' : Server} (hs : s.SourceStarted) {l : ServerLabel}
    (h : ServerStep s l s') : s'.SourceStarted := by
  cases h with
  | request _ hrequest => exact hs.request hrequest
  | read _ henv hread => exact (SameSource.read henv.sameSetup hread).started hs
  | free _ hfree => exact (SameSource.free hfree).started hs
  | source henv => exact fun hactive => henv.sameSetup.started (hs hactive)

/-- In every state that any run leads to, an active session has a started source. -/
theorem sourceStarted_of_reachable {s : Server} (h : serverLts.Reachable s) : s.SourceStarted := by
  refine h.invariant ?_ fun s l t hs hstep => hs.step hstep
  rintro s ⟨source, rfl, -⟩ hactive
  exact Bool.noConfusion hactive

end Server

/-- **A rejected request changes nothing.** Whatever run led to the state and however the external
calls end, a request that is answered with an empty response leaves all of the server but the source
as it was, and the source too while a session is active. The metadata of the new session is never
the reason: the queue has been cleared only when nothing can go wrong any more. -/
theorem handleRequest_rejected {s s' : Server} (hs : serverLts.Reachable s) {env : RequestEnv}
    {reason : RejectReason} (h : handleRequest s env = some (s', .rejected reason)) :
    reason ≠ .metadata ∧ s' = { s with rtlSource := s'.rtlSource } ∧
      (s.sessionActive = true → s'.rtlSource = s.rtlSource) := by
  rcases Server.handleRequest_cases h with ⟨rfl, hreason⟩ | ⟨client, request, heq, -⟩ |
    ⟨client, request, replaced, heq, -⟩ | ⟨request, reason', heq, hreplace⟩
  · exact ⟨fun heq => hreason (by rw [heq]), rfl, fun _ => rfl⟩
  · exact nomatch heq
  · exact nomatch heq
  · obtain rfl := RequestOutcome.rejected.inj heq
    rcases Server.serverReplaceSession_cases hreplace with ⟨htune, hsame, hkept⟩ | ⟨hnone, -⟩
    · obtain rfl := Option.some.inj htune
      refine ⟨nofun, hsame ▸ rfl, fun hactive => hkept ?_⟩
      exact Server.sourceStarted_of_reachable hs hactive
    · exact nomatch hnone

/-- A request for 100 MHz as WAV tunes a device; the next one, for another frequency, does not. -/
theorem handleRequest_rejected_tune : ∃ s s' env,
    ServerStep (serverInit (rtlSourceStart rtlSourceInit true fun _ => 0).1)
      (.request ⟨false, 0, false, .ok ⟨false, false, 100000000, 1, 50, .mono, .wav⟩, some 1,
        ⟨true, true, true⟩⟩ (.connected 1)) s ∧
    handleRequest s env = some (s', .rejected .tune) ∧ s.sessionActive = true ∧
    s'.rtlSource = s.rtlSource := by
  obtain ⟨s, hstep, hreject, hactive⟩ : ∃ s,
      ServerStep (serverInit (rtlSourceStart rtlSourceInit true fun _ => 0).1)
        (.request ⟨false, 0, false, .ok ⟨false, false, 100000000, 1, 50, .mono, .wav⟩, some 1,
          ⟨true, true, true⟩⟩ (.connected 1)) s ∧
      handleRequest s ⟨false, 0, false, .ok ⟨false, false, 90000000, 1, 50, .mono, .wav⟩, some 2,
          ⟨false, true, true⟩⟩ = some (s, .rejected .tune) ∧ s.sessionActive = true :=
    ⟨_, .request (fun _ _ => AList.notMem_empty _) rfl, rfl, rfl⟩
  have hreachable : serverLts.Reachable s :=
    ⟨_, [_], ⟨_, rfl, .inl ⟨_, rfl⟩⟩, .cons hstep (.nil s)⟩
  obtain ⟨-, -, hsource⟩ := handleRequest_rejected hreachable hreject
  exact ⟨s, s, _, hstep, hreject, hactive, hsource hactive⟩

end Mpxcast
