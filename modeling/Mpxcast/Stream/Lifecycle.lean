import Mpxcast.Stream.Progress

/-!
# The life cycle of the queue

The states that runs of the server lead to, in which MHD passes large enough buffers and chunks can
be allocated: what the queue and the session look like there, and that there is always room for a
chunk.
-/

namespace Mpxcast

open LinkedHeap Registry

/-- Before the first request. -/
lemma consistent_serverInit (rtlSource : RtlSource) : (serverInit rtlSource).Consistent [] := by
  have hempty : ∀ id st, (serverInit rtlSource).clients.lookup id ≠ some st := by
    intro id st hst
    have hnone : (serverInit rtlSource).clients.lookup id = none := AList.lookup_empty id
    rw [hnone] at hst
    exact nomatch hst
  refine ⟨⟨Queue.holds_empty, Nat.zero_le _, fun cell hcell => absurd hcell List.not_mem_nil,
    ⟨Bool.noConfusion, Bool.noConfusion, Bool.noConfusion, Bool.noConfusion⟩,
    fun id st hst => absurd hst (hempty id st)⟩, fun hhead => absurd rfl hhead, ?_⟩
  exact ⟨Bool.noConfusion, fun ⟨id, st, hst, _⟩ => absurd hst (hempty id st)⟩

/-- A consistent queue stays consistent along a run. -/
theorem consistent_of_run {s s' : Server} {ls : List ServerLabel} (h : serverLts.Run s ls s')
    (hs : ∃ cells, s.Consistent cells) (hl : ∀ l ∈ ls, l.Provided) :
    ∃ cells, s'.Consistent cells := by
  have hstep : ∀ s l t, (∃ cells, s.Consistent cells) → l.Provided → serverLts.step s l t →
      (∃ cells, t.Consistent cells) ∧ True := by
    rintro s l t ⟨cells, hs⟩ hl hstep
    exact ⟨(ServerStep.follows hstep hs hl).1.consistent, trivial⟩
  exact (h.guarantee hstep hs hl).1

namespace Server

/-- A run from the start leads to this state, MHD passing large enough buffers and chunks being
allocated. -/
def Reached (s : Server) : Prop :=
  ∃ s₀ ls, serverLts.init s₀ ∧ serverLts.Run s₀ ls s ∧ ∀ l ∈ ls, l.Provided

variable {s : Server} {cells : List (Ptr × PcmChunk)} {id : ClientId} {st : ClientStream}

lemma Reached.consistent (h : s.Reached) : ∃ cells, s.Consistent cells := by
  obtain ⟨s₀, ls, ⟨source, rfl, -⟩, hrun, hl⟩ := h
  exact consistent_of_run hrun ⟨[], consistent_serverInit source⟩ hl

lemma Reached.run {s' : Server} (h : s.Reached) {ls : List ServerLabel}
    (hrun : serverLts.Run s ls s') (hl : ∀ l ∈ ls, l.Provided) : s'.Reached := by
  obtain ⟨s₀, ls₀, hinit, hrun₀, hl₀⟩ := h
  refine ⟨s₀, ls₀ ++ ls, hinit, hrun₀.append hrun, fun l hmem => ?_⟩
  rcases List.mem_append.mp hmem with hmem | hmem
  · exact hl₀ l hmem
  · exact hl l hmem

/-- What holds of the chunk list, of the cursors of the current clients and of the session. -/
structure Lifecycle (s : Server) (cells : List (Ptr × PcmChunk)) : Prop where
  chain : Chain s.chunks.heap s.chunks.head cells
  allocated : ∀ p ∈ s.chunks.heap, p ∈ addrs cells
  count_eq : s.chunks.count = cells.length
  count_le : s.chunks.count ≤ streamMaxBufferedChunks
  head_none_iff : s.chunks.head = none ↔ s.chunks.tail = none
  tail_eq : s.chunks.tail = cells.getLast?.map Prod.fst
  cursor : ∀ id st, s.clients.lookup id = some st → st.sessionId = s.activeSessionId →
    s.sessionActive = true → ∀ p, st.nextChunk = some p → p ∈ addrs cells
  owned : ∀ p, s.chunks.head = some p → ∃ id st, s.clients.lookup id = some st ∧
    st.sessionId = s.activeSessionId ∧ st.nextChunk = some p
  active_iff : s.sessionActive = true ↔
    ∃ id st, s.clients.lookup id = some st ∧ st.sessionId = s.activeSessionId
  settings : ∀ id st, s.clients.lookup id = some st → st.sessionId = s.activeSessionId →
    st.mode = s.session.mode ∧ st.container = s.session.container ∧
      st.icy.enabled = s.session.icy.enabled

/-- The next call, whichever it is, touches no freed chunk. -/
structure NextCallDefined (s : Server) : Prop where
  read : ∀ id st env, s.clients.lookup id = some st → env.Provided →
    (streamContentReader s id st env).isSome
  free : ∀ id, (streamContentFree s id).isSome
  request : ∀ env, (∀ client, env.calloc = some client → client ∉ s.clients) →
    (handleRequest s env).isSome

lemma Consistent.lifecycle (h : s.Consistent cells) : s.Lifecycle cells where
  chain := h.holds.chain
  allocated := h.holds.no_leak
  count_eq := h.holds.count_eq
  count_le := h.holds.count_eq ▸ h.bounded
  head_none_iff := by
    rw [h.holds.head_none_iff, h.holds.tail_eq, Option.map_eq_none_iff, List.getLast?_eq_none_iff]
  tail_eq := h.holds.tail_eq
  cursor := by
    intro id st hst hcurrent _ p hp
    obtain ⟨rest, hrest⟩ := (h.client id st hst).cursor (isCurrent_iff.mpr hcurrent)
    obtain ⟨next, v, rest', -, rfl, -⟩ := (hp ▸ hrest).advance h.holds
    exact List.mem_map.mpr ⟨(p, v), hrest.suffix.subset List.mem_cons_self, rfl⟩
  owned := by
    intro p hp
    obtain ⟨id, st, hst, hcurrent, hnext⟩ := h.owned (hp ▸ Option.some_ne_none p)
    exact ⟨id, st, hst, isCurrent_iff.mp hcurrent, hnext.trans hp⟩
  active_iff := Iff.trans h.active_iff (by simp only [HasCurrent, isCurrent_iff])
  settings := fun id st hst hcurrent => (h.client id st hst).same (isCurrent_iff.mpr hcurrent)

lemma Consistent.nextCallDefined (h : s.Consistent cells) : s.NextCallDefined where
  read := by
    intro id st env hst henv
    obtain ⟨s', outcome, hread, -⟩ := h.read hst henv
    rw [hread]
    rfl
  free := by
    intro id
    obtain ⟨s', cells', hfree, -⟩ := h.free id
    rw [hfree]
    rfl
  request := by
    intro env hfresh
    obtain ⟨s', outcome, hrequest, -⟩ := h.request hfresh
    rw [hrequest]
    rfl

/-- **The chunk queue and the session's life cycle.** In every state between two sections of the
lock, the queue is a list with matching pointers and a bounded count, the cursors of the current
clients are in it, its oldest chunk is still to be read, and the session is active as long as it has
clients, which share its settings. -/
theorem Reached.queueLifecycle (h : s.Reached) :
    ∃ cells, s.Lifecycle cells ∧ s.NextCallDefined := by
  obtain ⟨cells, hconsistent⟩ := h.consistent
  exact ⟨cells, hconsistent.lifecycle, hconsistent.nextCallDefined⟩

/-! Runs to look at: clients connect to a server that plays a file. -/

/-- A file of silence. -/
def silentFile : RtlSource := (rtlSourceStartFile rtlSourceInit (some [128, 128])).1

def wavRequest (client : ClientId) : RequestEnv where
  firstCall := false
  uploadDataSize := 0
  cover := false
  parsed := .ok ⟨false, false, 100000000, 1, 50, .mono, .wav⟩
  calloc := some client
  tune := ⟨true, true, true⟩

lemma serverInit_silentFile : serverLts.init (serverInit silentFile) :=
  ⟨silentFile, rfl, .inr ⟨some [128, 128], rfl⟩⟩

/-- The client is the first of session 1. -/
lemma exists_connected : ∃ s st,
    ServerStep (serverInit silentFile) (.request (wavRequest 1) (.connected 1)) s ∧
      s.clients.lookup 1 = some st ∧ s.isCurrent st = true ∧ st.nextChunk = none ∧
      st.preludePending = true ∧ s.activeSessionId = 1 ∧ s.session.streamClockStarted = false ∧
      s.session.audioFramesQueued = 0 :=
  ⟨_, _, .request (fun _ _ => AList.notMem_empty _) rfl, rfl, rfl, rfl, rfl, rfl, rfl, rfl⟩

lemma Reached.of_step {s₀ s : Server} {l : ServerLabel} (hinit : serverLts.init s₀)
    (h : ServerStep s₀ l s) (hl : l.Provided) : s.Reached :=
  ⟨s₀, [l], hinit, .cons h (.nil s), by simpa using hl⟩

/-- Two clients of session 1, the second of which has its prelude. -/
lemma exists_two_connected : ∃ s : Server, s.Reached ∧ s.Trails 1 2 1 [] := by
  obtain ⟨s₁, s₂, hfirst, hsecond, hmail₁, hmail₂, hpreludes⟩ : ∃ s₁ s₂,
      ServerStep (serverInit silentFile) (.request (wavRequest 1) (.connected 1)) s₁ ∧
      ServerStep s₁ (.request (wavRequest 2) (.connected 2)) s₂ ∧
      s₂.mailboxes 1 = some (1, []) ∧ s₂.mailboxes 2 = some (1, []) ∧
      s₂.preludes 2 = some true :=
    ⟨_, _, .request (fun _ _ => AList.notMem_empty _) rfl,
      .request (by rintro _ ⟨⟩; decide) rfl, rfl, rfl, rfl⟩
  have hconnected : s₂.Reached :=
    (Reached.of_step serverInit_silentFile hfirst trivial).run (.cons hsecond (.nil s₂))
      (by simp [ServerLabel.Provided])
  obtain ⟨cells, hc⟩ := hconnected.consistent
  obtain ⟨s₃, bytes, hprelude, hc₃, hmail, hpreludes₃, -⟩ := exists_prelude_step hc hpreludes
  refine ⟨s₃, hconnected.run (.cons hprelude (.nil s₃)) ?_, ⟨_, hc₃⟩, ?_, ?_, hpreludes₃⟩
  · simp [ServerLabel.Provided, punctualReader_provided]
  · rw [hmail, hmail₁]
  · rw [hmail, hmail₂]

/-- One of them has read nothing of a full queue, and the other one has read all of it. -/
lemma exists_full : ∃ (s : Server) (slow quick : ClientStream),
    s.Reached ∧ s.chunks.count = streamMaxBufferedChunks ∧
    s.clients.lookup 1 = some slow ∧ s.isCurrent slow = true ∧
    (s.chunks.unread slow.nextChunk).length = streamMaxBufferedChunks ∧
    s.clients.lookup 2 = some quick ∧ s.isCurrent quick = true ∧ quick.nextChunk = none := by
  obtain ⟨s₀, hreached, htrails⟩ := exists_two_connected
  have hne : (1 : ClientId) ≠ 2 := by decide
  obtain ⟨s, ls, m, hrun, hl, hs, hm⟩ := Trails.run hne streamMaxBufferedChunks htrails le_rfl
  rw [List.length_nil, Nat.zero_add] at hm
  obtain ⟨cells, hc⟩ := hs.consistent
  obtain ⟨slow, rest, hslow, hcurrent, -, hrest, rfl⟩ := hc.of_mailbox hs.behind
  obtain ⟨quick, rest', hquick, hcurrent', -, hrest', hvals⟩ := hc.of_mailbox hs.caughtUp
  obtain rfl := List.map_eq_nil_iff.mp hvals
  rw [vals, List.length_map] at hm
  have hcount : s.chunks.count = streamMaxBufferedChunks := by
    rw [hc.holds.count_eq]
    exact hc.bounded.antisymm (hm ▸ hrest.suffix.length_le)
  refine ⟨s, slow, quick, hreached.run hrun hl, hcount, hslow, hcurrent, ?_, hquick, hcurrent',
    hrest'.ptr_eq⟩
  rw [hrest.unread_eq hc.holds, List.length_map, hm]

theorem queueLifecycle_full : ∃ (s : Server) (cells : List (Ptr × PcmChunk)),
    s.Reached ∧ s.Lifecycle cells ∧ s.NextCallDefined ∧
      cells.length = streamMaxBufferedChunks := by
  obtain ⟨s, slow, quick, hreached, hcount, -⟩ := exists_full
  obtain ⟨cells, hlifecycle, hnext⟩ := Reached.queueLifecycle hreached
  exact ⟨s, cells, hreached, hlifecycle, hnext, hlifecycle.count_eq.symm.trans hcount⟩

/-! ### There is always room -/

/-- A current client lags exactly if it has read nothing of the queue. -/
lemma Linked.lags_iff_unread (h : s.Linked cells) (hst : s.clients.lookup id = some st)
    (hcurrent : s.isCurrent st = true) :
    s.lags st = true ↔ (s.chunks.unread st.nextChunk).length = s.chunks.count := by
  obtain ⟨rest, hrest⟩ := (h.client id st hst).cursor hcurrent
  rw [lags_iff, hrest.unread_eq h.holds, List.length_map, h.holds.count_eq]
  constructor
  · rintro ⟨-, hhead⟩
    rw [hrest.eq_of_head h.holds hhead]
  · intro hlength
    obtain rfl := hrest.suffix.eq_of_length hlength
    exact ⟨hcurrent, hrest.ptr_eq.trans h.holds.head_eq.symm⟩

/-- The client after room was made. -/
lemma Consistent.lookup_withRoom_eq (h : s.Consistent cells) (hst : s.clients.lookup id = some st) :
    s.withRoom.clients.lookup id = some
      (if s.chunks.count = streamMaxBufferedChunks ∧ s.isCurrent st = true ∧
          (s.chunks.unread st.nextChunk).length = streamMaxBufferedChunks then
        { st with sessionId := 0, droppedForLag := true }
      else st) := by
  have hcount : s.chunks.count ≤ streamMaxBufferedChunks := h.holds.count_eq ▸ h.bounded
  unfold withRoom
  by_cases hfull : streamMaxBufferedChunks ≤ s.chunks.count
  · have heq := hcount.antisymm hfull
    rw [if_pos hfull, lookup_dropLagging, hst, Option.map_some]
    congr 1
    refine if_congr ?_ rfl rfl
    constructor
    · intro hlags
      have hcurrent := (lags_iff.mp hlags).1
      exact ⟨heq, hcurrent, ((h.lags_iff_unread hst hcurrent).mp hlags).trans heq⟩
    · rintro ⟨-, hcurrent, hunread⟩
      exact (h.lags_iff_unread hst hcurrent).mpr (hunread.trans heq.symm)
  · rw [if_neg hfull, hst, if_neg]
    exact fun hdropped => hfull hdropped.1.ge

/-- **Slow clients never starve live ones.** Making room ends and succeeds. It drops a client
exactly if the queue is full and the client, a current one, has all of it still unread; the other
current clients keep what they have not read. A client that has read everything is kept, and gets
its chunk. -/
theorem Reached.makeChunkRoom_total (h : s.Reached) :
    ∃ s', serverMakeChunkRoom s = some (s', true) ∧
      (∀ id st, s.clients.lookup id = some st → s'.clients.lookup id = some
        (if s.chunks.count = streamMaxBufferedChunks ∧ s.isCurrent st = true ∧
            (s.chunks.unread st.nextChunk).length = streamMaxBufferedChunks then
          { st with sessionId := 0, droppedForLag := true }
        else st)) ∧
      (∀ id st, s.clients.lookup id = some st → s.isCurrent st = true →
        s'.clients.lookup id = some st →
        s'.isCurrent st = true ∧
          s'.chunks.unread st.nextChunk = s.chunks.unread st.nextChunk) ∧
      ∀ id st, s.clients.lookup id = some st → s.isCurrent st = true → st.nextChunk = none →
        s'.clients.lookup id = some st ∧
          ∀ env : ProduceEnv, (∀ heap, (env.calloc.address heap).isSome) →
            ∃ s'' chunk, serverProduceChunk s env = some (s'', some chunk) ∧
              s''.mailboxes id = some (s''.activeSessionId, [chunk]) := by
  obtain ⟨cells, hc⟩ := h.consistent
  obtain ⟨chunks, cells', hroom, hlinked, howned, hshort, hmail⟩ := hc.makeRoom
  obtain ⟨-, hid, -⟩ := withRoom_session s
  refine ⟨_, hroom, fun id st hst => hc.lookup_withRoom_eq hst, ?_, ?_⟩
  · intro id st hst hcurrent hkept
    have hcurrent' : ({ s.withRoom with chunks } : Server).isCurrent st = true :=
      isCurrent_iff.mpr ((isCurrent_iff.mp hcurrent).trans hid.symm)
    refine ⟨hcurrent', ?_⟩
    have hbox := congrFun hmail id
    rw [mailboxes_of_lookup hkept, if_pos hcurrent', keptMailboxes] at hbox
    split_ifs at hbox
    rw [mailboxes_of_lookup hst, if_pos hcurrent, Option.some_inj] at hbox
    exact congrArg Prod.snd hbox
  · intro id st hst hcurrent hnext
    refine ⟨hc.lookup_withRoom hst hnext, fun env hcalloc => ?_⟩
    obtain ⟨s'', cells'', chunk, hproduce, -, hid'', hmail'', -⟩ :=
      hc.produce hst hcurrent hnext hcalloc
    obtain ⟨rest, hrest⟩ := (hc.client id st hst).cursor hcurrent
    obtain rfl := (hnext ▸ hrest).eq_nil
    refine ⟨s'', chunk, hproduce, ?_⟩
    rw [hmail'', PubSub.deliver, keptMailboxes, if_neg (hc.notMem_dropped hst hnext),
      hc.mailbox_eq hst hcurrent hrest, Option.map_some, if_pos rfl, hid'']
    rfl

/-- A queue is full, one client has read nothing of it, and another one all of it. -/
theorem makeChunkRoom_total_full : ∃ (s s' : Server) (slow quick : ClientStream),
    s.Reached ∧ s.chunks.count = streamMaxBufferedChunks ∧
      s.clients.lookup 1 = some slow ∧ s.clients.lookup 2 = some quick ∧
      serverMakeChunkRoom s = some (s', true) ∧
      s'.clients.lookup 1 = some { slow with sessionId := 0, droppedForLag := true } ∧
      s'.clients.lookup 2 = some quick := by
  obtain ⟨s, slow, quick, hreached, hcount, hslow, hcurrent, hunread, hquick, hcurrent', hnext⟩ :=
    exists_full
  obtain ⟨s', hroom, hdropped, -, hkept⟩ := Reached.makeChunkRoom_total hreached
  refine ⟨s, s', slow, quick, hreached, hcount, hslow, hquick, hroom, ?_, ?_⟩
  · rw [hdropped 1 slow hslow, if_pos ⟨hcount, hcurrent, hunread⟩]
  · exact (hkept 2 quick hquick hcurrent' hnext).1

end Server

end Mpxcast
