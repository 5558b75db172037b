import Mpxcast.Stream.ServerQueue

/-!
# Runs of the server

Reading, leaving and connecting keep the queue consistent, and do to the unread chunks what
publishing and receiving do to private mailboxes. By induction this holds along every run in which
MHD passes a large enough buffer and chunks can be allocated.
-/

namespace Mpxcast

open LinkedHeap Registry

namespace Server

variable {s : Server} {cells : List (Ptr × PcmChunk)} {id : ClientId} {st st' : ClientStream}

/-! ### One client -/

lemma lookup_setClient (hst : s.clients.lookup id = some st) (i : ClientId) :
    (s.setClient id st').clients.lookup i = if i = id then some st' else s.clients.lookup i := by
  show (mapVals _ s.clients).lookup i = _
  rw [lookup_mapVals]
  split_ifs with hi
  · rw [hi, hst, Option.map_some]
  · exact Option.map_id'

lemma preludes_setClient (hst : s.clients.lookup id = some st) :
    (s.setClient id st').preludes = Function.update s.preludes id (some st'.preludePending) := by
  funext i
  rw [preludes, lookup_setClient hst, Function.update_apply]
  split_ifs <;> rfl

lemma mailboxes_setClient (hst : s.clients.lookup id = some st) :
    (s.setClient id st').mailboxes = Function.update s.mailboxes id
      (if s.isCurrent st' then some (s.activeSessionId, s.chunks.unread st'.nextChunk)
      else none) := by
  funext i
  rw [mailboxes, lookup_setClient hst, Function.update_apply]
  split_ifs with hi hcurrent
  · exact if_pos hcurrent
  · exact if_neg hcurrent
  · rfl

lemma Linked.setClient (h : s.Linked cells) (hst : s.clients.lookup id = some st)
    (hok : s.ClientOk cells st') : (s.setClient id st').Linked cells := by
  refine ⟨h.holds, h.bounded, h.frames, h.session.congr rfl rfl rfl rfl, fun i t ht => ?_⟩
  rw [lookup_setClient hst] at ht
  split_ifs at ht with hi
  · exact Option.some.inj ht ▸ hok.congr rfl rfl
  · exact (h.client i t ht).congr rfl rfl

/-- A changed client stays among the current ones if it was among them. -/
lemma hasCurrent_setClient (hst : s.clients.lookup id = some st)
    (hid : st'.sessionId = st.sessionId) :
    (s.setClient id st').HasCurrent ↔ s.HasCurrent := by
  have hcurrent : s.isCurrent st' = s.isCurrent st := by rw [isCurrent, isCurrent, hid]
  constructor
  · rintro ⟨i, t, ht, hcur⟩
    rw [lookup_setClient hst] at ht
    split_ifs at ht with hi
    · obtain rfl := Option.some.inj ht
      exact ⟨id, st, hst, hcurrent ▸ hcur⟩
    · exact ⟨i, t, ht, hcur⟩
  · rintro ⟨i, t, ht, hcur⟩
    by_cases hi : i = id
    · subst hi
      obtain rfl := Option.some.inj (ht.symm.trans hst)
      exact ⟨i, st', by rw [lookup_setClient hst, if_pos rfl], hcurrent ▸ hcur⟩
    · exact ⟨i, t, by rw [lookup_setClient hst, if_neg hi, ht], hcur⟩

lemma ActiveIff.setClient (h : s.ActiveIff) (hst : s.clients.lookup id = some st)
    (hid : st'.sessionId = st.sessionId) : (s.setClient id st').ActiveIff :=
  Iff.trans h (hasCurrent_setClient hst hid).symm

/-! ### Reading -/

/-- A first read hands out the prelude and changes nothing in the queue. -/
lemma Consistent.prelude (h : s.Consistent cells) (hst : s.clients.lookup id = some st) {max : ℕ}
    (hmax : streamBufferSize ≤ max) :
    ∃ s' bytes, streamContentPrelude s id st max = (s', .prelude bytes) ∧ s'.Consistent cells ∧
      s'.mailboxes = s.mailboxes ∧ s'.preludes = Function.update s.preludes id (some false) := by
  obtain ⟨cursor, id_le, same, ready, dropped⟩ := h.client id st hst
  obtain ⟨stream, bytes, hbuild, hlength, hsame, hready⟩ := clientStreamBuildPrelude_same ready
  obtain ⟨sent, hsent⟩ : ∃ sent, sent = { stream with preludePending := false } := ⟨_, rfl⟩
  have hnext : sent.nextChunk = st.nextChunk := hsent ▸ hsame.nextChunk
  have hid : sent.sessionId = st.sessionId := hsent ▸ hsame.sessionId
  have hcurrent : s.isCurrent sent = s.isCurrent st := by rw [isCurrent, isCurrent, hid]
  have hok : s.ClientOk cells sent := by
    refine ⟨?_, hid ▸ id_le, ?_, ?_, ?_⟩
    · rw [hcurrent, hnext]
      exact cursor
    · rw [hcurrent, hsent]
      simpa only [hsame.mode, hsame.container, hsame.icy_enabled] using same
    · rw [hsent]
      exact hready
    · rw [hcurrent, hsent]
      simpa only [hsame.droppedForLag] using dropped
  refine ⟨s.setClient id sent, bytes, ?_, ⟨h.toLinked.setClient hst hok, ?_,
    h.active_iff.setClient hst hid⟩, ?_, ?_⟩
  · rw [streamContentPrelude, hbuild, hsent]
    exact if_neg (not_lt.mpr (hlength.trans hmax))
  · intro hhead
    obtain ⟨i, t, ht, hcur, hown⟩ := h.owned hhead
    by_cases hi : i = id
    · subst hi
      obtain rfl := Option.some.inj (ht.symm.trans hst)
      exact ⟨i, sent, by rw [lookup_setClient hst, if_pos rfl], hcurrent.trans hcur,
        hnext.trans hown⟩
    · exact ⟨i, t, by rw [lookup_setClient hst, if_neg hi, ht], hcur, hown⟩
  · rw [mailboxes_setClient hst, hcurrent, hnext, ← mailboxes_of_lookup hst]
    exact Function.update_eq_self _ _
  · rw [preludes_setClient hst, hsent]

/-- A read with a chunk to come hands it out, and the cursor moves behind it. -/
lemma Consistent.pack (h : s.Consistent cells) (hst : s.clients.lookup id = some st)
    (hcurrent : s.isCurrent st = true) {p : Ptr} (hnext : st.nextChunk = some p) {max : ℕ}
    (hmax : streamBufferSize ≤ max) :
    ∃ s' cells' chunk bytes, streamContentPack s id st p max = some (s', .packed chunk bytes) ∧
      s'.Consistent cells' ∧ PubSub.Step s.mailboxes (.receive id chunk) s'.mailboxes ∧
      s'.preludes = s.preludes := by
  obtain ⟨cursor, id_le, same, ready, dropped⟩ := h.client id st hst
  obtain ⟨rest, hrest⟩ := cursor hcurrent
  obtain ⟨next, chunk, rest', hnode, rfl, hrest'⟩ := (hnext ▸ hrest).advance h.holds
  have hactive := h.active_iff.mpr ⟨id, st, hst, hcurrent⟩
  have hframes := h.frames _ (hrest.suffix.subset List.mem_cons_self)
  obtain ⟨moved, hmoved⟩ : ∃ moved, moved = { st with nextChunk := next } := ⟨_, rfl⟩
  have hmovedReady : moved.Ready := hmoved ▸ ready
  have hmovedWell : moved.icy.enabled = true → s.session.icy.WellFormed := by
    rw [hmoved]
    exact fun henabled =>
      (h.session.ready hactive).wellFormed ((same hcurrent).2.2.symm.trans henabled)
  obtain ⟨stream, bytes, hpack, hlength, hsame, hready⟩ :=
    clientStreamPackChunk_spec hmovedReady hframes (h.session.ready hactive).icy hmovedWell
  have hstreamNext : stream.nextChunk = next := hsame.nextChunk.trans (hmoved ▸ rfl)
  have hid : stream.sessionId = st.sessionId := hsame.sessionId.trans (hmoved ▸ rfl)
  have hcurrent' : s.isCurrent stream = true := by
    rw [isCurrent, hid]
    exact hcurrent
  have hok : s.ClientOk cells stream := by
    refine ⟨fun _ => ⟨rest', hstreamNext ▸ hrest'⟩, hid ▸ id_le, fun _ => ?_, hready, ?_⟩
    · rw [hsame.mode, hsame.container, hsame.icy_enabled, hmoved]
      exact same hcurrent
    · rw [hsame.droppedForLag, hmoved]
      exact fun hlag => absurd (dropped hlag) (by rw [hcurrent]; exact Bool.noConfusion)
  obtain ⟨chunks, hprune, hlinked, howned, hmail⟩ := (h.toLinked.setClient hst hok).prune
  refine ⟨{ s.setClient id stream with chunks }, _, chunk, bytes, ?_,
    ⟨hlinked, howned, h.active_iff.setClient hst hid⟩, ?_, ?_⟩
  · rw [streamContentPack, hnode]
    simp only [Option.bind_eq_bind, Option.bind_some]
    rw [← hmoved, hpack]
    simp only [Option.bind_some]
    rw [if_neg (not_lt.mpr (hlength.trans hmax)), hprune]
    rfl
  · rw [hmail, mailboxes_setClient hst, if_pos hcurrent', hstreamNext, hrest'.unread_eq h.holds]
    exact .receive (h.mailbox_eq hst hcurrent hrest)
  · show (s.setClient id stream).preludes = _
    rw [preludes_setClient hst, hsame.preludePending, hmoved]
    exact Function.update_eq_self_iff.mpr (by rw [preludes, hst]; rfl)

/-- A read of a client that has read everything waits, or produces a chunk that is due. -/
lemma Consistent.waitOrProduce (h : s.Consistent cells) (hst : s.clients.lookup id = some st)
    (hcurrent : s.isCurrent st = true) (hnext : st.nextChunk = none) {env : ReaderEnv}
    (hcalloc : ∀ heap, (env.calloc.address heap).isSome) :
    ∃ s' cells' outcome, streamContentProduce s env = some (s', outcome) ∧ s'.Consistent cells' ∧
      s'.preludes = s.preludes ∧
      ((∃ delay, outcome = .waiting delay ∧ s'.mailboxes = s.mailboxes ∧
          0 < streamSessionComputeAudioDelay (streamSessionStartClock s.session env.startedAt)
            env.now) ∨
        ∃ chunk, outcome = .produced s.activeSessionId chunk ∧
          s'.mailboxes = PubSub.deliver s.keptMailboxes s.activeSessionId chunk) := by
  obtain ⟨started, hstarted⟩ : ∃ started : Server,
    started = { s with session := streamSessionStartClock s.session env.startedAt } := ⟨_, rfl⟩
  have hstart : started.Consistent cells := by
    rw [hstarted]
    unfold streamSessionStartClock
    refine h.withSession ?_ ?_ ?_ <;> split_ifs <;> rfl
  have hstartedSt : started.clients.lookup id = some st := hstarted ▸ hst
  have hstartedCurrent : started.isCurrent st = true := hstarted ▸ hcurrent
  unfold streamContentProduce
  rw [← hstarted]
  dsimp only
  split_ifs with hdue
  · obtain ⟨s', cells', chunk, hproduce, hconsistent, hid, hmail, hpreludes⟩ :=
      hstart.produce hstartedSt hstartedCurrent hnext hcalloc
    refine ⟨s', cells', .produced s'.activeSessionId chunk, ?_, hconsistent, ?_,
      .inr ⟨chunk, ?_, ?_⟩⟩
    · rw [hproduce]
      rfl
    · rw [hpreludes, hstarted]
      rfl
    · rw [hid, hstarted]
    · rw [hmail, hstarted]
      rfl
  · refine ⟨started, cells, _, rfl, hstart, hstarted ▸ rfl, .inl ⟨_, rfl, hstarted ▸ rfl, ?_⟩⟩
    rw [hstarted] at hdue
    exact not_le.mp hdue

/-! ### Leaving -/

/-- The server without a client. -/
def without (s : Server) (id : ClientId) : Server := { s with clients := s.clients.erase id }

lemma lookup_without (s : Server) (id i : ClientId) :
    (s.without id).clients.lookup i = if i = id then none else s.clients.lookup i := by
  unfold without
  split_ifs with hi
  · rw [hi]
    exact AList.lookup_erase id s.clients
  · exact AList.lookup_erase_ne hi

lemma lookup_of_without {i : ClientId} (h : (s.without id).clients.lookup i = some st) :
    s.clients.lookup i = some st := by
  rw [lookup_without] at h
  split_ifs at h
  exact h

lemma mailboxes_without (s : Server) (id : ClientId) :
    (s.without id).mailboxes = Function.update s.mailboxes id none := by
  funext i
  rw [mailboxes, lookup_without, Function.update_apply]
  split_ifs <;> rfl

lemma preludes_without (s : Server) (id : ClientId) :
    (s.without id).preludes = Function.update s.preludes id none := by
  funext i
  rw [preludes, lookup_without, Function.update_apply]
  split_ifs <;> rfl

lemma Linked.without (h : s.Linked cells) (id : ClientId) : (s.without id).Linked cells :=
  ⟨h.holds, h.bounded, h.frames, h.session.congr rfl rfl rfl rfl,
    fun i t ht => (h.client i t (lookup_of_without ht)).congr rfl rfl⟩

/-- Nothing is left of a session without clients once its chunks are freed. -/
lemma Linked.stop (h : s.Linked cells) (hidle : ¬s.HasCurrent) {chunks : Queue PcmChunk}
    (hholds : chunks.Holds []) :
    ({ s with chunks, sessionActive := false } : Server).Consistent [] := by
  refine ⟨⟨hholds, Nat.zero_le _, ?_, ?_, fun i t ht => ?_⟩, fun hhead => ?_, fun hact => ?_, ?_⟩
  · exact fun cell hcell => absurd hcell List.not_mem_nil
  · exact ⟨Bool.noConfusion, Bool.noConfusion, Bool.noConfusion, Bool.noConfusion⟩
  · obtain ⟨-, id_le, -, ready, dropped⟩ := h.client i t ht
    exact ⟨fun hcur => absurd ⟨i, t, ht, hcur⟩ hidle, id_le,
      fun hcur => absurd ⟨i, t, ht, hcur⟩ hidle, ready, dropped⟩
  · exact absurd (hholds.head_none_iff.mpr rfl) hhead
  · exact Bool.noConfusion hact
  · exact fun hcur => absurd hcur hidle

/-- A client that leaves cancels its subscription; the last one of the session ends it. -/
lemma Consistent.free (h : s.Consistent cells) (id : ClientId) :
    ∃ s' cells', streamContentFree s id = some s' ∧ s'.Consistent cells' ∧
      s'.mailboxes = Function.update s.mailboxes id none ∧
      s'.preludes = Function.update s.preludes id none := by
  have hlinked := h.toLinked.without id
  have hmail := s.mailboxes_without id
  have hpreludes := s.preludes_without id
  have hactive : (s.without id).HasCurrent → s.sessionActive = true := by
    rintro ⟨i, t, ht, hcur⟩
    exact h.active_iff.mpr ⟨i, t, lookup_of_without ht, hcur⟩
  unfold streamContentFree
  change ∃ s' cells', (if (s.without id).sessionActive && !serverHasCurrentClients (s.without id)
    then _ else serverPruneChunks (s.without id)) = _ ∧ _
  split_ifs with hlast
  · rw [Bool.and_eq_true, Bool.not_eq_true', Bool.eq_false_iff, Ne,
      serverHasCurrentClients_iff] at hlast
    obtain ⟨chunks, hclear, hholds⟩ := serverClearChunks_spec hlinked.holds
    have hstopped := hlinked.stop hlast.2 hholds
    refine ⟨{ s.without id with chunks, sessionActive := false }, [], ?_, hstopped, ?_, hpreludes⟩
    · change (serverClearChunks (s.without id)).bind _ = _
      rw [hclear]
      rfl
    · have hidle : ¬({ s.without id with chunks, sessionActive := false } : Server).HasCurrent :=
        hlast.2
      rw [mailboxes_of_idle hidle, ← hmail, mailboxes_of_idle hlast.2]
  · rw [Bool.and_eq_true, Bool.not_eq_true', not_and, Bool.eq_false_iff, Ne,
      serverHasCurrentClients_iff, not_not] at hlast
    obtain ⟨chunks, hprune, hpruned, howned, hpruneMail⟩ := hlinked.prune
    exact ⟨_, _, hprune, ⟨hpruned, howned, hlast, hactive⟩, hpruneMail.trans hmail, hpreludes⟩

/-! ### Connecting -/

lemma matches_session {request : StreamHttpRequest}
    (h : streamRequestMatchesSession s request = true) : s.sessionActive = true ∧
      s.sessionRequest.mode = request.mode ∧ s.sessionRequest.container = request.container := by
  simp only [streamRequestMatchesSession, Bool.and_eq_true, decide_eq_true_iff] at h
  exact ⟨h.1.1.1.1.1.1.1, h.1.1.1.2, h.1.1.2⟩

/-- A client that has just connected. -/
def subscriber (s : Server) (request : StreamHttpRequest) : ClientStream where
  nextChunk := none
  mpegtsMux := streamMuxMpegtsInit (UInt16.ofNat request.mode.channels)
  icy := s.session.icy
  sessionId := s.activeSessionId
  preludePending := true
  droppedForLag := false
  mode := request.mode
  container := request.container

lemma lookup_connect (s : Server) (id i : ClientId) (request : StreamHttpRequest) :
    (s.connect id request).clients.lookup i =
      if i = id then some (s.subscriber request) else s.clients.lookup i := by
  rw [Server.connect]
  split_ifs with hi
  · rw [hi]
    exact AList.lookup_insert s.clients
  · exact AList.lookup_insert_ne hi

lemma isCurrent_subscriber (s : Server) (request : StreamHttpRequest) :
    s.isCurrent (s.subscriber request) = true := isCurrent_iff.mpr rfl

section Connect

variable {request : StreamHttpRequest}

lemma Linked.clientOk_subscriber (h : s.Linked cells) (hactive : s.sessionActive = true)
    (hmode : request.mode = s.session.mode) (hcontainer : request.container = s.session.container) :
    s.ClientOk cells (s.subscriber request) where
  cursor := fun _ => ⟨[], Queue.cursor_none cells⟩
  id_le := le_rfl
  same := fun _ => ⟨hmode, hcontainer, rfl⟩
  ready := ⟨0, (h.session.ready hactive).icy.countdown⟩
  dropped := Bool.noConfusion

lemma Linked.connected (h : s.Linked cells) (hactive : s.sessionActive = true)
    (hmode : request.mode = s.session.mode) (hcontainer : request.container = s.session.container) :
    (s.connect id request).Linked cells := by
  have hok := h.clientOk_subscriber hactive hmode hcontainer
  refine ⟨h.holds, h.bounded, h.frames, h.session.congr rfl rfl rfl rfl, fun i t ht => ?_⟩
  rw [lookup_connect] at ht
  split_ifs at ht
  · exact Option.some.inj ht ▸ hok.congr rfl rfl
  · exact (h.client i t ht).congr rfl rfl

/-- The other clients keep what they own. -/
lemma owned_connect (howned : s.Owned) (hid : id ∉ s.clients) : (s.connect id request).Owned := by
  intro hhead
  obtain ⟨i, t, ht, hcur, hown⟩ := howned hhead
  have hother : i ≠ id := by
    rintro rfl
    exact absurd (AList.lookup_isSome.mp (by rw [ht]; rfl)) hid
  exact ⟨i, t, by rw [lookup_connect, if_neg hother, ht], hcur, hown⟩

lemma preludes_connect :
    (s.connect id request).preludes = Function.update s.preludes id (some true) := by
  funext i
  rw [preludes, lookup_connect, Function.update_apply]
  split_ifs <;> rfl

/-- A new client subscribes to the session, with nothing to read yet. -/
lemma Linked.connect (h : s.Linked cells) (howned : s.Owned) (hactive : s.sessionActive = true)
    (hmode : request.mode = s.session.mode) (hcontainer : request.container = s.session.container)
    (hid : id ∉ s.clients) :
    (s.connect id request).Consistent cells ∧
      (s.connect id request).mailboxes
        = Function.update s.mailboxes id (some (s.activeSessionId, [])) ∧
      (s.connect id request).preludes = Function.update s.preludes id (some true) := by
  have hlinked : (s.connect id request).Linked cells := h.connected hactive hmode hcontainer
  have hself : (s.connect id request).clients.lookup id = some (s.subscriber request) := by
    rw [lookup_connect, if_pos rfl]
  have hcurrent := s.isCurrent_subscriber request
  refine ⟨⟨hlinked, owned_connect howned hid, ?_⟩, ?_, preludes_connect⟩
  · exact ⟨fun _ => ⟨id, _, hself, hcurrent⟩, fun _ => hactive⟩
  · funext i
    rw [Function.update_apply]
    split_ifs with hi
    · rw [hi]
      exact hlinked.mailbox_eq hself hcurrent (Queue.cursor_none cells)
    · rw [mailboxes, lookup_connect, if_neg hi]
      rfl

end Connect

/-- Replacing the session fails when the source cannot be tuned, and only then. -/
lemma Consistent.replaceSession (h : s.Consistent cells) (request : StreamHttpRequest)
    (tune : RtlTuneEnv) :
    (∃ rtlSource, serverReplaceSession s request tune = some ({ s with rtlSource }, some .tune)) ∨
      ∃ s', serverReplaceSession s request tune = some (s', none) ∧ s'.Linked [] ∧
        s'.chunks.head = none ∧ s'.sessionActive = true ∧ request.mode = s'.session.mode ∧
        request.container = s'.session.container ∧ ¬s'.HasCurrent ∧ s'.clients = s.clients := by
  unfold serverReplaceSession
  rcases htune : rtlSourceTune s.rtlSource request.frequencyHz tune with ⟨rtlSource, tuned⟩
  dsimp only
  by_cases htuned : tuned = 0
  · right
    obtain ⟨chunks, hclear, hholds⟩ :=
      serverClearChunks_spec (s := { s with rtlSource }) h.holds
    obtain ⟨session, hrefresh, hmode, hcontainer, hready⟩ := streamSessionConfigure_ready request
    have hidle : ∀ {id st}, s.clients.lookup id = some st → st.sessionId ≠ s.activeSessionId + 1 :=
      fun hst => (Nat.lt_succ_of_le (h.client _ _ hst).id_le).ne
    refine ⟨{ s with
        rtlSource, chunks, session
        sessionRequest := request
        sessionActive := true
        activeSessionId := s.activeSessionId + 1 },
      ?_, ⟨hholds, Nat.zero_le _, ?_, ?_, ?_⟩, hholds.head_none_iff.mpr rfl, rfl,
      hmode.symm, hcontainer.symm, ?_, rfl⟩
    · rw [if_neg (not_not.mpr htuned), hclear]
      simp only [Option.bind_eq_bind, Option.bind_some, hrefresh, ne_eq, not_true_eq_false,
        if_false]
      rfl
    · exact fun cell hcell => absurd hcell List.not_mem_nil
    · exact ⟨fun _ => Nat.succ_pos _, fun _ => hmode, fun _ => hcontainer, fun _ => hready⟩
    · intro id st hst
      obtain ⟨-, id_le, -, ready, dropped⟩ := h.client id st hst
      have hstale := hidle hst
      exact ⟨fun hcur => absurd (isCurrent_iff.mp hcur) hstale, id_le.trans (Nat.le_succ _),
        fun hcur => absurd (isCurrent_iff.mp hcur) hstale, ready,
        fun _ => decide_eq_false_iff_not.mpr hstale⟩
    · rintro ⟨id, st, hst, hcur⟩
      exact hidle hst (isCurrent_iff.mp hcur)
  · exact .inl ⟨rtlSource, if_pos htuned⟩

end Server

/-! ### Steps -/

/-- What the purpose of the server sees of a step, given the session after it. -/
def ServerLabel.events (sessionId : ℕ) : ServerLabel → List (PubSub.Label ClientId ℕ PcmChunk)
  | .request _ (.connected client) => [.subscribe client sessionId]
  | .read client _ (.packed chunk _) => [.receive client chunk]
  | .read _ _ (.produced producedId chunk) => [.publish producedId chunk]
  | _ => []

/-- What a step does to the preludes that wait. -/
def ServerLabel.Preludes (before after : ClientId → Option Bool) : ServerLabel → Prop
  | .request _ (.connected client) => after = Function.update before client (some true)
  | .read client _ (.prelude _) =>
    before client = some true ∧ after = Function.update before client (some false)
  | .read client _ _ => before client = some false ∧ after = before
  | .free client => after = Function.update before client none
  | _ => after = before

/-- MHD passes a large enough buffer, and a chunk can be allocated. -/
def ReaderEnv.Provided (env : ReaderEnv) : Prop :=
  streamBufferSize ≤ env.max ∧ ∀ heap, (env.calloc.address heap).isSome

def ServerLabel.Provided : ServerLabel → Prop
  | .read _ env _ => env.Provided
  | _ => True

namespace Server

/-- The queue stays consistent, and the mailboxes change as they do when some subscriptions are
cancelled and these things happen. -/
structure Follows (s : Server) (events : List (PubSub.Label ClientId ℕ PcmChunk)) (s' : Server) :
    Prop where
  consistent : ∃ cells, s'.Consistent cells
  mailboxes : ∃ cancelled : List ClientId,
    PubSub.lts.Run s.mailboxes (cancelled.map .cancel ++ events) s'.mailboxes

variable {s s' : Server} {cells : List (Ptr × PcmChunk)} {id : ClientId} {st : ClientStream}

lemma Follows.same (h : s'.Consistent cells) (hmail : s'.mailboxes = s.mailboxes) :
    s.Follows [] s' :=
  ⟨⟨cells, h⟩, [], by rw [hmail]; exact .nil _⟩

lemma Follows.step (h : s'.Consistent cells) (cancelled : List ClientId)
    {event : PubSub.Label ClientId ℕ PcmChunk}
    (hstep : PubSub.Step (fun i => if i ∈ cancelled then none else s.mailboxes i) event
      s'.mailboxes) :
    s.Follows [event] s' :=
  ⟨⟨cells, h⟩, cancelled, (PubSub.run_cancel _ cancelled).append (.cons hstep (.nil _))⟩

lemma Consistent.read (h : s.Consistent cells) (hst : s.clients.lookup id = some st)
    {env : ReaderEnv} (henv : env.Provided) :
    ∃ s' outcome, streamContentReader s id st env = some (s', outcome) ∧
      s.Follows ((ServerLabel.read id env outcome).events s'.activeSessionId) s' ∧
      (ServerLabel.read id env outcome).Preludes s.preludes s'.preludes := by
  obtain ⟨hmax, hcalloc⟩ := henv
  have hbefore : s.preludes id = some st.preludePending := by rw [preludes, hst]; rfl
  unfold streamContentReader
  cases hpending : st.preludePending with
  | true =>
    obtain ⟨s', bytes, hread, hconsistent, hmail, hpreludes⟩ := h.prelude hst hmax
    rw [if_pos rfl]
    exact ⟨s', _, congrArg some hread, .same hconsistent hmail, hpending ▸ hbefore, hpreludes⟩
  | false =>
    rw [hpending] at hbefore
    rw [if_neg Bool.false_ne_true]
    by_cases hover : (!s.sessionActive || decide (s.activeSessionId ≠ st.sessionId)) = true
    · rw [if_pos hover]
      exact ⟨s, _, rfl, .same h rfl, hbefore, rfl⟩
    · rw [if_neg hover]
      simp only [Bool.or_eq_true, Bool.not_eq_true', decide_eq_true_iff, not_or, not_not] at hover
      have hcurrent : s.isCurrent st = true := isCurrent_iff.mpr hover.2.symm
      cases hnext : st.nextChunk with
      | some p =>
        obtain ⟨s', cells', chunk, bytes, hread, hconsistent, hstep, hpreludes⟩ :=
          h.pack hst hcurrent hnext hmax
        exact ⟨s', _, hread, .step hconsistent [] hstep, hbefore, hpreludes⟩
      | none =>
        obtain ⟨s', cells', outcome, hread, hconsistent, hpreludes, hor⟩ :=
          h.waitOrProduce hst hcurrent hnext hcalloc
        rcases hor with ⟨delay, rfl, hmail, -⟩ | ⟨chunk, rfl, hmail⟩
        · exact ⟨s', _, hread, .same hconsistent hmail, hbefore, hpreludes⟩
        · refine ⟨s', _, hread, .step hconsistent s.dropped ?_, hbefore, hpreludes⟩
          rw [hmail]
          exact .publish _ _ _

lemma Consistent.request (h : s.Consistent cells) {env : RequestEnv}
    (hfresh : ∀ client, env.calloc = some client → client ∉ s.clients) :
    ∃ s' outcome, handleRequest s env = some (s', outcome) ∧
      s.Follows ((ServerLabel.request env outcome).events s'.activeSessionId) s' ∧
      (ServerLabel.request env outcome).Preludes s.preludes s'.preludes := by
  unfold handleRequest
  split_ifs
  · exact ⟨s, _, rfl, .same h rfl, rfl⟩
  · exact ⟨s, _, rfl, .same h rfl, rfl⟩
  cases env.parsed with
  | error status => exact ⟨s, _, rfl, .same h rfl, rfl⟩
  | ok request =>
    cases hcalloc : env.calloc with
    | none => exact ⟨s, _, rfl, .same h rfl, rfl⟩
    | some client =>
      have hclient := hfresh client hcalloc
      dsimp only
      split_ifs with hmatch
      · obtain ⟨hactive, hmode, hcontainer⟩ := matches_session hmatch
        obtain ⟨hconsistent, hmail, hpreludes⟩ := h.toLinked.connect h.owned hactive
          (hmode.symm.trans (h.session.mode_eq hactive).symm)
          (hcontainer.symm.trans (h.session.container_eq hactive).symm) hclient
        refine ⟨_, _, rfl, .step hconsistent [] ?_, hpreludes⟩
        rw [hmail]
        exact .subscribe _ _ _
      · rcases h.replaceSession request env.tune with ⟨rtlSource, hreplace⟩ |
          ⟨s', hreplace, hlinked, hhead, hactive, hmode, hcontainer, hidle, hclients⟩
        · rw [hreplace]
          exact ⟨{ s with rtlSource }, _, rfl, .same (h.withSource rtlSource) rfl, rfl⟩
        · obtain ⟨hconsistent, hmail, hpreludes⟩ := hlinked.connect
            (fun hne => absurd hhead hne) hactive hmode hcontainer (hclients ▸ hclient)
          rw [hreplace]
          refine ⟨_, _, rfl, .step hconsistent s.clients.keys ?_, ?_⟩
          · have hcancelled : s'.mailboxes
                = fun i => if i ∈ s.clients.keys then none else s.mailboxes i := by
              rw [mailboxes_of_idle hidle]
              funext i
              split_ifs with hi
              · rfl
              · exact (mailboxes_of_missing (AList.lookup_eq_none.mpr hi)).symm
            rw [hmail, hcancelled]
            exact .subscribe _ _ _
          · show (s'.connect client request).preludes = _
            rw [hpreludes]
            congr 1
            funext i
            rw [preludes, hclients, preludes]

end Server

/-- A step of the server is one of the mailboxes: some subscriptions end, and what it does to the
queue happens to the mailboxes. -/
theorem ServerStep.follows {s s' : Server} {l : ServerLabel} {cells : List (Ptr × PcmChunk)}
    (h : ServerStep s l s') (hs : s.Consistent cells) (hl : l.Provided) :
    s.Follows (l.events s'.activeSessionId) s' ∧ l.Preludes s.preludes s'.preludes := by
  cases h with
  | request hfresh hstep =>
    obtain ⟨s'', outcome, heq, hfollows⟩ := hs.request hfresh
    obtain ⟨rfl, rfl⟩ : s'' = s' ∧ outcome = _ := by simpa using heq.symm.trans hstep
    exact hfollows
  | read hst _ hstep =>
    obtain ⟨s'', outcome, heq, hfollows⟩ := hs.read hst hl
    obtain ⟨rfl, rfl⟩ : s'' = s' ∧ outcome = _ := by simpa using heq.symm.trans hstep
    exact hfollows
  | @free _ client _ hstep =>
    obtain ⟨s'', cells', heq, hconsistent, hmail, hpreludes⟩ := hs.free client
    obtain rfl : s'' = s' := by simpa using heq.symm.trans hstep
    refine ⟨⟨⟨cells', hconsistent⟩, [client], ?_⟩, hpreludes⟩
    rw [hmail]
    exact .cons (.cancel _ client) (.nil _)
  | @source rtlSource _ => exact ⟨.same (hs.withSource rtlSource) rfl, rfl⟩

end Mpxcast
