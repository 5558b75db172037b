import Mpxcast.Stream.FanOut
import Mpxcast.Stream.Playback

/-!
# What a listener hears

All that a client is sent along a run of the server, from the bytes up: whatever the other clients
do meanwhile, its bytes play as the chunks it was handed, without a gap from the first one produced
after it connected, and the titles among them are those the session showed.
-/

namespace Mpxcast

open LinkedHeap Registry

/-! ### Other clients -/

namespace Server

variable {s s' s'' : Server} {id : ClientId}

/-- A client that is still there has kept what only its own reads change. -/
def Keeps (s s' : Server) (id : ClientId) : Prop :=
  ∀ st', s'.clients.lookup id = some st' → ∃ st, s.clients.lookup id = some st ∧ st.Keeps st'

end Server

lemma ClientStream.Keeps.refl (st : ClientStream) : st.Keeps st := ⟨rfl, rfl, rfl, rfl, rfl⟩

lemma ClientStream.Keeps.trans {st st' st'' : ClientStream} (h : st.Keeps st')
    (h' : st'.Keeps st'') : st.Keeps st'' :=
  ⟨h'.mpegtsMux.trans h.mpegtsMux, h'.icy.trans h.icy, h'.preludePending.trans h.preludePending,
    h'.mode.trans h.mode, h'.container.trans h.container⟩

namespace Server.Keeps

variable {s s' s'' : Server} {id : ClientId}

lemma of_clients (h : s'.clients = s.clients) : s.Keeps s' id :=
  fun st' hst' => ⟨st', h ▸ hst', .refl st'⟩

lemma trans (h : s.Keeps s' id) (h' : s'.Keeps s'' id) : s.Keeps s'' id := by
  intro st'' hst''
  obtain ⟨st', hst', hkeeps'⟩ := h' st'' hst''
  obtain ⟨st, hst, hkeeps⟩ := h st' hst'
  exact ⟨st, hst, hkeeps.trans hkeeps'⟩

/-- All clients are changed by a function that keeps them. -/
lemma of_map {f : ClientStream → ClientStream} (hf : ∀ st : ClientStream, st.Keeps (f st))
    (h : s'.clients.lookup id = (s.clients.lookup id).map f) : s.Keeps s' id := by
  intro st' hst'
  rw [h] at hst'
  obtain ⟨st, hst, rfl⟩ := Option.map_eq_some_iff.mp hst'
  exact ⟨st, hst, hf st⟩

lemma clear (h : serverClearChunks s = some s') : s.Keeps s' id := by
  obtain ⟨chunks, -, heq⟩ := Option.bind_eq_some_iff.mp h
  exact of_clients (Option.some.inj heq ▸ rfl)

lemma prune (h : serverPruneChunks s = some s') : s.Keeps s' id := by
  obtain ⟨chunks, -, heq⟩ := Option.bind_eq_some_iff.mp h
  exact of_clients (Option.some.inj heq ▸ rfl)

lemma dropLagging (s : Server) : s.Keeps s.dropLagging id := by
  refine of_map (fun st => ?_) (s.lookup_dropLagging id)
  split_ifs
  · exact ⟨rfl, rfl, rfl, rfl, rfl⟩
  · exact .refl st

lemma makeChunkRoom {room : Bool} (h : serverMakeChunkRoom s = some (s', room)) :
    s.Keeps s' id := by
  have hround : ∀ t t' : Server × Bool, s.Keeps t.1 id →
      (t.2 && decide (streamMaxBufferedChunks ≤ t.1.chunks.count)) = true →
      serverMakeChunkRoomRound t = some t' → s.Keeps t'.1 id := by
    rintro ⟨t, room⟩ t' ht - hstep
    unfold serverMakeChunkRoomRound at hstep
    dsimp only at hstep
    split_ifs at hstep
    · exact Option.some.inj hstep ▸ ht
    · obtain ⟨pruned, hprune, heq⟩ := Option.bind_eq_some_iff.mp hstep
      obtain rfl := Option.some.inj heq
      exact (ht.trans (dropLagging t)).trans (prune hprune)
  exact (Loop.run_invariant (fun t => s.Keeps t.1 id) hround _ (of_clients rfl) h).1

lemma linkChunk {p : Ptr} {chunk : PcmChunk} (h : s.linkChunk p chunk = some s') :
    s.Keeps s' id := by
  obtain ⟨chunks, -, heq⟩ := Option.bind_eq_some_iff.mp h
  obtain rfl := Option.some.inj heq
  refine of_map (fun st => ?_) (s.lookup_offered p id)
  obtain ⟨nextChunk, hoffered⟩ := s.offered_eq p st
  rw [hoffered]
  exact ⟨rfl, rfl, rfl, rfl, rfl⟩

lemma produceChunk {env : ProduceEnv} {chunk : Option PcmChunk}
    (h : serverProduceChunk s env = some (s', chunk)) : s.Keeps s' id := by
  obtain ⟨⟨roomy, room⟩, hroom, hrest⟩ := Option.bind_eq_some_iff.mp h
  have hroomy : s.Keeps roomy id := makeChunkRoom hroom
  dsimp only at hrest
  split at hrest
  · obtain ⟨rfl, -⟩ := Prod.mk.inj (Option.some.inj hrest)
    exact hroomy
  split at hrest
  · obtain ⟨rfl, -⟩ := Prod.mk.inj (Option.some.inj hrest)
    exact hroomy
  rcases hfill : streamSessionFillPcmChunk roomy.session env.live with ⟨session, frameCount, result⟩
  rw [hfill] at hrest
  have hfilled : s.Keeps { roomy with session, rtlSource := env.rtlSource } id :=
    hroomy.trans (of_clients rfl)
  dsimp only at hrest
  split_ifs at hrest
  · obtain ⟨rfl, -⟩ := Prod.mk.inj (Option.some.inj hrest)
    exact hfilled
  · obtain ⟨linked, hlink, heq⟩ := Option.bind_eq_some_iff.mp hrest
    obtain ⟨rfl, -⟩ := Prod.mk.inj (Option.some.inj heq)
    exact (hfilled.trans (linkChunk hlink)).trans (of_clients rfl)

lemma produce {env : ReaderEnv} {outcome : ReaderOutcome}
    (h : streamContentProduce s env = some (s', outcome)) : s.Keeps s' id := by
  unfold streamContentProduce at h
  dsimp only at h
  have hclock : s.Keeps { s with session := streamSessionStartClock s.session env.startedAt } id :=
    of_clients rfl
  split_ifs at h
  · obtain ⟨⟨produced, chunk⟩, hproduce, hrest⟩ := Option.bind_eq_some_iff.mp h
    have hproduced : s.Keeps produced id := hclock.trans (produceChunk hproduce)
    dsimp only at hrest
    split at hrest <;> obtain ⟨rfl, -⟩ := Prod.mk.inj (Option.some.inj hrest) <;> exact hproduced
  · obtain ⟨rfl, -⟩ := Prod.mk.inj (Option.some.inj h)
    exact hclock

/-- Replacing the session leaves the clients of the old one alone. -/
lemma replaceSession {request : StreamHttpRequest} {tune : RtlTuneEnv}
    {failed : Option RejectReason}
    (h : serverReplaceSession s request tune = some (s', failed)) : s.Keeps s' id := by
  unfold serverReplaceSession at h
  rcases htune : rtlSourceTune s.rtlSource request.frequencyHz tune with ⟨rtlSource, tuned⟩
  rw [htune] at h
  dsimp only at h
  have htuned : s.Keeps { s with rtlSource } id := of_clients rfl
  split_ifs at h
  · obtain ⟨rfl, -⟩ := Prod.mk.inj (Option.some.inj h)
    exact htuned
  all_goals
    obtain ⟨cleared, hclear, hrest⟩ := Option.bind_eq_some_iff.mp h
    obtain ⟨rfl, -⟩ := Prod.mk.inj (Option.some.inj hrest)
    exact (htuned.trans (clear hclear)).trans (of_clients rfl)

lemma connect {client : ClientId} (hne : id ≠ client) (request : StreamHttpRequest) :
    s.Keeps (s.connect client request) id := by
  intro st' hst'
  rw [Server.lookup_connect, if_neg hne] at hst'
  exact ⟨st', hst', .refl st'⟩

lemma setClient {client : ClientId} {st : ClientStream} (hst : s.clients.lookup client = some st)
    (hne : id ≠ client) (stream : ClientStream) : s.Keeps (s.setClient client stream) id := by
  intro st' hst'
  rw [Server.lookup_setClient hst, if_neg hne] at hst'
  exact ⟨st', hst', .refl st'⟩

/-- A read changes another client at most as producing a chunk does. -/
lemma read {client : ClientId} {st : ClientStream} (hst : s.clients.lookup client = some st)
    (hne : id ≠ client) {env : ReaderEnv} {outcome : ReaderOutcome}
    (h : streamContentReader s client st env = some (s', outcome)) : s.Keeps s' id := by
  unfold streamContentReader at h
  split_ifs at h
  · have hread := Option.some.inj h
    unfold streamContentPrelude at hread
    split at hread
    · obtain ⟨rfl, -⟩ := Prod.mk.inj hread
      exact setClient hst hne _
    · split_ifs at hread <;> obtain ⟨rfl, -⟩ := Prod.mk.inj hread <;> exact setClient hst hne _
  · obtain ⟨rfl, -⟩ := Prod.mk.inj (Option.some.inj h)
    exact of_clients rfl
  split at h
  · obtain ⟨node, -, hrest⟩ := Option.bind_eq_some_iff.mp h
    obtain ⟨⟨stream, packed⟩, -, hrest⟩ := Option.bind_eq_some_iff.mp hrest
    have hset : s.Keeps (s.setClient client stream) id := setClient hst hne stream
    dsimp only at hrest
    split at hrest
    · obtain ⟨rfl, -⟩ := Prod.mk.inj (Option.some.inj hrest)
      exact hset
    split_ifs at hrest
    · obtain ⟨rfl, -⟩ := Prod.mk.inj (Option.some.inj hrest)
      exact hset
    · obtain ⟨pruned, hprune, heq⟩ := Option.bind_eq_some_iff.mp hrest
      obtain ⟨rfl, -⟩ := Prod.mk.inj (Option.some.inj heq)
      exact hset.trans (prune hprune)
  · exact produce h

lemma request {env : RequestEnv} {outcome : RequestOutcome}
    (h : handleRequest s env = some (s', outcome)) (hnew : outcome ≠ .connected id) :
    s.Keeps s' id := by
  rcases handleRequest_cases h with ⟨rfl, -⟩ | ⟨client, request, rfl, rfl⟩ |
    ⟨client, request, replaced, rfl, rfl, hreplace⟩ | ⟨request, reason, -, hreplace⟩
  · exact of_clients rfl
  · exact connect (fun heq : id = client => hnew (heq ▸ rfl)) request
  · exact (replaceSession hreplace).trans
      (connect (fun heq : id = client => hnew (heq ▸ rfl)) request)
  · exact replaceSession hreplace

lemma free {client : ClientId} (h : streamContentFree s client = some s') : s.Keeps s' id := by
  have herase : s.Keeps { s with clients := s.clients.erase client } id := by
    intro st' hst'
    exact ⟨st', s.lookup_of_without hst', .refl st'⟩
  unfold streamContentFree at h
  dsimp only at h
  split_ifs at h
  · obtain ⟨cleared, hclear, heq⟩ := Option.bind_eq_some_iff.mp h
    obtain rfl := Option.some.inj heq
    exact (herase.trans (clear hclear)).trans (of_clients rfl)
  · exact herase.trans (prune h)

end Server.Keeps

/-! ### Its own reads -/

/-- The bytes that a read hands out. -/
def ReaderOutcome.bytes : ReaderOutcome → List UInt8
  | .prelude bytes => bytes
  | .packed _ bytes => bytes
  | _ => []

/-- All bytes that a client was handed. -/
def sentBytes (client : ClientId) (ls : List ServerLabel) : List UInt8 :=
  (outcomes client ls).flatMap ReaderOutcome.bytes

variable {s s' : Server} {cells : List (Ptr × PcmChunk)} {client : ClientId}
  {stream st : ClientStream} {bytes : List UInt8} {chunks : List PcmChunk}
  {shown : List IcyMetadataState} {env : ReaderEnv} {outcome : ReaderOutcome}

lemma sends_prelude (h : s.Consistent cells) (hst : s.clients.lookup client = some st)
    (hmax : streamBufferSize ≤ env.max) (hpending : st.preludePending = true)
    (hread : streamContentPrelude s client st env.max = (s', outcome))
    (hsends : Sends stream bytes chunks shown st) :
    ∃ prelude st', outcome = .prelude prelude ∧ s'.clients.lookup client = some st' ∧
      Sends stream (bytes ++ prelude) chunks shown st' := by
  obtain ⟨s'', prelude, hspec, -⟩ := h.prelude hst hmax
  obtain ⟨rfl, rfl⟩ := Prod.mk.inj (hspec.symm.trans hread)
  unfold streamContentPrelude at hread
  rcases hbuild : clientStreamBuildPrelude st with ⟨built, _ | written⟩
  · rw [hbuild] at hread
    exact nomatch (Prod.mk.inj hread).2
  · rw [hbuild] at hread
    dsimp only at hread
    split_ifs at hread
    · exact nomatch (Prod.mk.inj hread).2
    obtain ⟨rfl, hprelude⟩ := Prod.mk.inj hread
    obtain rfl := ReaderOutcome.prelude.inj hprelude
    exact ⟨_, _, rfl, by rw [Server.lookup_setClient hst, if_pos rfl],
      hsends.prelude hpending hbuild⟩

lemma sends_pack (h : s.Consistent cells) (hst : s.clients.lookup client = some st)
    (hcurrent : s.isCurrent st = true) {p : Ptr} (hnext : st.nextChunk = some p)
    (hmax : streamBufferSize ≤ env.max) (hpending : st.preludePending = false)
    (hread : streamContentPack s client st p env.max = some (s', outcome))
    (hsends : Sends stream bytes chunks shown st) :
    ∃ chunk packed st', outcome = .packed chunk packed ∧ s'.clients.lookup client = some st' ∧
      Sends stream (bytes ++ packed) (chunks ++ [chunk]) (shown ++ [s.session.icy]) st' := by
  have hwell : st.icy.enabled = true → s.session.icy.WellFormed := fun henabled =>
    (h.session.ready (h.active_iff.mpr ⟨client, st, hst, hcurrent⟩)).wellFormed
      (((h.client client st hst).same hcurrent).2.2.symm.trans henabled)
  obtain ⟨s'', cells', chunk, packed, hspec, -⟩ := h.pack hst hcurrent hnext hmax
  obtain ⟨rfl, rfl⟩ := Prod.mk.inj (Option.some.inj (hspec.symm.trans hread))
  obtain ⟨node, -, hrest⟩ := Option.bind_eq_some_iff.mp hread
  obtain ⟨⟨written, result⟩, hpack, hrest⟩ := Option.bind_eq_some_iff.mp hrest
  dsimp only at hrest
  cases result with
  | none => exact nomatch (Prod.mk.inj (Option.some.inj hrest)).2
  | some out =>
    dsimp only at hrest
    split_ifs at hrest
    · exact nomatch (Prod.mk.inj (Option.some.inj hrest)).2
    obtain ⟨pruned, hprune, heq⟩ := Option.bind_eq_some_iff.mp hrest
    obtain ⟨rfl, houtcome⟩ := Prod.mk.inj (Option.some.inj heq)
    obtain ⟨rfl, rfl⟩ := ReaderOutcome.packed.inj houtcome
    obtain ⟨chunks, -, hpruned⟩ := Option.bind_eq_some_iff.mp hprune
    have hmoved : st.Keeps { st with nextChunk := node.next } := ⟨rfl, rfl, rfl, rfl, rfl⟩
    refine ⟨_, _, written, rfl, ?_, (hsends.keeps hmoved).chunk hpending hwell hpack⟩
    rw [← Option.some.inj hpruned]
    show (s.setClient client written).clients.lookup client = some written
    rw [Server.lookup_setClient hst, if_pos rfl]

/-- What a read hands out goes on with what the client was sent, and leaves the client in the state
that this leads to. -/
lemma sends_read (h : s.Consistent cells) (hst : s.clients.lookup client = some st)
    (henv : env.Provided) (hread : streamContentReader s client st env = some (s', outcome))
    (hsends : Sends stream bytes chunks shown st) :
    ∃ shown' st', Sends stream (bytes ++ sentBytes client [.read client env outcome])
        (chunks ++ chunksRead client [.read client env outcome]) (shown ++ shown') st' ∧
      (∀ st'', s'.clients.lookup client = some st'' → st'.Keeps st'') ∧
      ∀ metadata ∈ shown', metadata = s.session.icy := by
  have hbytes : sentBytes client [.read client env outcome] = outcome.bytes := by
    simp [sentBytes, outcomes_read]
  have hnothing (hkeeps : s.Keeps s' client) (hempty : outcome.bytes = [])
      (hnone : chunksRead client [.read client env outcome] = []) :
      ∃ shown' st', Sends stream (bytes ++ sentBytes client [.read client env outcome])
          (chunks ++ chunksRead client [.read client env outcome]) (shown ++ shown') st' ∧
        (∀ st'', s'.clients.lookup client = some st'' → st'.Keeps st'') ∧
        ∀ metadata ∈ shown', metadata = s.session.icy := by
    refine ⟨[], st, by simpa [hbytes, hempty, hnone] using hsends, fun st'' hst'' => ?_, by simp⟩
    obtain ⟨old, hold, hkept⟩ := hkeeps st'' hst''
    obtain rfl := Option.some.inj (hold.symm.trans hst)
    exact hkept
  unfold streamContentReader at hread
  split_ifs at hread with hpending hover
  · obtain ⟨prelude, st', rfl, hst', hsends'⟩ :=
      sends_prelude h hst henv.1 hpending (Option.some.inj hread) hsends
    refine ⟨[], st', ?_, fun st'' hst'' => ?_, by simp⟩
    · simpa [hbytes, chunksRead, outcomes, ReaderOutcome.bytes] using hsends'
    · obtain rfl := Option.some.inj (hst'.symm.trans hst'')
      exact .refl st'
  · obtain ⟨rfl, rfl⟩ := Prod.mk.inj (Option.some.inj hread)
    exact hnothing (.of_clients rfl) rfl (by simp [chunksRead, outcomes])
  simp only [Bool.or_eq_true, Bool.not_eq_true', decide_eq_true_iff, not_or, not_not] at hover
  have hcurrent : s.isCurrent st = true := Server.isCurrent_iff.mpr hover.2.symm
  cases hnext : st.nextChunk with
  | some p =>
    rw [hnext] at hread
    obtain ⟨chunk, packed, st', rfl, hst', hsends'⟩ :=
      sends_pack h hst hcurrent hnext henv.1 (Bool.eq_false_iff.mpr hpending) hread hsends
    refine ⟨[s.session.icy], st', ?_, fun st'' hst'' => ?_, by simp⟩
    · simpa [hbytes, chunksRead, outcomes, ReaderOutcome.bytes] using hsends'
    · obtain rfl := Option.some.inj (hst'.symm.trans hst'')
      exact .refl st'
  | none =>
    rw [hnext] at hread
    obtain ⟨s'', cells', outcome', hspec, -, -, hor⟩ := h.waitOrProduce hst hcurrent hnext henv.2
    obtain ⟨rfl, rfl⟩ := Prod.mk.inj (Option.some.inj (hspec.symm.trans hread))
    have hkeeps : s.Keeps s'' client := .produce hread
    rcases hor with ⟨delay, rfl, -⟩ | ⟨chunk, rfl, -⟩
    · exact hnothing hkeeps rfl (by simp [chunksRead, outcomes])
    · exact hnothing hkeeps rfl (by simp [chunksRead, outcomes])

/-! ### A whole run -/

/-- A step in which a client neither connects nor reads keeps it. -/
lemma ServerStep.keeps {l : ServerLabel} (h : ServerStep s l s') (hnew : ¬l.Connects client)
    (hother : outcomes client [l] = []) : s.Keeps s' client := by
  cases h with
  | @request _ _ outcome _ hrequest =>
    refine .request hrequest fun hconnected => hnew ?_
    rw [hconnected]
    exact rfl
  | @read _ id _ _ _ hst _ hread =>
    refine .read hst (fun heq => ?_) hread
    rw [heq, outcomes_read] at hother
    exact List.cons_ne_nil _ _ hother
  | free _ hfree => exact .free hfree
  | source _ => exact .of_clients rfl

lemma sentBytes_append (ls ls' : List ServerLabel) :
    sentBytes client (ls ++ ls') = sentBytes client ls ++ sentBytes client ls' := by
  rw [sentBytes, outcomes, List.filterMap_append, List.flatMap_append]
  rfl

lemma chunksRead_append (ls ls' : List ServerLabel) :
    chunksRead client (ls ++ ls') = chunksRead client ls ++ chunksRead client ls' := by
  rw [chunksRead, outcomes, List.filterMap_append, List.filterMap_append]
  rfl

/-- The metadata is what the session has at some point of the run. -/
def ShownBy (s : Server) (ls : List ServerLabel) (metadata : IcyMetadataState) : Prop :=
  ∃ early late t, ls = early ++ late ∧ serverLts.Run s early t ∧ metadata = t.session.icy

/-- Along a run in which a client does not connect again, what it is sent is its prelude and then
its chunks, under metadata that the session had. -/
lemma sends_of_run {ls : List ServerLabel} (h : serverLts.Run s ls s')
    (hs : ∃ cells, s.Consistent cells) (hl : ∀ l ∈ ls, l.Provided)
    (hnew : ∀ l ∈ ls, ¬l.Connects client) (hst : s.clients.lookup client = some stream) :
    ∃ shown st, Sends stream (sentBytes client ls) (chunksRead client ls) shown st ∧
      (∀ st', s'.clients.lookup client = some st' → st.Keeps st') ∧
      ∀ metadata ∈ shown, ShownBy s ls metadata := by
  induction ls using List.reverseRecOn generalizing s' with
  | nil =>
    obtain rfl := Lts.run_nil_iff.mp h
    refine ⟨[], stream, .start, fun st' hst' => ?_, by simp⟩
    obtain rfl := Option.some.inj (hst.symm.trans hst')
    exact .refl stream
  | append_singleton ls l ih =>
    obtain ⟨t, hrun, hlast⟩ := Lts.run_append_iff.mp h
    obtain ⟨t', hstep, hend⟩ := Lts.run_cons_iff.mp hlast
    obtain rfl := Lts.run_nil_iff.mp hend
    have hprovided : ∀ l ∈ ls, l.Provided := fun l hm => hl l (List.mem_append_left _ hm)
    obtain ⟨shown, st, hsends, hkept, hshown⟩ :=
      ih hrun hprovided fun l hm => hnew l (List.mem_append_left _ hm)
    obtain ⟨cells, ht⟩ := consistent_of_run hrun hs hprovided
    have hlabel : l ∈ ls ++ [l] := List.mem_append_right _ List.mem_cons_self
    have hearlier : ∀ metadata ∈ shown, ShownBy s (ls ++ [l]) metadata := by
      intro metadata hmem
      obtain ⟨early, late, u, rfl, hearly, hmetadata⟩ := hshown metadata hmem
      exact ⟨early, late ++ [l], u, List.append_assoc .., hearly, hmetadata⟩
    rw [sentBytes_append, chunksRead_append]
    by_cases hother : outcomes client [l] = []
    · have hkeeps := ServerStep.keeps hstep (hnew l hlabel) hother
      refine ⟨shown, st, ?_, fun st'' hst'' => ?_, hearlier⟩
      · simpa [sentBytes, chunksRead, hother] using hsends
      · obtain ⟨st', hst', hkept'⟩ := hkeeps st'' hst''
        exact (hkept st' hst').trans hkept'
    · obtain ⟨env, outcome, rfl⟩ : ∃ env outcome, l = .read client env outcome := by
        cases l with
        | read id env outcome =>
          by_cases hid : id = client
          · exact ⟨env, outcome, hid ▸ rfl⟩
          · exact absurd (by simp [outcomes, hid]) hother
        | request env outcome => exact absurd rfl hother
        | free id => exact absurd rfl hother
        | source => exact absurd rfl hother
      cases hstep with
      | @read _ _ st' _ _ hst' _ hread =>
        obtain ⟨shown', st'', hsends', hkept', hshown'⟩ :=
          sends_read ht hst' (hl _ hlabel) hread (hsends.keeps (hkept st' hst'))
        refine ⟨shown ++ shown', st'', hsends', hkept', fun metadata hmem => ?_⟩
        rcases List.mem_append.mp hmem with hmem | hmem
        · exact hearlier metadata hmem
        · exact ⟨ls, _, t, rfl, hrun, hshown' metadata hmem⟩

/-- A client that has connected has the settings of its request. -/
lemma connected_request {env : RequestEnv}
    (h : ServerStep s (.request env (.connected client)) s') :
    ∃ request, ∃ t : Server, env.parsed = .ok request ∧ s' = t.connect client request := by
  cases h with
  | request _ hrequest =>
    unfold handleRequest at hrequest
    split_ifs at hrequest
    · exact nomatch (Prod.mk.inj (Option.some.inj hrequest)).2
    · exact nomatch (Prod.mk.inj (Option.some.inj hrequest)).2
    cases hparsed : env.parsed with
    | error status =>
      rw [hparsed] at hrequest
      exact nomatch (Prod.mk.inj (Option.some.inj hrequest)).2
    | ok request =>
      rw [hparsed] at hrequest
      cases hcalloc : env.calloc with
      | none =>
        rw [hcalloc] at hrequest
        exact nomatch (Prod.mk.inj (Option.some.inj hrequest)).2
      | some id =>
        rw [hcalloc] at hrequest
        dsimp only at hrequest
        split_ifs at hrequest
        · obtain ⟨rfl, hid⟩ := Prod.mk.inj (Option.some.inj hrequest)
          exact ⟨request, s, rfl, by rw [RequestOutcome.connected.inj hid]⟩
        · obtain ⟨⟨replaced, failed⟩, -, hrest⟩ := Option.bind_eq_some_iff.mp hrequest
          cases failed with
          | none =>
            obtain ⟨rfl, hid⟩ := Prod.mk.inj (Option.some.inj hrest)
            exact ⟨request, replaced, rfl, by rw [RequestOutcome.connected.inj hid]⟩
          | some reason => exact nomatch (Prod.mk.inj (Option.some.inj hrest)).2

/-- **What a listener hears.** A client connects in some run and does not connect again. Whatever
else happens, as soon as it has been sent anything, a player of the container it asked for, set to
the format it asked for, makes of all its bytes the samples of the chunks it was handed, which are
those produced for its session from its first one on. The metadata blocks that the player strips are
those that the session had at some point. -/
theorem listener_hears {s₀ s₁ s₂ : Server} {before after : List ServerLabel} {env : RequestEnv}
    (hinit : serverLts.init s₀)
    (hbefore : serverLts.Run s₀ (before ++ [.request env (.connected client)]) s₁)
    (hafter : serverLts.Run s₁ after s₂) (hprovided : ∀ l ∈ before ++ after, l.Provided)
    (hnew : ∀ l ∈ after, ¬l.Connects client) :
    ∃ request st, env.parsed = .ok request ∧ s₁.clients.lookup client = some st ∧
      chunksRead client after <+: chunksProduced s₁.activeSessionId after ∧
      (sentBytes client after = [] ∧ chunksRead client after = [] ∨
        request.container.play request.mode.pcmFormat
            (icyStrip st.icy.enabled (sentBytes client after)).1
          = some ((chunksRead client after).flatMap (PcmChunk.audio request.mode)) ∧
        ∀ block ∈ (icyStrip st.icy.enabled (sentBytes client after)).2,
          ∃ early late s, after = early ++ late ∧ serverLts.Run s₁ early s ∧
            block = s.session.icy.block) := by
  have hprovided₀ : ∀ l ∈ before, l.Provided := fun l hm => hprovided l (List.mem_append_left _ hm)
  have hprovided₁ : ∀ l ∈ after, l.Provided := fun l hm => hprovided l (List.mem_append_right _ hm)
  obtain ⟨s, hrun, hlast⟩ := Lts.run_append_iff.mp hbefore
  obtain ⟨s', hstep, hend⟩ := Lts.run_cons_iff.mp hlast
  obtain rfl := Lts.run_nil_iff.mp hend
  have hs : s.Reached := ⟨s₀, before, hinit, hrun, hprovided₀⟩
  have hs₁ : s'.Reached := hs.run (.cons hstep (.nil _)) (by simp [ServerLabel.Provided])
  obtain ⟨hmail, -⟩ := connected_spec hstep hs.consistent
  obtain ⟨hread, -⟩ := chunksRead_of_subscribed hafter hs₁.consistent hprovided₁ hnew hmail
  obtain ⟨request, t, hparsed, rfl⟩ := connected_request hstep
  have hst : (t.connect client request).clients.lookup client = some (t.subscriber request) := by
    rw [Server.lookup_connect, if_pos rfl]
  obtain ⟨shown, st, hsends, -, hshown⟩ :=
    sends_of_run hafter hs₁.consistent hprovided₁ hnew hst
  refine ⟨request, t.subscriber request, hparsed, hst, hread, ?_⟩
  cases hpending : st.preludePending with
  | true => exact .inl (hsends.nothing rfl rfl hpending)
  | false =>
    obtain ⟨hplays, hblocks⟩ := hsends.plays rfl rfl hpending
    refine .inr ⟨hplays, fun block hblock => ?_⟩
    obtain ⟨metadata, hmem, rfl⟩ := hblocks block hblock
    obtain ⟨early, late, u, hsplit, hearly, rfl⟩ := hshown metadata hmem
    exact ⟨early, late, u, hsplit, hearly, rfl⟩

/-- A client connects and reads its prelude; a chunk is produced for it, which it reads. -/
lemma exists_oneChunk_run : ∃ s₁ s₂ after chunk,
    serverLts.Run (serverInit Server.silentFile)
      ([] ++ [.request (Server.wavRequest 1) (.connected 1)]) s₁ ∧
    serverLts.Run s₁ after s₂ ∧ (∀ l ∈ after, l.Provided) ∧ (∀ l ∈ after, ¬l.Connects 1) ∧
    chunksRead 1 after = [chunk] := by
  obtain ⟨s₁, st₁, hconnect, -, -, -, -, hid, -⟩ := Server.exists_connected
  obtain ⟨cells, h₁⟩ :=
    (Server.Reached.of_step Server.serverInit_silentFile hconnect trivial).consistent
  obtain ⟨hmail, hpreludes⟩ := connected_spec hconnect ⟨_, consistent_serverInit _⟩
  obtain ⟨s₂, bytes, hprelude, h₂, hmail₂, hpreludes₂, -⟩ := exists_prelude_step h₁ hpreludes
  rw [hid] at hmail
  obtain ⟨s₃, s₄, -, chunk, bytes', hproduce, hpack, -⟩ :=
    exists_chunk_steps h₂ (hmail₂ ▸ hmail) hpreludes₂
  refine ⟨s₁, s₄, _, chunk, .cons hconnect (.nil s₁),
    .cons hprelude (.cons hproduce (.cons hpack (.nil s₄))), ?_, ?_, ?_⟩
  · simp [ServerLabel.Provided, punctualReader_provided]
  · simp [ServerLabel.Connects]
  · simp [chunksRead, outcomes]

/-- The first chunk of a mono WAV stream is played. -/
theorem listener_hears_oneChunk : ∃ s₁ s₂ after chunk st,
    serverLts.Run (serverInit Server.silentFile)
      ([] ++ [.request (Server.wavRequest 1) (.connected 1)]) s₁ ∧
    serverLts.Run s₁ after s₂ ∧ chunksRead 1 after = [chunk] ∧
    s₁.clients.lookup 1 = some st ∧
    WaveStream.play ⟨1, 48000, 16⟩ (icyStrip st.icy.enabled (sentBytes 1 after)).1
      = some (chunk.audio .mono) := by
  obtain ⟨s₁, s₂, after, chunk, hbefore, hafter, hprovided, hnew, hchunk⟩ := exists_oneChunk_run
  obtain ⟨request, st, hparsed, hst, -, hheard⟩ :=
    listener_hears Server.serverInit_silentFile hbefore hafter hprovided hnew
  obtain rfl := Except.ok.inj hparsed
  refine ⟨s₁, s₂, after, chunk, st, hbefore, hafter, hchunk, hst, ?_⟩
  rw [hchunk] at hheard
  rcases hheard with ⟨-, hnone⟩ | ⟨hplays, -⟩
  · exact absurd hnone (List.cons_ne_nil _ _)
  · rw [List.flatMap_singleton] at hplays
    exact hplays

end Mpxcast
