import Mpxcast.Core.PubSub
import Mpxcast.Stream.Packing
import Mpxcast.Stream.Server

/-!
# The chunk queue of the server

What holds between the sections of the server lock: the chunk list and its pointers, the cursors of
the current clients, and the settings they share with the session. Every function that edits the
queue is shown to keep this, and to do to the unread chunks of each client what a mailbox would see.
-/

namespace Mpxcast

open LinkedHeap Registry

namespace Server

lemma isCurrent_iff {s : Server} {st : ClientStream} :
    s.isCurrent st = true ↔ st.sessionId = s.activeSessionId := decide_eq_true_iff

/-- A client of the server: if it is current, it has a cursor into the queue and the settings of the
session. -/
structure ClientOk (s : Server) (cells : List (Ptr × PcmChunk)) (st : ClientStream) : Prop where
  cursor : s.isCurrent st = true → ∃ rest, Queue.Cursor cells st.nextChunk rest
  id_le : st.sessionId ≤ s.activeSessionId
  same : s.isCurrent st = true → st.mode = s.session.mode ∧ st.container = s.session.container ∧
    st.icy.enabled = s.session.icy.enabled
  ready : st.Ready
  dropped : st.droppedForLag = true → s.isCurrent st = false

/-- The session: if it is active, it can be sent, with the settings it was asked for. -/
structure SessionOk (s : Server) : Prop where
  id_pos : s.sessionActive = true → 0 < s.activeSessionId
  mode_eq : s.sessionActive = true → s.session.mode = s.sessionRequest.mode
  container_eq : s.sessionActive = true → s.session.container = s.sessionRequest.container
  ready : s.sessionActive = true → s.session.Ready

/-- A change that does not concern the session. -/
lemma SessionOk.congr {s s' : Server} (h : s.SessionOk) (hsession : s'.session = s.session)
    (hrequest : s'.sessionRequest = s.sessionRequest)
    (hactive : s'.sessionActive = s.sessionActive)
    (hid : s'.activeSessionId = s.activeSessionId) : s'.SessionOk := by
  refine ⟨?_, ?_, ?_, ?_⟩ <;> rw [hactive]
  · rw [hid]
    exact h.id_pos
  · rw [hsession, hrequest]
    exact h.mode_eq
  · rw [hsession, hrequest]
    exact h.container_eq
  · rw [hsession]
    exact h.ready

lemma ClientOk.congr {s s' : Server} {cells : List (Ptr × PcmChunk)} {st : ClientStream}
    (h : s.ClientOk cells st) (hsession : s'.session = s.session)
    (hid : s'.activeSessionId = s.activeSessionId) : s'.ClientOk cells st := by
  have hcurrent : s'.isCurrent st = s.isCurrent st := by rw [isCurrent, hid, isCurrent]
  refine ⟨?_, hid ▸ h.id_le, ?_, h.ready, ?_⟩ <;> rw [hcurrent]
  · exact h.cursor
  · rw [hsession]
    exact h.same
  · exact h.dropped

/-- The queue with the cursors in it. -/
structure Linked (s : Server) (cells : List (Ptr × PcmChunk)) : Prop where
  holds : s.chunks.Holds cells
  bounded : cells.length ≤ streamMaxBufferedChunks
  frames : ∀ cell ∈ cells, cell.2.frameCount = streamSessionMaxAudioFramesPerChunk
  session : s.SessionOk
  client : ∀ id st, s.clients.lookup id = some st → s.ClientOk cells st

/-- The oldest chunk is the next one of some current client. -/
def Owned (s : Server) : Prop :=
  s.chunks.head ≠ none → ∃ id st, s.clients.lookup id = some st ∧ s.isCurrent st = true ∧
    st.nextChunk = s.chunks.head

/-- Some client belongs to the session. -/
def HasCurrent (s : Server) : Prop :=
  ∃ id st, s.clients.lookup id = some st ∧ s.isCurrent st = true

/-- The session is active as long as it has clients. -/
def ActiveIff (s : Server) : Prop := s.sessionActive = true ↔ s.HasCurrent

structure Consistent (s : Server) (cells : List (Ptr × PcmChunk)) :
    Prop extends Linked s cells where
  owned : s.Owned
  active_iff : s.ActiveIff

/-- What a client has not read yet, if it is current. -/
def mailboxes (s : Server) : PubSub.State ClientId ℕ PcmChunk := fun id =>
  (s.clients.lookup id).bind fun st =>
    if s.isCurrent st then some (s.activeSessionId, s.chunks.unread st.nextChunk) else none

/-- Whether a client still waits for its prelude. -/
def preludes (s : Server) : ClientId → Option Bool := fun id =>
  (s.clients.lookup id).map ClientStream.preludePending

lemma mailboxes_of_lookup {s : Server} {id : ClientId} {st : ClientStream}
    (hst : s.clients.lookup id = some st) : s.mailboxes id =
      if s.isCurrent st then some (s.activeSessionId, s.chunks.unread st.nextChunk) else none := by
  rw [mailboxes, hst, Option.bind_some]

lemma mailboxes_of_missing {s : Server} {id : ClientId} (hst : s.clients.lookup id = none) :
    s.mailboxes id = none := by
  rw [mailboxes, hst, Option.bind_none]

lemma mailboxes_of_stale {s : Server} {id : ClientId} {st : ClientStream}
    (hst : s.clients.lookup id = some st) (hstale : s.isCurrent st = false) :
    s.mailboxes id = none := by
  rw [mailboxes_of_lookup hst, if_neg (Bool.eq_false_iff.mp hstale)]

lemma Linked.mailbox_eq {s : Server} {cells rest : List (Ptr × PcmChunk)} (h : s.Linked cells)
    {id : ClientId} {st : ClientStream} (hst : s.clients.lookup id = some st)
    (hcurrent : s.isCurrent st = true) (hrest : Queue.Cursor cells st.nextChunk rest) :
    s.mailboxes id = some (s.activeSessionId, vals rest) := by
  rw [mailboxes_of_lookup hst, if_pos hcurrent, hrest.unread_eq h.holds]

lemma mailboxes_of_idle {s : Server} (hidle : ¬s.HasCurrent) : s.mailboxes = fun _ => none := by
  funext id
  cases hst : s.clients.lookup id with
  | none => exact mailboxes_of_missing hst
  | some st =>
    refine mailboxes_of_stale hst (Bool.eq_false_iff.mpr fun hcurrent => ?_)
    exact hidle ⟨id, st, hst, hcurrent⟩

lemma serverHasCurrentClients_iff {s : Server} :
    serverHasCurrentClients s = true ↔ s.HasCurrent := by
  rw [serverHasCurrentClients, serverClientCount, decide_eq_true_iff,
    List.length_pos_iff_exists_mem]
  constructor
  · rintro ⟨⟨id, st⟩, hmem⟩
    obtain ⟨hmem, hcurrent⟩ := List.mem_filter.mp hmem
    exact ⟨id, st, AList.mem_lookup_iff.mpr hmem, hcurrent⟩
  · rintro ⟨id, st, hst, hcurrent⟩
    exact ⟨⟨id, st⟩, List.mem_filter.mpr ⟨AList.mem_lookup_iff.mp hst, hcurrent⟩⟩

lemma serverClearChunks_spec {s : Server} {cells : List (Ptr × PcmChunk)}
    (h : s.chunks.Holds cells) :
    ∃ chunks, serverClearChunks s = some { s with chunks } ∧ chunks.Holds [] := by
  obtain ⟨chunks, hclear, hholds⟩ := h.clear
  exact ⟨chunks, by rw [serverClearChunks, hclear]; rfl, hholds⟩

lemma hasReader_iff {s : Server} {p : Ptr} : s.hasReader p = true ↔
    ∃ id st, s.clients.lookup id = some st ∧ s.isCurrent st = true ∧ st.nextChunk = some p := by
  have hany := any_entries_iff s.clients fun st =>
    s.isCurrent st && decide (st.nextChunk = some p)
  simp only [Bool.and_eq_true, decide_eq_true_iff] at hany
  exact hany

/-! ### Pruning -/

/-- Pruning frees what every current client has read, and nothing that one of them has not. -/
lemma Linked.prune {s : Server} {cells : List (Ptr × PcmChunk)} (h : s.Linked cells) :
    ∃ chunks, serverPruneChunks s = some { s with chunks } ∧
      ({ s with chunks } : Server).Linked (cells.dropWhile fun c => !s.hasReader c.1) ∧
      ({ s with chunks } : Server).Owned ∧
        ({ s with chunks } : Server).mailboxes = s.mailboxes := by
  obtain ⟨chunks, hprune, hholds⟩ := h.holds.prune s.hasReader
  have hcursor : ∀ id st, s.clients.lookup id = some st → s.isCurrent st = true → ∀ rest,
      Queue.Cursor cells st.nextChunk rest →
      Queue.Cursor (cells.dropWhile fun c => !s.hasReader c.1) st.nextChunk rest :=
    fun id st hst hcurrent rest hrest =>
      hrest.prune fun p hp => hasReader_iff.mpr ⟨id, st, hst, hcurrent, hp⟩
  have hsuffix : (cells.dropWhile fun c => !s.hasReader c.1) <:+ cells := List.dropWhile_suffix _
  refine ⟨chunks, by rw [serverPruneChunks, hprune]; rfl, ?_, ?_, ?_⟩
  · refine ⟨hholds, hsuffix.length_le.trans h.bounded, fun cell hcell => ?_, ?_,
      fun id st hst => ?_⟩
    · exact h.frames cell (hsuffix.subset hcell)
    · exact h.session.congr rfl rfl rfl rfl
    · obtain ⟨cursor, id_le, same, ready, dropped⟩ := h.client id st hst
      refine ⟨fun hcurrent => ?_, id_le, same, ready, dropped⟩
      obtain ⟨rest, hrest⟩ := cursor hcurrent
      exact ⟨rest, hcursor id st hst hcurrent rest hrest⟩
  · intro hhead
    have hfirst := List.head?_dropWhile_not (fun c : Ptr × PcmChunk => !s.hasReader c.1) cells
    have hheadEq : chunks.head = _ := hholds.head_eq
    show ∃ id st, s.clients.lookup id = some st ∧ s.isCurrent st = true ∧ st.nextChunk = chunks.head
    change chunks.head ≠ none at hhead
    rw [hheadEq] at hhead ⊢
    cases hcell : (cells.dropWhile fun c => !s.hasReader c.1).head? with
    | none => simp [hcell] at hhead
    | some cell =>
      rw [hcell] at hfirst
      exact hasReader_iff.mp (by simpa using hfirst)
  · funext id
    cases hst : s.clients.lookup id with
    | none => rw [mailboxes_of_missing hst, mailboxes_of_missing (s := { s with chunks }) hst]
    | some st =>
      rw [mailboxes_of_lookup hst, mailboxes_of_lookup (s := { s with chunks }) hst]
      refine ite_congr rfl (fun hcurrent => ?_) fun _ => rfl
      obtain ⟨rest, hrest⟩ := (h.client id st hst).cursor hcurrent
      show some (s.activeSessionId, chunks.unread st.nextChunk) = _
      rw [(hcursor id st hst hcurrent rest hrest).unread_eq hholds, hrest.unread_eq h.holds]

/-! ### Making room -/

lemma lags_iff {s : Server} {st : ClientStream} :
    s.lags st = true ↔ s.isCurrent st = true ∧ st.nextChunk = s.chunks.head := by
  rw [lags, Bool.and_eq_true, decide_eq_true_iff]

lemma lookup_dropLagging (s : Server) (id : ClientId) :
    s.dropLagging.clients.lookup id = (s.clients.lookup id).map fun st =>
      if s.lags st then { st with sessionId := 0, droppedForLag := true } else st :=
  lookup_mapVals _ _ _

/-- A client that is current after the lagging ones were dropped was one before, and does not lag.
-/
lemma current_dropLagging {s : Server} (hpos : 0 < s.activeSessionId) {id : ClientId}
    {st : ClientStream} (hst : s.dropLagging.clients.lookup id = some st)
    (hcurrent : s.isCurrent st = true) :
    s.clients.lookup id = some st ∧ s.lags st = false := by
  rw [lookup_dropLagging] at hst
  obtain ⟨old, hold, rfl⟩ := Option.map_eq_some_iff.mp hst
  cases hlags : s.lags old with
  | true =>
    rw [hlags, if_pos rfl, isCurrent_iff] at hcurrent
    exact absurd hcurrent hpos.ne
  | false =>
    rw [if_neg Bool.false_ne_true]
    exact ⟨hold, hlags⟩

lemma Linked.dropLagging {s : Server} {cells : List (Ptr × PcmChunk)} (h : s.Linked cells)
    (hpos : 0 < s.activeSessionId) : s.dropLagging.Linked cells := by
  refine ⟨h.holds, h.bounded, h.frames, ?_, fun id st hst => ?_⟩
  · exact h.session.congr rfl rfl rfl rfl
  · rw [lookup_dropLagging] at hst
    obtain ⟨old, hold, rfl⟩ := Option.map_eq_some_iff.mp hst
    have hclient := h.client id old hold
    cases s.lags old with
    | true =>
      have hstale {st : ClientStream} (hid : st.sessionId = 0) : ¬s.isCurrent st = true :=
        fun hcurrent => hpos.ne (hid.symm.trans (isCurrent_iff.mp hcurrent))
      rw [if_pos rfl]
      exact ⟨fun hcurrent => absurd hcurrent (hstale rfl), Nat.zero_le _,
        fun hcurrent => absurd hcurrent (hstale rfl), hclient.ready,
        fun _ => Bool.eq_false_iff.mpr (hstale rfl)⟩
    | false =>
      rw [if_neg Bool.false_ne_true]
      exact hclient.congr rfl rfl

/-- The clients that are dropped when room is made. -/
def dropped (s : Server) : List ClientId :=
  if streamMaxBufferedChunks ≤ s.chunks.count then
    (s.clients.entries.filter fun e => s.lags e.2).map Sigma.fst
  else []

lemma mem_dropped_iff {s : Server} {id : ClientId} : id ∈ s.dropped ↔
    streamMaxBufferedChunks ≤ s.chunks.count ∧
      ∃ st, s.clients.lookup id = some st ∧ s.lags st = true := by
  unfold dropped
  split_ifs with hfull
  · simp only [List.mem_map, List.mem_filter]
    constructor
    · rintro ⟨⟨id, st⟩, ⟨hmem, hlags⟩, rfl⟩
      exact ⟨hfull, st, AList.mem_lookup_iff.mpr hmem, hlags⟩
    · rintro ⟨-, st, hst, hlags⟩
      exact ⟨⟨id, st⟩, ⟨AList.mem_lookup_iff.mp hst, hlags⟩, rfl⟩
  · simp [hfull]

/-- The mailboxes without those of the dropped clients. -/
def keptMailboxes (s : Server) : PubSub.State ClientId ℕ PcmChunk :=
  fun id => if id ∈ s.dropped then none else s.mailboxes id

/-- The clients once there is room. -/
def withRoom (s : Server) : Server :=
  if streamMaxBufferedChunks ≤ s.chunks.count then s.dropLagging else s

lemma mailboxes_dropLagging {s : Server} (hpos : 0 < s.activeSessionId)
    (hfull : streamMaxBufferedChunks ≤ s.chunks.count) :
    s.dropLagging.mailboxes = s.keptMailboxes := by
  funext id
  rw [keptMailboxes]
  simp only [mem_dropped_iff, hfull, true_and]
  cases hst : s.clients.lookup id with
  | none =>
    rw [mailboxes_of_missing (by rw [lookup_dropLagging, hst]; rfl), mailboxes_of_missing hst]
    exact (ite_self _).symm
  | some st =>
    have hnew := lookup_dropLagging s id
    rw [hst, Option.map_some] at hnew
    cases hlags : s.lags st with
    | true =>
      rw [hlags, if_pos rfl] at hnew
      rw [if_pos ⟨st, rfl, hlags⟩, mailboxes_of_lookup hnew, if_neg]
      exact fun hcurrent => absurd (isCurrent_iff.mp hcurrent) hpos.ne
    | false =>
      rw [hlags, if_neg Bool.false_ne_true] at hnew
      rw [if_neg (by simp [hlags]), mailboxes_of_lookup hnew, mailboxes_of_lookup hst]
      rfl

/-- **There is always room.** The function ends and returns true; exactly the dropped clients lose
their session, and the others keep what they have not read. -/
lemma Consistent.makeRoom {s : Server} {cells : List (Ptr × PcmChunk)} (h : s.Consistent cells) :
    ∃ chunks cells', serverMakeChunkRoom s = some ({ s.withRoom with chunks }, true) ∧
      ({ s.withRoom with chunks } : Server).Linked cells' ∧
      ({ s.withRoom with chunks } : Server).Owned ∧
      cells'.length < streamMaxBufferedChunks ∧
      ({ s.withRoom with chunks } : Server).mailboxes = s.keptMailboxes := by
  have hcount := h.holds.count_eq
  by_cases hfull : streamMaxBufferedChunks ≤ s.chunks.count
  · have hne : cells ≠ [] := by
      rintro rfl
      rw [hcount] at hfull
      exact absurd hfull (by decide)
    have hhead : s.chunks.head ≠ none := h.holds.head_none_iff.not.mpr hne
    obtain ⟨id, st, hst, hcurrent, hnext⟩ := h.owned hhead
    have hpos : 0 < s.activeSessionId :=
      h.session.id_pos (h.active_iff.mpr ⟨id, st, hst, hcurrent⟩)
    have hany : (s.clients.entries.any fun e => s.lags e.2) = true :=
      (any_entries_iff _ _).mpr ⟨id, st, hst, lags_iff.mpr ⟨hcurrent, hnext⟩⟩
    obtain ⟨chunks, hprune, hlinked, howned, hmail⟩ := (h.toLinked.dropLagging hpos).prune
    have hwith : s.withRoom = s.dropLagging := if_pos hfull
    have hshort : (cells.dropWhile fun c => !s.dropLagging.hasReader c.1).length
        < streamMaxBufferedChunks := by
      obtain ⟨⟨p, v⟩, rest, rfl⟩ := List.exists_cons_of_ne_nil hne
      have hp : s.chunks.head = some p := h.holds.head_eq
      have hfree : s.dropLagging.hasReader p = false := by
        rw [Bool.eq_false_iff, Ne, hasReader_iff]
        rintro ⟨id, st, hst, hcurrent, hnext⟩
        obtain ⟨-, hlags⟩ := current_dropLagging hpos hst hcurrent
        exact Bool.eq_false_iff.mp hlags (lags_iff.mpr ⟨hcurrent, hnext.trans hp.symm⟩)
      rw [List.dropWhile_cons_of_pos (by simp [hfree])]
      have hrest : rest.length < streamMaxBufferedChunks := h.bounded
      exact (List.dropWhile_suffix _).length_le.trans_lt hrest
    refine ⟨chunks, _, ?_, hwith ▸ hlinked, hwith ▸ howned, hshort, ?_⟩
    · rw [serverMakeChunkRoom, Loop.run_succ (by simpa using hfull), serverMakeChunkRoomRound]
      simp only [hany, Bool.not_true, Bool.false_eq_true, if_false, hprune, Option.bind_eq_bind,
        Option.bind_some, Option.pure_def]
      rw [Loop.run_of_exit, hwith]
      have hcount' := hlinked.holds.count_eq
      simp only [Bool.true_and, decide_eq_false_iff_not, not_le]
      exact hcount' ▸ hshort
    · rw [hwith, hmail, mailboxes_dropLagging hpos hfull]
  · have hwith : s.withRoom = s := if_neg hfull
    refine ⟨s.chunks, cells, ?_⟩
    rw [hwith]
    refine ⟨?_, h.toLinked, h.owned, ?_, ?_⟩
    · rw [serverMakeChunkRoom, Loop.run_of_exit (by simpa using hfull)]
    · rw [← hcount]
      exact not_le.mp hfull
    · funext id
      rw [keptMailboxes, if_neg]
      rw [mem_dropped_iff]
      exact fun hmem => hfull hmem.1

/-- A client that has read everything keeps its session when room is made. -/
lemma Consistent.notMem_dropped {s : Server} {cells : List (Ptr × PcmChunk)}
    (h : s.Consistent cells) {id : ClientId} {st : ClientStream}
    (hst : s.clients.lookup id = some st) (hnext : st.nextChunk = none) : id ∉ s.dropped := by
  rw [mem_dropped_iff]
  rintro ⟨hfull, st', hst', hlags⟩
  obtain rfl := Option.some.inj (hst'.symm.trans hst)
  have hnil := h.holds.head_none_iff.mp ((lags_iff.mp hlags).2.symm.trans hnext)
  rw [h.holds.count_eq, hnil] at hfull
  exact absurd hfull (by decide)

lemma Consistent.lookup_withRoom {s : Server} {cells : List (Ptr × PcmChunk)}
    (h : s.Consistent cells) {id : ClientId} {st : ClientStream}
    (hst : s.clients.lookup id = some st) (hnext : st.nextChunk = none) :
    s.withRoom.clients.lookup id = some st := by
  have hkept := mem_dropped_iff.not.mp (h.notMem_dropped hst hnext)
  unfold withRoom
  split_ifs with hfull
  · have hlags : s.lags st = false :=
      Bool.eq_false_iff.mpr fun hlags => hkept ⟨hfull, st, hst, hlags⟩
    rw [lookup_dropLagging, hst, Option.map_some, hlags, if_neg Bool.false_ne_true]
  · exact hst

lemma withRoom_session (s : Server) : s.withRoom.session = s.session ∧
    s.withRoom.activeSessionId = s.activeSessionId ∧
    s.withRoom.sessionActive = s.sessionActive := by
  unfold withRoom
  split_ifs <;> exact ⟨rfl, rfl, rfl⟩

/-! ### Producing -/

/-- What changes in the session while it plays does not concern the queue. -/
lemma Linked.withSession {s : Server} {cells : List (Ptr × PcmChunk)} (h : s.Linked cells)
    {session : StreamSession} (hmode : session.mode = s.session.mode)
    (hcontainer : session.container = s.session.container)
    (henabled : session.icy.enabled = s.session.icy.enabled)
    (hready : s.session.Ready → session.Ready) (rtlSource : RtlSource) :
    ({ s with session, rtlSource } : Server).Linked cells := by
  obtain ⟨id_pos, mode_eq, container_eq, ready⟩ := h.session
  refine ⟨h.holds, h.bounded, h.frames,
    ⟨id_pos, fun hactive => hmode.trans (mode_eq hactive),
      fun hactive => hcontainer.trans (container_eq hactive),
      fun hactive => hready (ready hactive)⟩,
    fun id st hst => ?_⟩
  obtain ⟨cursor, id_le, same, ready, dropped⟩ := h.client id st hst
  refine ⟨cursor, id_le, fun hcurrent => ?_, ready, dropped⟩
  obtain ⟨h₁, h₂, h₃⟩ := same hcurrent
  exact ⟨h₁.trans hmode.symm, h₂.trans hcontainer.symm, h₃.trans henabled.symm⟩

lemma Consistent.withSource {s : Server} {cells : List (Ptr × PcmChunk)} (h : s.Consistent cells)
    (rtlSource : RtlSource) : ({ s with rtlSource } : Server).Consistent cells :=
  ⟨h.toLinked.withSession rfl rfl rfl (fun hready => hready) rtlSource, h.owned, h.active_iff⟩

lemma Consistent.withSession {s : Server} {cells : List (Ptr × PcmChunk)} (h : s.Consistent cells)
    {session : StreamSession} (hmode : session.mode = s.session.mode)
    (hcontainer : session.container = s.session.container) (hicy : session.icy = s.session.icy) :
    ({ s with session } : Server).Consistent cells :=
  ⟨h.toLinked.withSession hmode hcontainer (hicy ▸ rfl)
    (fun hready => ⟨hicy ▸ hready.icy, fun henabled => hicy ▸ hready.wellFormed (hicy ▸ henabled)⟩)
    s.rtlSource, h.owned, h.active_iff⟩

/-- A client after a chunk has been linked. -/
def offered (s : Server) (p : Ptr) (stream : ClientStream) : ClientStream :=
  if s.isCurrent stream ∧ stream.nextChunk = none then { stream with nextChunk := some p }
  else stream

/-- All clients after a chunk has been linked. -/
def offeredClients (s : Server) (p : Ptr) : AList fun _ : ClientId => ClientStream :=
  mapVals (fun _ stream => s.offered p stream) s.clients

/-- Linking a chunk moves nothing but the cursor of a client. -/
lemma offered_eq (s : Server) (p : Ptr) (st : ClientStream) :
    ∃ nextChunk, s.offered p st = { st with nextChunk } := by
  unfold offered
  split_ifs
  · exact ⟨_, rfl⟩
  · exact ⟨st.nextChunk, rfl⟩

lemma isCurrent_offered (s : Server) (p : Ptr) (st : ClientStream) :
    s.isCurrent (s.offered p st) = s.isCurrent st := by
  obtain ⟨next, hnext⟩ := s.offered_eq p st
  rw [hnext]
  rfl

lemma lookup_offered (s : Server) (p : Ptr) (id : ClientId) :
    (s.offeredClients p).lookup id = (s.clients.lookup id).map (s.offered p) :=
  lookup_mapVals _ _ _

/-- The new chunk is the last one that a current client has not read. -/
lemma offered_cursor {s : Server} {cells rest : List (Ptr × PcmChunk)} {st : ClientStream}
    (hcurrent : s.isCurrent st = true) (hrest : Queue.Cursor cells st.nextChunk rest) (p : Ptr)
    (chunk : PcmChunk) :
    Queue.Cursor (cells ++ [(p, chunk)]) (s.offered p st).nextChunk (rest ++ [(p, chunk)]) := by
  have hcursor := hrest.append p chunk
  unfold offered
  simp only [hcurrent, true_and]
  split_ifs at hcursor ⊢ <;> exact hcursor

section Offered

variable {s : Server} {cells : List (Ptr × PcmChunk)} {p : Ptr} {chunk : PcmChunk}
  {chunks : Queue PcmChunk}

lemma Linked.offered (h : s.Linked cells) (hholds : chunks.Holds (cells ++ [(p, chunk)]))
    (hroom : cells.length < streamMaxBufferedChunks)
    (hframes : chunk.frameCount = streamSessionMaxAudioFramesPerChunk) :
    ({ s with chunks, clients := s.offeredClients p } : Server).Linked
      (cells ++ [(p, chunk)]) := by
  refine ⟨hholds, ?_, fun cell hcell => ?_, h.session.congr rfl rfl rfl rfl, fun id st' hst' => ?_⟩
  · rw [List.length_append, List.length_singleton]
    exact hroom
  · rcases List.mem_append.mp hcell with hcell | hcell
    · exact h.frames cell hcell
    · rw [List.mem_singleton.mp hcell]
      exact hframes
  · change (s.offeredClients p).lookup id = some st' at hst'
    rw [lookup_offered] at hst'
    obtain ⟨st, hst, rfl⟩ := Option.map_eq_some_iff.mp hst'
    obtain ⟨cursor, id_le, same, ready, dropped⟩ := h.client id st hst
    have hcursor (hnow : s.isCurrent (s.offered p st) = true) :
        ∃ rest, Queue.Cursor (cells ++ [(p, chunk)]) (s.offered p st).nextChunk rest := by
      have hwas : s.isCurrent st = true := (s.isCurrent_offered p st).symm.trans hnow
      obtain ⟨rest, hrest⟩ := cursor hwas
      exact ⟨_, offered_cursor hwas hrest p chunk⟩
    obtain ⟨next, hnext⟩ := s.offered_eq p st
    rw [hnext] at hcursor ⊢
    exact ⟨hcursor, id_le, same, ready, dropped⟩

/-- The owner of the oldest chunk has not read anything of the queue. -/
lemma Linked.exists_unread (h : s.Linked cells) (howned : s.Owned) (hcurrent : s.HasCurrent) :
    ∃ id st, s.clients.lookup id = some st ∧ s.isCurrent st = true ∧
      Queue.Cursor cells st.nextChunk cells := by
  rcases eq_or_ne s.chunks.head none with hhead | hhead
  · obtain ⟨id, st, hst, hcurrent⟩ := hcurrent
    obtain ⟨rest, hrest⟩ := (h.client id st hst).cursor hcurrent
    obtain rfl := h.holds.head_none_iff.mp hhead
    obtain rfl := List.suffix_nil.mp hrest.suffix
    exact ⟨id, st, hst, hcurrent, hrest⟩
  · obtain ⟨id, st, hst, hcurrent, hnext⟩ := howned hhead
    obtain ⟨rest, hrest⟩ := (h.client id st hst).cursor hcurrent
    exact ⟨id, st, hst, hcurrent, hrest.eq_of_head h.holds hnext ▸ hrest⟩

lemma hasCurrent_offered (hcurrent : s.HasCurrent) :
    ({ s with chunks, clients := s.offeredClients p } : Server).HasCurrent := by
  obtain ⟨id, st, hst, hcurrent⟩ := hcurrent
  refine ⟨id, s.offered p st, ?_, (s.isCurrent_offered p st).trans hcurrent⟩
  exact (s.lookup_offered p id).trans (congrArg _ hst)

lemma Linked.owned_offered (h : s.Linked cells) (howned : s.Owned) (hcurrent : s.HasCurrent)
    (hholds : chunks.Holds (cells ++ [(p, chunk)])) :
    ({ s with chunks, clients := s.offeredClients p } : Server).Owned := by
  intro _
  obtain ⟨id, st, hst, hcurrent, hrest⟩ := h.exists_unread howned hcurrent
  refine ⟨id, s.offered p st, ?_, (s.isCurrent_offered p st).trans hcurrent, ?_⟩
  · exact (s.lookup_offered p id).trans (congrArg _ hst)
  · exact (offered_cursor hcurrent hrest p chunk).ptr_eq.trans hholds.head_eq.symm

/-- Every current client gets the new chunk in its mailbox. -/
lemma Linked.mailboxes_offered (h : s.Linked cells)
    (hlinked : ({ s with chunks, clients := s.offeredClients p } : Server).Linked
      (cells ++ [(p, chunk)])) :
    ({ s with chunks, clients := s.offeredClients p } : Server).mailboxes
      = PubSub.deliver s.mailboxes s.activeSessionId chunk := by
  funext id
  have hlookup := s.lookup_offered p id
  cases hst : s.clients.lookup id with
  | none =>
    rw [hst, Option.map_none] at hlookup
    rw [PubSub.deliver, mailboxes_of_missing hst, Option.map_none]
    exact mailboxes_of_missing hlookup
  | some st =>
    rw [hst, Option.map_some] at hlookup
    cases hwas : s.isCurrent st with
    | false =>
      rw [PubSub.deliver, mailboxes_of_stale hst hwas, Option.map_none]
      exact mailboxes_of_stale hlookup ((s.isCurrent_offered p st).trans hwas)
    | true =>
      obtain ⟨rest, hrest⟩ := (h.client id st hst).cursor hwas
      rw [PubSub.deliver, h.mailbox_eq hst hwas hrest, Option.map_some, if_pos rfl,
        hlinked.mailbox_eq hlookup ((s.isCurrent_offered p st).trans hwas)
          (offered_cursor hwas hrest p chunk), vals, List.map_append]
      rfl

lemma preludes_offered :
    ({ s with chunks, clients := s.offeredClients p } : Server).preludes = s.preludes := by
  funext id
  show ((s.offeredClients p).lookup id).map _ = (s.clients.lookup id).map _
  rw [lookup_offered, Option.map_map]
  congr 1
  funext st
  obtain ⟨next, hnext⟩ := s.offered_eq p st
  rw [Function.comp_apply, hnext]

/-- A linked chunk is unread by every current client. -/
lemma Linked.linkChunk (h : s.Linked cells) (howned : s.Owned) (hcurrent : s.HasCurrent)
    (hactive : s.sessionActive = true) (hroom : cells.length < streamMaxBufferedChunks)
    (hp : p ∉ s.chunks.heap)
    (hframes : chunk.frameCount = streamSessionMaxAudioFramesPerChunk) :
    ∃ chunks clients, s.linkChunk p chunk = some { s with chunks, clients } ∧
      ({ s with chunks, clients } : Server).Consistent (cells ++ [(p, chunk)]) ∧
      ({ s with chunks, clients } : Server).mailboxes
        = PubSub.deliver s.mailboxes s.activeSessionId chunk ∧
      ({ s with chunks, clients } : Server).preludes = s.preludes := by
  obtain ⟨chunks, happend, hholds⟩ := h.holds.append hp chunk
  have hlinked := h.offered hholds hroom hframes
  refine ⟨chunks, s.offeredClients p, ?_, ⟨hlinked, ?_, ?_⟩, ?_, preludes_offered⟩
  · rw [Server.linkChunk, happend]
    rfl
  · exact h.owned_offered howned hcurrent hholds
  · exact ⟨fun _ => hasCurrent_offered hcurrent, fun _ => hactive⟩
  · exact h.mailboxes_offered hlinked

end Offered

lemma preludes_withRoom (s : Server) : s.withRoom.preludes = s.preludes := by
  funext id
  unfold withRoom
  split_ifs
  · rw [preludes, lookup_dropLagging, Option.map_map, preludes]
    congr 1
    funext st
    rw [Function.comp_apply]
    split_ifs <;> rfl
  · rfl

/-- A chunk can be produced whenever a client has read everything: it is unread by all clients that
keep their session. -/
lemma Consistent.produce {s : Server} {cells : List (Ptr × PcmChunk)} (h : s.Consistent cells)
    {id : ClientId} {st : ClientStream} (hst : s.clients.lookup id = some st)
    (hcurrent : s.isCurrent st = true) (hnext : st.nextChunk = none) {env : ProduceEnv}
    (hcalloc : ∀ heap, (env.calloc.address heap).isSome) :
    ∃ s' cells' chunk, serverProduceChunk s env = some (s', some chunk) ∧ s'.Consistent cells' ∧
      s'.activeSessionId = s.activeSessionId ∧
      s'.mailboxes = PubSub.deliver s.keptMailboxes s.activeSessionId chunk ∧
      s'.preludes = s.preludes := by
  obtain ⟨chunks, cells', hroom, hlinked, howned, hshort, hmail⟩ := h.makeRoom
  obtain ⟨hsession, hid, hactive⟩ := withRoom_session s
  obtain ⟨room, hroomEq⟩ : ∃ room : Server, room = { s.withRoom with chunks } := ⟨_, rfl⟩
  have hroomClients : room.clients.lookup id = some st := hroomEq ▸ h.lookup_withRoom hst hnext
  have hroomCurrent : room.isCurrent st = true := by
    rw [hroomEq, isCurrent_iff]
    exact (isCurrent_iff.mp hcurrent).trans hid.symm
  have hroomActive : room.sessionActive = true := by
    rw [hroomEq]
    exact hactive.trans (h.active_iff.mpr ⟨id, st, hst, hcurrent⟩)
  have hroomPreludes : room.preludes = s.preludes := hroomEq ▸ preludes_withRoom s
  have hroomId : room.activeSessionId = s.activeSessionId := hroomEq ▸ hid
  rw [← hroomEq] at hroom hlinked howned hmail
  obtain ⟨p, hp⟩ := Option.isSome_iff_exists.mp (hcalloc room.chunks.heap)
  obtain ⟨icy, metadataLength, fmPipeline, hfill, henabled, hicy, hwell⟩ :=
    streamSessionFillPcmChunk_spec (hlinked.session.ready hroomActive) env.live
  obtain ⟨session, hsessionEq⟩ : ∃ session : StreamSession, session =
    { room.session with icy, metadataLength, fmPipeline, pcmBuffer := env.live.samples } := ⟨_, rfl⟩
  obtain ⟨filled, hfilledEq⟩ : ∃ filled : Server,
    filled = { room with session, rtlSource := env.rtlSource } := ⟨_, rfl⟩
  have hfilledLinked : filled.Linked cells' := by
    rw [hfilledEq]
    refine hlinked.withSession ?_ ?_ ?_ ?_ env.rtlSource <;> rw [hsessionEq]
    · exact henabled
    · exact fun _ => ⟨hicy, hwell⟩
  have hfilledClients : filled.clients = room.clients := by rw [hfilledEq]
  have hfilledId : filled.activeSessionId = room.activeSessionId := by rw [hfilledEq]
  have hfilledMail : filled.mailboxes = room.mailboxes := by rw [hfilledEq]; rfl
  have hfilledPreludes : filled.preludes = room.preludes := by rw [hfilledEq]; rfl
  obtain ⟨chunk, hchunk⟩ : ∃ chunk : PcmChunk,
    chunk = ⟨streamSessionMaxAudioFramesPerChunk, env.live.samples⟩ := ⟨_, rfl⟩
  have hframes : chunk.frameCount = streamSessionMaxAudioFramesPerChunk := by rw [hchunk]
  obtain ⟨chunks', clients', hlink, hconsistent, hdeliver, hpreludes⟩ :=
    hfilledLinked.linkChunk (hfilledEq ▸ howned)
      ⟨id, st, hfilledClients ▸ hroomClients, hfilledEq ▸ hroomCurrent⟩
      (hfilledEq ▸ hroomActive) hshort (p := p) (hfilledEq ▸ env.calloc.fresh _ _ hp)
      hframes
  obtain ⟨linked, hlinkedEq⟩ : ∃ linked : Server,
    linked = { filled with chunks := chunks', clients := clients' } := ⟨_, rfl⟩
  rw [← hlinkedEq] at hlink hconsistent hdeliver hpreludes
  have hlinkedId : linked.activeSessionId = filled.activeSessionId := by rw [hlinkedEq]
  refine ⟨{ linked with session :=
      streamSessionNoteQueuedFrames linked.session streamSessionMaxAudioFramesPerChunk },
    cells' ++ [(p, chunk)], chunk, ?_, hconsistent.withSession rfl rfl rfl, ?_, ?_, ?_⟩
  · rw [serverProduceChunk, hroom]
    simp only [Option.bind_eq_bind, Option.bind_some, Bool.not_true, Bool.false_eq_true, if_false,
      hp, hfill, ne_eq, not_true_eq_false]
    rw [← hsessionEq, ← hfilledEq, ← hchunk, hlink]
    rfl
  · exact (hlinkedId.trans hfilledId).trans hroomId
  · show linked.mailboxes = _
    rw [hdeliver, hfilledMail, hmail, hfilledId, hroomId]
  · show linked.preludes = _
    rw [hpreludes, hfilledPreludes, hroomPreludes]

end Server

end Mpxcast
