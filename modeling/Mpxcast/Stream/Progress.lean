import Mpxcast.Stream.Rejection
import Mpxcast.Stream.ServerRun

/-!
# Progress of the server

What is sure to happen: a client that connected has its prelude to come, a client that waits for its
prelude is handed it, and a client that has read everything is handed a chunk as soon as one is due.
While it goes on like this, the chunks pile up for a client of its session that reads nothing.
-/

namespace Mpxcast

open LinkedHeap Registry

variable {s s' : Server} {client : ClientId} {cells : List (Ptr × PcmChunk)} {t : ℕ}

/-- Right after it connected, a client has its session, nothing to read, and its prelude to come. -/
lemma connected_spec {env : RequestEnv} (h : ServerStep s (.request env (.connected client)) s')
    (hs : ∃ cells, s.Consistent cells) :
    s'.mailboxes client = some (s'.activeSessionId, []) ∧ s'.preludes client = some true := by
  obtain ⟨cells, hs⟩ := hs
  obtain ⟨⟨-, cancelled, hrun⟩, hpreludes⟩ := h.follows hs trivial
  obtain ⟨boxes, -, hlast⟩ := Lts.run_append_iff.mp hrun
  obtain ⟨boxes', hstep, hend⟩ := Lts.run_cons_iff.mp hlast
  rw [Lts.run_nil_iff] at hend
  refine ⟨?_, ?_⟩
  · rw [← hend]
    cases hstep
    exact Function.update_self ..
  · rw [show s'.preludes = Function.update s.preludes client (some true) from hpreludes]
    exact Function.update_self ..

/-! ### Reads -/

/-- Each chunk at the address behind those of all others. -/
def bumpAllocator : Allocator where
  address heap := some (heap.keys.sum + 1)
  fresh heap p hp hmem := by
    obtain rfl := Option.some.inj hp
    exact absurd (List.le_sum_of_mem (AList.mem_keys.mp hmem)) (Nat.not_succ_le_self _)

/-- A read at the time when the next chunk is due. -/
def punctualReader (s : Server) : ReaderEnv where
  calloc := bumpAllocator
  live := ⟨[], fun _ => 0⟩
  rtlSource := s.rtlSource
  max := streamBufferSize
  startedAt := 0
  now := streamSessionComputeAudioDelay (streamSessionStartClock s.session 0) 0

lemma punctualReader_provided (s : Server) : (punctualReader s).Provided :=
  ⟨le_rfl, fun _ => rfl⟩

lemma Server.Consistent.of_mailbox (h : s.Consistent cells) {m : List PcmChunk}
    (hmail : s.mailboxes client = some (t, m)) : ∃ st rest, s.clients.lookup client = some st ∧
      s.isCurrent st = true ∧ s.activeSessionId = t ∧ Queue.Cursor cells st.nextChunk rest ∧
      vals rest = m := by
  obtain ⟨st, hst, hbox⟩ := Option.bind_eq_some_iff.mp hmail
  split_ifs at hbox with hcurrent
  obtain ⟨rest, hrest⟩ := (h.client client st hst).cursor hcurrent
  rw [hrest.unread_eq h.holds] at hbox
  obtain ⟨rfl, rfl⟩ := Prod.mk.inj (Option.some.inj hbox)
  exact ⟨st, rest, hst, hcurrent, rfl, hrest, rfl⟩

/-- A read of a client that waits for its prelude. -/
lemma exists_prelude_step (h : s.Consistent cells) (hpreludes : s.preludes client = some true) :
    ∃ s' bytes, ServerStep s (.read client (punctualReader s) (.prelude bytes)) s' ∧
      s'.Consistent cells ∧ s'.mailboxes = s.mailboxes ∧ s'.preludes client = some false ∧
      s'.session = s.session := by
  obtain ⟨st, hst, hpending⟩ := Option.map_eq_some_iff.mp hpreludes
  obtain ⟨s', bytes, hread, hconsistent, hmail, hafter⟩ :=
    h.prelude hst (punctualReader_provided s).1
  have hqueue := (Server.QueueOnly.prelude hread).1
  refine ⟨s', bytes, .read hst .refl ?_, hconsistent, hmail, ?_, hqueue.session⟩
  · rw [streamContentReader, if_pos hpending, ← hread]
  · rw [hafter, Function.update_self]

/-- The reader goes on to the queue for a current client that has its prelude. -/
lemma streamContentReader_current (h : s.Consistent cells) {st : ClientStream}
    (hst : s.clients.lookup client = some st) (hcurrent : s.isCurrent st = true)
    (hpending : st.preludePending = false) (env : ReaderEnv) :
    streamContentReader s client st env = match st.nextChunk with
      | some p => streamContentPack s client st p env.max
      | none => streamContentProduce s env := by
  have hactive := h.active_iff.mpr ⟨client, st, hst, hcurrent⟩
  have hid := Server.isCurrent_iff.mp hcurrent
  have hcontinues : ¬(!s.sessionActive || decide (s.activeSessionId ≠ st.sessionId)) = true := by
    simp [hactive, hid]
  rw [streamContentReader, hpending, if_neg Bool.false_ne_true]
  exact if_neg hcontinues

/-- A client that has read everything is handed a chunk as soon as one is due: one read produces it,
the next one packs it. -/
theorem exists_chunk_steps (h : s.Consistent cells) (hmail : s.mailboxes client = some (t, []))
    (hpreludes : s.preludes client = some false) : ∃ s₁ s₂ cells₂ chunk bytes,
      ServerStep s (.read client (punctualReader s) (.produced t chunk)) s₁ ∧
      ServerStep s₁ (.read client (punctualReader s₁) (.packed chunk bytes)) s₂ ∧
      s₂.Consistent cells₂ ∧ s₂.preludes = s.preludes ∧ s₂.mailboxes = Function.update
        (PubSub.deliver s.keptMailboxes t chunk) client (some (t, [])) := by
  obtain ⟨st, rest, hst, hcurrent, rfl, hrest, hvals⟩ := h.of_mailbox hmail
  obtain rfl := List.map_eq_nil_iff.mp hvals
  have hnext : st.nextChunk = none := hrest.ptr_eq
  have hpending : st.preludePending = false := by
    rw [Server.preludes, hst] at hpreludes
    exact Option.some.inj hpreludes
  obtain ⟨s₁, cells₁, outcome, hproduce, h₁, hpreludes₁, hor⟩ :=
    h.waitOrProduce hst hcurrent hnext (punctualReader_provided s).2
  have hdue : ¬0 < streamSessionComputeAudioDelay
      (streamSessionStartClock s.session (punctualReader s).startedAt) (punctualReader s).now := by
    simp [punctualReader, streamSessionComputeAudioDelay]
  rcases hor with ⟨delay, -, -, hwait⟩ | ⟨chunk, rfl, hmail₁⟩
  · exact absurd hwait hdue
  have hstep₁ : ServerStep s
      (.read client (punctualReader s) (.produced s.activeSessionId chunk)) s₁ := by
    refine .read hst .refl ?_
    rw [streamContentReader_current h hst hcurrent hpending, hnext]
    exact hproduce
  have hbox₁ : s₁.mailboxes client = some (s.activeSessionId, [chunk]) := by
    rw [hmail₁, PubSub.deliver, Server.keptMailboxes, if_neg (h.notMem_dropped hst hnext), hmail]
    simp
  obtain ⟨st₁, rest₁, hst₁, hcurrent₁, -, hrest₁, hvals₁⟩ := h₁.of_mailbox hbox₁
  have hpending₁ : st₁.preludePending = false := by
    rw [← hpreludes₁, Server.preludes, hst₁] at hpreludes
    exact Option.some.inj hpreludes
  obtain ⟨p, hnext₁⟩ : ∃ p, st₁.nextChunk = some p := by
    rw [hrest₁.ptr_eq]
    cases rest₁ with
    | nil => exact absurd hvals₁ (List.cons_ne_nil chunk []).symm
    | cons cell rest₁ => exact ⟨cell.1, rfl⟩
  obtain ⟨s₂, cells₂, chunk', bytes, hpack, h₂, hreceive, hpreludes₂⟩ :=
    h₁.pack hst₁ hcurrent₁ hnext₁ (punctualReader_provided s₁).1
  obtain ⟨rfl, hmail₂⟩ : chunk' = chunk ∧ s₂.mailboxes
      = Function.update s₁.mailboxes client (some (s.activeSessionId, [])) := by
    generalize s₂.mailboxes = boxes at hreceive
    cases hreceive with
    | receive hbox =>
      rw [hbox₁] at hbox
      simp only [Option.some.injEq, Prod.mk.injEq, List.cons.injEq] at hbox
      obtain ⟨rfl, rfl, rfl⟩ := hbox
      exact ⟨rfl, rfl⟩
  refine ⟨s₁, s₂, cells₂, chunk', bytes, hstep₁, .read hst₁ .refl ?_, h₂,
    hpreludes₂.trans hpreludes₁, hmail₂.trans (by rw [hmail₁])⟩
  rw [streamContentReader_current h₁ hst₁ hcurrent₁ hpending₁, hnext₁]
  exact hpack

/-! ### Slow and quick clients -/

/-- One client waits for the next chunk of its session, and another one has these still to read. -/
structure Server.Trails (s : Server) (slow quick : ClientId) (t : ℕ) (m : List PcmChunk) :
    Prop where
  consistent : ∃ cells, s.Consistent cells
  behind : s.mailboxes slow = some (t, m)
  caughtUp : s.mailboxes quick = some (t, [])
  prelude : s.preludes quick = some false

variable {slow quick : ClientId} {m : List PcmChunk}

/-- The slow client is not dropped while there is room for another chunk. -/
lemma Server.Consistent.slow_notMem_dropped (h : s.Consistent cells)
    (hslow : s.mailboxes slow = some (t, m)) (hm : m.length < streamMaxBufferedChunks) :
    slow ∉ s.dropped := by
  rw [Server.mem_dropped_iff]
  rintro ⟨hfull, st, hst, hlags⟩
  obtain ⟨st', rest, hst', hcurrent, -, hrest, rfl⟩ := h.of_mailbox hslow
  obtain rfl := Option.some.inj (hst.symm.trans hst')
  obtain rfl := hrest.eq_of_head h.holds (Server.lags_iff.mp hlags).2
  rw [vals, List.length_map, ← h.holds.count_eq] at hm
  exact absurd hfull (not_le.mpr hm)

/-- The quick client takes one chunk, and the slow one is one more behind. -/
lemma Server.Trails.step (h : s.Trails slow quick t m) (hne : slow ≠ quick)
    (hm : m.length < streamMaxBufferedChunks) :
    ∃ s' ls chunk, serverLts.Run s ls s' ∧ (∀ l ∈ ls, l.Provided) ∧
      s'.Trails slow quick t (m ++ [chunk]) := by
  obtain ⟨cells, hc⟩ := h.consistent
  obtain ⟨s₁, s₂, cells₂, chunk, bytes, hproduce, hpack, hc₂, hpreludes, hmail⟩ :=
    exists_chunk_steps hc h.caughtUp h.prelude
  refine ⟨s₂, _, chunk, .cons hproduce (.cons hpack (.nil s₂)), ?_, ⟨cells₂, hc₂⟩, ?_, ?_, ?_⟩
  · simp [ServerLabel.Provided, punctualReader_provided]
  · rw [hmail, Function.update_of_ne hne, PubSub.deliver, Server.keptMailboxes,
      if_neg (hc.slow_notMem_dropped h.behind hm), h.behind, Option.map_some, if_pos rfl]
  · rw [hmail, Function.update_self]
  · rw [hpreludes, h.prelude]

/-- As long as there is room, the slow client can fall behind by any number of chunks. -/
theorem Server.Trails.run (hne : slow ≠ quick) (n : ℕ) :
    ∀ {s : Server} {m : List PcmChunk}, s.Trails slow quick t m →
      m.length + n ≤ streamMaxBufferedChunks →
      ∃ s' ls m', serverLts.Run s ls s' ∧ (∀ l ∈ ls, l.Provided) ∧
        s'.Trails slow quick t m' ∧ m'.length = m.length + n := by
  induction n with
  | zero => exact fun {s m} h _ => ⟨s, [], m, .nil s, by simp, h, rfl⟩
  | succ n ih =>
    intro s m h hm
    obtain ⟨s₁, ls₁, chunk, hrun₁, hl₁, h₁⟩ := h.step hne (by omega)
    have hlength : (m ++ [chunk]).length = m.length + 1 := List.length_append
    obtain ⟨s₂, ls₂, m₂, hrun₂, hl₂, h₂, hm₂⟩ := ih h₁ (by omega)
    refine ⟨s₂, ls₁ ++ ls₂, m₂, hrun₁.append hrun₂, fun l hmem => ?_, h₂, by omega⟩
    exact (List.mem_append.mp hmem).elim (hl₁ l) (hl₂ l)

end Mpxcast
