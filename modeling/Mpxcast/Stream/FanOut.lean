import Mpxcast.Stream.Lifecycle

/-!
# Gap-free fan-out

What a client is handed over its life: the prelude, and then the chunks of its session from the
first one produced after it connected, without a gap. The chunk queue refines private mailboxes, so
this is what mailboxes deliver.
-/

namespace Mpxcast

open LinkedHeap Registry

/-! ### Observations -/

/-- How the reads of a client ended along a run. -/
def outcomes (client : ClientId) (ls : List ServerLabel) : List ReaderOutcome :=
  ls.filterMap fun
    | .read id _ outcome => if id = client then some outcome else none
    | _ => none

/-- The chunks that a client was handed. -/
def chunksRead (client : ClientId) (ls : List ServerLabel) : List PcmChunk :=
  (outcomes client ls).filterMap fun
    | .packed chunk _ => some chunk
    | _ => none

/-- The chunks that were produced for a session. -/
def chunksProduced (sessionId : ℕ) (ls : List ServerLabel) : List PcmChunk :=
  ls.filterMap fun
    | .read _ _ (.produced id chunk) => if id = sessionId then some chunk else none
    | _ => none

/-- The step connects this client. -/
def ServerLabel.Connects (client : ClientId) : ServerLabel → Prop
  | .request _ (.connected id) => id = client
  | _ => False

variable {s s' : Server} {ls : List ServerLabel} {client : ClientId}

lemma outcomes_cons (l : ServerLabel) (ls : List ServerLabel) :
    outcomes client (l :: ls) = outcomes client [l] ++ outcomes client ls :=
  List.filterMap_append (l := [l])

lemma outcomes_read (env : ReaderEnv) (outcome : ReaderOutcome) :
    outcomes client [.read client env outcome] = [outcome] := by
  simp [outcomes]

lemma chunksRead_cons (l : ServerLabel) (ls : List ServerLabel) :
    chunksRead client (l :: ls) = chunksRead client [l] ++ chunksRead client ls := by
  rw [chunksRead, outcomes_cons, List.filterMap_append]
  rfl

lemma chunksProduced_append (t : ℕ) (ls ls' : List ServerLabel) :
    chunksProduced t (ls ++ ls') = chunksProduced t ls ++ chunksProduced t ls' :=
  List.filterMap_append

lemma chunksProduced_cons (t : ℕ) (l : ServerLabel) (ls : List ServerLabel) :
    chunksProduced t (l :: ls) = chunksProduced t [l] ++ chunksProduced t ls :=
  chunksProduced_append t [l] ls

lemma chunksProduced_produced (t id : ℕ) (env : ReaderEnv) (chunk : PcmChunk) :
    chunksProduced t [.read client env (.produced id chunk)] = if id = t then [chunk] else [] := by
  by_cases h : id = t <;> simp [chunksProduced, h]

/-! ### The chunks -/

namespace ServerLabel

lemma received_events (l : ServerLabel) (sessionId : ℕ) (client : ClientId) :
    PubSub.received client (l.events sessionId) = chunksRead client [l] := by
  cases l with
  | request env outcome => cases outcome <;> rfl
  | read id env outcome =>
    by_cases hid : id = client <;> cases outcome <;>
      simp [events, chunksRead, outcomes, PubSub.received, hid]
  | free id => rfl
  | source => rfl

lemma published_events (l : ServerLabel) (sessionId t : ℕ) :
    PubSub.published t (l.events sessionId) = chunksProduced t [l] := by
  cases l with
  | request env outcome => cases outcome <;> rfl
  | read id env outcome =>
    cases outcome with
    | produced producedId chunk =>
      by_cases ht : producedId = t <;> simp [events, chunksProduced, PubSub.published, ht]
    | _ => rfl
  | free id => rfl
  | source => rfl

lemma connects_of_subscribe {l : ServerLabel} {sessionId t : ℕ}
    (h : .subscribe client t ∈ l.events sessionId) : l.Connects client := by
  cases l with
  | request env outcome =>
    cases outcome with
    | connected id =>
      obtain ⟨rfl, -⟩ := PubSub.Label.subscribe.inj (List.mem_singleton.mp h)
      exact rfl
    | _ => exact absurd h List.not_mem_nil
  | read id env outcome => cases outcome <;> simp [events] at h
  | free id => exact absurd h List.not_mem_nil
  | source => exact absurd h List.not_mem_nil

end ServerLabel

/-- How a step of the server is answered by the mailboxes. -/
def Answers (l : ServerLabel) (ks : List (PubSub.Label ClientId ℕ PcmChunk)) : Prop :=
  ∃ (cancelled : List ClientId) (sessionId : ℕ), ks = cancelled.map .cancel ++ l.events sessionId

/-- The queue refines the mailboxes along a run. -/
lemma mailboxes_of_run (h : serverLts.Run s ls s') (hs : ∃ cells, s.Consistent cells)
    (hl : ∀ l ∈ ls, l.Provided) :
    ∃ kss, List.Forall₂ Answers ls kss ∧
      PubSub.lts.Run s.mailboxes kss.flatten s'.mailboxes := by
  obtain ⟨kss, b, hanswers, hrun, rfl, -⟩ :=
    h.simulate (N := PubSub.lts) (A := ServerLabel.Provided)
    (R := fun s a => s.mailboxes = a ∧ ∃ cells, s.Consistent cells) (L := Answers)
    (by
      rintro s l t _ ⟨rfl, cells, hs⟩ hl hstep
      obtain ⟨⟨hconsistent, cancelled, hrun⟩, -⟩ := ServerStep.follows hstep hs hl
      exact ⟨_, t.mailboxes, ⟨cancelled, t.activeSessionId, rfl⟩, hrun, rfl, hconsistent⟩)
    hl ⟨rfl, hs⟩
  exact ⟨kss, hanswers, hrun⟩

variable {kss : List (List (PubSub.Label ClientId ℕ PcmChunk))}

lemma received_of_answers (h : List.Forall₂ Answers ls kss) :
    PubSub.received client kss.flatten = chunksRead client ls := by
  induction h with
  | nil => rfl
  | @cons l _ ls kss hl _ ih =>
    obtain ⟨cancelled, sessionId, rfl⟩ := hl
    rw [List.flatten_cons, PubSub.received_append, PubSub.received_append, PubSub.received_cancel,
      List.nil_append, l.received_events, ih, chunksRead_cons l ls]

lemma published_of_answers (h : List.Forall₂ Answers ls kss) (t : ℕ) :
    PubSub.published t kss.flatten = chunksProduced t ls := by
  induction h with
  | nil => rfl
  | @cons l _ ls kss hl _ ih =>
    obtain ⟨cancelled, sessionId, rfl⟩ := hl
    rw [List.flatten_cons, PubSub.published_append, PubSub.published_append,
      PubSub.published_cancel, List.nil_append, l.published_events, ih, chunksProduced_cons t l ls]

/-- A client that does not connect again does not subscribe again. -/
lemma unsubscribed_of_answers (h : List.Forall₂ Answers ls kss)
    (hnew : ∀ l ∈ ls, ¬l.Connects client) (t : ℕ) : .subscribe client t ∉ kss.flatten := by
  induction h with
  | nil => exact List.not_mem_nil
  | @cons l _ ls kss hl _ ih =>
    obtain ⟨cancelled, sessionId, rfl⟩ := hl
    rw [List.flatten_cons, List.mem_append, List.mem_append]
    rintro ((hmem | hmem) | hmem)
    · simp at hmem
    · exact hnew l List.mem_cons_self (ServerLabel.connects_of_subscribe hmem)
    · exact ih (fun l hm => hnew l (List.mem_cons_of_mem _ hm)) hmem

/-- A client without a subscription is handed no chunk. -/
lemma chunksRead_of_unsubscribed (h : serverLts.Run s ls s') (hs : ∃ cells, s.Consistent cells)
    (hl : ∀ l ∈ ls, l.Provided) (hnew : ∀ l ∈ ls, ¬l.Connects client)
    (hclient : s.mailboxes client = none) : chunksRead client ls = [] := by
  obtain ⟨kss, hanswers, hrun⟩ := mailboxes_of_run h hs hl
  rw [← received_of_answers hanswers]
  exact (PubSub.received_of_unsubscribed hrun hclient (unsubscribed_of_answers hanswers hnew)).2

/-- A client with an empty mailbox is handed what is produced from now on. -/
lemma chunksRead_of_subscribed (h : serverLts.Run s ls s') (hs : ∃ cells, s.Consistent cells)
    (hl : ∀ l ∈ ls, l.Provided) (hnew : ∀ l ∈ ls, ¬l.Connects client) {t : ℕ}
    (hclient : s.mailboxes client = some (t, [])) :
    chunksRead client ls <+: chunksProduced t ls ∧
      ∀ b, s'.mailboxes client = some b → b.1 = t ∧
        chunksRead client ls ++ b.2 = chunksProduced t ls := by
  obtain ⟨kss, hanswers, hrun⟩ := mailboxes_of_run h hs hl
  have hdelivered := PubSub.received_of_subscribed hrun hclient
    (unsubscribed_of_answers hanswers hnew)
  rw [received_of_answers hanswers, published_of_answers hanswers, List.nil_append] at hdelivered
  exact hdelivered

/-! ### The prelude -/

/-- What may still come for a client, given whether it waits for its prelude. -/
def PreludeFirst : Option Bool → List ReaderOutcome → Prop
  | none, os => os = []
  | some false, os => ∀ bytes, .prelude bytes ∉ os
  | some true, os => os = [] ∨ ∃ bytes rest, os = .prelude bytes :: rest ∧
      ∀ bytes', .prelude bytes' ∉ rest

/-- One step as a client sees it that does not connect in it. -/
lemma ServerLabel.Preludes.cases {before after : ClientId → Option Bool} {l : ServerLabel}
    (h : l.Preludes before after) (hnew : ¬l.Connects client) :
    (outcomes client [l] = [] ∧ (after client = before client ∨ after client = none)) ∨
      (∃ bytes, outcomes client [l] = [.prelude bytes] ∧ before client = some true ∧
        after client = some false) ∨
      ∃ outcome, outcomes client [l] = [outcome] ∧ (∀ bytes, outcome ≠ .prelude bytes) ∧
        before client = some false ∧ after client = some false := by
  cases l with
  | request env outcome =>
    cases outcome with
    | connected id =>
      have hne : client ≠ id := fun heq => hnew heq.symm
      exact .inl ⟨rfl, .inl (by rw [h, Function.update_of_ne hne])⟩
    | _ => exact .inl ⟨rfl, .inl (by rw [h])⟩
  | read id env outcome =>
    by_cases hid : id = client
    · subst hid
      cases outcome with
      | prelude bytes =>
        obtain ⟨hbefore, rfl⟩ := h
        exact .inr (.inl ⟨bytes, outcomes_read .., hbefore, Function.update_self ..⟩)
      | _ =>
        obtain ⟨hbefore, rfl⟩ := h
        exact .inr (.inr ⟨_, outcomes_read .., nofun, hbefore, hbefore⟩)
    · refine .inl ⟨by simp [outcomes, hid], .inl ?_⟩
      cases outcome with
      | prelude bytes => rw [h.2, Function.update_of_ne (Ne.symm hid)]
      | _ => rw [h.2]
  | free id =>
    refine .inl ⟨rfl, ?_⟩
    rw [show after = Function.update before id none from h, Function.update_apply]
    split_ifs
    · exact .inr rfl
    · exact .inl rfl
  | source => exact .inl ⟨rfl, .inl (by rw [h])⟩

/-- The prelude comes first, and only once. -/
lemma preludeFirst_of_run (h : serverLts.Run s ls s') (hs : ∃ cells, s.Consistent cells)
    (hl : ∀ l ∈ ls, l.Provided) (hnew : ∀ l ∈ ls, ¬l.Connects client) :
    PreludeFirst (s.preludes client) (outcomes client ls) := by
  induction h with
  | nil s =>
    cases s.preludes client with
    | none => exact rfl
    | some pending =>
      cases pending with
      | true => exact .inl rfl
      | false => exact fun bytes => List.not_mem_nil
  | @cons s t u l ls hstep _ ih =>
    obtain ⟨cells, hs⟩ := hs
    obtain ⟨hfollows, hpreludes⟩ := ServerStep.follows hstep hs (hl l List.mem_cons_self)
    have hrest := ih hfollows.consistent (fun l hm => hl l (List.mem_cons_of_mem _ hm))
      fun l hm => hnew l (List.mem_cons_of_mem _ hm)
    rw [outcomes_cons]
    rcases hpreludes.cases (hnew l List.mem_cons_self) with
      ⟨hnone, hsame | hgone⟩ | ⟨bytes, hone, hbefore, hafter⟩ |
        ⟨outcome, hone, hno, hbefore, hafter⟩
    · rw [hnone, ← hsame]
      exact hrest
    · rw [hgone] at hrest
      rw [hnone, show outcomes client ls = [] from hrest]
      cases s.preludes client with
      | none => exact rfl
      | some pending =>
        cases pending with
        | true => exact .inl rfl
        | false => exact fun bytes => List.not_mem_nil
    · rw [hafter] at hrest
      rw [hone, hbefore]
      exact .inr ⟨bytes, _, rfl, hrest⟩
    · rw [hafter] at hrest
      rw [hone, hbefore]
      rintro bytes (_ | ⟨_, hmem⟩)
      · exact hno bytes rfl
      · exact hrest bytes hmem

/-! ### A client's life -/

/-- Nothing more will come for this client: it was dropped for lag, its session was replaced or
stopped, or it has left. -/
def Server.Over (s : Server) (client : ClientId) : Prop :=
  ∀ st, s.clients.lookup client = some st →
    st.droppedForLag = true ∨ st.sessionId ≠ s.activeSessionId ∨ s.sessionActive = false

lemma Server.Over.unsubscribed {cells : List (Ptr × PcmChunk)} (h : s.Over client)
    (hs : s.Consistent cells) : s.mailboxes client = none := by
  cases hst : s.clients.lookup client with
  | none => exact Server.mailboxes_of_missing hst
  | some st =>
    refine Server.mailboxes_of_stale hst ?_
    rcases h st hst with hdropped | hreplaced | hstopped
    · exact (hs.client client st hst).dropped hdropped
    · exact decide_eq_false_iff_not.mpr hreplaced
    · refine Bool.eq_false_iff.mpr fun hcurrent => ?_
      exact absurd (hs.active_iff.mpr ⟨client, st, hst, hcurrent⟩) (Bool.eq_false_iff.mp hstopped)

/-- **Gap-free fan-out.** A client connects in some run and does not connect again. Its reads hand
out the prelude once and before anything else, and the chunks they hand out are those produced for
its session since it connected, in order, from the first one on; while it is current, what it was
handed and what it has still to read are all of them. Once nothing more will come for it, nothing
more comes. -/
theorem streamContentReader_gapFree {s₀ s₁ s₂ : Server} {before after : List ServerLabel}
    {env : RequestEnv} (hinit : serverLts.init s₀)
    (hbefore : serverLts.Run s₀ (before ++ [.request env (.connected client)]) s₁)
    (hafter : serverLts.Run s₁ after s₂) (hprovided : ∀ l ∈ before ++ after, l.Provided)
    (hnew : ∀ l ∈ after, ¬l.Connects client) :
    (outcomes client after = [] ∨ ∃ bytes rest, outcomes client after = .prelude bytes :: rest ∧
      ∀ bytes', .prelude bytes' ∉ rest) ∧
    (∃ st, s₁.clients.lookup client = some st ∧ st.sessionId = s₁.activeSessionId ∧
      chunksRead client after <+: chunksProduced st.sessionId after ∧
      ∀ st', s₂.clients.lookup client = some st' → st'.sessionId = s₂.activeSessionId →
        chunksRead client after ++ s₂.chunks.unread st'.nextChunk
          = chunksProduced st.sessionId after) ∧
    ∀ s early late, after = early ++ late → serverLts.Run s₁ early s → serverLts.Run s late s₂ →
      s.Over client → chunksRead client late = [] := by
  have hprovided₀ : ∀ l ∈ before, l.Provided := fun l hm => hprovided l (List.mem_append_left _ hm)
  have hprovided₁ : ∀ l ∈ after, l.Provided := fun l hm => hprovided l (List.mem_append_right _ hm)
  obtain ⟨s, hrun, hlast⟩ := Lts.run_append_iff.mp hbefore
  obtain ⟨s', hstep, hend⟩ := Lts.run_cons_iff.mp hlast
  obtain rfl := Lts.run_nil_iff.mp hend
  have hs : s.Reached := ⟨s₀, before, hinit, hrun, hprovided₀⟩
  have hs₁ : s'.Reached := hs.run (.cons hstep (.nil _)) (by simp [ServerLabel.Provided])
  obtain ⟨hmail, hpreludes⟩ := connected_spec hstep hs.consistent
  refine ⟨?_, ?_, fun t early late heq hearly hlate hover => ?_⟩
  · have hfirst := preludeFirst_of_run hafter hs₁.consistent hprovided₁ hnew
    rw [hpreludes] at hfirst
    exact hfirst
  · obtain ⟨hread, hcomplete⟩ :=
      chunksRead_of_subscribed hafter hs₁.consistent hprovided₁ hnew hmail
    obtain ⟨st, hst, hbox⟩ := Option.bind_eq_some_iff.mp hmail
    split_ifs at hbox with hcurrent
    have hid := Server.isCurrent_iff.mp hcurrent
    refine ⟨st, hst, hid, hid ▸ hread, fun st' hst' hcurrent' => ?_⟩
    have hbox' := Server.mailboxes_of_lookup hst'
    rw [if_pos (Server.isCurrent_iff.mpr hcurrent')] at hbox'
    rw [hid]
    exact (hcomplete _ hbox').2
  · have hlate_mem : ∀ l ∈ late, l ∈ after := fun l hm => heq ▸ List.mem_append_right early hm
    have hearly_mem : ∀ l ∈ early, l ∈ after := fun l hm => heq ▸ List.mem_append_left late hm
    obtain ⟨cells, ht⟩ := (hs₁.run hearly fun l hm => hprovided₁ l (hearly_mem l hm)).consistent
    exact chunksRead_of_unsubscribed hlate ⟨cells, ht⟩ (fun l hm => hprovided₁ l (hlate_mem l hm))
      (fun l hm => hnew l (hlate_mem l hm)) (hover.unsubscribed ht)

/-- A client connects and reads its prelude; a chunk is produced for it, which it reads. -/
theorem streamContentReader_gapFree_oneChunk : ∃ s₁ s₂ s₃ s₄ chunk bytes bytes',
    serverLts.Run (serverInit Server.silentFile)
      ([] ++ [.request (Server.wavRequest 1) (.connected 1)]) s₁ ∧
    serverLts.Run s₁ [.read 1 (punctualReader s₁) (.prelude bytes),
      .read 1 (punctualReader s₂) (.produced 1 chunk),
      .read 1 (punctualReader s₃) (.packed chunk bytes')] s₄ ∧
    ∀ st, s₄.clients.lookup 1 = some st → st.sessionId = s₄.activeSessionId →
      s₄.chunks.unread st.nextChunk = [] := by
  obtain ⟨s₁, st₁, hconnect, -, -, -, -, hid, -⟩ := Server.exists_connected
  have hinit := Server.serverInit_silentFile
  obtain ⟨cells, h₁⟩ := (Server.Reached.of_step hinit hconnect trivial).consistent
  obtain ⟨hmail, hpreludes⟩ := connected_spec hconnect ⟨_, consistent_serverInit _⟩
  obtain ⟨s₂, bytes, hprelude, h₂, hmail₂, hpreludes₂, -⟩ := exists_prelude_step h₁ hpreludes
  rw [hid] at hmail
  obtain ⟨s₃, s₄, -, chunk, bytes', hproduce, hpack, -⟩ :=
    exists_chunk_steps h₂ (hmail₂ ▸ hmail) hpreludes₂
  have hrun : serverLts.Run (serverInit Server.silentFile)
      ([] ++ [.request (Server.wavRequest 1) (.connected 1)]) s₁ := .cons hconnect (.nil s₁)
  have hreads : serverLts.Run s₁ [.read 1 (punctualReader s₁) (.prelude bytes),
      .read 1 (punctualReader s₂) (.produced 1 chunk),
      .read 1 (punctualReader s₃) (.packed chunk bytes')] s₄ :=
    .cons hprelude (.cons hproduce (.cons hpack (.nil s₄)))
  obtain ⟨-, ⟨st, hst, hst_id, -, hall⟩, -⟩ := streamContentReader_gapFree hinit hrun hreads
    (by simp [ServerLabel.Provided, punctualReader_provided]) (by simp [ServerLabel.Connects])
  refine ⟨s₁, s₂, s₃, s₄, chunk, bytes, bytes', hrun, hreads, fun st' hst' hcurrent => ?_⟩
  have hread := hall st' hst' hcurrent
  rw [hst_id, hid] at hread
  simpa [chunksRead, outcomes, chunksProduced] using hread

end Mpxcast
