import Mpxcast.Core.InbandMetadata
import Mpxcast.Stream.Client
import Mpxcast.Stream.MpegtsRoundTrip

/-!
# ICY multiplexing round trip

What `icy_metadata_wrap` inserts, a player that strips a block after every `ICY_METAINT` body bytes
takes out again. The countdown that is carried from call to call is a function of the number of body
bytes sent so far, the prelude included.
-/

namespace Mpxcast

open InbandMetadata

/-- The number of blocks that fall into `length` body bytes after the first `sent` ones. -/
def blocksWithin (sent length : ℕ) : ℕ := (sent + length) / icyMetaint - sent / icyMetaint

lemma icyMetaint_pos : 0 < icyMetaint := by decide

lemma icyBytesUntilNextMetadata_eq (sent : ℕ) :
    icyBytesUntilNextMetadata sent = icyMetaint - sent % icyMetaint := by
  unfold icyBytesUntilNextMetadata
  dsimp only
  split_ifs with h
  · rw [h, Nat.sub_zero]
  · rfl

/-- The countdown is never 0 between two body bytes. -/
lemma icyBytesUntilNextMetadata_pos (sent : ℕ) : 0 < icyBytesUntilNextMetadata sent := by
  rw [icyBytesUntilNextMetadata_eq]
  exact Nat.sub_pos_of_lt (Nat.mod_lt _ icyMetaint_pos)

/-- Bytes short of the next block only move the countdown. -/
lemma icyBytesUntilNextMetadata_add {sent n : ℕ} (h : n < icyBytesUntilNextMetadata sent) :
    icyBytesUntilNextMetadata (sent + n) = icyBytesUntilNextMetadata sent - n ∧
      (sent + n) / icyMetaint = sent / icyMetaint := by
  simp only [icyBytesUntilNextMetadata_eq, icyMetaint] at h ⊢
  omega

/-- The byte that ends the countdown starts it again. -/
lemma icyBytesUntilNextMetadata_full (sent : ℕ) :
    icyBytesUntilNextMetadata (sent + icyBytesUntilNextMetadata sent) = icyMetaint ∧
      (sent + icyBytesUntilNextMetadata sent) / icyMetaint = sent / icyMetaint + 1 := by
  simp only [icyBytesUntilNextMetadata_eq, icyMetaint]
  omega

/-! ### One call -/

/-- The first `length` bytes of the metadata array are a block. -/
structure WellFormedMetadata (array : List UInt8) (length : ℕ) : Prop where
  length_le : length ≤ array.length
  length_eq : ∃ n rest, array = n :: rest ∧ length = 1 + 16 * n.toNat

lemma WellFormedMetadata.isBlock {array : List UInt8} {length : ℕ}
    (h : WellFormedMetadata array length) : IsBlock (array.take length) := by
  obtain ⟨hle, n, rest, rfl, rfl⟩ := h
  rw [List.length_cons] at hle
  rw [Nat.add_comm, List.take_succ_cons]
  show (rest.take (16 * n.toNat)).length = 16 * n.toNat
  rw [List.length_take]
  omega

lemma WellFormedMetadata.block_length {array : List UInt8} {length : ℕ}
    (h : WellFormedMetadata array length) : (array.take length).length = length := by
  rw [List.length_take, Nat.min_eq_left h.length_le]

/-- The block that is inserted. -/
def IcyMetadataState.block (state : IcyMetadataState) : List UInt8 :=
  state.metadataBlock.take state.metadataLength

def IcyMetadataState.WellFormed (state : IcyMetadataState) : Prop :=
  WellFormedMetadata state.metadataBlock state.metadataLength

lemma IcyMetadataState.WellFormed.isBlock {state : IcyMetadataState} (h : state.WellFormed) :
    IsBlock state.block :=
  WellFormedMetadata.isBlock h

lemma IcyMetadataState.WellFormed.block_length {state : IcyMetadataState} (h : state.WellFormed) :
    state.block.length = state.metadataLength :=
  WellFormedMetadata.block_length h

/-- What the loop has done after `bodyOffset` bytes of the body: a receiver in step before the call
is in step now, with these bytes and the blocks that fell among them. -/
structure WrapInv (state : IcyMetadataState) (sent : ℕ) (body : List UInt8) (capacity : ℕ)
    (c : IcyWrapCursor) : Prop where
  offset_le : c.bodyOffset ≤ body.length
  countdown : c.failed = false →
    c.untilMetadata = icyBytesUntilNextMetadata (sent + c.bodyOffset)
  output_length : c.failed = false → c.output.length =
    c.bodyOffset + blocksWithin sent c.bodyOffset * state.metadataLength
  receives : c.failed = false → ∀ got blocks,
    Receiver.run icyMetaint ⟨.body (icyBytesUntilNextMetadata sent), got, blocks⟩ c.output
      = ⟨.body c.untilMetadata, got ++ body.take c.bodyOffset,
        blocks ++ List.replicate (blocksWithin sent c.bodyOffset) state.block⟩
  room : c.failed = false → c.output.length ≤ capacity
  short : c.failed = true →
    capacity < body.length + blocksWithin sent body.length * state.metadataLength

lemma blocksWithin_mono (sent : ℕ) {m n : ℕ} (h : m ≤ n) :
    blocksWithin sent m ≤ blocksWithin sent n := by
  unfold blocksWithin
  have := Nat.div_le_div_right (c := icyMetaint) (Nat.add_le_add_left h sent)
  omega

/-- The end of the countdown counts one more block. -/
lemma blocksWithin_full (sent offset : ℕ) :
    blocksWithin sent (offset + icyBytesUntilNextMetadata (sent + offset))
      = blocksWithin sent offset + 1 := by
  have hle := Nat.div_le_div_right (c := icyMetaint) (Nat.le_add_right sent offset)
  rw [blocksWithin, ← Nat.add_assoc, (icyBytesUntilNextMetadata_full _).2, blocksWithin]
  omega

/-- A round whose piece ends before the next block. -/
lemma WrapInv.round_plain {state : IcyMetadataState} {sent : ℕ} {body : List UInt8} {capacity : ℕ}
    {c : IcyWrapCursor} (h : WrapInv state sent body capacity c) (hfailed : c.failed = false)
    (hlt : body.length - c.bodyOffset < c.untilMetadata)
    (hroom : c.output.length + (body.length - c.bodyOffset) ≤ capacity) :
    WrapInv state sent body capacity
      ⟨c.untilMetadata - (body.length - c.bodyOffset), c.bodyOffset + (body.length - c.bodyOffset),
        c.output ++ (body.drop c.bodyOffset).take (body.length - c.bodyOffset), false⟩ := by
  have hoff := h.offset_le
  have hcount := h.countdown hfailed
  have hpiece : ((body.drop c.bodyOffset).take (body.length - c.bodyOffset)).length
      = body.length - c.bodyOffset := by
    simp
  obtain ⟨huntil, hdiv⟩ := icyBytesUntilNextMetadata_add (hcount ▸ hlt)
  have hblocks : blocksWithin sent (c.bodyOffset + (body.length - c.bodyOffset))
      = blocksWithin sent c.bodyOffset := by
    rw [blocksWithin, ← Nat.add_assoc, hdiv, ← blocksWithin]
  refine ⟨by simp only; omega, fun _ => ?_, fun _ => ?_, fun _ got blocks => ?_,
    fun _ => ?_, by simp⟩
  · rw [hcount, ← Nat.add_assoc, huntil]
  · simp only [List.length_append, hpiece, h.output_length hfailed, hblocks]
    omega
  · rw [Receiver.run_append, h.receives hfailed, Receiver.run_body (by rwa [hpiece]), hpiece,
      hblocks,
      List.append_assoc, List.take_add]
  · rw [List.length_append, hpiece]
    exact hroom

/-- A round whose piece ends at a block, which is inserted. -/
lemma WrapInv.round_block {state : IcyMetadataState} (hstate : state.WellFormed) {sent : ℕ}
    {body : List UInt8} {capacity : ℕ} {c : IcyWrapCursor} (h : WrapInv state sent body capacity c)
    (hfailed : c.failed = false) (hge : c.untilMetadata ≤ body.length - c.bodyOffset)
    (hroom : c.output.length + c.untilMetadata + state.metadataLength ≤ capacity) :
    WrapInv state sent body capacity
      ⟨icyMetaint, c.bodyOffset + c.untilMetadata,
        c.output ++ (body.drop c.bodyOffset).take c.untilMetadata ++ state.block, false⟩ := by
  have hoff := h.offset_le
  have hcount := h.countdown hfailed
  have hpos : 0 < c.untilMetadata := hcount ▸ icyBytesUntilNextMetadata_pos _
  have hpiece : ((body.drop c.bodyOffset).take c.untilMetadata).length = c.untilMetadata := by
    rw [List.length_take, List.length_drop]
    omega
  have huntil := (icyBytesUntilNextMetadata_full (sent + c.bodyOffset)).1
  have hblocks := blocksWithin_full sent c.bodyOffset
  rw [← hcount] at huntil hblocks
  refine ⟨by simp only; omega, fun _ => ?_, fun _ => ?_, fun _ got blocks => ?_,
    fun _ => ?_, by simp⟩
  · rw [← Nat.add_assoc, huntil]
  · rw [List.length_append, List.length_append, hpiece, hstate.block_length,
      h.output_length hfailed,
      hblocks]
    ring
  · rw [Receiver.run_append, Receiver.run_append, h.receives hfailed,
      Receiver.run_body_full hpiece hpos, Receiver.run_isBlock hstate.isBlock, hblocks,
      List.append_assoc, List.append_assoc, List.take_add, List.replicate_succ']
  · rw [List.length_append, List.length_append, hpiece, hstate.block_length]
    exact hroom

/-- A round fails for want of room, or it advances and keeps the invariant. -/
lemma WrapInv.round {state : IcyMetadataState} (hstate : state.WellFormed) {sent : ℕ}
    {body : List UInt8} {capacity : ℕ} {c : IcyWrapCursor} (h : WrapInv state sent body capacity c)
    (hmore : c.more body = true) :
    ∃ c', c.round state body capacity = some c' ∧ WrapInv state sent body capacity c' ∧
      (c'.failed = true ∨ c.bodyOffset < c'.bodyOffset) := by
  obtain ⟨hfailed, hlt⟩ : c.failed = false ∧ c.bodyOffset < body.length := by
    simpa [IcyWrapCursor.more] using hmore
  have hlen := h.output_length hfailed
  have hcount := h.countdown hfailed
  have hpos : 0 < c.untilMetadata := hcount ▸ icyBytesUntilNextMetadata_pos _
  have hml : ¬ state.metadataLength > state.metadataBlock.length := Nat.not_lt.mpr hstate.length_le
  unfold IcyWrapCursor.round
  dsimp only
  rcases lt_or_ge (body.length - c.bodyOffset) c.untilMetadata with hplain | hblock
  · rw [if_pos hplain, if_neg (Nat.sub_ne_zero_of_lt hplain)]
    split_ifs with hfull
    · refine ⟨_, rfl, ⟨h.offset_le, by simp, by simp, by simp, by simp, fun _ => ?_⟩, .inl rfl⟩
      have hmono := Nat.mul_le_mul_right state.metadataLength (blocksWithin_mono sent h.offset_le)
      omega
    · exact ⟨_, rfl, h.round_plain hfailed hplain (by omega), .inr (by simp only; omega)⟩
  · have hchunk : (if body.length - c.bodyOffset < c.untilMetadata then body.length - c.bodyOffset
        else c.untilMetadata) = c.untilMetadata := if_neg (Nat.not_lt.mpr hblock)
    have hpiece : ((body.drop c.bodyOffset).take c.untilMetadata).length = c.untilMetadata := by
      rw [List.length_take, List.length_drop]
      omega
    have hoff : c.bodyOffset + c.untilMetadata ≤ body.length := by
      have := h.offset_le
      omega
    -- the blocks of the whole body include the one that is due now
    have hmono := Nat.mul_le_mul_right state.metadataLength (blocksWithin_mono sent hoff)
    rw [hcount, blocksWithin_full, Nat.add_mul, Nat.one_mul] at hmono
    rw [hchunk, Nat.sub_self, if_pos rfl, if_neg hml]
    split_ifs with hfull hfull'
    · refine ⟨_, rfl, ⟨h.offset_le, by simp, by simp, by simp, by simp, fun _ => ?_⟩, .inl rfl⟩
      omega
    · rw [List.length_append, hpiece] at hfull'
      refine ⟨_, rfl, ⟨hoff, by simp, by simp, by simp, by simp, fun _ => ?_⟩, .inl rfl⟩
      omega
    · rw [List.length_append, hpiece] at hfull'
      exact ⟨_, rfl, h.round_block hstate hfailed hblock (by omega), .inr (by simp only; omega)⟩

/-- One call: it succeeds exactly when body and blocks fit, and then a receiver in step takes the
body and the blocks out of its output and stays in step. -/
theorem icyMetadataWrap_spec {state : IcyMetadataState} (henabled : state.enabled = true)
    (hstate : state.WellFormed) {sent : ℕ}
    (hsent : state.audioBytesUntilMetadata = icyBytesUntilNextMetadata sent) (body : List UInt8)
    (capacity : ℕ) :
    ∃ state' result, icyMetadataWrap state body capacity = some (state', result) ∧
      (result.isSome ↔
        body.length + blocksWithin sent body.length * state.metadataLength ≤ capacity) ∧
      ∀ out, result = some out →
        state' = { state with
          audioBytesUntilMetadata := icyBytesUntilNextMetadata (sent + body.length) } ∧
        out.length = body.length + blocksWithin sent body.length * state.metadataLength ∧
        ∀ got blocks,
          Receiver.run icyMetaint ⟨.body (icyBytesUntilNextMetadata sent), got, blocks⟩ out
            = ⟨.body (icyBytesUntilNextMetadata (sent + body.length)), got ++ body,
              blocks ++ List.replicate (blocksWithin sent body.length) state.block⟩ := by
  have hinit : WrapInv state sent body capacity ⟨state.audioBytesUntilMetadata, 0, [], false⟩ := by
    refine ⟨Nat.zero_le _, fun _ => hsent, fun _ => ?_, fun _ got blocks => ?_,
      fun _ => Nat.zero_le _,
      by simp⟩
    · simp [blocksWithin]
    · simp [blocksWithin, hsent]
  obtain ⟨c, hrun, hinv, hexit⟩ :=
    Loop.run_total (IcyWrapCursor.more body) (IcyWrapCursor.round state body capacity)
      (WrapInv state sent body capacity)
      (fun c => if c.failed then 0 else body.length - c.bodyOffset + 1)
      (fun c hc hmore => by
        obtain ⟨c', hround, hinv', hprogress⟩ := hc.round hstate hmore
        obtain ⟨hfailed, hlt⟩ : c.failed = false ∧ c.bodyOffset < body.length := by
          simpa [IcyWrapCursor.more] using hmore
        refine ⟨c', hround, hinv', ?_⟩
        rw [hfailed]
        rcases hprogress with hfailed' | hlt'
        · simp [hfailed']
        · simp only [Bool.false_eq_true, if_false]
          split <;> omega)
      (body.length + 1) hinit (by split <;> omega)
  have hwrap : icyMetadataWrap state body capacity = some
      ({ state with audioBytesUntilMetadata := c.untilMetadata },
        if c.failed then none else some c.output) := by
    rw [icyMetadataWrap, if_neg (by simp [henabled]), hrun]
    rfl
  refine ⟨_, _, hwrap, ?_, ?_⟩
  · cases hfailed : c.failed with
    | true =>
      have hshort := hinv.short hfailed
      simpa [hfailed] using hshort
    | false =>
      have hend : c.bodyOffset = body.length :=
        hinv.offset_le.antisymm (by simpa [IcyWrapCursor.more, hfailed] using hexit)
      have hroom := hinv.room hfailed
      rw [hinv.output_length hfailed, hend] at hroom
      simpa [hfailed] using hroom
  · intro out hout
    cases hfailed : c.failed with
    | true => simp [hfailed] at hout
    | false =>
      obtain rfl : c.output = out := by simpa [hfailed] using hout
      have hend : c.bodyOffset = body.length :=
        hinv.offset_le.antisymm (by simpa [IcyWrapCursor.more, hfailed] using hexit)
      have huntil := hinv.countdown hfailed
      rw [hend] at huntil
      refine ⟨by rw [huntil], by rw [hinv.output_length hfailed, hend], fun got blocks => ?_⟩
      rw [hinv.receives hfailed, hend, huntil, List.take_length]

/-! ### A whole stream -/

/-- A call of `icy_metadata_wrap`, with the metadata that `client_stream_pack_chunk` has copied into
the client's state. -/
structure WrapCall where
  metadataBlock : List UInt8
  metadataLength : ℕ
  body : List UInt8
  capacity : ℕ

namespace WrapCall

/-- The state the call is made in. -/
def state (call : WrapCall) (icy : IcyMetadataState) : IcyMetadataState :=
  { icy with metadataBlock := call.metadataBlock, metadataLength := call.metadataLength }

def block (call : WrapCall) : List UInt8 := call.metadataBlock.take call.metadataLength

def WellFormed (call : WrapCall) : Prop :=
  WellFormedMetadata call.metadataBlock call.metadataLength

end WrapCall

/-- The outputs of successive calls; `none` as soon as one of them fails. -/
def icyMetadataWrapAll (icy : IcyMetadataState) :
    List WrapCall → Option (IcyMetadataState × List (List UInt8))
  | [] => some (icy, [])
  | call :: calls => do
    let (icy, result) ← icyMetadataWrap (call.state icy) call.body call.capacity
    let out ← result
    let (icy, outs) ← icyMetadataWrapAll icy calls
    return (icy, out :: outs)

/-- Every call has room for its body and for the blocks that fall into it. -/
def EnoughCapacity (sent : ℕ) : List WrapCall → Prop
  | [] => True
  | call :: calls =>
    call.body.length + blocksWithin sent call.body.length * call.metadataLength ≤ call.capacity ∧
      EnoughCapacity (sent + call.body.length) calls

/-- The blocks of each call: its own metadata, once for every multiple of `ICY_METAINT` that the
body passes. -/
def insertedBlocks (sent : ℕ) : List WrapCall → List (List (List UInt8))
  | [] => []
  | call :: calls =>
    List.replicate (blocksWithin sent call.body.length) call.block
      :: insertedBlocks (sent + call.body.length) calls

lemma icyMetadataWrapAll_spec {icy : IcyMetadataState} (henabled : icy.enabled = true) {sent : ℕ}
    (hsent : icy.audioBytesUntilMetadata = icyBytesUntilNextMetadata sent) {calls : List WrapCall}
    (hcalls : ∀ call ∈ calls, call.WellFormed) :
    ((icyMetadataWrapAll icy calls).isSome ↔ EnoughCapacity sent calls) ∧
      ∀ icy' outs, icyMetadataWrapAll icy calls = some (icy', outs) → ∀ got blocks,
        Receiver.run icyMetaint ⟨.body (icyBytesUntilNextMetadata sent), got, blocks⟩ outs.flatten
          = ⟨.body icy'.audioBytesUntilMetadata, got ++ (calls.map WrapCall.body).flatten,
            blocks ++ (insertedBlocks sent calls).flatten⟩ := by
  induction calls generalizing icy sent with
  | nil =>
    refine ⟨by simp [icyMetadataWrapAll, EnoughCapacity], ?_⟩
    rintro _ _ ⟨⟩ got blocks
    simp [insertedBlocks, hsent]
  | cons call calls ih =>
    have henabled₁ : (call.state icy).enabled = true := henabled
    obtain ⟨icy₁, result, hwrap, hroom, hout⟩ := icyMetadataWrap_spec henabled₁
      (hcalls call (by simp)) hsent call.body call.capacity
    cases result with
    | none =>
      have hfull : ¬ EnoughCapacity sent (call :: calls) :=
        fun h => absurd (hroom.mpr h.1) (by simp)
      exact ⟨by simp [icyMetadataWrapAll, hwrap, hfull], by simp [icyMetadataWrapAll, hwrap]⟩
    | some out =>
      obtain ⟨rfl, -, hrun⟩ := hout out rfl
      obtain ⟨icy₂, hicy₂⟩ : ∃ icy₂, icy₂ = { call.state icy with
        audioBytesUntilMetadata := icyBytesUntilNextMetadata (sent + call.body.length) } := ⟨_, rfl⟩
      have henabled₂ : icy₂.enabled = true := hicy₂ ▸ henabled
      have hsent₂ : icy₂.audioBytesUntilMetadata
          = icyBytesUntilNextMetadata (sent + call.body.length) := hicy₂ ▸ rfl
      obtain ⟨hiff, hrest⟩ := ih henabled₂ hsent₂ fun c hc => hcalls c (by simp [hc])
      rw [← hicy₂] at hwrap
      have hfits := hroom.mp rfl
      simp only [icyMetadataWrapAll, hwrap, Option.bind_eq_bind, Option.bind_some]
      refine ⟨?_, ?_⟩
      · rw [EnoughCapacity, ← hiff]
        cases icyMetadataWrapAll icy₂ calls with
        | none => simp
        | some r =>
          simp only [Option.bind_some, Option.isSome_some, and_true]
          exact iff_of_true rfl hfits
      · intro icy' outs hall got blocks
        obtain ⟨⟨icy₃, outs₃⟩, hcalls₃, hpair⟩ := Option.bind_eq_some_iff.mp hall
        cases hpair
        rw [List.flatten_cons, Receiver.run_append, hrun, hrest _ _ hcalls₃]
        simp [insertedBlocks, WrapCall.block, IcyMetadataState.block, WrapCall.state]

/-- The prelude of either container sets the countdown to what is left after its own bytes. -/
lemma clientStreamBuildPrelude_spec {stream : ClientStream} (henabled : stream.icy.enabled = true) :
    ∃ stream' prelude, clientStreamBuildPrelude stream = (stream', some prelude) ∧
      prelude.length = (match stream.container with | .wav => 44 | .mpegts => 2 * 188) ∧
      stream'.icy.enabled = true ∧
      stream'.icy.audioBytesUntilMetadata = icyBytesUntilNextMetadata prelude.length := by
  unfold clientStreamBuildPrelude
  cases stream.container with
  | wav =>
    refine ⟨_, _, rfl, rfl, ?_, ?_⟩
    · simp [henabled, wavHeaderSize]
    · simp [henabled, wavHeaderSize]
  | mpegts =>
    obtain ⟨mpegtsMux, hbuild⟩ := streamMuxMpegtsBuildPrelude_spec stream.icy stream.mpegtsMux
      (by decide : 2 * 188 ≤ streamBufferSize)
    have hlen := tablePackets_length stream.mpegtsMux
    dsimp only
    rw [hbuild]
    exact ⟨_, _, rfl, hlen, by simp [henabled], by simp [henabled, hlen]⟩

/-- ICY demultiplexing undoes multiplexing: behind the prelude of either container, a player takes
exactly the bodies out of the wrapped chunks, and each block it strips is the metadata of the call
that inserted it. -/
theorem icyMetadataWrapAll_roundTrip {stream : ClientStream} (henabled : stream.icy.enabled = true)
    {calls : List WrapCall} (hcalls : ∀ call ∈ calls, call.WellFormed) :
    ∃ stream' prelude, clientStreamBuildPrelude stream = (stream', some prelude) ∧
      prelude.length = (match stream.container with | .wav => 44 | .mpegts => 2 * 188) ∧
      ((icyMetadataWrapAll stream'.icy calls).isSome ↔ EnoughCapacity prelude.length calls) ∧
      ∀ icy' outs, icyMetadataWrapAll stream'.icy calls = some (icy', outs) →
        (Receiver.start icyMetaint).run icyMetaint (prelude ++ outs.flatten)
          = ⟨.body icy'.audioBytesUntilMetadata, prelude ++ (calls.map WrapCall.body).flatten,
            (insertedBlocks prelude.length calls).flatten⟩ := by
  obtain ⟨stream', prelude, hbuild, hlen, henabled', hsent⟩ :=
    clientStreamBuildPrelude_spec henabled
  obtain ⟨hiff, hrun⟩ := icyMetadataWrapAll_spec henabled' hsent hcalls
  refine ⟨stream', prelude, hbuild, hlen, hiff, fun icy' outs hall => ?_⟩
  have hshort : prelude.length < icyMetaint := by
    rw [hlen]
    cases stream.container <;> decide
  have hcountdown : icyBytesUntilNextMetadata prelude.length = icyMetaint - prelude.length := by
    rw [icyBytesUntilNextMetadata_eq, Nat.mod_eq_of_lt hshort]
  rw [Receiver.run_append, Receiver.start, Receiver.run_body hshort, ← hcountdown,
    hrun icy' outs hall,
    List.nil_append, List.nil_append]

/-- A listener of a WAV stream whose only chunk ends at the first block, which is empty. -/
theorem icyMetadataWrapAll_roundTrip_wav :
    ∃ stream' prelude, clientStreamBuildPrelude
        ⟨none, streamMuxMpegtsInit 1, icyMetadataInit true, 1, true, false, .mono, .wav⟩
          = (stream', some prelude) ∧
      ∀ icy' outs, icyMetadataWrapAll stream'.icy [⟨[0], 1, List.replicate 16340 7, 32768⟩]
          = some (icy', outs) →
        (Receiver.start icyMetaint).run icyMetaint (prelude ++ outs.flatten)
          = ⟨.body icy'.audioBytesUntilMetadata, prelude ++ List.replicate 16340 7, [[0]]⟩ := by
  have hcalls : ∀ call ∈ [(⟨[0], 1, List.replicate 16340 7, 32768⟩ : WrapCall)],
      call.WellFormed := by
    intro call hcall
    obtain rfl := List.mem_singleton.mp hcall
    exact ⟨le_rfl, 0, [], rfl, rfl⟩
  obtain ⟨stream', prelude, hbuild, hlen, -, hrun⟩ := icyMetadataWrapAll_roundTrip
    (rfl : (ClientStream.mk none (streamMuxMpegtsInit 1) (icyMetadataInit true) 1 true false .mono
      .wav).icy.enabled = true) hcalls
  refine ⟨stream', prelude, hbuild, fun icy' outs hall => ?_⟩
  rw [hrun icy' outs hall, hlen]
  simp [-List.reduceReplicate, insertedBlocks, blocksWithin, icyMetaint, WrapCall.block]

end Mpxcast
