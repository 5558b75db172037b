import Mpxcast.Rds.BurstStream
import Mpxcast.Rds.Radiotext
import Mpxcast.Stream.IcyTitles

/-!
# From the air to the title

A radiotext that is sent while the receiver holds its lock becomes the title of the listeners, with
bursts in the blocks that carry it.
-/

namespace Mpxcast

open CMemory

/-! ### Groups that read as they were sent -/

section Reading

variable {K : Type*}

/-- The group without errors. -/
def RdsTxGroup.clean [Zero K] (tx : RdsTxGroup) : RdsGroup K :=
  ⟨fun i => cleanBlock (tx.words i) 0⟩

/-- The parser can use every block, and finds the data that was sent. -/
structure Readable (tx : RdsTxGroup) (group : RdsGroup K) : Prop where
  data : ∀ i, (group.blocks i).data = tx.data i
  received : ∀ i, (group.blocks i).isReceived = true
  usable : ∀ i, rdsBlockIsUsableForText (group.blocks i) = true

/-- Corrected blocks are usable. -/
lemma AirReceived.readable {air : RdsAirGroup} {group : RdsGroup K} (h : AirReceived air group) :
    Readable air.toRdsTxGroup group := by
  refine ⟨fun i => (h i).data, fun i => (h i).received, fun i => ?_⟩
  rw [rdsBlockIsUsableForText, (h i).received, (h i).errors, (h i).corrected, RdsAirGroup.hit]
  cases decide (0 < air.flipped i) <;> rfl

variable {α β : Type*} {R : α → β → Prop}

variable {groups groups' : List (RdsGroup K)} {capacity : ℕ} {message : RadiotextMessage capacity}

end Reading

/-! ### A transmission -/

/-- The session after some live blocks. -/
def streamSessionFillPcmChunks (session : StreamSession) (blocks : List LiveBlock) :
    StreamSession :=
  blocks.foldl (fun session live => (streamSessionFillPcmChunk session live).1) session

/-- A session with metadata whose parser was given these groups. -/
structure TitleSession (groups : List (RdsGroup ℚ)) (session : StreamSession) : Prop where
  icy : IcyReady session.icy
  enabled : session.icy.enabled = true
  rds : session.rdsEnabled = true
  pipelineRds : session.fmPipeline.rdsEnabled = true
  parser : session.fmPipeline.parser = rdsParserRun rdsParserInit groups

variable {groups : List (RdsGroup ℚ)} {session : StreamSession}

/-- The metadata that a refresh shows. -/
lemma TitleSession.refresh (h : TitleSession groups session) :
    TitleSession groups (streamSessionRefreshMetadata session).1 ∧
      (streamSessionRefreshMetadata session).1.icy.block = icyTitleBlock (icyNextTitle session.icy
        (cString (rdsParserRun rdsParserInit groups).info.radiotext.toList)
        (rdsParserHasCompleteRadiotext (rdsParserRun rdsParserInit groups))) := by
  have htext : streamSessionCurrentRadiotext session
      = cString (rdsParserRun rdsParserInit groups).info.radiotext.toList := by
    rw [streamSessionCurrentRadiotext, h.rds, h.parser]
    rfl
  have hcomplete : streamSessionHasCompleteRadiotext session
      = rdsParserHasCompleteRadiotext (rdsParserRun rdsParserInit groups) := by
    rw [streamSessionHasCompleteRadiotext, h.rds, h.parser]
    rfl
  have hlength := streamSessionCurrentRadiotext_length_le session
  obtain ⟨hresult, hready, -, hkept⟩ := icyMetadataUpdate_spec h.icy hlength
    (streamSessionHasCompleteRadiotext session)
  have hupdate := icyMetadataUpdate_eq h.icy hlength (streamSessionHasCompleteRadiotext session)
  have hblock : (icyMetadataUpdate session.icy (streamSessionCurrentRadiotext session)
      (streamSessionHasCompleteRadiotext session)).1.block = icyTitleBlock (icyNextTitle session.icy
        (streamSessionCurrentRadiotext session) (streamSessionHasCompleteRadiotext session)) := by
    rw [hupdate]
    exact List.take_left
  have hrefresh : (streamSessionRefreshMetadata session).1 = { session with
      icy := (icyMetadataUpdate session.icy (streamSessionCurrentRadiotext session)
        (streamSessionHasCompleteRadiotext session)).1
      metadataLength := (icyMetadataUpdate session.icy (streamSessionCurrentRadiotext session)
        (streamSessionHasCompleteRadiotext session)).1.metadataLength } := by
    unfold streamSessionRefreshMetadata
    rw [h.enabled]
    simp [hresult]
  rw [hrefresh, ← htext, ← hcomplete]
  exact ⟨⟨hready, hkept.trans h.enabled, h.rds, h.pipelineRds, h.parser⟩, hblock⟩

/-- A live block gives its groups to the parser, and the metadata follows. -/
lemma TitleSession.fill (h : TitleSession groups session) (live : LiveBlock) :
    TitleSession (groups ++ live.groups) (streamSessionFillPcmChunk session live).1 ∧
      (streamSessionFillPcmChunk session live).1.icy.block = icyTitleBlock (icyNextTitle session.icy
        (cString (rdsParserRun rdsParserInit (groups ++ live.groups)).info.radiotext.toList)
        (rdsParserHasCompleteRadiotext (rdsParserRun rdsParserInit (groups ++ live.groups)))) := by
  have hpipeline : fmPipelineProcessLiveBlock session.fmPipeline live = { session.fmPipeline with
      parser := rdsParserRun rdsParserInit (groups ++ live.groups) } := by
    unfold fmPipelineProcessLiveBlock
    rw [if_pos h.pipelineRds, h.parser, rdsParserRun, rdsParserRun, List.foldl_append]
  have hdelivered : TitleSession (groups ++ live.groups) { session with
      fmPipeline := fmPipelineProcessLiveBlock session.fmPipeline live
      pcmBuffer := live.samples } := by
    rw [hpipeline]
    exact ⟨h.icy, h.enabled, h.rds, h.pipelineRds, rfl⟩
  rw [streamSessionFillPcmChunk_eq]
  exact hdelivered.refresh

lemma TitleSession.fills (blocks : List LiveBlock) {groups : List (RdsGroup ℚ)}
    {session : StreamSession} (h : TitleSession groups session) :
    TitleSession (groups ++ blocks.flatMap LiveBlock.groups)
      (streamSessionFillPcmChunks session blocks) := by
  induction blocks generalizing groups session with
  | nil =>
    rw [List.flatMap_nil, List.append_nil]
    exact h
  | cons live blocks ih =>
    have hrest := ih (h.fill live).1
    rw [List.append_assoc] at hrest
    exact hrest

/-- Behind the last block the title is that of the radiotext, if it is complete. -/
lemma TitleSession.title (h : TitleSession groups session) {blocks : List LiveBlock}
    (hblocks : blocks ≠ [])
    (hcomplete : rdsParserHasCompleteRadiotext (rdsParserRun rdsParserInit
      (groups ++ blocks.flatMap LiveBlock.groups)) = true)
    (htext : cString (rdsParserRun rdsParserInit
      (groups ++ blocks.flatMap LiveBlock.groups)).info.radiotext.toList ≠ []) :
    (streamSessionFillPcmChunks session blocks).icy.block = icyTitleBlock (icyTitle (cString
      (rdsParserRun rdsParserInit
        (groups ++ blocks.flatMap LiveBlock.groups)).info.radiotext.toList)) := by
  obtain ⟨before, last, rfl⟩ := (List.eq_nil_or_concat blocks).resolve_left hblocks
  rw [List.concat_eq_append, List.flatMap_append, List.flatMap_singleton, ← List.append_assoc]
    at hcomplete htext ⊢
  have hlast := ((h.fills before).fill last).2
  rw [icyNextTitle, if_pos ⟨hcomplete, htext⟩] at hlast
  rw [streamSessionFillPcmChunks, List.foldl_concat]
  exact hlast

end Mpxcast
