import Mathlib.Tactic
import Mathlib.Data.List.GetD

/-!
# Reassembling a text from its segments

A buffer of slots, some of them received, and a text that ends at a stop character or at the
capacity of the buffer. The text is complete when every slot up to its end has been received.
-/

namespace Reassembly

variable {α : Type*}

/-- What has been received in each slot. -/
abbrev Buffer (α : Type*) := ℕ → Option α

/-- The first `n` slots hold text. -/
def Filled (stop : α) (buffer : Buffer α) (n : ℕ) : Prop :=
  ∀ i < n, ∃ c, buffer i = some c ∧ c ≠ stop

/-- The buffer holds text up to a stop character or up to its capacity. -/
def Complete (stop : α) (capacity : ℕ) (buffer : Buffer α) : Prop :=
  (∃ e < capacity, buffer e = some stop ∧ Filled stop buffer e) ∨ Filled stop buffer capacity

/-- Nothing but the message has been received up to its end. -/
def Agrees (stop : α) (capacity : ℕ) (message : List α) (buffer : Buffer α) : Prop :=
  ∀ i ≤ message.length, i < capacity → ∀ c, buffer i = some c → c = message.getD i stop

/-- The text in the buffer, with the stop character in the slots that have not been received. -/
def text [DecidableEq α] (stop : α) (capacity : ℕ) (buffer : Buffer α) : List α :=
  ((List.range capacity).map fun i => (buffer i).getD stop).takeWhile (· ≠ stop)

lemma getD_ne_stop {stop : α} {message : List α} (hstop : stop ∉ message) {i : ℕ}
    (hi : i < message.length) : message.getD i stop ≠ stop := by
  rw [List.getD_eq_getElem _ _ hi]
  exact fun heq => hstop (heq ▸ List.getElem_mem hi)

lemma agrees_empty (stop : α) (capacity : ℕ) (message : List α) :
    Agrees stop capacity message fun _ => none :=
  fun _ _ _ _ h => nomatch h

/-- Receiving a slot keeps the agreement if the slot is right or lies beyond the end. -/
lemma Agrees.update {stop : α} {capacity : ℕ} {message : List α} {buffer : Buffer α}
    (h : Agrees stop capacity message buffer) {i : ℕ} {c : α}
    (hc : i ≤ message.length → c = message.getD i stop) :
    Agrees stop capacity message (Function.update buffer i (some c)) := by
  intro j hj hcap d hd
  rcases eq_or_ne j i with rfl | hne
  · rw [Function.update_self, Option.some_inj] at hd
    rw [← hd]
    exact hc hj
  · rw [Function.update_of_ne hne] at hd
    exact h j hj hcap d hd

/-- **A message is complete as soon as all of it has been received, and not before.** -/
theorem complete_iff {stop : α} {capacity : ℕ} {message : List α} {buffer : Buffer α}
    (hlen : message.length ≤ capacity) (hstop : stop ∉ message)
    (h : Agrees stop capacity message buffer) :
    Complete stop capacity buffer ↔
      ∀ i ≤ message.length, i < capacity → (buffer i).isSome := by
  constructor
  · rintro (⟨e, he, hbuffer, hfilled⟩ | hfilled) i hi hcap
    · have hle : message.length ≤ e := by
        by_contra hlt
        exact getD_ne_stop hstop (not_le.mp hlt) (h e (not_le.mp hlt).le he stop hbuffer).symm
      rcases (hi.trans hle).lt_or_eq with hlt | rfl
      · obtain ⟨c, hc, -⟩ := hfilled i hlt
        rw [hc, Option.isSome_some]
      · rw [hbuffer, Option.isSome_some]
    · obtain ⟨c, hc, -⟩ := hfilled i hcap
      rw [hc, Option.isSome_some]
  · intro hall
    have hfilled : Filled stop buffer message.length := by
      intro i hi
      obtain ⟨c, hc⟩ := Option.isSome_iff_exists.mp (hall i hi.le (hi.trans_le hlen))
      refine ⟨c, hc, ?_⟩
      rw [h i hi.le (hi.trans_le hlen) c hc]
      exact getD_ne_stop hstop hi
    rcases hlen.lt_or_eq with hlt | heq
    · obtain ⟨c, hc⟩ := Option.isSome_iff_exists.mp (hall message.length le_rfl hlt)
      have hend := h message.length le_rfl hlt c hc
      rw [List.getD_eq_default _ _ le_rfl] at hend
      exact .inl ⟨message.length, hlt, hend ▸ hc, hfilled⟩
    · exact .inr (heq ▸ hfilled)

/-- A complete text is the message. -/
theorem text_eq [DecidableEq α] {stop : α} {capacity : ℕ} {message : List α} {buffer : Buffer α}
    (hlen : message.length ≤ capacity) (hstop : stop ∉ message)
    (h : Agrees stop capacity message buffer)
    (hall : ∀ i ≤ message.length, i < capacity → (buffer i).isSome) :
    text stop capacity buffer = message := by
  have hget : ∀ i ≤ message.length, i < capacity → (buffer i).getD stop = message.getD i stop := by
    intro i hi hcap
    obtain ⟨c, hc⟩ := Option.isSome_iff_exists.mp (hall i hi hcap)
    rw [hc, Option.getD_some, h i hi hcap c hc]
  have hslots : ((List.range capacity).map fun i => (buffer i).getD stop) = message ++
      ((List.range' message.length (capacity - message.length)).map fun i =>
        (buffer i).getD stop) := by
    obtain ⟨n, rfl⟩ := Nat.exists_eq_add_of_le hlen
    rw [List.range_eq_range', Nat.add_sub_cancel_left, ← List.range'_append_1, List.map_append,
      Nat.zero_add]
    congr 1
    refine List.ext_getElem (by simp) fun i hi hi' => ?_
    simp [hget i hi'.le (by omega), hi']
  rw [text, hslots, List.takeWhile_append_of_pos]
  · obtain ⟨n, hn⟩ := Nat.exists_eq_add_of_le hlen
    rcases n with _ | n
    · simp [hn]
    · rw [hn, Nat.add_sub_cancel_left, List.range'_succ, List.map_cons,
        hget _ le_rfl (by omega), List.getD_eq_default _ _ le_rfl,
        List.takeWhile_cons_of_neg (by simp),
        List.append_nil]
  · intro c hc
    simpa using fun heq : c = stop => hstop (heq ▸ hc)

/-- The place where a buffer ends: its first stop character, or its capacity. -/
structure EndsAt (stop : α) (capacity : ℕ) (buffer : Buffer α) (e : ℕ) : Prop where
  le : e ≤ capacity
  before : ∀ i < e, buffer i ≠ some stop
  stop : e < capacity → buffer e = some stop

lemma exists_endsAt (stop : α) (capacity : ℕ) (buffer : Buffer α) :
    ∃ e, EndsAt stop capacity buffer e := by
  classical
  by_cases hend : ∃ e < capacity, buffer e = some stop
  · obtain ⟨hlt, hbuffer⟩ := Nat.find_spec hend
    refine ⟨Nat.find hend, hlt.le, fun i hi hstop => ?_, fun _ => hbuffer⟩
    exact Nat.find_min hend hi ⟨hi.trans hlt, hstop⟩
  · exact ⟨capacity, le_rfl, fun i hi hstop => hend ⟨i, hi, hstop⟩, fun h => absurd h (lt_irrefl _)⟩

/-- A buffer is complete when it is filled up to its end. -/
lemma EndsAt.complete_iff {stop : α} {capacity e : ℕ} {buffer : Buffer α}
    (h : EndsAt stop capacity buffer e) :
    Complete stop capacity buffer ↔ Filled stop buffer e := by
  constructor
  · rintro (⟨e', he', hbuffer, hfilled⟩ | hfilled)
    · have hle : e ≤ e' := by
        by_contra hlt
        exact h.before e' (not_le.mp hlt) hbuffer
      exact fun i hi => hfilled i (hi.trans_le hle)
    · exact fun i hi => hfilled i (hi.trans_le h.le)
  · intro hfilled
    rcases h.le.lt_or_eq with hlt | rfl
    · exact .inl ⟨e, hlt, h.stop hlt, hfilled⟩
    · exact .inr hfilled

/-- The text of a buffer that is filled up to its end. -/
lemma EndsAt.mem_text_iff [DecidableEq α] {stop : α} {capacity e : ℕ} {buffer : Buffer α}
    (h : EndsAt stop capacity buffer e) (hfilled : Filled stop buffer e) {c : α} :
    c ∈ text stop capacity buffer ↔ ∃ i < e, buffer i = some c := by
  have hagrees : Agrees stop capacity
      ((List.range e).map fun i => (buffer i).getD stop) buffer := by
    intro i hi hcap d hd
    rw [List.length_map, List.length_range] at hi
    rcases hi.lt_or_eq with hlt | rfl
    · simp [hlt, hd]
    · rw [h.stop hcap, Option.some_inj] at hd
      simp [hd]
  have hstop : stop ∉ (List.range e).map fun i => (buffer i).getD stop := by
    rw [List.mem_map]
    rintro ⟨i, hi, heq⟩
    obtain ⟨d, hd, hne⟩ := hfilled i (List.mem_range.mp hi)
    rw [hd] at heq
    exact hne heq
  rw [text_eq (by simpa using h.le) hstop hagrees]
  · rw [List.mem_map]
    constructor
    · rintro ⟨i, hi, rfl⟩
      obtain ⟨d, hd, -⟩ := hfilled i (List.mem_range.mp hi)
      exact ⟨i, List.mem_range.mp hi, by rw [hd, Option.getD_some]⟩
    · rintro ⟨i, hi, hc⟩
      exact ⟨i, List.mem_range.mpr hi, by rw [hc, Option.getD_some]⟩
  · intro i hi hcap
    rw [List.length_map, List.length_range] at hi
    rcases hi.lt_or_eq with hlt | rfl
    · obtain ⟨d, hd, -⟩ := hfilled i hlt
      rw [hd, Option.isSome_some]
    · rw [h.stop hcap, Option.isSome_some]

end Reassembly
