import Mathlib.Data.Stream.Init
import Mathlib.Tactic

/-!
# C input streams

The part of `stdio.h` that reads a binary file: the position, the two indicators, `fread`,
`clearerr` and `fseek` to the start. A stream that is sent back to the start whenever its file ends
delivers what is left of the file and then the file over and over.
-/

/-- A `FILE` that is open for reading. -/
structure CStream (α : Type*) where
  contents : List α
  position : ℕ
  eof : Bool
  error : Bool
deriving DecidableEq, Repr

namespace CStream

open Stream' (cycle cycle_eq take_append_of_le_length drop_append_of_le_length drop_append_stream
  drop_drop length_take take_add)

variable {α : Type*}

/-- `fopen`: the position is the start of the file, and both indicators are clear. -/
def fopen (contents : List α) : CStream α := ⟨contents, 0, false, false⟩

/-- The part of the file behind the position. -/
def rest (stream : CStream α) : List α := stream.contents.drop stream.position

/-- `fread(ptr, 1, count, stream)`, where the device fails after `fault` bytes if that is given.
Nothing is read while the end-of-file indicator is set. -/
def fread (stream : CStream α) (fault : Option ℕ) (count : ℕ) : List α × CStream α :=
  let readable := if stream.eof then [] else stream.rest
  let readable := match fault with
    | none => readable
    | some bytes => readable.take bytes
  let got := readable.take count
  let short : Bool := got.length < count
  (got, { stream with
    position := stream.position + got.length
    eof := stream.eof || (short && fault.isNone)
    error := stream.error || (short && fault.isSome) })

def clearerr (stream : CStream α) : CStream α := { stream with eof := false, error := false }

/-- `fseek(stream, 0, SEEK_SET)`; a seek that fails moves nothing. -/
def fseekStart (stream : CStream α) (fails : Bool) : CStream α × Int :=
  if fails then (stream, -1) else ({ stream with position := 0, eof := false }, 0)

@[simp] lemma fread_contents (stream : CStream α) (fault : Option ℕ) (count : ℕ) :
    (stream.fread fault count).2.contents = stream.contents := rfl

lemma fread_length_le (stream : CStream α) (fault : Option ℕ) (count : ℕ) :
    (stream.fread fault count).1.length ≤ count :=
  List.length_take_le _ _

/-- A read that meets no fault. -/
lemma fread_none {stream : CStream α} (heof : stream.eof = false) (count : ℕ) :
    stream.fread none count
      = (stream.rest.take count,
          ⟨stream.contents, stream.position + (stream.rest.take count).length,
            (stream.rest.take count).length < count, stream.error⟩) := by
  simp [fread, heof]

/-- A short read that set no error indicator has come to the end of the file. -/
lemma fread_of_short {stream : CStream α} {fault : Option ℕ} {count : ℕ}
    (hshort : (stream.fread fault count).1.length < count)
    (herror : (stream.fread fault count).2.error = false) :
    (stream.fread fault count).1 = if stream.eof then [] else stream.rest := by
  cases fault with
  | some bytes => simp_all [fread]
  | none =>
    refine List.take_of_length_le (not_lt.mp fun hlt => hshort.ne ?_)
    exact List.length_take_of_le hlt.le

/-! ### Endless replay -/

variable {contents : List α}

/-- The stream is clear and, sent back to the start whenever its file ends, delivers `ahead`. -/
structure Replays (hne : contents ≠ []) (stream : CStream α) (ahead : Stream' α) : Prop where
  contents_eq : stream.contents = contents
  eof : stream.eof = false
  error : stream.error = false
  ahead_eq : ahead = stream.rest ++ₛ cycle contents hne

variable {hne : contents ≠ []} {stream : CStream α} {ahead : Stream' α} {count : ℕ}

/-- A file that was just opened will be replayed from its first byte on. -/
lemma replays_fopen (hne : contents ≠ []) : Replays hne (fopen contents) (cycle contents hne) :=
  ⟨rfl, rfl, rfl, cycle_eq contents hne⟩

namespace Replays

/-- A read that the file covers stays clear. -/
lemma fread_of_le (h : Replays hne stream ahead) (hcount : count ≤ stream.rest.length) :
    (stream.fread none count).1 = ahead.take count ∧
      Replays hne (stream.fread none count).2 (ahead.drop count) := by
  have hgot : (stream.fread none count).1 = stream.rest.take count := by simp [fread, h.eof]
  refine ⟨?_, h.contents_eq, ?_, ?_, ?_⟩
  · rw [hgot, h.ahead_eq, take_append_of_le_length (h := hcount)]
  · simp [fread, h.eof, hcount]
  · simp [fread, h.eof, h.error]
  · have hrest : (stream.fread none count).2.rest = stream.rest.drop count := by
      simp [fread, rest, h.eof, ← List.drop_drop]
    rw [hrest, h.ahead_eq, drop_append_of_le_length (h := hcount)]

/-- A read that the file does not cover delivers its end, and the rewound stream goes on with the
start of the file. -/
lemma fread_of_lt (h : Replays hne stream ahead) (hcount : stream.rest.length < count) :
    (stream.fread none count).1 = ahead.take stream.rest.length ∧
      (stream.fread none count).2.error = false ∧
      Replays hne ((stream.fread none count).2.clearerr.fseekStart false).1
        (ahead.drop stream.rest.length) := by
  have hgot : (stream.fread none count).1 = stream.rest := by
    simp [fread, h.eof, List.take_of_length_le hcount.le]
  refine ⟨?_, by simp [fread, h.error], h.contents_eq, rfl, rfl, ?_⟩
  · rw [hgot, h.ahead_eq, take_append_of_le_length (h := le_rfl), List.take_length]
  · rw [h.ahead_eq, drop_append_stream]
    change _ = stream.contents ++ₛ _
    rw [h.contents_eq, ← cycle_eq]

end Replays

/-- Behind any number of bytes the endless file goes on in the middle of the file. -/
lemma drop_cycle (hne : contents ≠ []) (n : ℕ) :
    (cycle contents hne).drop n
      = contents.drop (n % contents.length) ++ₛ cycle contents hne := by
  induction n using Nat.strong_induction_on with
  | _ n ih =>
    by_cases hlt : n < contents.length
    · rw [Nat.mod_eq_of_lt hlt, ← drop_append_of_le_length (h := hlt.le), ← cycle_eq]
    · have hpos : 0 < contents.length := List.length_pos_iff.mpr hne
      obtain ⟨m, rfl⟩ := Nat.exists_eq_add_of_le (not_lt.mp hlt)
      rw [Nat.add_mod_left, ← ih m (by omega), ← drop_drop]
      conv_lhs => rw [cycle_eq, drop_append_stream]

/-! ### Pieces -/

/-- A stream cut into pieces of the given sizes. -/
def pieces : Stream' α → List ℕ → List (List α)
  | _, [] => []
  | ahead, n :: sizes => ahead.take n :: pieces (ahead.drop n) sizes

lemma length_pieces (ahead : Stream' α) (sizes : List ℕ) :
    (pieces ahead sizes).map List.length = sizes := by
  induction sizes generalizing ahead with
  | nil => rfl
  | cons n sizes ih => rw [pieces, List.map_cons, ih, length_take]

lemma flatten_pieces (ahead : Stream' α) (sizes : List ℕ) :
    (pieces ahead sizes).flatten = ahead.take sizes.sum := by
  induction sizes generalizing ahead with
  | nil => rfl
  | cons n sizes ih => rw [pieces, List.flatten_cons, ih, List.sum_cons, take_add]

/-- A piece starts behind those before it. -/
lemma getElem?_pieces (ahead : Stream' α) (sizes : List ℕ) (k : ℕ) :
    (pieces ahead sizes)[k]?
      = sizes[k]?.map fun n => (ahead.drop (sizes.take k).sum).take n := by
  induction sizes generalizing ahead k with
  | nil => rfl
  | cons n sizes ih =>
    cases k with
    | zero => rfl
    | succ k => rw [pieces, List.getElem?_cons_succ, ih, List.getElem?_cons_succ,
        List.take_succ_cons, List.sum_cons, drop_drop]

end CStream
