import Mpxcast.Core.CMemory
import Mpxcast.Core.Loop
import Mathlib.Data.List.DropRight

/-!
# ICY metadata

`stream/icy.c`: the title shown to listeners, the metadata block that carries it, and the function
that inserts this block into a body after every `ICY_METAINT` bytes. Titles and radiotexts are C
strings, given by their bytes up to the terminator.
-/

namespace Mpxcast

open CMemory

def icyMetaint : ℕ := 16384

def icyTitleMaxLength : ℕ := 240

def icyMetadataBlockCapacity : ℕ := 256

structure IcyMetadataState where
  enabled : Bool
  audioBytesUntilMetadata : ℕ
  metadataLength : ℕ
  metadataBlock : List UInt8
  stableTitle : List UInt8
deriving DecidableEq, Repr

def icyMetadataInit (enabled : Bool) : IcyMetadataState where
  enabled := enabled
  audioBytesUntilMetadata := icyMetaint
  metadataLength := 0
  metadataBlock := List.replicate icyMetadataBlockCapacity 0
  stableTitle := []

def icyBytesUntilNextMetadata (streamBodyBytes : ℕ) : ℕ :=
  let remainder := streamBodyBytes % icyMetaint
  if remainder = 0 then icyMetaint else icyMetaint - remainder

/-! ### The title -/

/-- The copying loop of `icy_copy_text`: quotes and semicolons become blanks, leading blanks and
characters that are not printable are skipped. -/
def icyCopyLoop (capacity : ℕ) : List UInt8 → List UInt8 → Bool → List UInt8
  | [], dest, _ => dest
  | c :: source, dest, started =>
    if dest.length + 1 < capacity then
      if c = 0x27 ∨ c = 0x3b then
        if !started then icyCopyLoop capacity source dest started
        else icyCopyLoop capacity source (dest ++ [0x20]) true
      else if 32 ≤ c ∧ c < 127 then
        if !started ∧ c = 0x20 then icyCopyLoop capacity source dest started
        else icyCopyLoop capacity source (dest ++ [c]) true
      else icyCopyLoop capacity source dest started
    else dest

def icyCopyText (capacity : ℕ) (source : List UInt8) : List UInt8 :=
  (icyCopyLoop capacity source [] false).rdropWhile (· = 0x20)

/-! ### The metadata block -/

/-- The bytes `StreamTitle='` and `';` around a title. -/
def icyStreamTitle (title : List UInt8) : List UInt8 :=
  [0x53, 0x74, 0x72, 0x65, 0x61, 0x6d, 0x54, 0x69, 0x74, 0x6c, 0x65, 0x3d, 0x27] ++ title
    ++ [0x27, 0x3b]

/-- Writes the block into `buffer` and returns its length, or -1 where the title does not fit. -/
def icyBuildMetadataBlock (buffer : List UInt8) (title : List UInt8) : List UInt8 × Int :=
  if title = [] then
    if buffer.length = 0 then (buffer, -1) else (memcpy buffer 0 [0], 1)
  else
    let metadata := icyStreamTitle title
    if metadata.length ≥ icyTitleMaxLength then (buffer, -1)
    else
      let paddedSize := (metadata.length + 15) / 16 * 16
      if 1 + paddedSize > buffer.length ∨ paddedSize / 16 > 255 then (buffer, -1)
      else
        let buffer := memcpy buffer 0 [UInt8.ofNat (paddedSize / 16)]
        let buffer := memcpy buffer 1 metadata
        let buffer := memset buffer (1 + metadata.length) 0 (paddedSize - metadata.length)
        (buffer, 1 + paddedSize)

/-- An `int` converted to `size_t`. -/
def sizeOfInt (n : Int) : ℕ := (n % 2 ^ 64).toNat

def icyMetadataUpdate (state : IcyMetadataState) (radiotext : List UInt8)
    (hasCompleteRadiotext : Bool) : IcyMetadataState × Int :=
  let title :=
    if hasCompleteRadiotext ∧ radiotext ≠ [] then icyCopyText (icyTitleMaxLength + 1) radiotext
    else state.stableTitle
  let stableTitle := if hasCompleteRadiotext ∧ title ≠ [] then title else state.stableTitle
  let (metadataBlock, length) := icyBuildMetadataBlock state.metadataBlock title
  let state :=
    { state with stableTitle, metadataBlock, metadataLength := sizeOfInt length }
  (state, if state.metadataLength = sizeOfInt (-1) then -1 else 0)

/-! ### Wrapping a body -/

/-- The variables of the loop of `icy_metadata_wrap`; `failed` records its early return. -/
structure IcyWrapCursor where
  untilMetadata : ℕ
  bodyOffset : ℕ
  output : List UInt8
  failed : Bool
deriving DecidableEq, Repr

def IcyWrapCursor.more (body : List UInt8) (c : IcyWrapCursor) : Bool :=
  !c.failed && decide (c.bodyOffset < body.length)

/-- One round of the loop. A metadata length beyond the array, as a failed `icy_metadata_update`
leaves it behind, makes the sum wrap and the copy overrun the array: undefined. -/
def IcyWrapCursor.round (state : IcyMetadataState) (body : List UInt8) (capacity : ℕ)
    (c : IcyWrapCursor) : Option IcyWrapCursor :=
  let remaining := body.length - c.bodyOffset
  let chunk := if remaining < c.untilMetadata then remaining else c.untilMetadata
  if c.output.length + chunk > capacity then some { c with failed := true }
  else
    let output := c.output ++ (body.drop c.bodyOffset).take chunk
    let untilMetadata := c.untilMetadata - chunk
    let bodyOffset := c.bodyOffset + chunk
    if untilMetadata = 0 then
      if state.metadataLength > state.metadataBlock.length then none
      else if output.length + state.metadataLength > capacity then
        some { untilMetadata, bodyOffset, output, failed := true }
      else
        some
          { untilMetadata := icyMetaint
            bodyOffset
            output := output ++ state.metadataBlock.take state.metadataLength
            failed := false }
    else some { untilMetadata, bodyOffset, output, failed := false }

/-- Returns the state with the wrapped bytes, or with `none` for the return value -1. Only the first
round can fail to advance in the body. -/
def icyMetadataWrap (state : IcyMetadataState) (body : List UInt8) (capacity : ℕ) :
    Option (IcyMetadataState × Option (List UInt8)) :=
  if !state.enabled then
    some (state, if body.length > capacity then none else some body)
  else do
    let c ← Loop.run (IcyWrapCursor.more body) (IcyWrapCursor.round state body capacity)
      (body.length + 1)
      { untilMetadata := state.audioBytesUntilMetadata, bodyOffset := 0, output := [],
        failed := false }
    return ({ state with audioBytesUntilMetadata := c.untilMetadata },
      if c.failed then none else some c.output)

end Mpxcast
