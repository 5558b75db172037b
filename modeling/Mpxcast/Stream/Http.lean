import Mathlib.Tactic

/-!
# Stream requests

The request record of `stream/http.h`. Gains and time constants are the rational numbers their
`float` values denote.
-/

namespace Mpxcast

inductive StreamMode
  | mono
  | stereo
deriving DecidableEq, Repr

inductive StreamContainer
  | wav
  | mpegts
deriving DecidableEq, Repr

structure StreamHttpRequest where
  icyMetadataRequested : Bool
  rdsEnabled : Bool
  frequencyHz : ℕ
  volumeGain : ℚ
  deemphasisTauUs : ℚ
  mode : StreamMode
  container : StreamContainer
deriving DecidableEq, Repr

/-- `mode == STREAM_MODE_STEREO ? 2u : 1u`. -/
def StreamMode.channels : StreamMode → ℕ
  | .mono => 1
  | .stereo => 2

end Mpxcast
