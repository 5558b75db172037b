import Mathlib.Tactic

/-!
# WAV streams

A listener's view of an endless WAV stream: a header that names the format, and then little-endian
samples. The sizes in the header mean nothing, because the stream has no end.
-/

/-- What a player has to know of linear PCM. -/
structure PcmFormat where
  channels : ℕ
  sampleRate : ℕ
  sampleBits : ℕ
deriving DecidableEq, Repr

namespace WaveStream

/-- A two-byte little-endian number. -/
def word (lo hi : UInt8) : ℕ := lo.toNat + 256 * hi.toNat

/-- A four-byte little-endian number. -/
def doubleWord (b₀ b₁ b₂ b₃ : UInt8) : ℕ := word b₀ b₁ + 65536 * word b₂ b₃

/-- Reads the header of a stream of linear PCM, checks that its fields agree, and leaves the
samples. -/
def parse : List UInt8 → Option (PcmFormat × List UInt8)
  | 0x52 :: 0x49 :: 0x46 :: 0x46 :: _ :: _ :: _ :: _ :: 0x57 :: 0x41 :: 0x56 :: 0x45
      :: 0x66 :: 0x6d :: 0x74 :: 0x20 :: 16 :: 0 :: 0 :: 0 :: 1 :: 0 :: c₀ :: c₁
      :: r₀ :: r₁ :: r₂ :: r₃ :: b₀ :: b₁ :: b₂ :: b₃ :: a₀ :: a₁ :: s₀ :: s₁
      :: 0x64 :: 0x61 :: 0x74 :: 0x61 :: _ :: _ :: _ :: _ :: audio =>
    let format : PcmFormat := ⟨word c₀ c₁, doubleWord r₀ r₁ r₂ r₃, word s₀ s₁⟩
    if word a₀ a₁ = format.channels * (format.sampleBits / 8) ∧
        doubleWord b₀ b₁ b₂ b₃ = format.sampleRate * word a₀ a₁ then some (format, audio)
    else none
  | _ => none

/-- The samples of little-endian 16-bit audio. -/
def samples : List UInt8 → List Int16
  | lo :: hi :: rest => (UInt16.ofNat (word lo hi)).toInt16 :: samples rest
  | _ => []

/-- A sample in little-endian order. -/
def sampleBytes (sample : Int16) : List UInt8 :=
  [(sample.toUInt16 &&& 0xff).toUInt8, ((sample.toUInt16 >>> 8) &&& 0xff).toUInt8]

/-- The two bytes of a 16-bit word make up the word. -/
lemma word_bytes (w : UInt16) :
    word (w &&& 0xff).toUInt8 ((w >>> 8) &&& 0xff).toUInt8 = w.toNat := by
  have hw := w.toNat_lt
  have hmask (n : ℕ) : n &&& 255 = n % 2 ^ 8 := Nat.and_two_pow_sub_one_eq_mod n 8
  simp only [word, UInt16.toNat_toUInt8, UInt16.toNat_shiftRight, UInt16.toNat_and,
    Nat.shiftRight_eq_div_pow, UInt16.reduceToNat, hmask, Nat.reduceMod, Nat.reducePow]
  omega

/-- Reading the samples back gives the samples. -/
theorem samples_flatMap_sampleBytes (xs : List Int16) : samples (xs.flatMap sampleBytes) = xs := by
  induction xs with
  | nil => rfl
  | cons x xs ih =>
    rw [List.flatMap_cons, sampleBytes, List.cons_append, List.cons_append, List.nil_append,
      samples, ih, word_bytes, UInt16.ofNat_toNat, Int16.toInt16_toUInt16]

/-- Plays a stream in the format the listener is set to. -/
def play (format : PcmFormat) (bytes : List UInt8) : Option (List Int16) := do
  let (found, audio) ← parse bytes
  if found = format ∧ format.sampleBits = 16 then some (samples audio) else none

end WaveStream
