import Mathlib.Data.List.DropRight
import Mpxcast.Core.NumberText
import Mpxcast.Stream.Http

/-!
# Parsing stream requests

`stream/http.c`. Strings are their bytes without the terminator. `width` is the width of
`unsigned long`.
-/

namespace Mpxcast

open NumberText

def uint32Max : ℕ := 2 ^ 32 - 1

def icyNameMaxLength : ℕ := 128

/-- The request with the station name, which the record for the session leaves out. -/
structure StreamHttpNamedRequest extends StreamHttpRequest where
  explicitStationName : Bool
  requestedStationName : List UInt8
deriving DecidableEq

structure StreamHttpDefaults where
  rdsEnabled : Bool
  volumeGain : ℚ
  deemphasisTauUs : ℚ
  mode : StreamMode

/-- A status code and its reason. -/
structure HttpRejection where
  statusCode : ℕ
  reason : String
deriving DecidableEq, Repr

def methodNotAllowed : HttpRejection := ⟨405, "Method Not Allowed"⟩

def notFound : HttpRejection := ⟨404, "Not Found"⟩

def badRequest : HttpRejection := ⟨400, "Bad Request"⟩

def internalServerError : HttpRejection := ⟨500, "Internal Server Error"⟩

/-! ### The path -/

/-- Values out of range are refused, so the casts to `uint32_t` are exact. -/
def parseFrequencyHz (width : ℕ) (text : List UInt8) : Option ℕ :=
  if text = [] then none
  else if 0x2e ∈ text then
    match strtod text with
    | (none, _) => none
    | (some mhz, stop) =>
      if stop = text ∨ stop ≠ [] ∨ mhz ≤ 0 then none
      else
        match roundDouble (mhz * 1000000) with
        | none => none
        | some hz => if hz < 1 ∨ (uint32Max : ℚ) < hz then none else some (llround hz).toNat
  else
    let (hz, stop) := strtoul width text
    if stop = text ∨ stop ≠ [] ∨ hz = 0 ∨ uint32Max < hz then none else some hz

/-- What precedes the last occurrence of a character, and the text from there on. -/
def strrchr (text : List UInt8) (c : UInt8) : Option (List UInt8 × List UInt8) :=
  if c ∈ text then
    let suffix := text.rtakeWhile (· ≠ c)
    some (text.take (text.length - suffix.length - 1), c :: suffix)
  else none

/-- The text without its extension, and the container; `none` is the return value -1. -/
def splitContainerExtension (text : List UInt8) : Option (List UInt8 × StreamContainer) :=
  match strrchr text 0x2e with
  | none => some (text, .mpegts)
  | some (before, dot) =>
    if dot = ascii ['.', 'w', 'a', 'v'] then some (before, .wav)
    else if dot = ascii ['.', 't', 's'] then some (before, .mpegts)
    else none

/-- Every path that is refused is answered with 404. -/
def streamHttpParsePath (width : ℕ) (url : List UInt8) : Option (ℕ × StreamContainer) :=
  if url.head? ≠ some 0x2f then none
  else
    let pathFrequency := url.tail
    if pathFrequency = [] ∨ 0x2f ∈ pathFrequency ∨ 64 ≤ pathFrequency.length then none
    else do
      let (frequencyText, container) ← splitContainerExtension pathFrequency
      let frequencyHz ← parseFrequencyHz width frequencyText
      some (frequencyHz, container)

/-! ### Query parameters -/

def parseBoolParameter (value : Option (List UInt8)) (enabled : Bool) : Option Bool :=
  match value with
  | none | some [] => some enabled
  | some text =>
    if text = ascii ['1'] then some true
    else if text = ascii ['0'] then some false
    else none

def parseFloatParameter (value : Option (List UInt8)) (minValue result : ℚ) : Option ℚ :=
  match value with
  | none | some [] => some result
  | some text =>
    match strtof text with
    | (none, _) => none
    | (some parsed, stop) =>
      if stop = text ∨ stop ≠ [] ∨ parsed < minValue then none else some parsed

def formatDefaultStationName (frequencyHz capacity : ℕ) : Option (List UInt8) := do
  let mhz ← roundDouble (frequencyHz / 1000000)
  let mhzText := formatThreeDecimals mhz
  if 32 ≤ mhzText.length then none
  else
    let mhzText := mhzText.rdropWhile (· = 0x30)
    let mhzText := if mhzText.getLast? = some 0x2e then mhzText.dropLast else mhzText
    let name := mhzText ++ ascii [' ', 'M', 'H', 'z']
    if name.length < capacity then some name else none

def lookupFirstParameter (lookup : List UInt8 → Option (List UInt8)) (name : List UInt8)
    (aliasName : Option (List UInt8)) : Option (List UInt8) :=
  match lookup name with
  | some value => some value
  | none => aliasName.bind lookup

/-- The request from a frequency and a container and the query parameters. -/
def streamHttpParseQuery (frequencyHz : ℕ) (container : StreamContainer)
    (icyMetadataRequested : Bool) (defaults : StreamHttpDefaults)
    (lookup : List UInt8 → Option (List UInt8)) : Except HttpRejection StreamHttpNamedRequest := do
  let stereo := lookupFirstParameter lookup (ascii ['s', 't', 'e', 'r', 'e', 'o']) none
  let some stereoEnabled := parseBoolParameter stereo (defaults.mode = .stereo)
    | .error badRequest
  let rds := lookupFirstParameter lookup (ascii ['r', 'd', 's']) none
  let some rdsEnabled := parseBoolParameter rds defaults.rdsEnabled | .error badRequest
  let gain := lookupFirstParameter lookup
    (ascii ['v', 'o', 'l', 'u', 'm', 'e', '-', 'g', 'a', 'i', 'n']) (ascii ['v', 'o', 'l'])
  let some volumeGain := parseFloatParameter gain 0 defaults.volumeGain | .error badRequest
  if volumeGain = 0 then .error badRequest
  else
    let tau := lookupFirstParameter lookup
      (ascii ['d', 'e', 'e', 'm', 'p', 'h', 'a', 's', 'i', 's', '-', 't', 'a', 'u'])
      (ascii ['d', 'e', 'e', 'm', 'p', 'h', 'a', 's', 'i', 's'])
    let some deemphasisTauUs := parseFloatParameter tau 0 defaults.deemphasisTauUs
      | .error badRequest
    let name := lookupFirstParameter lookup (ascii ['n', 'a', 'm', 'e']) none
    let requestedName := (name.getD []).take icyNameMaxLength
    let stationName :=
      if requestedName ≠ [] then some requestedName
      else formatDefaultStationName frequencyHz (icyNameMaxLength + 1)
    let some requestedStationName := stationName | .error internalServerError
    .ok
      { icyMetadataRequested
        rdsEnabled
        frequencyHz
        volumeGain
        deemphasisTauUs
        mode := if stereoEnabled then .stereo else .mono
        container
        explicitStationName := requestedName ≠ []
        requestedStationName }

def streamHttpParseRequest (width : ℕ) (method url : List UInt8) (icyMetadataRequested : Bool)
    (defaults : StreamHttpDefaults) (lookup : List UInt8 → Option (List UInt8)) :
    Except HttpRejection StreamHttpNamedRequest :=
  if method ≠ ascii ['G', 'E', 'T'] then .error methodNotAllowed
  else
    match streamHttpParsePath width url with
    | none => .error notFound
    | some (frequencyHz, container) =>
      streamHttpParseQuery frequencyHz container icyMetadataRequested defaults lookup

end Mpxcast
