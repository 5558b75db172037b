import Mathlib.Data.List.TakeWhile
import Mathlib.Tactic

/-!
# Numbers in text

`strtoul`, `strtod` and `strtof` of the C library in the C locale. A text is given without its
terminator; each function returns the number and the rest of the text, which is the whole text where
it does not begin with a number. Binary floating point numbers are the rational numbers they denote,
and `none` stands for an infinity or a NaN.
-/

namespace NumberText

/-- The bytes of an ASCII text. -/
def ascii (text : List Char) : List UInt8 := text.map fun c => UInt8.ofNat c.toNat

/-! ### Characters -/

def isspace (c : UInt8) : Bool := decide (c = 0x20) || decide (0x09 ≤ c) && decide (c ≤ 0x0d)

def isdigit (c : UInt8) : Bool := decide (0x30 ≤ c) && decide (c ≤ 0x39)

def tolower (c : UInt8) : UInt8 := if 0x41 ≤ c ∧ c ≤ 0x5a then c + 0x20 else c

def isalpha (c : UInt8) : Bool := decide (0x61 ≤ tolower c) && decide (tolower c ≤ 0x7a)

def isxdigit (c : UInt8) : Bool :=
  isdigit c || decide (0x61 ≤ tolower c) && decide (tolower c ≤ 0x66)

def digitValue (c : UInt8) : ℕ :=
  if isdigit c then c.toNat - 0x30 else (tolower c).toNat - 0x61 + 10

/-- The number that digits of a base denote. -/
def digitsValue (base : ℕ) (digits : List UInt8) : ℕ :=
  digits.foldl (fun value c => base * value + digitValue c) 0

/-- Whether there is a minus sign, and what comes after the sign. -/
def splitSign (text : List UInt8) : Bool × List UInt8 :=
  if text.head? = some 0x2d then (true, text.tail)
  else if text.head? = some 0x2b then (false, text.tail)
  else (false, text)

/-! ### Integers -/

/-- `strtoul` in base ten for an `unsigned long` of the given width. -/
def strtoul (width : ℕ) (text : List UInt8) : ℕ × List UInt8 :=
  let (negative, rest) := splitSign (text.dropWhile isspace)
  let digits := rest.takeWhile isdigit
  if digits = [] then (0, text)
  else
    let value := digitsValue 10 digits
    (if 2 ^ width ≤ value then 2 ^ width - 1
      else if negative then (2 ^ width - value) % 2 ^ width
      else value,
      rest.dropWhile isdigit)

inductive Sign
  | none
  | plus
  | minus
deriving DecidableEq

def Sign.text : Sign → List UInt8
  | .none => []
  | .plus => [0x2b]
  | .minus => [0x2d]

/-- What `strtoul` takes for a number. -/
structure Numeral where
  blanks : List UInt8
  sign : Sign
  digits : List UInt8
  blanks_isspace : ∀ c ∈ blanks, isspace c = true
  digits_isdigit : ∀ c ∈ digits, isdigit c = true
  digits_ne : digits ≠ []

namespace Numeral

variable (n : Numeral)

def text : List UInt8 := n.blanks ++ n.sign.text ++ n.digits

def magnitude : ℕ := digitsValue 10 n.digits

/-- Digits and nothing else. -/
def Plain : Prop := n.blanks = [] ∧ n.sign = .none

/-- The number as an unsigned integer of the given width. -/
def unsigned (width : ℕ) : ℕ :=
  if 2 ^ width ≤ n.magnitude then 2 ^ width - 1
  else if n.sign = .minus then (2 ^ width - n.magnitude) % 2 ^ width
  else n.magnitude

end Numeral

lemma not_isspace_of_isdigit {c : UInt8} (h : isdigit c = true) : isspace c = false := by
  simp only [isdigit, Bool.and_eq_true, decide_eq_true_eq, UInt8.le_iff_toNat_le] at h
  have hlow : 48 ≤ c.toNat := h.1
  have hblank : c ≠ 0x20 := by
    rintro rfl
    exact absurd hlow (by decide)
  have hhigh : ¬ c ≤ 0x0d := by
    rw [UInt8.le_iff_toNat_le]
    exact fun hle => absurd (hlow.trans hle) (by decide)
  simp [isspace, hblank, hhigh]

lemma takeWhile_append_stop {p : UInt8 → Bool} {xs ys : List UInt8} (hxs : ∀ c ∈ xs, p c = true)
    (hys : ∀ c, ys.head? = some c → p c = false) :
    (xs ++ ys).takeWhile p = xs ∧ (xs ++ ys).dropWhile p = ys := by
  have hstop : ys.takeWhile p = [] ∧ ys.dropWhile p = ys := by
    cases ys with
    | nil => exact ⟨rfl, rfl⟩
    | cons y ys => simp [hys y rfl]
  rw [List.takeWhile_append_of_pos hxs, List.dropWhile_append_of_pos hxs, hstop.1, hstop.2,
    List.append_nil]
  exact ⟨rfl, rfl⟩

namespace Numeral

variable {n : Numeral} {width : ℕ}

lemma splitSign_text (n : Numeral) :
    splitSign (n.sign.text ++ n.digits) = (decide (n.sign = .minus), n.digits) := by
  obtain ⟨d, ds, hdigits⟩ := List.exists_cons_of_ne_nil n.digits_ne
  cases hsign : n.sign with
  | none =>
    have hd := n.digits_isdigit d (by rw [hdigits]; exact List.mem_cons_self)
    have hminus : d ≠ 0x2d := by rintro rfl; exact absurd hd (by decide)
    have hplus : d ≠ 0x2b := by rintro rfl; exact absurd hd (by decide)
    simp [splitSign, Sign.text, hdigits, hminus, hplus]
  | plus => simp [splitSign, Sign.text]
  | minus => simp [splitSign, Sign.text]

/-- The first character after the blanks is not blank. -/
lemma isspace_head (n : Numeral) (c : UInt8) (hc : (n.sign.text ++ n.digits).head? = some c) :
    isspace c = false := by
  obtain ⟨d, ds, hdigits⟩ := List.exists_cons_of_ne_nil n.digits_ne
  rw [hdigits] at hc
  cases hsign : n.sign with
  | none =>
    rw [hsign] at hc
    obtain rfl : d = c := by simpa [Sign.text] using hc
    exact not_isspace_of_isdigit (n.digits_isdigit d (by rw [hdigits]; exact List.mem_cons_self))
  | plus =>
    rw [hsign] at hc
    obtain rfl : 0x2b = c := by simpa [Sign.text] using hc
    decide
  | minus =>
    rw [hsign] at hc
    obtain rfl : 0x2d = c := by simpa [Sign.text] using hc
    decide

/-- `strtoul` reads a numeral to its end. -/
theorem strtoul_text (n : Numeral) (width : ℕ) : strtoul width n.text = (n.unsigned width, []) := by
  have hblanks : n.text.dropWhile isspace = n.sign.text ++ n.digits := by
    rw [Numeral.text, List.append_assoc]
    exact (takeWhile_append_stop n.blanks_isspace n.isspace_head).2
  have hnil : ∀ c, ([] : List UInt8).head? = some c → isdigit c = false := by simp
  obtain ⟨htake, hdrop⟩ := takeWhile_append_stop n.digits_isdigit hnil
  rw [List.append_nil] at htake hdrop
  unfold strtoul
  rw [hblanks, n.splitSign_text]
  dsimp only
  rw [htake, hdrop, if_neg n.digits_ne, unsigned, magnitude]
  simp only [decide_eq_true_eq]

end Numeral

/-- What `strtoul` reads to its end is a numeral. -/
theorem exists_numeral {text : List UInt8} {width : ℕ} (htext : text ≠ [])
    (h : (strtoul width text).2 = []) : ∃ n : Numeral, n.text = text := by
  unfold strtoul at h
  obtain ⟨sign, hsign⟩ : ∃ sign : Sign, text.dropWhile isspace
      = sign.text ++ (splitSign (text.dropWhile isspace)).2 := by
    unfold splitSign
    cases text.dropWhile isspace with
    | nil => exact ⟨.none, rfl⟩
    | cons c rest =>
      by_cases hminus : c = 0x2d
      · exact ⟨.minus, by simp [hminus, Sign.text]⟩
      · by_cases hplus : c = 0x2b
        · exact ⟨.plus, by simp [hplus, Sign.text]⟩
        · exact ⟨.none, by simp [hminus, hplus, Sign.text]⟩
  generalize splitSign (text.dropWhile isspace) = split at h hsign
  dsimp only at h
  by_cases hdigits : split.2.takeWhile isdigit = []
  · rw [if_pos hdigits] at h
    exact absurd h htext
  · rw [if_neg hdigits] at h
    have hstop : split.2.dropWhile isdigit = [] := h
    have hrest : split.2.takeWhile isdigit = split.2 := by
      have happend := List.takeWhile_append_dropWhile (p := isdigit) (l := split.2)
      rwa [hstop, List.append_nil] at happend
    refine ⟨⟨text.takeWhile isspace, sign, split.2, fun c hc => List.mem_takeWhile_imp hc,
      fun c hc => ?_, by rwa [hrest] at hdigits⟩, ?_⟩
    · rw [← hrest] at hc
      exact List.mem_takeWhile_imp hc
    · rw [Numeral.text, List.append_assoc, ← hsign]
      exact List.takeWhile_append_dropWhile

/-! ### Binary floating point -/

/-- Rounding to the nearest integer, ties to even. -/
def roundHalfEven (q : ℚ) : ℤ :=
  if q - ⌊q⌋ < 1 / 2 then ⌊q⌋
  else if 1 / 2 < q - ⌊q⌋ then ⌊q⌋ + 1
  else if ⌊q⌋ % 2 = 0 then ⌊q⌋ else ⌊q⌋ + 1

def twoPow (e : ℤ) : ℚ := if 0 ≤ e then (2 ^ e.toNat : ℕ) else 1 / (2 ^ (-e).toNat : ℕ)

/-- The exponent of the largest power of two that is at most `q`, for positive `q`. -/
def binaryExponent (q : ℚ) : ℤ :=
  let e : ℤ := (Nat.log2 q.num.toNat : ℤ) - Nat.log2 q.den
  if twoPow e ≤ q then e else e - 1

/-- The value of a binary format with the given precision and exponent range that is nearest to
`q`. -/
def roundBinary (precision : ℕ) (emin emax : ℤ) (q : ℚ) : Option ℚ :=
  if q = 0 then some 0
  else
    let ulp := twoPow (max (binaryExponent |q|) emin - (precision - 1))
    let rounded := roundHalfEven (q / ulp) * ulp
    if |rounded| < twoPow (emax + 1) then some rounded else none

/-- Rounding to `double`. -/
def roundDouble : ℚ → Option ℚ := roundBinary 53 (-1022) 1023

/-- Rounding to `float`. -/
def roundFloat : ℚ → Option ℚ := roundBinary 24 (-126) 127

/-- `llround`: ties away from zero. -/
def llround (q : ℚ) : ℤ := if 0 ≤ q then ⌊q + 1 / 2⌋ else -⌊-q + 1 / 2⌋

/-! ### Reading floating point numbers -/

/-- Whether a text begins with a word, in upper or lower case. -/
def startsWith (word text : List UInt8) : Bool := (text.take word.length).map tolower = word

/-- The digits before and after the point, and the rest. -/
def splitMantissa (isDigit : UInt8 → Bool) (text : List UInt8) :
    List UInt8 × List UInt8 × List UInt8 :=
  let whole := text.takeWhile isDigit
  let rest := text.dropWhile isDigit
  if rest.head? = some 0x2e then
    (whole, rest.tail.takeWhile isDigit, rest.tail.dropWhile isDigit)
  else (whole, [], rest)

/-- An exponent with its mark; without digits it is not read. -/
def splitExponent (mark : UInt8) (text : List UInt8) : ℤ × List UInt8 :=
  if text.head?.map tolower = some mark then
    let (negative, rest) := splitSign text.tail
    let digits := rest.takeWhile isdigit
    if digits = [] then (0, text)
    else
      (if negative then -(digitsValue 10 digits : ℤ) else digitsValue 10 digits,
        rest.dropWhile isdigit)
  else (0, text)

/-- A mantissa in the given base with an exponent of the given radix. -/
def readMantissa (base : ℕ) (radix : ℚ) (mark : UInt8) (isDigit : UInt8 → Bool)
    (text : List UInt8) : Option (ℚ × List UInt8) :=
  let (whole, fraction, rest) := splitMantissa isDigit text
  if whole ++ fraction = [] then none
  else
    let (exponent, rest) := splitExponent mark rest
    some (digitsValue base (whole ++ fraction) / (base : ℚ) ^ fraction.length * radix ^ exponent,
      rest)

/-- The parenthesised characters that may follow `nan`. -/
def skipNanPayload (text : List UInt8) : List UInt8 :=
  let rest := text.tail.dropWhile fun c => isdigit c || isalpha c || decide (c = 0x5f)
  if text.head? = some 0x28 ∧ rest.head? = some 0x29 then rest.tail else text

/-- The number at the start of a text without blanks and sign; `none` is an infinity or a NaN. -/
def readMagnitude (text : List UInt8) : Option (Option ℚ × List UInt8) :=
  if startsWith (ascii ['i', 'n', 'f', 'i', 'n', 'i', 't', 'y']) text then some (none, text.drop 8)
  else if startsWith (ascii ['i', 'n', 'f']) text then some (none, text.drop 3)
  else if startsWith (ascii ['n', 'a', 'n']) text then some (none, skipNanPayload (text.drop 3))
  else
    let hexadecimal :=
      if startsWith (ascii ['0', 'x']) text then readMantissa 16 2 0x70 isxdigit (text.drop 2)
      else none
    (hexadecimal <|> readMantissa 10 10 0x65 isdigit text).map fun (value, rest) =>
      (some value, rest)

/-- `strtod` and `strtof`, with the rounding of the type. -/
def strtofp (round : ℚ → Option ℚ) (text : List UInt8) : Option ℚ × List UInt8 :=
  let (negative, rest) := splitSign (text.dropWhile isspace)
  match readMagnitude rest with
  | none => (some 0, text)
  | some (value, rest) => (value.bind fun q => round (if negative then -q else q), rest)

def strtod : List UInt8 → Option ℚ × List UInt8 := strtofp roundDouble

def strtof : List UInt8 → Option ℚ × List UInt8 := strtofp roundFloat

/-! ### Writing numbers -/

def decimalText (n : ℕ) : List UInt8 := ascii (Nat.toDigits 10 n)

/-- The text of a value that is not negative under `%.3f`. -/
def formatThreeDecimals (q : ℚ) : List UInt8 :=
  let thousandths := (roundHalfEven (q * 1000)).toNat
  decimalText (thousandths / 1000) ++ ascii ['.'] ++
    (decimalText (1000 + thousandths % 1000)).tail

end NumberText
