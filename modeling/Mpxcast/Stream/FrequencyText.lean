import Mpxcast.Stream.HttpRequest

/-!
# Frequencies in paths

Which texts are accepted for a frequency. The container extension is optional only for texts without
a dot, since the last dot of a path is always taken for the start of an extension; and a frequency
in Hz is whatever `strtoul` takes for a number in range.
-/

namespace Mpxcast

open NumberText

/-! ### The extension -/

/-- What stands after the last dot. -/
lemma strrchr_append {before suffix : List UInt8} {c : UInt8} (hsuffix : c ∉ suffix) :
    strrchr (before ++ c :: suffix) c = some (before, c :: suffix) := by
  have hkeep : ∀ d ∈ suffix.reverse, decide (d ≠ c) = true := by
    intro d hd
    refine decide_eq_true ?_
    rintro rfl
    exact hsuffix (List.mem_reverse.1 hd)
  have htake : (before ++ c :: suffix).rtakeWhile (· ≠ c) = suffix := by
    rw [List.rtakeWhile, List.reverse_append, List.reverse_cons, List.append_assoc,
      List.singleton_append, (takeWhile_append_stop hkeep (by simp)).1, List.reverse_reverse]
  have hlength : (before ++ c :: suffix).length - suffix.length - 1 = before.length := by
    rw [List.length_append, List.length_cons]
    omega
  rw [strrchr, if_pos (by simp), htake]
  dsimp only
  rw [hlength, List.take_left]

/-- A text with a dot in it is cut at its last dot. -/
lemma exists_strrchr {text : List UInt8} {c : UInt8} (hc : c ∈ text) :
    ∃ before suffix, text = before ++ c :: suffix ∧ c ∉ suffix := by
  induction text with
  | nil => exact absurd hc List.not_mem_nil
  | cons d text ih =>
    by_cases hmem : c ∈ text
    · obtain ⟨before, suffix, rfl, hsuffix⟩ := ih hmem
      exact ⟨d :: before, suffix, rfl, hsuffix⟩
    · obtain rfl : c = d := by simpa [hmem] using hc
      exact ⟨[], text, rfl, hmem⟩

def tsExtension : List UInt8 := ascii ['.', 't', 's']

def wavExtension : List UInt8 := ascii ['.', 'w', 'a', 'v']

lemma splitContainerExtension_ts (text : List UInt8) :
    splitContainerExtension (text ++ tsExtension) = some (text, .mpegts) := by
  have hletters : 0x2e ∉ ascii ['t', 's'] := by decide
  have hsplit : strrchr (text ++ tsExtension) 0x2e = some (text, tsExtension) :=
    strrchr_append hletters
  rw [splitContainerExtension, hsplit]
  rfl

/-- Without one of the two extensions, only a text without a dot is taken. -/
lemma splitContainerExtension_plain {text : List UInt8} (hts : ¬ tsExtension <:+ text)
    (hwav : ¬ wavExtension <:+ text) : splitContainerExtension text =
      if 0x2e ∈ text then none else some (text, .mpegts) := by
  by_cases hdot : 0x2e ∈ text
  · obtain ⟨before, suffix, rfl, hsuffix⟩ := exists_strrchr hdot
    rw [splitContainerExtension, strrchr_append hsuffix, if_pos hdot]
    have hnotWav : ¬ 0x2e :: suffix = wavExtension := by
      intro heq
      refine hwav ?_
      rw [← heq]
      exact List.suffix_append _ _
    have hnotTs : ¬ 0x2e :: suffix = tsExtension := by
      intro heq
      refine hts ?_
      rw [← heq]
      exact List.suffix_append _ _
    exact (if_neg hnotWav).trans (if_neg hnotTs)
  · rw [splitContainerExtension, strrchr, if_neg hdot, if_neg hdot]

/-- A frequency text in a path: no slash, no extension, and room for one. -/
structure FrequencyText where
  text : List UInt8
  no_slash : 0x2f ∉ text
  no_ts : ¬ tsExtension <:+ text
  no_wav : ¬ wavExtension <:+ text
  length_lt : (text ++ tsExtension).length < 64

namespace FrequencyText

variable (f : FrequencyText) (width : ℕ)

/-- The path `/f`. -/
def path : List UInt8 := 0x2f :: f.text

/-- The path `/f.ts`. -/
def tsPath : List UInt8 := 0x2f :: (f.text ++ tsExtension)

lemma streamHttpParsePath_tsPath : streamHttpParsePath width f.tsPath =
    (parseFrequencyHz width f.text).map fun hz => (hz, .mpegts) := by
  have hlength := f.length_lt
  have hvalid : ¬ (f.text ++ tsExtension = [] ∨ 0x2f ∈ f.text ++ tsExtension ∨
      64 ≤ (f.text ++ tsExtension).length) := by
    rintro (hempty | hslash | hlong)
    · exact absurd (List.append_eq_nil_iff.1 hempty).2 (by decide)
    · rcases List.mem_append.1 hslash with hmem | hmem
      · exact f.no_slash hmem
      · exact absurd hmem (by decide)
    · omega
  unfold streamHttpParsePath tsPath
  rw [if_neg (by simp)]
  dsimp only [List.tail_cons]
  rw [if_neg hvalid, splitContainerExtension_ts]
  cases hparse : parseFrequencyHz width f.text <;> simp [hparse]

lemma streamHttpParsePath_path : streamHttpParsePath width f.path =
    if 0x2e ∈ f.text then none
    else (parseFrequencyHz width f.text).map fun hz => (hz, .mpegts) := by
  unfold streamHttpParsePath path
  rw [if_neg (by simp)]
  dsimp only [List.tail_cons]
  by_cases hempty : f.text = []
  · simp [hempty, parseFrequencyHz]
  · have hlength := f.length_lt
    rw [List.length_append] at hlength
    have hvalid : ¬ (f.text = [] ∨ 0x2f ∈ f.text ∨ 64 ≤ f.text.length) := by
      rintro (hnil | hslash | hlong)
      · exact hempty hnil
      · exact f.no_slash hslash
      · omega
    rw [if_neg hvalid, splitContainerExtension_plain f.no_ts f.no_wav]
    split_ifs
    · rfl
    · cases hparse : parseFrequencyHz width f.text <;> simp [hparse]

end FrequencyText

/-! ### Requests -/

/-- The query parameters do not lead to a 404, and they leave the container alone. -/
lemma streamHttpParseQuery_cases (frequencyHz : ℕ) (container : StreamContainer)
    (icyMetadataRequested : Bool) (defaults : StreamHttpDefaults)
    (lookup : List UInt8 → Option (List UInt8)) :
    (∃ rejection, streamHttpParseQuery frequencyHz container icyMetadataRequested defaults lookup
        = .error rejection ∧ rejection.statusCode ≠ 404) ∨
      ∃ request, streamHttpParseQuery frequencyHz container icyMetadataRequested defaults lookup
        = .ok request ∧ request.container = container := by
  unfold streamHttpParseQuery
  dsimp only
  split
  · split
    · split
      · split
        · exact .inl ⟨badRequest, rfl, by decide⟩
        · split
          · split
            · exact .inr ⟨_, rfl, rfl⟩
            · exact .inl ⟨internalServerError, rfl, by decide⟩
          · exact .inl ⟨badRequest, rfl, by decide⟩
      · exact .inl ⟨badRequest, rfl, by decide⟩
    · exact .inl ⟨badRequest, rfl, by decide⟩
  · exact .inl ⟨badRequest, rfl, by decide⟩

/-- The extension may be left out: both paths are accepted or rejected with the same status, and
they give the same request. -/
def ExtensionOptional (plain extended : Except HttpRejection StreamHttpNamedRequest) : Prop :=
  ((∃ request, plain = .ok request) ↔ ∃ request, extended = .ok request) ∧
    (∀ rejection rejection', plain = .error rejection → extended = .error rejection' →
      rejection.statusCode = rejection'.statusCode) ∧
    ∀ request request', plain = .ok request → extended = .ok request' →
      request = request' ∧ request.container = .mpegts

lemma extensionOptional_error (rejection : HttpRejection) :
    ExtensionOptional (.error rejection) (.error rejection) := by
  refine ⟨by simp, ?_, by simp⟩
  intro rejection₁ rejection₂ h₁ h₂
  rw [← Except.error.inj h₁, ← Except.error.inj h₂]

/-- The extension is optional for the frequencies without a dot, and where both paths fail. -/
theorem streamHttpParseRequest_extensionOptional_iff (f : FrequencyText) (width : ℕ)
    (method : List UInt8) (icyMetadataRequested : Bool) (defaults : StreamHttpDefaults)
    (lookup : List UInt8 → Option (List UInt8)) :
    ExtensionOptional
        (streamHttpParseRequest width method f.path icyMetadataRequested defaults lookup)
        (streamHttpParseRequest width method f.tsPath icyMetadataRequested defaults lookup) ↔
      0x2e ∉ f.text ∨ method ≠ ascii ['G', 'E', 'T'] ∨ parseFrequencyHz width f.text = none := by
  unfold streamHttpParseRequest
  rw [f.streamHttpParsePath_path, f.streamHttpParsePath_tsPath]
  by_cases hmethod : method = ascii ['G', 'E', 'T']
  · rw [if_neg (not_not_intro hmethod), if_neg (not_not_intro hmethod)]
    cases hparse : parseFrequencyHz width f.text with
    | none =>
      refine iff_of_true ?_ (.inr (.inr rfl))
      simpa using extensionOptional_error notFound
    | some hz =>
      have hquery := streamHttpParseQuery_cases hz .mpegts icyMetadataRequested defaults lookup
      by_cases hdot : 0x2e ∈ f.text
      · refine iff_of_false ?_ (by simp [hdot, hmethod])
        rw [if_pos hdot]
        rintro ⟨haccept, hstatus, -⟩
        rcases hquery with ⟨rejection, herror, hcode⟩ | ⟨request, hok, -⟩
        · exact hcode (hstatus notFound rejection rfl herror).symm
        · obtain ⟨_, hplain⟩ := haccept.2 ⟨request, hok⟩
          exact absurd hplain (by simp)
      · refine iff_of_true ?_ (.inl hdot)
        rw [if_neg hdot]
        rcases hquery with ⟨rejection, herror, -⟩ | ⟨request, hok, hcontainer⟩
        · simp only [Option.map_some, herror]
          exact extensionOptional_error rejection
        · simp only [Option.map_some, hok]
          refine ⟨Iff.rfl, by simp, fun request₁ request₂ h₁ h₂ => ?_⟩
          obtain rfl := Except.ok.inj h₁
          obtain rfl := Except.ok.inj h₂
          exact ⟨rfl, hcontainer⟩
  · refine iff_of_true ?_ (.inr (.inl hmethod))
    rw [if_pos hmethod, if_pos hmethod]
    exact extensionOptional_error methodNotAllowed

/-- `93.6`. -/
def mhzText : FrequencyText where
  text := ascii ['9', '3', '.', '6']
  no_slash := by decide
  no_ts := by decide
  no_wav := by decide
  length_lt := by decide

/-- `/93.6` is not found, while `/93.6.ts` is accepted. -/
theorem streamHttpParseRequest_not_extensionOptional :
    ¬ ExtensionOptional
      (streamHttpParseRequest 64 (ascii ['G', 'E', 'T']) mhzText.path false ⟨true, 1, 50, .stereo⟩
        fun _ => none)
      (streamHttpParseRequest 64 (ascii ['G', 'E', 'T']) mhzText.tsPath false
        ⟨true, 1, 50, .stereo⟩ fun _ => none) := by
  rintro ⟨haccept, -, -⟩
  have hplain : streamHttpParseRequest 64 (ascii ['G', 'E', 'T']) mhzText.path false
      ⟨true, 1, 50, .stereo⟩ (fun _ => none) = .error notFound := by
    decide +kernel
  have hextended : streamHttpParseRequest 64 (ascii ['G', 'E', 'T']) mhzText.tsPath false
      ⟨true, 1, 50, .stereo⟩ (fun _ => none) = .ok
        { icyMetadataRequested := false
          rdsEnabled := true
          frequencyHz := 93600000
          volumeGain := 1
          deemphasisTauUs := 50
          mode := .stereo
          container := .mpegts
          explicitStationName := false
          requestedStationName := ascii ['9', '3', '.', '6', ' ', 'M', 'H', 'z'] } := by
    decide +kernel
  obtain ⟨request, hrequest⟩ := haccept.2 ⟨_, hextended⟩
  rw [hplain] at hrequest
  exact absurd hrequest (by simp)

/-! ### Frequencies in Hz -/

/-- A value that fits the frequency of a request. -/
def FrequencyInRange (hz : ℕ) : Prop := 1 ≤ hz ∧ hz ≤ uint32Max

/-- The text is accepted if it is a decimal number in range, and as that number. -/
def AcceptsDecimals (width : ℕ) (text : List UInt8) : Prop :=
  ∀ hz, parseFrequencyHz width text = some hz ↔
    text ≠ [] ∧ (∀ c ∈ text, isdigit c = true) ∧ FrequencyInRange (digitsValue 10 text) ∧
      hz = digitsValue 10 text

lemma numeral_text_ne_nil (n : Numeral) : n.text ≠ [] := by
  intro hempty
  exact n.digits_ne (List.append_eq_nil_iff.1 hempty).2

lemma numeral_plain_iff (n : Numeral) : n.Plain ↔ ∀ c ∈ n.text, isdigit c = true := by
  constructor
  · rintro ⟨hblanks, hsign⟩ c hc
    rw [Numeral.text, hblanks, hsign] at hc
    exact n.digits_isdigit c hc
  · intro hdigits
    refine ⟨List.eq_nil_iff_forall_not_mem.2 fun c hc => ?_, ?_⟩
    · have hdigit := hdigits c (List.mem_append_left _ (List.mem_append_left _ hc))
      have hblank := n.blanks_isspace c hc
      rw [not_isspace_of_isdigit hdigit] at hblank
      exact absurd hblank Bool.false_ne_true
    · have hsign (c : UInt8) (hc : c ∈ n.sign.text) : isdigit c = true :=
        hdigits c (List.mem_append_left _ (List.mem_append_right _ hc))
      cases hcase : n.sign with
      | none => rfl
      | plus =>
        rw [hcase] at hsign
        exact absurd (hsign 0x2b (by decide)) (by decide)
      | minus =>
        rw [hcase] at hsign
        exact absurd (hsign 0x2d (by decide)) (by decide)

lemma numeral_magnitude_eq {n : Numeral} (h : n.Plain) :
    digitsValue 10 n.text = n.magnitude := by
  rw [Numeral.text, h.1, h.2]
  rfl

/-- A text without a dot is accepted if `strtoul` takes it for a number in range. -/
lemma parseFrequencyHz_numeral {n : Numeral} {width : ℕ} (hdot : 0x2e ∉ n.text) (hz : ℕ) :
    parseFrequencyHz width n.text = some hz ↔
      FrequencyInRange (n.unsigned width) ∧ hz = n.unsigned width := by
  have hstop : ([] : List UInt8) ≠ n.text := (numeral_text_ne_nil n).symm
  rw [parseFrequencyHz, if_neg (numeral_text_ne_nil n), if_neg hdot, n.strtoul_text]
  simp only [hstop, ne_eq, not_true, false_or, FrequencyInRange]
  split_ifs with hrange
  · simp only [false_iff]
    omega
  · simp only [Option.some.injEq]
    omega

lemma parseFrequencyHz_of_not_numeral {text : List UInt8} {width : ℕ} (hdot : 0x2e ∉ text)
    (hnumeral : ¬ ∃ n : Numeral, n.text = text) : parseFrequencyHz width text = none := by
  unfold parseFrequencyHz
  by_cases hempty : text = []
  · rw [if_pos hempty]
  · have hstop : (strtoul width text).2 ≠ [] := fun h => hnumeral (exists_numeral hempty h)
    rw [if_neg hempty, if_neg hdot]
    exact if_pos (.inr (.inl hstop))

/-- What is read from a numeral is right if and only if it agrees with the number it denotes. -/
lemma acceptsDecimals_numeral {n : Numeral} {width : ℕ} (hdot : 0x2e ∉ n.text) :
    AcceptsDecimals width n.text ↔
      (FrequencyInRange (n.unsigned width) → n.Plain ∧ n.unsigned width = n.magnitude) ∧
        (n.Plain → FrequencyInRange n.magnitude → n.unsigned width = n.magnitude) := by
  simp only [AcceptsDecimals, parseFrequencyHz_numeral hdot, ← numeral_plain_iff]
  constructor
  · intro h
    refine ⟨fun hrange => ?_, fun hplain hrange => ?_⟩
    · obtain ⟨-, hplain, -, heq⟩ := (h _).1 ⟨hrange, rfl⟩
      exact ⟨hplain, heq.trans (numeral_magnitude_eq hplain)⟩
    · rw [← numeral_magnitude_eq hplain] at hrange
      obtain ⟨-, heq⟩ := (h _).2 ⟨numeral_text_ne_nil n, hplain, hrange, rfl⟩
      rw [← heq, numeral_magnitude_eq hplain]
  · rintro ⟨hread, hwritten⟩ hz
    constructor
    · rintro ⟨hrange, rfl⟩
      obtain ⟨hplain, heq⟩ := hread hrange
      rw [numeral_magnitude_eq hplain, ← heq]
      exact ⟨numeral_text_ne_nil n, hplain, hrange, rfl⟩
    · rintro ⟨-, hplain, hrange, rfl⟩
      rw [numeral_magnitude_eq hplain] at hrange ⊢
      rw [hwritten hplain hrange]
      exact ⟨hrange, rfl⟩

/-- **Frequencies in Hz**, for an `unsigned long` of 64 and of 32 bits. With 64 bits, decimal
numbers are right, and other numerals are wrong when a value in range comes out of them: with blanks
or a plus sign the number itself, with a minus sign its complement. With 32 bits, numerals other
than zero are right only as decimal numbers below `2 ^ 32`. -/
theorem parseFrequencyHz_acceptsDecimals_iff {text : List UInt8} (hdot : 0x2e ∉ text) :
    (AcceptsDecimals 64 text ↔ ∀ n : Numeral, n.text = text →
      n.Plain ∨ n.magnitude = 0 ∨
        if n.sign = .minus then n.magnitude ≤ 2 ^ 64 - 2 ^ 32 ∨ 2 ^ 64 ≤ n.magnitude
        else 2 ^ 32 ≤ n.magnitude) ∧
    (AcceptsDecimals 32 text ↔ ∀ n : Numeral, n.text = text →
      n.magnitude = 0 ∨ n.Plain ∧ n.magnitude < 2 ^ 32) := by
  have hvacuous (width : ℕ) (hnumeral : ¬ ∃ n : Numeral, n.text = text) :
      AcceptsDecimals width text := by
    intro hz
    rw [parseFrequencyHz_of_not_numeral hdot hnumeral]
    refine iff_of_false (by simp) ?_
    rintro ⟨hne, hdigits, -⟩
    exact hnumeral ⟨⟨[], .none, text, by simp, hdigits, hne⟩, rfl⟩
  have hnumerals (width : ℕ) (condition : Numeral → Prop)
      (hiff : ∀ n : Numeral, n.text = text → (AcceptsDecimals width n.text ↔ condition n)) :
      AcceptsDecimals width text ↔ ∀ n : Numeral, n.text = text → condition n := by
    constructor
    · rintro h n rfl
      exact (hiff n rfl).1 h
    · intro h
      by_cases hnumeral : ∃ n : Numeral, n.text = text
      · obtain ⟨n, rfl⟩ := hnumeral
        exact (hiff n rfl).2 (h n rfl)
      · exact hvacuous width hnumeral
  constructor
  · refine hnumerals 64 _ fun n hn => ?_
    rw [acceptsDecimals_numeral (hn ▸ hdot)]
    by_cases hplain : n.Plain
    · have hminus : n.sign ≠ .minus := by simp [hplain.2]
      simp only [hplain, true_and, true_or, iff_true, true_implies, FrequencyInRange, uint32Max,
        Numeral.unsigned, hminus, if_false]
      split_ifs <;> omega
    · simp only [hplain, false_and, false_or, false_implies, and_true, imp_false, FrequencyInRange,
        uint32Max, Numeral.unsigned]
      split_ifs <;> omega
  · refine hnumerals 32 _ fun n hn => ?_
    rw [acceptsDecimals_numeral (hn ▸ hdot)]
    by_cases hplain : n.Plain
    · have hminus : n.sign ≠ .minus := by simp [hplain.2]
      simp only [hplain, true_and, true_implies, FrequencyInRange, uint32Max, Numeral.unsigned,
        hminus, if_false]
      split_ifs <;> omega
    · simp only [hplain, false_and, or_false, false_implies, and_true, imp_false, FrequencyInRange,
        uint32Max, Numeral.unsigned]
      split_ifs <;> omega

/-- Eight digits are read as they are written. -/
theorem parseFrequencyHz_acceptsDecimals_iff_hz :
    AcceptsDecimals 64 (ascii ['9', '3', '6', '0', '0', '0', '0', '0']) ↔
      ∀ n : Numeral, n.text = ascii ['9', '3', '6', '0', '0', '0', '0', '0'] →
        n.Plain ∨ n.magnitude = 0 ∨
          if n.sign = .minus then n.magnitude ≤ 2 ^ 64 - 2 ^ 32 ∨ 2 ^ 64 ≤ n.magnitude
          else 2 ^ 32 ≤ n.magnitude := by
  have hdot : 0x2e ∉ ascii ['9', '3', '6', '0', '0', '0', '0', '0'] := by decide
  exact (parseFrequencyHz_acceptsDecimals_iff hdot).1

/-- A negative number is accepted as its complement, and with 32 bits a number that is too large is
accepted as the largest frequency. -/
theorem parseFrequencyHz_not_acceptsDecimals :
    ¬ AcceptsDecimals 64 (ascii ['-', '1', '8', '4', '4', '6', '7', '4', '4', '0', '7', '3', '6',
      '1', '5', '9', '5', '1', '6', '1', '6']) ∧
    ¬ AcceptsDecimals 32 (ascii ['9', '3', '6', '0', '0', '0', '0', '0', '0', '0']) := by
  constructor
  · intro h
    obtain ⟨-, hdigits, -⟩ := (h 93600000).1 (by decide +kernel)
    exact absurd (hdigits 0x2d (by decide)) (by decide)
  · intro h
    obtain ⟨-, -, -, heq⟩ := (h 4294967295).1 (by decide +kernel)
    exact absurd heq (by decide +kernel)

end Mpxcast
