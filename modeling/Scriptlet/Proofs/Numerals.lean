import Mathlib
import Scriptlet.Given
import Scriptlet.Proofs.Rendering
import Scriptlet.Proofs.Shortest

/-! # Printed numbers are read back

A finite number is printed as digits, with a point and more digits if it is not whole, behind a
minus sign if it is negative. Both readers, that of a program's source and that of bindings from
outside, take such digits for a decimal and round it, and the decimal lies in the interval of the
number.

* `pointed whole fraction`: the digits before and behind the point.
* `Writes decimal whole fraction`: what the digits of a decimal are worth.
* `ofRun?_pointed`, `ofText?_signed`: both readers find the same digits.
* `printed_reads_back`: printed values are read back as themselves. -/

namespace Scriptlet

namespace Decimal

open Float.Model (UnpackedFloat)
open Float.Model.UnpackedFloat (Sign)

/-! ## Digits around a point -/

/-- Digits with a point between them, or without one if no digits are behind it. -/
def pointed (whole fraction : List Char) : List Char :=
  if fraction = [] then whole else whole ++ '.' :: fraction

/-- Digits that make up a decimal, at least one of them before the point. -/
structure IsNumeral (whole fraction : List Char) : Prop where
  /-- There is a digit before the point. -/
  ne_nil : whole ≠ []
  /-- Only digits are before the point. -/
  whole : ∀ c ∈ whole, c.isDigit = true
  /-- Only digits are behind the point. -/
  fraction : ∀ c ∈ fraction, c.isDigit = true

/-- A natural number is written in digits. -/
theorem isDigit_of_mem_digitsOf {value : Nat} {c : Char} (h : c ∈ digitsOf value) :
    c.isDigit = true :=
  Nat.isDigit_of_mem_toDigits (by decide) (by decide) h

/-- A run of the digit zero is made of digits. -/
theorem isDigit_of_mem_zeroDigits {count : Nat} {c : Char} (h : c ∈ zeroDigits count) :
    c.isDigit = true := by
  rw [List.eq_of_mem_replicate h]
  decide

/-- The digits of a natural number are worth that number. -/
theorem digitsValue_digitsOf (value : Nat) : digitsValue (digitsOf value) = value :=
  Nat.ofDigitChars_ten_toDigits

/-- Zeros behind digits multiply their value. -/
theorem digitsValue_append_zeroDigits (digits : List Char) (count : Nat) :
    digitsValue (digits ++ zeroDigits count) = digitsValue digits * 10 ^ count := by
  show Nat.ofDigitChars 10 (digits ++ List.replicate count '0') 0 = Nat.ofDigitChars 10 digits 0 * _
  rw [Nat.ofDigitChars_append, Nat.ofDigitChars_replicate_zero, mul_comm]

/-- Zeros in front of digits change nothing. -/
theorem digitsValue_zeroDigits_append (digits : List Char) (count : Nat) :
    digitsValue (zeroDigits count ++ digits) = digitsValue digits := by
  show Nat.ofDigitChars 10 (List.replicate count '0' ++ digits) 0 = Nat.ofDigitChars 10 digits 0
  rw [Nat.ofDigitChars_append, Nat.ofDigitChars_replicate_zero, mul_zero]

/-- A decimal is written as digits around a point, as many behind it as it has places. -/
structure Writes (decimal : Scaled) (whole fraction : List Char) : Prop where
  /-- The text of the decimal. -/
  text : positional decimal = pointed whole fraction
  /-- The text is made of digits. -/
  numeral : IsNumeral whole fraction
  /-- What the digits are worth without the point. -/
  value : digitsValue (whole ++ fraction) = decimal.digits * 10 ^ decimal.exponent.toNat
  /-- How many digits are behind the point. -/
  places : fraction.length = (-decimal.exponent).toNat

section Positional

variable {decimal : Scaled}

/-- Every natural number has a digit. -/
theorem digitsOf_ne_nil (value : Nat) : digitsOf value ≠ [] :=
  Nat.toDigits_ne_nil

/-- A decimal without places is its digits, with zeros behind them. -/
theorem writes_of_nonneg (h : 0 ≤ decimal.exponent) :
    Writes decimal (digitsOf decimal.digits ++ zeroDigits decimal.exponent.toNat) [] := by
  -- a whole number: its digits, zeros for the exponent, and no fraction
  refine ⟨?_, ⟨?_, ?_, nofun⟩, ?_, ?_⟩
  · rw [positional, if_pos (by omega)]
    rfl
  · simp [digitsOf_ne_nil]
  · intro c hc
    rcases List.mem_append.1 hc with hc | hc
    · exact isDigit_of_mem_digitsOf hc
    · exact isDigit_of_mem_zeroDigits hc
  · rw [List.append_nil, digitsValue_append_zeroDigits, digitsValue_digitsOf]
  · rw [List.length_nil]
    omega

/-- Below one, zeros fill the places that the digits leave. -/
theorem writes_of_below_one (h : decimal.exponent < 0)
    (hshort : (digitsOf decimal.digits).length ≤ (-decimal.exponent).toNat) :
    Writes decimal ['0']
      (zeroDigits ((-decimal.exponent).toNat - (digitsOf decimal.digits).length) ++
        digitsOf decimal.digits) := by
  refine ⟨?_, ⟨List.cons_ne_nil _ _, @isDigit_of_mem_zeroDigits 1, ?_⟩, ?_, ?_⟩
  · rw [positional, if_neg (by omega), if_pos hshort, pointed, if_neg (by simp [digitsOf_ne_nil])]
    simp
  · intro c hc
    rcases List.mem_append.1 hc with hc | hc
    · exact isDigit_of_mem_zeroDigits hc
    · exact isDigit_of_mem_digitsOf hc
  -- the zeros in front are worth nothing, so only the digits count
  · have hexponent : decimal.exponent.toNat = 0 := by omega
    show digitsValue (zeroDigits 1 ++ (zeroDigits _ ++ _)) = _
    rw [digitsValue_zeroDigits_append, digitsValue_zeroDigits_append, digitsValue_digitsOf,
      hexponent, pow_zero, mul_one]
  · rw [List.length_append, zeroDigits, List.length_replicate]
    omega

/-- Above one, the point stands among the digits. -/
theorem writes_of_above_one (h : decimal.exponent < 0)
    (hlong : (-decimal.exponent).toNat < (digitsOf decimal.digits).length) :
    Writes decimal
      ((digitsOf decimal.digits).take
        ((digitsOf decimal.digits).length - (-decimal.exponent).toNat))
      ((digitsOf decimal.digits).drop
        ((digitsOf decimal.digits).length - (-decimal.exponent).toNat)) := by
  refine ⟨?_, ⟨?_, ?_, ?_⟩, ?_, ?_⟩
  · rw [positional, if_neg (by omega), if_neg (by omega), pointed, if_neg]
    · simp
    · rw [List.drop_eq_nil_iff]
      omega
  · rw [ne_eq, List.take_eq_nil_iff, not_or]
    exact ⟨by omega, digitsOf_ne_nil _⟩
  · exact fun c hc => isDigit_of_mem_digitsOf (List.mem_of_mem_take hc)
  · exact fun c hc => isDigit_of_mem_digitsOf (List.mem_of_mem_drop hc)
  -- the point cuts the digits in two, and their order is kept
  · have hexponent : decimal.exponent.toNat = 0 := by omega
    rw [List.take_append_drop, digitsValue_digitsOf, hexponent, pow_zero, mul_one]
  · rw [List.length_drop]
    omega

/-- Every decimal is written as digits around a point. -/
theorem exists_writes (decimal : Scaled) : ∃ whole fraction, Writes decimal whole fraction := by
  by_cases hwhole : 0 ≤ decimal.exponent
  · exact ⟨_, _, writes_of_nonneg hwhole⟩
  · by_cases hshort : (digitsOf decimal.digits).length ≤ (-decimal.exponent).toNat
    · exact ⟨_, _, writes_of_below_one (by omega) hshort⟩
    · exact ⟨_, _, writes_of_above_one (by omega) (by omega)⟩

end Positional

/-! ## Readers -/

section Readers

variable {whole fraction : List Char}

/-- A numeral consists of digits and points. -/
theorem IsNumeral.isNumeric (h : IsNumeral whole fraction) :
    ∀ c ∈ pointed whole fraction, isNumeric c = true := by
  intro c hc
  rw [Decimal.isNumeric, Bool.or_eq_true, beq_iff_eq]
  rw [pointed] at hc
  split at hc
  · exact .inl (h.whole c hc)
  · rcases List.mem_append.1 hc with hc | hc
    · exact .inl (h.whole c hc)
    · rcases List.mem_cons.1 hc with rfl | hc
      · exact .inr rfl
      · exact .inl (h.fraction c hc)

/-- Digits around a point begin with a digit. -/
theorem IsNumeral.exists_cons (h : IsNumeral whole fraction) :
    ∃ first rest, pointed whole fraction = first :: rest ∧ first.isDigit = true := by
  obtain ⟨first, rest, rfl⟩ := List.exists_cons_of_ne_nil h.ne_nil
  have hfirst := h.whole first List.mem_cons_self
  rw [pointed]
  split
  · exact ⟨first, rest, rfl, hfirst⟩
  · exact ⟨first, rest ++ '.' :: fraction, rfl, hfirst⟩

/-- What is no digit is not among digits. -/
theorem not_mem_of_isDigit {digits : List Char} (h : ∀ c ∈ digits, c.isDigit = true) {c : Char}
    (hc : c.isDigit = false) : c ∉ digits := by
  intro hmem
  rw [h c hmem] at hc
  cases hc

section Point

variable {p : Char → Bool} (hwhole : ∀ c ∈ whole, p c = true) (hpoint : p '.' = false)

include hwhole hpoint

/-- The digits before the point end at the point. -/
theorem takeWhile_pointed : (pointed whole fraction).takeWhile p = whole := by
  rw [pointed]
  split
  · exact List.takeWhile_eq_self_iff.2 hwhole
  · rw [List.takeWhile_append_of_pos hwhole, List.takeWhile_cons, hpoint]
    exact List.append_nil whole

/-- Behind the digits before the point stand the point and its digits, if there are any. -/
theorem dropWhile_pointed :
    (pointed whole fraction).dropWhile p = if fraction = [] then [] else '.' :: fraction := by
  rw [pointed]
  split
  · exact List.dropWhile_eq_nil_iff.2 hwhole
  · rw [List.dropWhile_append_of_pos hwhole, List.dropWhile_cons, hpoint]
    rfl

end Point

/-- The reader of sources takes digits around a point for their decimal. -/
theorem IsNumeral.ofRun?_pointed (h : IsNumeral whole fraction) :
    ofRun? (pointed whole fraction) = some (ofDigits whole fraction 0) := by
  have hbefore : ∀ c ∈ whole, (c != '.') = true := by
    intro c hc
    rw [bne_iff_ne]
    rintro rfl
    exact not_mem_of_isDigit h.whole (by decide) hc
  have hdigit : (pointed whole fraction).any Char.isDigit = true := by
    obtain ⟨first, rest, htext, hfirst⟩ := h.exists_cons
    rw [htext, List.any_cons, hfirst, Bool.true_or]
  -- there is no point but the one between the two runs of digits
  have hcount : (pointed whole fraction).count '.' ≤ 1 := by
    have hnone := List.count_eq_zero.2 (not_mem_of_isDigit h.whole (c := '.') (by decide))
    have hnone' := List.count_eq_zero.2 (not_mem_of_isDigit h.fraction (c := '.') (by decide))
    rw [pointed]
    split
    · omega
    · rw [List.count_append, List.count_cons_self, hnone, hnone']
  rw [ofRun?, hdigit, Bool.true_and, if_pos (decide_eq_true hcount),
    takeWhile_pointed hbefore (by decide), dropWhile_pointed hbefore (by decide)]
  split
  · rename_i hempty
    rw [hempty]
    rfl
  · rfl

/-- The reader of bindings takes digits around a point for their decimal. -/
theorem IsNumeral.decimal?_pointed (h : IsNumeral whole fraction) :
    decimal? (pointed whole fraction) = some (ofDigits whole fraction 0) := by
  have hsome : whole.isEmpty = false := by simp [h.ne_nil]
  rw [decimal?, takeWhile_pointed h.whole (by decide), dropWhile_pointed h.whole (by decide), hsome]
  by_cases hempty : fraction = []
  · rw [if_pos hempty, hempty]
    rfl
  · -- the digits behind the point go on to the end, where no exponent stands
    rw [if_neg hempty]
    show (exponent? (fraction.dropWhile Char.isDigit)).map
      (ofDigits whole (fraction.takeWhile Char.isDigit) ·) = _
    rw [List.takeWhile_eq_self_iff.2 h.fraction, List.dropWhile_eq_nil_iff.2 h.fraction]
    rfl

/-! ### Characters that stay as they are -/

/-- The characters of a decimal with or without a sign. -/
def isPlain (c : Char) : Bool :=
  c.isDigit || c == '.' || c == '-'

/-- Such characters are ASCII, neither padding nor underscores, and of no case. -/
theorem isPlain_cases {c : Char} (h : isPlain c = true) :
    c.toNat < 128 ∧ isPadding c = false ∧ c ≠ '_' ∧ c.toLower = c := by
  simp only [isPlain, Bool.or_eq_true, beq_iff_eq] at h
  -- a digit lies below the letters; the point and the sign are looked at one by one
  rcases h with (hdigit | rfl) | rfl
  · have hlow : 48 ≤ c.toNat := (Char.isDigit_iff_toNat.1 hdigit).1
    have hhigh : c.toNat ≤ 57 := (Char.isDigit_iff_toNat.1 hdigit).2
    refine ⟨by omega, ?_, ?_, ?_⟩
    · rw [isPadding, Bool.or_eq_false_iff, beq_eq_false_iff_ne, Bool.and_eq_false_iff]
      refine ⟨?_, .inr (decide_eq_false (by omega))⟩
      rintro rfl
      cases hdigit
    · rintro rfl
      cases hdigit
    · rw [Char.toLower, dif_neg]
      rintro ⟨hupper, -⟩
      have hupper' : 65 ≤ c.toNat := UInt32.le_iff_toNat_le.1 hupper
      omega
  · decide
  · decide

/-- Plain characters are ASCII already. -/
theorem mapM_toAscii? {text : List Char} (h : ∀ c ∈ text, isPlain c = true) :
    text.mapM toAscii? = some text := by
  induction text with
  | nil => rfl
  | cons c rest ih =>
    have hc : toAscii? c = some c := by
      rw [toAscii?, if_pos (isPlain_cases (h c List.mem_cons_self)).1]
    rw [List.mapM_cons, hc, ih fun d hd => h d (List.mem_cons_of_mem c hd)]
    rfl

/-- No padding stands before plain characters. -/
theorem dropWhile_isPadding {text : List Char} (h : ∀ c ∈ text, isPlain c = true) :
    text.dropWhile isPadding = text := by
  cases text with
  | nil => rfl
  | cons c rest => rw [List.dropWhile_cons, (isPlain_cases (h c List.mem_cons_self)).2.1]; rfl

/-- Plain characters have no padding around them. -/
theorem dropPadding_of_isPlain {text : List Char} (h : ∀ c ∈ text, isPlain c = true) :
    dropPadding text = text := by
  have hreverse : ∀ c ∈ text.reverse, isPlain c = true := fun c hc => h c (List.mem_reverse.1 hc)
  rw [dropPadding, dropWhile_isPadding h, dropWhile_isPadding hreverse, List.reverse_reverse]

/-- There are no underscores to drop among plain characters. -/
theorem dropUnderscores?_of_isPlain {text : List Char} (h : ∀ c ∈ text, isPlain c = true)
    (previous : Char) : dropUnderscores? previous text = some text := by
  induction text generalizing previous with
  | nil => rfl
  | cons c rest ih =>
    have hc := (isPlain_cases (h c List.mem_cons_self)).2.2.1
    rw [dropUnderscores?, ih fun d hd => h d (List.mem_cons_of_mem c hd)]
    · rfl
    · exact fun hunderscore _ => hc hunderscore
    · exact fun _ _ hunderscore _ => hc hunderscore

/-- Of plain characters only the sign and the digits are left to be read. -/
theorem ofText?_of_isPlain {text : List Char} (h : ∀ c ∈ text, isPlain c = true) :
    ofText? (String.ofList text) = signed? text := by
  rw [ofText?, String.toList_ofList, mapM_toAscii? h, Option.bind_eq_bind, Option.bind_some,
    dropPadding_of_isPlain h, dropUnderscores?_of_isPlain h]
  rfl

/-- Such characters do not make up a word with a letter. -/
theorem ofList_ne_of_isPlain {text : List Char} (h : ∀ c ∈ text, isPlain c = true) {word : String}
    (hword : word.toList.all isPlain = false) : String.ofList text ≠ word := by
  rintro rfl
  rw [String.toList_ofList, List.all_eq_true.2 h] at hword
  cases hword

/-- Plain characters spell no infinity and no NaN, so they are read as a decimal. -/
theorem unsigned?_of_isPlain {text : List Char} (h : ∀ c ∈ text, isPlain c = true) :
    unsigned? text = decimal? text := by
  have hlower : text.map Char.toLower = text :=
    (List.map_congr_left fun c hc => (isPlain_cases (h c hc)).2.2.2).trans (List.map_id' text)
  unfold unsigned?
  rw [hlower]
  split
  · exact absurd ‹_› (ofList_ne_of_isPlain h (by decide))
  · exact absurd ‹_› (ofList_ne_of_isPlain h (by decide))
  · exact absurd ‹_› (ofList_ne_of_isPlain h (by decide))
  · rfl

/-! ### Signs -/

/-- A numeral that begins with a digit has no sign. -/
theorem signed?_of_isDigit {first : Char} (hfirst : first.isDigit = true) (rest : List Char) :
    signed? (first :: rest) = unsigned? (first :: rest) := by
  unfold signed?
  split
  · rename_i heq
    cases heq
    cases hfirst
  · rename_i heq
    cases heq
    cases hfirst
  · rfl

/-- A numeral is plain. -/
theorem IsNumeral.isPlain (h : IsNumeral whole fraction) :
    ∀ c ∈ pointed whole fraction, isPlain c = true := by
  intro c hc
  have hnumeric := h.isNumeric c hc
  rw [Decimal.isNumeric] at hnumeric
  rw [Decimal.isPlain, hnumeric, Bool.true_or]

/-- A numeral is plain behind a sign as well. -/
theorem IsNumeral.isPlain_signed (h : IsNumeral whole fraction) (sign : Sign) :
    ∀ c ∈ signText sign ++ pointed whole fraction, Decimal.isPlain c = true := by
  intro c hc
  rcases List.mem_append.1 hc with hc | hc
  · cases sign with
    | positive => cases hc
    | negative =>
      rw [List.mem_singleton.1 hc]
      decide
  · exact h.isPlain c hc

/-- The number that digits around a point stand for behind a sign. -/
def signedDigits (sign : Sign) (whole fraction : List Char) : Float :=
  match sign with
  | .positive => ofDigits whole fraction 0
  | .negative => -ofDigits whole fraction 0

/-- Digits around a point are read behind a sign as the number they stand for. -/
theorem IsNumeral.signed?_pointed (h : IsNumeral whole fraction) (sign : Sign) :
    signed? (signText sign ++ pointed whole fraction) =
      some (signedDigits sign whole fraction) := by
  obtain ⟨first, rest, htext, hfirst⟩ := h.exists_cons
  have hvalue : unsigned? (pointed whole fraction) = some (ofDigits whole fraction 0) := by
    rw [unsigned?_of_isPlain h.isPlain, h.decimal?_pointed]
  cases sign with
  | positive =>
    rw [signText, List.nil_append, htext, signed?_of_isDigit hfirst, ← htext, hvalue]
    rfl
  | negative =>
    rw [signText, List.singleton_append, signed?, hvalue]
    rfl

/-- So they are from a text. -/
theorem IsNumeral.ofText?_signed (h : IsNumeral whole fraction) (sign : Sign) :
    ofText? (String.ofList (signText sign ++ pointed whole fraction)) =
      some (signedDigits sign whole fraction) := by
  rw [ofText?_of_isPlain (h.isPlain_signed sign), h.signed?_pointed]

end Readers

/-! ## The value of a printed number -/

section Printed

variable {mantissa : Nat} {exponent : Int} {whole fraction : List Char}

/-- The digits of the shortest decimal are rounded to the double. -/
theorem Writes.ofDigits_eq (h : Writes (shortest mantissa exponent) whole fraction)
    (hdouble : IsDouble mantissa exponent) :
    ofDigits whole fraction 0 =
      .ofModel (.pack (.finite .positive mantissa exponent hdouble.pos)) := by
  -- the digits behind the point count as many places as the exponent is below zero
  have hvalue : ((digitsValue (whole ++ fraction) : Nat) : ℚ) * 10 ^ ((0 : Int) - fraction.length) =
      (shortest mantissa exponent).digits * 10 ^ (shortest mantissa exponent).exponent := by
    rw [h.value, h.places, zero_sub, zpow_neg, zpow_natCast]
    push_cast
    rw [pow_toNat (by norm_num : (10 : ℚ) ≠ 0)]
    field_simp
  have hrounds := shortest_roundsTo hdouble
  rw [← hvalue] at hrounds
  show Float.ofModel (.pack (.ofScientific .binary64 _ _)) = _
  rw [ofScientific_of_roundsTo hrounds hdouble]

/-- To negate a positive double changes its sign and nothing else. -/
theorem neg_ofModel_pack (hdouble : IsDouble mantissa exponent) :
    -Float.ofModel (.pack (.finite .positive mantissa exponent hdouble.pos)) =
      .ofModel (.pack (.finite .negative mantissa exponent hdouble.pos)) := by
  show Float.ofModel (.pack (Float.Model.unpack (.pack _)).neg) = _
  rw [(IsUnpacked.finite .positive hdouble).unpack_pack]
  rfl

/-- A number is printed as digits around a point behind a sign, and they stand for the number. -/
structure IsPrinted (number : Float) (sign : Sign) (whole fraction : List Char) : Prop where
  /-- The text is made of digits. -/
  numeral : IsNumeral whole fraction
  /-- The text of the number. -/
  text : printed number = String.ofList (signText sign ++ pointed whole fraction)
  /-- The text stands for the number. -/
  value : signedDigits sign whole fraction = number

/-- Either zero is printed as one digit behind its sign. -/
theorem isPrinted_zero {number : Float} {sign : Sign} (h : number.toModel.unpack = .zero sign) :
    IsPrinted number sign ['0'] [] := by
  refine ⟨⟨List.cons_ne_nil _ _, @isDigit_of_mem_zeroDigits 1, nofun⟩, ?_, ?_⟩
  · rw [printed, h]
    rfl
  · rw [eq_ofModel_pack h]
    cases sign <;> decide

/-- A number is printed as the digits of its shortest decimal, behind its sign. -/
theorem Writes.isPrinted {number : Float} {sign : Sign} {hpos : 0 < mantissa}
    (h : Writes (shortest mantissa exponent) whole fraction)
    (hparts : number.toModel.unpack = .finite sign mantissa exponent hpos) :
    IsPrinted number sign whole fraction := by
  have hdouble := isDouble_of_unpack hparts
  refine ⟨h.numeral, ?_, ?_⟩
  · rw [printed, hparts, ← h.text]
  · rw [eq_ofModel_pack hparts]
    cases sign with
    | positive => exact h.ofDigits_eq hdouble
    | negative => rw [signedDigits, h.ofDigits_eq hdouble, neg_ofModel_pack hdouble]

/-- A signed double that is an integer has a whole size. -/
theorem size_eq_natAbs {sign : Sign} {value : Int}
    (h : ((sign.apply mantissa : Int) : ℚ) * 2 ^ exponent = value) :
    (mantissa : ℚ) * 2 ^ exponent = value.natAbs := by
  have hsize : |((sign.apply mantissa : Int) : ℚ)| = mantissa := by
    cases sign <;> simp [Sign.apply]
  rw [Nat.cast_natAbs, Int.cast_abs, ← h, abs_mul, hsize, abs_of_pos (two_zpow_pos exponent)]

/-- Finite numbers are printed as digits around a point, and whole ones without a point. -/
theorem exists_isPrinted {number : Float} {value : ℚ} (h : rational? number = some value) :
    ∃ sign whole fraction, IsPrinted number sign whole fraction ∧
      ((∃ integer : Int, value = integer) → fraction = []) := by
  cases hparts : number.toModel.unpack with
  | notANumber => rw [rational?, hparts] at h; cases h
  | infinity sign => rw [rational?, hparts] at h; cases h
  | zero sign => exact ⟨sign, _, _, isPrinted_zero hparts, fun _ => rfl⟩
  | finite sign mantissa exponent hpos =>
    -- what is written are the digits of the shortest decimal
    obtain ⟨whole, fraction, hwrites⟩ := exists_writes (shortest mantissa exponent)
    refine ⟨sign, whole, fraction, hwrites.isPrinted hparts, ?_⟩
    rintro ⟨integer, rfl⟩
    rw [rational?_of_unpack hparts, Option.some_inj] at h
    have hplaces := shortest_exponent_nonneg (isDouble_of_unpack hparts) (size_eq_natAbs h)
    rw [← List.length_eq_zero_iff, hwrites.places]
    omega

/-- Finite numbers without sign are printed without one. -/
theorem exists_isPrinted_of_isUnsigned {number : Float} (h : isUnsigned number = true) :
    ∃ whole fraction, IsPrinted number .positive whole fraction := by
  unfold isUnsigned at h
  split at h
  · rename_i hzero
    exact ⟨_, _, isPrinted_zero hzero⟩
  · rename_i hfinite
    obtain ⟨whole, fraction, hwrites⟩ := exists_writes _
    exact ⟨whole, fraction, hwrites.isPrinted hfinite⟩
  · cases h

/-- Digits around a point are one numeral of a source. -/
theorem IsNumeral.lexemes_pointed (h : IsNumeral whole fraction) :
    (Token.lexemes (String.ofList (pointed whole fraction))).map Lexeme.token =
      [.number (ofDigits whole fraction 0)] := by
  have hfront : Token.IsFront (pointed whole fraction) [] (.number (ofDigits whole fraction 0)) :=
    Token.isFront_number h.isNumeric h.ofRun?_pointed nofun
  obtain ⟨lexeme, htoken, hscans⟩ := hfront.scans {}
  rw [Token.Scans, List.append_nil, Token.scanFrom_nil] at hscans
  rw [Token.lexemes, Token.scan, String.toList_ofList, hscans, List.append_nil, List.map_singleton,
    htoken]

end Printed

end Decimal

open Decimal

/-- Finite numbers are taken for themselves. -/
theorem Decimal.IsPrinted.ofText_printed {number : Float} {sign : Float.Model.UnpackedFloat.Sign}
    {whole fraction : List Char} (h : IsPrinted number sign whole fraction) :
    Given.ofText (printed number) = .number number := by
  have hplain := h.numeral.isPlain_signed sign
  rw [h.text, Given.ofText, if_neg (ofList_ne_of_isPlain hplain (by decide)),
    if_neg (ofList_ne_of_isPlain hplain (by decide)), h.numeral.ofText?_signed, h.value]

/-- The text of any number, read as a value from outside, is that number. -/
theorem ofText_printed (number : Float) : Given.ofText (printed number) = .number number := by
  cases hparts : number.toModel.unpack with
  | notANumber =>
    rw [eq_ofModel_pack hparts]
    decide +kernel
  | infinity sign =>
    rw [eq_ofModel_pack hparts]
    cases sign <;> decide +kernel
  | zero sign => exact (isPrinted_zero hparts).ofText_printed
  | finite sign mantissa exponent hpos =>
    obtain ⟨sign, whole, fraction, hprinted, -⟩ := exists_isPrinted (rational?_of_unpack hparts)
    exact hprinted.ofText_printed

/-- **Printed values are read back.** The text of a number given from outside stands for the number,
with the signs of zeros and infinities, and the text of a boolean for the boolean. Finite numbers
are printed as digits around a point behind a sign, whole ones without a point; so in a source, the
text of a number without sign is the numeral of this number and nothing else. -/
theorem printed_reads_back :
    (∀ number : Float, Given.ofText (Value.number number).printed = .number number) ∧
    (∀ flag : Bool, Given.ofText (Value.boolean flag).printed = .boolean flag) ∧
    (∀ (number : Float) (value : ℚ), rational? number = some value →
      ∃ sign whole fraction, IsNumeral whole fraction ∧
        printed number = String.ofList (signText sign ++ pointed whole fraction) ∧
        ((∃ integer : Int, value = integer) → fraction = [])) ∧
    ∀ number : Float, isUnsigned number = true →
      (Token.lexemes (printed number)).map Lexeme.token = [.number number] := by
  refine ⟨ofText_printed, by decide, ?_, ?_⟩
  · intro number value hvalue
    obtain ⟨sign, whole, fraction, hprinted, hwhole⟩ := exists_isPrinted hvalue
    exact ⟨sign, whole, fraction, hprinted.numeral, hprinted.text, hwhole⟩
  · intro number hunsigned
    obtain ⟨whole, fraction, hprinted⟩ := exists_isPrinted_of_isUnsigned hunsigned
    rw [hprinted.text, signText, List.nil_append, hprinted.numeral.lexemes_pointed]
    exact congrArg (fun value => [Token.number value]) hprinted.value

/-- A great whole number is printed without a point, and one tenth is a single numeral. -/
theorem printed_reads_back_of_whole_and_tenth :
    (rational? 1e16 = some ((10 ^ 16 : Int) : ℚ) ∧
      ∃ sign whole, IsNumeral whole [] ∧ printed 1e16 = String.ofList (signText sign ++ whole)) ∧
    isUnsigned 0.1 = true ∧
      (Token.lexemes (printed 0.1)).map Lexeme.token = [.number 0.1] := by
  obtain ⟨-, -, hfinite, hnumeral⟩ := printed_reads_back
  have hwhole : rational? 1e16 = some ((10 ^ 16 : Int) : ℚ) := by decide +kernel
  have htenth : isUnsigned 0.1 = true := by decide
  obtain ⟨sign, whole, fraction, hdigits, htext, hnone⟩ := hfinite 1e16 _ hwhole
  obtain rfl := hnone ⟨_, rfl⟩
  exact ⟨⟨hwhole, sign, whole, hdigits, htext⟩, htenth, hnumeral 0.1 htenth⟩

end Scriptlet
