import SigmaForge.Foundation.Json.Decode

/-!
# Round trip of `json.dumps` and `json.loads`

Reading the ASCII text of a value gives the value back, provided that its
strings have no surrogates, its floats are finite, its integers are not too
long for `int` and the keys of each object are distinct.
-/

namespace SigmaForge
namespace Json

open Text

/-! ## Strings -/

theorem hexValue_hexDigit {digit : Nat} (small : digit < 16) :
    hexValue (hexDigit digit) = some digit := by
  have checked : ∀ digit < 16, hexValue (hexDigit digit) = some digit := by decide
  exact checked digit small

/-- Reading the digits of an escape gives its code unit. -/
theorem codeUnit_hexDigits {unit : Nat} (bounded : unit < 0x10000) :
    codeUnit (hexDigit (unit / 0x1000 % 16)) (hexDigit (unit / 0x100 % 16))
      (hexDigit (unit / 0x10 % 16)) (hexDigit (unit % 16)) = some unit := by
  simp only [codeUnit, hexValue_hexDigit (Nat.mod_lt _ (by decide : 0 < 16)),
    Option.some.injEq]
  omega

theorem scanString_unicodeEscape
    {unit : Nat}
    (bounded : unit < 0x10000)
    (rest : Str)
    (notJoined : 0xd800 ≤ unit → unit ≤ 0xdbff → lowSurrogate rest = none) :
    scanString (unicodeEscape unit ++ rest) =
      prepend (Fin.ofNat 0x110000 unit) (scanString rest) := by
  have quote : ¬(chr '\\' = chr '"') := by decide
  have control : ¬((chr '\\').val < 0x20) := by decide
  simp only [unicodeEscape, List.cons_append, List.nil_append, scanString, quote, control,
    if_false, ne_eq, not_true_eq_false, codeUnit_hexDigits bounded]
  split_ifs with high
  · rw [notJoined high.1 high.2]
  · rfl

/-- An escape of a high surrogate joins the escape of a low one. -/
theorem scanString_surrogatePair
    {high low : Nat}
    (isHigh : 0xd800 ≤ high ∧ high ≤ 0xdbff)
    (isLow : 0xdc00 ≤ low ∧ low ≤ 0xdfff)
    (rest : Str) :
    scanString (unicodeEscape high ++ (unicodeEscape low ++ rest)) =
      prepend (Fin.ofNat 0x110000 (0x10000 + (high - 0xd800) * 0x400 + (low - 0xdc00)))
        (scanString rest) := by
  have quote : ¬(chr '\\' = chr '"') := by decide
  have control : ¬((chr '\\').val < 0x20) := by decide
  have highUnit := codeUnit_hexDigits (show high < 0x10000 by omega)
  have lowUnit := codeUnit_hexDigits (show low < 0x10000 by omega)
  simp only [unicodeEscape, List.cons_append, List.nil_append, scanString, quote, control,
    if_false, ne_eq, not_true_eq_false, highUnit, isHigh, and_self, if_true, lowSurrogate,
    lowUnit, isLow]

/-- A character that is written as itself is read as itself. -/
theorem scanString_plain
    {c : CodePoint}
    (notQuote : c ≠ chr '"')
    (notControl : ¬(c.val < 0x20))
    (notBackslash : c ≠ chr '\\')
    (rest : Str) :
    scanString (c :: rest) = prepend c (scanString rest) := by
  rw [scanString.eq_def]
  simp only [notQuote, notControl, if_false, notBackslash, ne_eq, not_false_eq_true, if_true]

/-- A one-letter escape is read as the character it stands for. -/
theorem scanString_letter
    {c d : CodePoint}
    (notU : d ≠ chr 'u')
    (unescaped : unescape d = some c)
    (rest : Str) :
    scanString (chr '\\' :: d :: rest) = prepend c (scanString rest) := by
  have quote : ¬(chr '\\' = chr '"') := by decide
  have control : ¬((chr '\\').val < 0x20) := by decide
  rw [scanString.eq_def]
  simp only [quote, control, if_false, ne_eq, not_true_eq_false, notU, not_false_eq_true,
    if_true, unescaped]

/-- The short escapes are read back. -/
theorem scanString_shortEscape
    {c : CodePoint}
    {escaped : Str}
    (isEscape : shortEscape c = some escaped)
    (rest : Str) :
    scanString (escaped ++ rest) = prepend c (scanString rest) := by
  have ofVal : ∀ d : CodePoint, c.val = d.val → c = d := fun d => Fin.ext
  unfold shortEscape at isEscape
  split_ifs at isEscape with isBackslash isQuote isB isF isN isR isT
  all_goals obtain rfl := Option.some.inj isEscape
  · rw [isBackslash]
    exact scanString_letter (d := chr '\\') (by decide) (by decide) rest
  · rw [isQuote]
    exact scanString_letter (d := chr '"') (by decide) (by decide) rest
  · rw [ofVal 0x08 isB]
    exact scanString_letter (d := chr 'b') (by decide) (by decide) rest
  · rw [ofVal 0x0c isF]
    exact scanString_letter (d := chr 'f') (by decide) (by decide) rest
  · rw [ofVal 0x0a isN]
    exact scanString_letter (d := chr 'n') (by decide) (by decide) rest
  · rw [ofVal 0x0d isR]
    exact scanString_letter (d := chr 'r') (by decide) (by decide) rest
  · rw [ofVal 0x09 isT]
    exact scanString_letter (d := chr 't') (by decide) (by decide) rest

/-- The escape of a character that is no surrogate is read as that character. -/
theorem scanString_asciiEscape
    {c : CodePoint}
    (noSurrogate : isSurrogate c = false)
    (rest : Str) :
    scanString (asciiEscape c ++ rest) = prepend c (scanString rest) := by
  unfold asciiEscape
  cases isEscape : shortEscape c with
  | some escaped => exact scanString_shortEscape isEscape rest
  | none =>
      simp only [isSurrogate, Bool.and_eq_false_iff, decide_eq_false_iff_not] at noSurrogate
      have whole : Fin.ofNat 0x110000 c.val = c := Fin.ofNat_val_eq_self c
      have inRange := c.isLt
      split_ifs with printable inPlane
      · have notBackslash : c ≠ chr '\\' := by
          intro isBackslash
          simp [shortEscape, isBackslash] at isEscape
        have notQuote : c ≠ chr '"' := by
          intro isQuote
          rw [isQuote] at isEscape
          exact absurd isEscape (by decide)
        exact scanString_plain notQuote (by omega) notBackslash rest
      · rw [scanString_unicodeEscape inPlane rest (by omega), whole]
      · rw [List.append_assoc, scanString_surrogatePair (by omega) (by omega)]
        have joined : 0x10000 + (0xd800 + (c.val - 0x10000) / 0x400 - 0xd800) * 0x400 +
            (0xdc00 + (c.val - 0x10000) % 0x400 - 0xdc00) = c.val := by omega
        rw [joined, whole]

/-- The text of a string without surrogates is read back. -/
theorem scanString_encode
    {text : Str}
    (noSurrogates : ∀ c ∈ text, isSurrogate c = false)
    (rest : Str) :
    scanString (text.flatMap asciiEscape ++ chr '"' :: rest) = some (text, rest) := by
  induction text with
  | nil =>
      rw [scanString.eq_def]
      simp
  | cons c text inductionHypothesis =>
      rw [List.flatMap_cons, List.append_assoc,
        scanString_asciiEscape (noSurrogates c List.mem_cons_self),
        inductionHypothesis fun d isMember => noSurrogates d (List.mem_cons_of_mem _ isMember)]
      rfl

/-! ## Numbers -/

/-- The text does not go on with a digit. -/
def NoDigit (rest : Str) : Prop := ∀ c, rest.head? = some c → isDigit c = false

/-- The text does not go on as a number would. -/
def Delimited (rest : Str) : Prop :=
  ∀ c, rest.head? = some c →
    isDigit c = false ∧ c ≠ chr '.' ∧ c ≠ chr 'e' ∧ c ≠ chr 'E'

theorem Delimited.noDigit {rest : Str} (delimited : Delimited rest) : NoDigit rest :=
  fun c isHead => (delimited c isHead).1

theorem takeWhile_digits
    {digits rest : Str}
    (allDigits : ∀ c ∈ digits, isDigit c = true)
    (noDigit : NoDigit rest) :
    (digits ++ rest).takeWhile isDigit = digits ∧
      (digits ++ rest).dropWhile isDigit = rest := by
  rw [List.takeWhile_append_of_pos allDigits, List.dropWhile_append_of_pos allDigits]
  cases rest with
  | nil => simp
  | cons c rest => simp [noDigit c rfl]

theorem digitChar_val {digit : Nat} (small : digit < 10) :
    (digitChar digit).val = 0x30 + digit := by
  simp only [digitChar, Fin.ofNat]
  omega

theorem isDigit_digitChar {digit : Nat} (small : digit < 10) :
    isDigit (digitChar digit) = true := by
  simp only [isDigit, digitChar_val small, Bool.and_eq_true, decide_eq_true_eq]
  omega

theorem isDigit_of_mem_decimal
    {number : Nat}
    {c : CodePoint}
    (member : c ∈ decimal number) :
    isDigit c = true := by
  unfold decimal at member
  split_ifs at member with isZero
  · obtain rfl := List.mem_singleton.mp member
    exact isDigit_digitChar (by decide)
  · obtain ⟨digit, isMember, rfl⟩ := List.mem_map.mp (List.mem_reverse.mp member)
    exact isDigit_digitChar (Nat.digits_lt_base (by decide) isMember)

/-- The text of a number starts with `0` only if it is `0`. -/
theorem decimal_cases (number : Nat) :
    decimal number = [chr '0'] ∨
      ∃ c digits, decimal number = c :: digits ∧ c ≠ chr '0' ∧ isDigit c = true ∧
        ∀ d ∈ digits, isDigit d = true := by
  by_cases isZero : number = 0
  · apply Or.inl
    rw [isZero]
    decide
  · apply Or.inr
    have nonempty : Nat.digits 10 number ≠ [] := Nat.digits_ne_nil_iff_ne_zero.mpr isZero
    have lastNonzero := Nat.getLast_digit_ne_zero 10 isZero
    have lastSmall := Nat.digits_lt_base (b := 10) (by decide) (List.getLast_mem nonempty)
    have shape : decimal number =
        digitChar ((Nat.digits 10 number).getLast nonempty) ::
          ((Nat.digits 10 number).dropLast.map digitChar).reverse := by
      have split := List.dropLast_append_getLast nonempty
      conv_lhs => rw [decimal, if_neg isZero, ← split]
      simp
    refine ⟨_, _, shape, ?_, isDigit_digitChar lastSmall, ?_⟩
    · intro isZeroDigit
      have value := congrArg Fin.val isZeroDigit
      rw [digitChar_val lastSmall, show (chr '0').val = 0x30 from by decide] at value
      omega
    · intro d isMember
      have inText : d ∈ decimal number := by
        rw [shape]
        exact List.mem_cons_of_mem _ isMember
      exact isDigit_of_mem_decimal inText

/-- `int` reads what `str` writes. -/
theorem int_decimal (number : Nat) : int (decimal number) = number := by
  unfold decimal
  split_ifs with isZero
  · rw [isZero]
    decide
  · have small : ∀ digit ∈ Nat.digits 10 number, digit < 10 :=
      fun digit => Nat.digits_lt_base (by decide)
    have reads : ∀ digits : List Nat, (∀ digit ∈ digits, digit < 10) →
        int ((digits.map digitChar).reverse) = Nat.ofDigits 10 digits := by
      intro digits
      induction digits with
      | nil => simp [int]
      | cons digit digits inductionHypothesis =>
          intro bounded
          have remaining := inductionHypothesis fun other isMember =>
            bounded other (List.mem_cons_of_mem _ isMember)
          have value : digitValue (digitChar digit) = digit := by
            rw [digitValue, digitChar_val (bounded digit List.mem_cons_self)]
            omega
          rw [int] at remaining
          rw [int, List.map_cons, List.reverse_cons, List.foldl_append, remaining]
          simp only [List.foldl_cons, List.foldl_nil, value, Nat.ofDigits_cons]
          omega
    rw [reads _ small, Nat.ofDigits_digits]

theorem length_decimal_le
    {number limit : Nat}
    (positive : 1 ≤ limit)
    (bounded : number < 10 ^ limit) :
    (decimal number).length ≤ limit := by
  unfold decimal
  split_ifs with isZero
  · exact positive
  · rw [List.length_reverse, List.length_map]
    exact (Nat.digits_length_le_iff (by decide) number).mpr bounded

theorem takeWhole_decimal
    {rest : Str}
    (noDigit : NoDigit rest)
    (number : Nat) :
    takeWhole (decimal number ++ rest) = some (decimal number, rest) := by
  rcases decimal_cases number with isZero | ⟨c, digits, shape, notZero, isDigit', allDigits⟩
  · rw [isZero]
    simp [takeWhole]
  · obtain ⟨taken, dropped⟩ := takeWhile_digits allDigits noDigit
    simp [shape, takeWhole, notZero, isDigit', taken, dropped]

theorem takeSign_decimal (number : Nat) (rest : Str) :
    takeSign (decimal number ++ rest) = ([], decimal number ++ rest) := by
  have notSign : ∀ c, isDigit c = true → c ≠ chr '-' := by
    intro c digit isSign
    rw [isSign] at digit
    exact absurd digit (by decide)
  rcases decimal_cases number with isZero | ⟨c, digits, shape, _, digit, _⟩
  · rw [isZero]
    rfl
  · rw [shape]
    simp [takeSign, notSign c digit]

theorem takeFraction_delimited {rest : Str} (delimited : Delimited rest) :
    takeFraction rest = ([], rest) := by
  cases rest with
  | nil => rfl
  | cons c rest =>
      have notPoint := (delimited c rfl).2.1
      cases rest <;> simp [takeFraction, notPoint]

theorem takeExponent_delimited {rest : Str} (delimited : Delimited rest) :
    takeExponent rest = ([], rest) := by
  cases rest with
  | nil => rfl
  | cons c rest =>
      obtain ⟨_, _, notSmall, notCapital⟩ := delimited c rfl
      simp [takeExponent, notSmall, notCapital]

theorem takeFraction_fraction
    {fraction rest : Str}
    (isFraction : IsFraction fraction)
    (noDigit : NoDigit rest) :
    takeFraction (fraction ++ rest) = (fraction, rest) := by
  obtain ⟨digits, rfl, nonempty, allDigits⟩ := isFraction
  obtain ⟨c, others, rfl⟩ := List.exists_cons_of_ne_nil nonempty
  obtain ⟨taken, dropped⟩ := takeWhile_digits
    (fun d isMember => allDigits d (List.mem_cons_of_mem _ isMember)) noDigit
  simp [takeFraction, allDigits c List.mem_cons_self, taken, dropped]

theorem takeExponent_exponent
    {exponent rest : Str}
    (isExponent : IsExponent exponent)
    (noDigit : NoDigit rest) :
    takeExponent (exponent ++ rest) = (exponent, rest) := by
  obtain ⟨e, sign, digits, rfl, isE, isSign, nonempty, allDigits⟩ := isExponent
  obtain ⟨taken, dropped⟩ := takeWhile_digits allDigits noDigit
  have marker : e = chr 'e' ∨ e = chr 'E' := by simpa using isE
  have signed : takeExponentSign (sign ++ (digits ++ rest)) = (sign, digits ++ rest) := by
    simp only [List.mem_cons, List.not_mem_nil, or_false] at isSign
    rcases isSign with rfl | rfl | rfl
    · obtain ⟨c, others, rfl⟩ := List.exists_cons_of_ne_nil nonempty
      have digit := allDigits c List.mem_cons_self
      have notMinus : c ≠ chr '-' := by
        intro isMinus
        rw [isMinus] at digit
        exact absurd digit (by decide)
      have notPlus : c ≠ chr '+' := by
        intro isPlus
        rw [isPlus] at digit
        exact absurd digit (by decide)
      simp [takeExponentSign, notMinus, notPlus]
    · simp [takeExponentSign]
    · simp [takeExponentSign]
  simp only [List.cons_append, List.append_assoc, takeExponent, marker, if_true, signed, taken,
    dropped, List.isEmpty_iff, nonempty, if_false]

/-- The text of an integer that `int` accepts is read back. -/
theorem scanNumber_intRepr
    (floats : FloatText)
    {value : Int}
    (bounded : value.natAbs < 10 ^ maxStrDigits)
    {rest : Str}
    (delimited : Delimited rest) :
    scanNumber floats (intRepr value ++ rest) = .ok (.int value, rest) := by
  have short : ∀ number : Nat, number < 10 ^ maxStrDigits →
      ¬((decimal number).length > maxStrDigits) := by
    intro number small
    exact Nat.not_lt.mpr (length_decimal_le (by decide) small)
  cases value with
  | ofNat number =>
      simp only [intRepr, scanNumber, takeSign_decimal, takeWhole_decimal delimited.noDigit,
        takeFraction_delimited delimited, takeExponent_delimited delimited,
        short number bounded, int_decimal]
      simp
  | negSucc number =>
      have signed : takeSign (chr '-' :: (decimal (number + 1) ++ rest)) =
          ([chr '-'], decimal (number + 1) ++ rest) := by
        simp [takeSign]
      simp only [intRepr, List.cons_append, scanNumber, signed,
        takeWhole_decimal delimited.noDigit, takeFraction_delimited delimited,
        takeExponent_delimited delimited, short (number + 1) bounded, int_decimal]
      simp [Int.negSucc_eq]

/-- The text of a finite float is read back. -/
theorem scanNumber_repr
    (floats : FloatText)
    {value : Float64}
    (finite : value.isfinite = true)
    {rest : Str}
    (delimited : Delimited rest) :
    scanNumber floats (floats.repr value ++ rest) = .ok (.float value, rest) := by
  obtain ⟨sign, whole, fraction, exponent, text, isSign, isFraction, isExponent, proper⟩ :=
    (floats.repr_isFloatText value finite).parts
  have reads := floats.parse_repr value finite
  rw [text] at reads
  have noDigitExponent : NoDigit (exponent ++ rest) := by
    intro c isHead
    rcases isExponent with rfl | ⟨e, _, _, rfl, isE, _⟩
    · exact delimited.noDigit c isHead
    · simp only [List.cons_append, List.head?_cons, Option.some.injEq] at isHead
      rw [← isHead]
      simp only [List.mem_cons, List.not_mem_nil, or_false] at isE
      rcases isE with rfl | rfl <;> decide
  have tail : takeFraction (fraction ++ (exponent ++ rest)) = (fraction, exponent ++ rest) := by
    rcases isFraction with rfl | isFraction
    · rcases isExponent with rfl | ⟨e, sign, digits, rfl, isE, _⟩
      · exact takeFraction_delimited delimited
      · have notPoint : e ≠ chr '.' := by
          simp only [List.mem_cons, List.not_mem_nil, or_false] at isE
          rcases isE with rfl | rfl <;> decide
        cases shape : sign ++ digits ++ rest with
        | nil => simp [takeFraction, shape]
        | cons c others => simp [takeFraction, shape, notPoint]
    · exact takeFraction_fraction isFraction noDigitExponent
  have power : takeExponent (exponent ++ rest) = (exponent, rest) := by
    rcases isExponent with rfl | isExponent
    · exact takeExponent_delimited delimited
    · exact takeExponent_exponent isExponent delimited.noDigit
  have noDigit : NoDigit (fraction ++ (exponent ++ rest)) := by
    intro c isHead
    rcases isFraction with rfl | ⟨digits, rfl, _⟩
    · exact noDigitExponent c isHead
    · simp only [List.cons_append, List.head?_cons, Option.some.injEq] at isHead
      rw [← isHead]
      decide
  have unsigned : takeSign (sign ++ (decimal whole ++ (fraction ++ (exponent ++ rest)))) =
      (sign, decimal whole ++ (fraction ++ (exponent ++ rest))) := by
    simp only [List.mem_cons, List.not_mem_nil, or_false] at isSign
    rcases isSign with rfl | rfl
    · exact takeSign_decimal whole _
    · simp [takeSign]
  rw [text]
  simp only [List.append_assoc] at reads proper ⊢
  simp only [scanNumber, unsigned, takeWhole_decimal noDigit, tail, power, proper, if_true,
    List.append_assoc, reads, ne_eq, not_false_eq_true]

/-- A codec that writes the bits of a float as a decimal number: the laws of
`FloatText` can be met. -/
def FloatText.ofBits : FloatText where
  repr value := decimal value.bits.toNat ++ [chr '.', chr '0']
  parse text := ⟨BitVec.ofNat 64 (int (text.takeWhile isDigit))⟩
  repr_isFloatText value _ := by
    have zero : ∀ c ∈ [chr '0'], isDigit c = true := by
      intro c isMember
      obtain rfl := List.mem_singleton.mp isMember
      decide
    have isFraction : IsFraction [chr '.', chr '0'] := ⟨[chr '0'], rfl, by simp, zero⟩
    exact ⟨[], value.bits.toNat, [chr '.', chr '0'], [], by simp, by simp, .inr isFraction,
      .inl rfl, by simp⟩
  parse_repr value _ := by
    have noDigit : NoDigit [chr '.', chr '0'] := by
      intro c isHead
      obtain rfl : chr '.' = c := by simpa using isHead
      decide
    have digits := (takeWhile_digits
      (fun c (isMember : c ∈ decimal value.bits.toNat) => isDigit_of_mem_decimal isMember)
      noDigit).1
    rw [digits, int_decimal, BitVec.ofNat_toNat, BitVec.setWidth_eq]

/-! ## Values -/

/-- The scalars whose text can be read back. -/
def LoadableScalar : Scalar → Prop
  | .str text => ∀ c ∈ text, isSurrogate c = false
  | .int value => value.natAbs < 10 ^ maxStrDigits
  | .float value => value.isfinite = true
  | .null => True
  | .bool _ => True

/-- The keys of an object that can be read back. -/
def LoadableKeys (keys : List Str) : Prop :=
  keys.Nodup ∧ ∀ key ∈ keys, ∀ c ∈ key, isSurrogate c = false

/-- The values whose text can be read back. -/
abbrev Value.Loadable : Value → Prop := Value.Each LoadableScalar LoadableKeys

/-- Loadable values stay loadable when their keys are sorted. -/
theorem Value.Loadable.sortKeys {value : Value} (loadable : value.Loadable) :
    value.sortKeys.Loadable := by
  apply Value.Each.sortKeys _ loadable
  intro names names' permuted loadableNames
  exact ⟨permuted.nodup_iff.mp loadableNames.1,
    fun name isName => loadableNames.2 name (permuted.mem_iff.mpr isName)⟩

/-- The `object_pairs_hook` keeps the members of every object with distinct
keys. -/
def Hooks.KeepsDistinct (hooks : Hooks) : Prop :=
  ∀ members : List Member, (members.map Prod.fst).Nodup →
    hooks.objectPairs members = some (.object members)

/-- The first character of a number. -/
def StartsNumber (c : CodePoint) : Prop := isDigit c = true ∨ c = chr '-'

theorem StartsNumber.val {c : CodePoint} (starts : StartsNumber c) :
    0x2d ≤ c.val ∧ c.val ≤ 0x39 := by
  rcases starts with digit | rfl
  · simp only [isDigit, Bool.and_eq_true, decide_eq_true_eq] at digit
    omega
  · decide

/-- A text that starts as a number does and is no constant is scanned as one. -/
theorem scanLiteral_number
    (floats : FloatText)
    (hooks : Hooks)
    {c : CodePoint}
    {text : Str}
    (starts : StartsNumber c)
    (notInfinity : (lit "-Infinity").isPrefixOf (c :: text) = false)
    {number : Scalar}
    {rest : Str}
    (scanned : scanNumber floats (c :: text) = .ok (number, rest)) :
    scanLiteral floats hooks (c :: text) = .ok (.scalar number, rest) := by
  have bounds := starts.val
  have notWord : ∀ d : CodePoint, 0x39 < d.val → ∀ others,
      (d :: others).isPrefixOf (c :: text) = false := by
    intro d above others
    have different : (d == c) = false := by
      rw [beq_eq_false_iff_ne]
      intro equal
      rw [equal] at above
      omega
    simp [List.isPrefixOf, different]
  simp only [scanLiteral, scanned, notInfinity,
    show (lit "null").isPrefixOf (c :: text) = false from notWord (chr 'n') (by decide) _,
    show (lit "true").isPrefixOf (c :: text) = false from notWord (chr 't') (by decide) _,
    show (lit "false").isPrefixOf (c :: text) = false from notWord (chr 'f') (by decide) _,
    show (lit "NaN").isPrefixOf (c :: text) = false from notWord (chr 'N') (by decide) _,
    show (lit "Infinity").isPrefixOf (c :: text) = false from notWord (chr 'I') (by decide) _,
    Bool.false_eq_true, if_false]

/-- The text of a number starts with a digit, or with `-` and a digit. -/
theorem signed_decimal_starts
    {sign : Str}
    (isSign : sign = [] ∨ sign = [chr '-'])
    (number : Nat)
    (tail : Str) :
    ∃ c others, sign ++ decimal number ++ tail = c :: others ∧ StartsNumber c ∧
      (lit "-Infinity").isPrefixOf (c :: others) = false := by
  have leading : ∃ d digits, decimal number = d :: digits ∧ isDigit d = true := by
    rcases decimal_cases number with isZero | ⟨d, digits, shape, _, digit, _⟩
    · exact ⟨chr '0', [], isZero, by decide⟩
    · exact ⟨d, digits, shape, digit⟩
  obtain ⟨d, digits, shape, digit⟩ := leading
  have notMinus : (chr '-' == d) = false := by
    rw [beq_eq_false_iff_ne]
    intro isMinus
    rw [← isMinus] at digit
    exact absurd digit (by decide)
  have notLetter : (chr 'I' == d) = false := by
    rw [beq_eq_false_iff_ne]
    intro isLetter
    rw [← isLetter] at digit
    exact absurd digit (by decide)
  rcases isSign with rfl | rfl
  · refine ⟨d, digits ++ tail, by simp [shape], .inl digit, ?_⟩
    change (chr '-' :: lit "Infinity").isPrefixOf (d :: (digits ++ tail)) = false
    simp [List.isPrefixOf, notMinus]
  · refine ⟨chr '-', d :: (digits ++ tail), by simp [shape], .inr rfl, ?_⟩
    change (chr '-' :: chr 'I' :: lit "nfinity").isPrefixOf
      (chr '-' :: d :: (digits ++ tail)) = false
    simp [List.isPrefixOf, notLetter]

/-- The first character of the text of a value is ASCII, and neither white space
nor a closing bracket. -/
theorem encode_starts
    (floats : FloatText)
    {value : Value}
    (loadable : value.Loadable) :
    ∃ c text, encode floats asciiEscape value = c :: text ∧ isWhitespace c = false ∧
      c ≠ chr ']' ∧ c.val < 0x80 := by
  have ofNumber : ∀ c, StartsNumber c →
      isWhitespace c = false ∧ c ≠ chr ']' ∧ c.val < 0x80 := by
    intro c starts
    have bounds := starts.val
    have different : ∀ d : CodePoint, d.val < 0x2d ∨ 0x39 < d.val → c ≠ d := by
      intro d outside equal
      rw [equal] at bounds
      omega
    refine ⟨?_, different _ (by decide), by omega⟩
    simp only [isWhitespace, Bool.or_eq_false_iff, beq_eq_false_iff_ne]
    exact ⟨⟨⟨different _ (by decide), different _ (by decide)⟩, different _ (by decide)⟩,
      different _ (by decide)⟩
  have bracket : ∀ c : CodePoint, c = chr '[' ∨ c = chr '\x7b' ∨ c = chr '"' →
      isWhitespace c = false ∧ c ≠ chr ']' ∧ c.val < 0x80 := by
    rintro c (rfl | rfl | rfl)
    · decide
    · decide
    · decide
  cases loadable with
  | @list items _ =>
      cases items with
      | nil => exact ⟨chr '[', [chr ']'], rfl, bracket _ (.inl rfl)⟩
      | cons item items => exact ⟨chr '[', _, by rw [encode], bracket _ (.inl rfl)⟩
  | @object members _ _ =>
      cases members with
      | nil => exact ⟨chr '\x7b', [chr '\x7d'], rfl, bracket _ (.inr (.inl rfl))⟩
      | cons member members =>
          exact ⟨chr '\x7b', _, by rw [encode], bracket _ (.inr (.inl rfl))⟩
  | @scalar scalar holds =>
      cases scalar with
      | null => exact ⟨chr 'n', lit "ull", rfl, by decide⟩
      | bool flag =>
          cases flag
          · exact ⟨chr 'f', lit "alse", rfl, by decide⟩
          · exact ⟨chr 't', lit "rue", rfl, by decide⟩
      | str text => exact ⟨chr '"', _, rfl, bracket _ (.inr (.inr rfl))⟩
      | int number =>
          cases number with
          | ofNat number =>
              obtain ⟨c, others, shape, starts, _⟩ := signed_decimal_starts (.inl rfl) number []
              exact ⟨c, others, by simpa [encode, encodeScalar, intRepr] using shape,
                ofNumber c starts⟩
          | negSucc number =>
              obtain ⟨c, others, shape, starts, _⟩ :=
                signed_decimal_starts (.inr rfl) (number + 1) []
              exact ⟨c, others, by simpa [encode, encodeScalar, intRepr] using shape,
                ofNumber c starts⟩
      | float number =>
          obtain ⟨sign, whole, fraction, exponent, text, isSign, _⟩ :=
            (floats.repr_isFloatText number holds).parts
          obtain ⟨c, others, shape, starts, _⟩ :=
            signed_decimal_starts (by simpa using isSign) whole (fraction ++ exponent)
          have finite : number.isfinite = true := holds
          exact ⟨c, others, by simp [encode, encodeScalar, floatstr, finite, text, shape],
            ofNumber c starts⟩

theorem skipWhitespace_cons {c : CodePoint} (notSpace : isWhitespace c = false) (text : Str) :
    skipWhitespace (c :: text) = c :: text := by
  simp [skipWhitespace, notSpace]

/-- A separator or a bracket delimits a number. -/
theorem delimited_of_separator
    {c : CodePoint}
    (separator : c = chr ',' ∨ c = chr ']' ∨ c = chr '\x7d')
    (rest : Str) :
    Delimited (c :: rest) := by
  intro d isHead
  obtain rfl : c = d := by simpa using isHead
  rcases separator with rfl | rfl | rfl
  · decide
  · decide
  · decide

section RoundTrip

variable
    {floats : FloatText}
    {hooks : Hooks}

/-- A text that starts as a number does is scanned as a literal. -/
theorem scanOnce_literal
    {depth : Nat}
    {c : CodePoint}
    (notQuote : c ≠ chr '"')
    (notBrace : c ≠ chr '\x7b')
    (notBracket : c ≠ chr '[')
    (text : Str) :
    scanOnce floats hooks (depth + 1) (c :: text) = scanLiteral floats hooks (c :: text) := by
  rw [scanOnce, if_neg notQuote, if_neg notBrace, if_neg notBracket]

/-- The text of a signed number is scanned as the number. -/
theorem scanOnce_number
    {depth : Nat}
    {sign : Str}
    (isSign : sign = [] ∨ sign = [chr '-'])
    (whole : Nat)
    (tail : Str)
    {number : Scalar}
    {rest : Str}
    (scanned : scanNumber floats (sign ++ decimal whole ++ tail) = .ok (number, rest)) :
    scanOnce floats hooks (depth + 1) (sign ++ decimal whole ++ tail) =
      .ok (.scalar number, rest) := by
  obtain ⟨c, others, shape, starts, notInfinity⟩ := signed_decimal_starts isSign whole tail
  have bounds := starts.val
  have different : ∀ d : CodePoint, d.val < 0x2d ∨ 0x39 < d.val → c ≠ d := by
    intro d outside equal
    rw [equal] at bounds
    omega
  rw [shape] at scanned ⊢
  rw [scanOnce_literal (different _ (by decide)) (different _ (by decide))
    (different _ (by decide))]
  exact scanLiteral_number floats hooks starts notInfinity scanned

/-- The text of a scalar is read back. -/
theorem scanOnce_encodeScalar
    {depth : Nat}
    {scalar : Scalar}
    (loadable : LoadableScalar scalar)
    {rest : Str}
    (delimited : Delimited rest) :
    scanOnce floats hooks (depth + 1) (encodeScalar floats asciiEscape scalar ++ rest) =
      .ok (.scalar scalar, rest) := by
  cases scalar with
  | null => exact scanOnce_literal (by decide) (by decide) (by decide) _
  | bool flag =>
      cases flag
      · exact scanOnce_literal (by decide) (by decide) (by decide) _
      · exact scanOnce_literal (by decide) (by decide) (by decide) _
  | str text =>
      have scanned := scanString_encode loadable rest
      simp only [encodeScalar, encodeString, List.cons_append, List.append_assoc,
        List.nil_append, scanOnce, if_true, scanned]
  | int value =>
      have scanned := scanNumber_intRepr floats loadable delimited
      cases value with
      | ofNat number => exact scanOnce_number (.inl rfl) number rest scanned
      | negSucc number => exact scanOnce_number (.inr rfl) (number + 1) rest scanned
  | float value =>
      have finite : value.isfinite = true := loadable
      have scanned := scanNumber_repr floats finite delimited
      obtain ⟨sign, whole, fraction, exponent, text, isSign, _⟩ :=
        (floats.repr_isFloatText value finite).parts
      simp only [encodeScalar, floatstr, finite, if_true]
      rw [text, List.append_assoc (sign ++ decimal whole)] at scanned ⊢
      exact scanOnce_number (by simpa using isSign) whole _ scanned

/-- The rest of a list, after the first item. -/
theorem scanItems_encode
    {item : Value}
    {items : List Value}
    (loadable : ∀ value ∈ item :: items, value.Loadable)
    (scanned : ∀ value ∈ item :: items, ∀ depth rest, Delimited rest →
      (encode floats asciiEscape value).length < depth →
      scanOnce floats hooks depth (encode floats asciiEscape value ++ rest) = .ok (value, rest))
    {depth : Nat}
    (enough : (encode floats asciiEscape item ++
      encodeItems floats asciiEscape items).length < depth)
    (rest : Str) :
    scanItems floats hooks depth
        (encode floats asciiEscape item ++ encodeItems floats asciiEscape items ++ rest) =
      .ok (item :: items, rest) := by
  induction items generalizing item depth with
  | nil =>
      obtain ⟨depth, rfl⟩ := Nat.exists_eq_succ_of_ne_zero (Nat.ne_zero_of_lt enough)
      have bracket : (lit "]").length = 1 := by decide
      simp only [encodeItems, List.length_append, bracket] at enough
      have last := scanned item List.mem_cons_self depth (lit "]" ++ rest)
        (delimited_of_separator (.inr (.inl rfl)) rest) (by omega)
      rw [scanItems, encodeItems, List.append_assoc, last]
      rfl
  | cons next items inductionHypothesis =>
      obtain ⟨depth, rfl⟩ := Nat.exists_eq_succ_of_ne_zero (Nat.ne_zero_of_lt enough)
      obtain ⟨c, text, shape, notSpace, _⟩ :=
        encode_starts floats (loadable next (by simp))
      have separator : (lit ", ").length = 2 := by decide
      simp only [encodeItems, List.length_append, separator] at enough
      have shorter : (encode floats asciiEscape next ++
          encodeItems floats asciiEscape items).length < depth := by
        rw [List.length_append]
        omega
      have remaining := inductionHypothesis
        (fun value isMember => loadable value (List.mem_cons_of_mem _ isMember))
        (fun value isMember => scanned value (List.mem_cons_of_mem _ isMember)) shorter
      rw [scanItems]
      have first := scanned item List.mem_cons_self depth
        (lit ", " ++ encode floats asciiEscape next ++ encodeItems floats asciiEscape items ++
          rest)
        (delimited_of_separator (.inl rfl) _) (by omega)
      have skipped : skipWhitespace (chr ' ' :: (encode floats asciiEscape next ++
          encodeItems floats asciiEscape items ++ rest)) =
          encode floats asciiEscape next ++ encodeItems floats asciiEscape items ++ rest := by
        rw [shape]
        exact skipWhitespace_cons notSpace _
      have comma : skipWhitespace (lit ", " ++ encode floats asciiEscape next ++
          encodeItems floats asciiEscape items ++ rest) =
          chr ',' :: chr ' ' :: (encode floats asciiEscape next ++
            encodeItems floats asciiEscape items ++ rest) := by
        rw [List.append_assoc, List.append_assoc, ← List.append_assoc (encode _ _ _)]
        exact skipWhitespace_cons (by decide) _
      have notClosing : ¬(chr ',' = chr ']') := by decide
      rw [encodeItems, List.append_assoc, first]
      simp only [comma, notClosing, if_false, if_true, skipped, remaining]

/-- The members of an object, from the first key on. -/
theorem scanMembers_encode
    {key : Str}
    {value : Value}
    {members : List Member}
    (loadable : ∀ member ∈ (key, value) :: members,
      (∀ c ∈ member.1, isSurrogate c = false) ∧ member.2.Loadable)
    (scanned : ∀ member ∈ (key, value) :: members, ∀ depth rest, Delimited rest →
      (encode floats asciiEscape member.2).length < depth →
      scanOnce floats hooks depth (encode floats asciiEscape member.2 ++ rest) =
        .ok (member.2, rest))
    {depth : Nat}
    (enough : (encodeString asciiEscape key ++ lit ": " ++ encode floats asciiEscape value ++
      encodeMembers floats asciiEscape members).length < depth)
    (rest : Str) :
    scanMembers floats hooks depth
        (encodeString asciiEscape key ++ lit ": " ++ encode floats asciiEscape value ++
          encodeMembers floats asciiEscape members ++ rest) =
      .ok ((key, value) :: members, rest) := by
  -- one member, and what may follow it
  have member : ∀ {depth : Nat} {key : Str} {value : Value} {tail : Str},
      (∀ c ∈ key, isSurrogate c = false) → value.Loadable →
      scanOnce floats hooks depth (encode floats asciiEscape value ++ tail) =
        .ok (value, tail) →
      (∀ rest, skipWhitespace tail = chr '\x7d' :: rest →
        scanMembers floats hooks (depth + 1)
          (encodeString asciiEscape key ++ lit ": " ++ encode floats asciiEscape value ++
            tail) = .ok ([(key, value)], rest)) ∧
      ∀ rest members rest', skipWhitespace tail = chr ',' :: rest →
        scanMembers floats hooks depth (skipWhitespace rest) = .ok (members, rest') →
        scanMembers floats hooks (depth + 1)
          (encodeString asciiEscape key ++ lit ": " ++ encode floats asciiEscape value ++
            tail) = .ok ((key, value) :: members, rest') := by
    intro depth key value tail noSurrogates loadable first
    obtain ⟨c, text, shape, notSpace, _⟩ := encode_starts floats loadable
    have keyScanned := scanString_encode noSurrogates
      (lit ": " ++ (encode floats asciiEscape value ++ tail))
    have colon : skipWhitespace (lit ": " ++ (encode floats asciiEscape value ++ tail)) =
        chr ':' :: chr ' ' :: (encode floats asciiEscape value ++ tail) :=
      skipWhitespace_cons (by decide) _
    have skipped : skipWhitespace (chr ' ' :: (encode floats asciiEscape value ++ tail)) =
        encode floats asciiEscape value ++ tail := by
      rw [shape]
      exact skipWhitespace_cons notSpace _
    simp only [encodeString, List.cons_append, List.append_assoc, List.nil_append, scanMembers,
      ne_eq, not_true_eq_false, if_false, keyScanned, colon, skipped, first]
    constructor
    · intro rest isClosing
      simp only [isClosing, if_true]
    · intro rest members rest' isComma others
      have notClosing : ¬(chr ',' = chr '\x7d') := by decide
      simp only [isComma, notClosing, if_false, if_true, others]
  induction members generalizing key value depth with
  | nil =>
      obtain ⟨depth, rfl⟩ := Nat.exists_eq_succ_of_ne_zero (Nat.ne_zero_of_lt enough)
      obtain ⟨noSurrogates, loadableValue⟩ := loadable (key, value) List.mem_cons_self
      have brace : (lit "\x7d").length = 1 := by decide
      simp only [encodeMembers, List.length_append, brace] at enough
      have last := scanned (key, value) List.mem_cons_self depth (lit "\x7d" ++ rest)
        (delimited_of_separator (.inr (.inr rfl)) rest) (by dsimp only; omega)
      have closing : skipWhitespace (lit "\x7d" ++ rest) = chr '\x7d' :: rest :=
        skipWhitespace_cons (by decide) _
      rw [encodeMembers, List.append_assoc]
      exact (member noSurrogates loadableValue last).1 rest closing
  | cons next members inductionHypothesis =>
      obtain ⟨name, content⟩ := next
      obtain ⟨depth, rfl⟩ := Nat.exists_eq_succ_of_ne_zero (Nat.ne_zero_of_lt enough)
      obtain ⟨noSurrogates, loadableValue⟩ := loadable (key, value) List.mem_cons_self
      have separator : (lit ", ").length = 2 := by decide
      simp only [encodeMembers, List.length_append, separator] at enough
      have shorter : (encodeString asciiEscape name ++ lit ": " ++
          encode floats asciiEscape content ++
          encodeMembers floats asciiEscape members).length < depth := by
        simp only [List.length_append]
        omega
      have remaining := inductionHypothesis
        (fun other isMember => loadable other (List.mem_cons_of_mem _ isMember))
        (fun other isMember => scanned other (List.mem_cons_of_mem _ isMember)) shorter
      let others := encodeString asciiEscape name ++ lit ": " ++
        encode floats asciiEscape content ++ encodeMembers floats asciiEscape members ++ rest
      have first := scanned (key, value) List.mem_cons_self depth (lit ", " ++ others)
        (delimited_of_separator (.inl rfl) _) (by dsimp only; omega)
      have comma : skipWhitespace (lit ", " ++ others) = chr ',' :: chr ' ' :: others :=
        skipWhitespace_cons (by decide) _
      have skipped : skipWhitespace (chr ' ' :: others) = others :=
        skipWhitespace_cons (c := chr '"') (by decide) _
      have shape : encodeMembers floats asciiEscape ((name, content) :: members) ++ rest =
          lit ", " ++ others := by
        simp only [encodeMembers, others, List.append_assoc]
      rw [List.append_assoc _ _ rest, shape]
      exact (member noSurrogates loadableValue first).2 _ _ _ comma
        ((congrArg (scanMembers floats hooks depth) skipped).trans remaining)

/-- The text of a loadable value is read back, whatever delimits it. -/
theorem scanOnce_encode
    (keepsDistinct : hooks.KeepsDistinct)
    {value : Value}
    (loadable : value.Loadable)
    {depth : Nat}
    (enough : (encode floats asciiEscape value).length < depth)
    {rest : Str}
    (delimited : Delimited rest) :
    scanOnce floats hooks depth (encode floats asciiEscape value ++ rest) =
      .ok (value, rest) := by
  induction loadable generalizing depth rest with
  | scalar holds =>
      obtain ⟨depth, rfl⟩ := Nat.exists_eq_succ_of_ne_zero (Nat.ne_zero_of_lt enough)
      simp only [encode]
      exact scanOnce_encodeScalar holds delimited
  | @list items loadable inductionHypothesis =>
      obtain ⟨depth, rfl⟩ := Nat.exists_eq_succ_of_ne_zero (Nat.ne_zero_of_lt enough)
      cases items with
      | nil => rfl
      | cons item items =>
          obtain ⟨c, text, shape, notSpace, notClosing, _⟩ :=
            encode_starts floats (loadable item List.mem_cons_self)
          simp only [encode, List.length_cons] at enough
          have shorter : (encode floats asciiEscape item ++
              encodeItems floats asciiEscape items).length < depth := by omega
          have scanned := scanItems_encode loadable
            (fun value isMember depth rest delimited enough =>
              inductionHypothesis value isMember enough delimited) shorter rest
          have skipped : skipWhitespace (encode floats asciiEscape item ++
              encodeItems floats asciiEscape items ++ rest) =
              c :: (text ++ encodeItems floats asciiEscape items ++ rest) := by
            rw [shape]
            exact skipWhitespace_cons notSpace _
          rw [shape, List.cons_append, List.cons_append] at scanned
          have notQuote : ¬(chr '[' = chr '"') := by decide
          have notBrace : ¬(chr '[' = chr '\x7b') := by decide
          simp only [encode, List.cons_append, scanOnce, notQuote, notBrace, if_false, if_true,
            skipped, notClosing, scanned]
  | @object members holds loadable inductionHypothesis =>
      obtain ⟨depth, rfl⟩ := Nat.exists_eq_succ_of_ne_zero (Nat.ne_zero_of_lt enough)
      have kept := keepsDistinct members holds.1
      have notQuote : ¬(chr '\x7b' = chr '"') := by decide
      cases members with
      | nil =>
          have closing : skipWhitespace (chr '\x7d' :: rest) = chr '\x7d' :: rest :=
            skipWhitespace_cons (by decide) rest
          change scanOnce floats hooks (depth + 1) (chr '\x7b' :: chr '\x7d' :: rest) = _
          simp only [scanOnce, notQuote, if_false, if_true, closing, hooked, kept]
      | cons member members =>
          obtain ⟨key, value⟩ := member
          simp only [encode, List.length_cons] at enough
          have shorter : (encodeString asciiEscape key ++ lit ": " ++
              encode floats asciiEscape value ++
              encodeMembers floats asciiEscape members).length < depth := by omega
          have scanned := scanMembers_encode
            (fun member isMember =>
              ⟨holds.2 member.1 (List.mem_map_of_mem isMember), loadable member isMember⟩)
            (fun member isMember depth rest delimited enough =>
              inductionHypothesis member isMember enough delimited) shorter rest
          have skipped : skipWhitespace (encodeString asciiEscape key ++ lit ": " ++
              encode floats asciiEscape value ++
              encodeMembers floats asciiEscape members ++ rest) =
              encodeString asciiEscape key ++ lit ": " ++ encode floats asciiEscape value ++
                encodeMembers floats asciiEscape members ++ rest :=
            skipWhitespace_cons (c := chr '"') (by decide) _
          have notClosing : ¬(chr '"' = chr '\x7d') := by decide
          simp only [encode, List.cons_append, scanOnce, notQuote, if_false, if_true, skipped]
          simp only [encodeString, List.cons_append] at scanned ⊢
          simp only [notClosing, if_false, scanned, hooked, kept]

/-- `json.loads` reads the sorted ASCII text of a loadable value back, up to
the order of its keys. -/
theorem loads_dumpsSorted
    (keepsDistinct : hooks.KeepsDistinct)
    {value : Value}
    (loadable : value.Loadable) :
    loads floats hooks (dumpsSorted floats value) = .ok value.sortKeys := by
  obtain ⟨c, text, shape, notSpace, _, ascii⟩ := encode_starts floats loadable.sortKeys
  have noMark : (dumpsSorted floats value).head? ≠ some 0xfeff := by
    rw [dumpsSorted, shape, List.head?_cons]
    intro isMark
    rw [Option.some.inj isMark] at ascii
    exact absurd ascii (by decide)
  have skipped : skipWhitespace (dumpsSorted floats value) = dumpsSorted floats value := by
    rw [dumpsSorted, shape]
    exact skipWhitespace_cons notSpace _
  have enough : (encode floats asciiEscape value.sortKeys).length <
      scanBudget (dumpsSorted floats value) := by
    rw [scanBudget, dumpsSorted]
    omega
  have atEnd : Delimited [] := by simp [Delimited]
  have scanned := scanOnce_encode keepsDistinct loadable.sortKeys enough atEnd
  rw [List.append_nil] at scanned
  rw [loads, if_neg noMark, skipped]
  simp only [dumpsSorted] at scanned ⊢
  rw [scanned]
  rfl

end RoundTrip

end Json
end SigmaForge
