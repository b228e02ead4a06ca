import SigmaForge.Foundation.Json.RoundTrip
import SigmaForge.Foundation.Columns

/-!
# `uuid.UUID` of a text

The constructor takes more spellings than `str` writes: braces, hyphens anywhere, the prefix
of a URN, and whatever `int` reads to base 16.  What `str` has written is read back.
-/

namespace SigmaForge

open Text Json

/-! ## `str.replace` and `str.strip` -/

/-- The text without the occurrences of `old`, when the scan has still to pass over some
characters of the last one. -/
def removeFrom (old : Str) : Nat → Str → Str
  | _, [] => []
  | skipped + 1, _ :: text => removeFrom old skipped text
  | 0, c :: text =>
      if old.isPrefixOf (c :: text) then removeFrom old (old.length - 1) text
      else c :: removeFrom old 0 text

/-- `text.replace(old, '')`, for an `old` that is not empty. -/
def removeAll (old text : Str) : Str := removeFrom old 0 text

/-- `text.strip(chars)`. -/
def stripChars (chars text : Str) : Str :=
  ((text.dropWhile (chars.contains ·)).reverse.dropWhile (chars.contains ·)).reverse

/-! ## `int(text, 16)` -/

/-- What `int` makes of a code point: `decimal` gives the digit values of Unicode. -/
def toAscii (decimal : CodePoint → Option (Fin 10)) (c : CodePoint) : CodePoint :=
  if c.val < 127 then c
  else if isspace c then chr ' '
  else
    match decimal c with
    | some digit => hexDigit digit.val
    | none => chr '?'

/-- `Py_ISSPACE`. -/
def isBlank (c : CodePoint) : Bool := (0x09 ≤ c.val && c.val ≤ 0x0d) || c.val == 0x20

/-- The sign at the start of the text. -/
def takeSign : Str → Int × Str
  | [] => (1, [])
  | c :: text =>
      if c = chr '+' then (1, text)
      else if c = chr '-' then (-1, text)
      else (1, c :: text)

/-- The text after `0x`, which one underscore may follow. -/
def dropMarker (text : Str) : Str :=
  match text with
  | zero :: x :: rest =>
      if zero = chr '0' ∧ (x = chr 'x' ∨ x = chr 'X') then
        if rest.head? = some (chr '_') then rest.tail else rest
      else text
  | _ => text

/-- The value of the digits at the start, and the text after them: single underscores may
stand between the digits. -/
def takeDigits (afterUnderscore : Bool) (value : Nat) : Str → Option (Nat × Str)
  | [] => if afterUnderscore then none else some (value, [])
  | c :: text =>
      if c = chr '_' then
        if afterUnderscore then none else takeDigits true value text
      else
        match hexValue c with
        | some digit => takeDigits false (16 * value + digit) text
        | none => if afterUnderscore then none else some (value, c :: text)

/-- `int(text, 16)`. -/
def intBase16 (decimal : CodePoint → Option (Fin 10)) (text : Str) : Option Int := do
  let (sign, unsigned) := takeSign ((text.map (toAscii decimal)).dropWhile isBlank)
  let digits := dropMarker unsigned
  if (digits.head?.bind hexValue).isNone then none
  else do
    let (value, rest) ← takeDigits false 0 digits
    if rest.all isBlank then some (sign * value) else none

/-- `uuid.UUID(text)`; `ValueError` is nothing. -/
def UUID.parse (decimal : CodePoint → Option (Fin 10)) (text : Str) : Option UUID :=
  let hex := removeAll (lit "-")
    (stripChars (lit "{}") (removeAll (lit "uuid:") (removeAll (lit "urn:") text)))
  if hex.length ≠ 32 then none
  else
    match intBase16 decimal hex with
    | none => none
    | some number =>
        if isInRange : 0 ≤ number ∧ number.toNat < 2 ^ 128 then some ⟨number.toNat, isInRange.2⟩
        else none

example : UUID.parse (fun _ => none) (lit "{urn:uuid:00112233445566778899AABBCCDDEEFF}") =
    some 0x00112233445566778899aabbccddeeff := by
  decide +kernel

/-! ## Reading what `str` has written -/

theorem hexDigit_facts {digit : Nat} (small : digit < 16) :
    hexDigit digit ≠ chr 'u' ∧ hexDigit digit ≠ chr '-' ∧ hexDigit digit ≠ chr '+' ∧
      hexDigit digit ≠ chr 'x' ∧ hexDigit digit ≠ chr 'X' ∧ hexDigit digit ≠ chr '_' ∧
      (lit "{}").contains (hexDigit digit) = false ∧ (hexDigit digit).val < 127 ∧
      isBlank (hexDigit digit) = false := by
  have all : ∀ digit < 16, hexDigit digit ≠ chr 'u' ∧ hexDigit digit ≠ chr '-' ∧
      hexDigit digit ≠ chr '+' ∧ hexDigit digit ≠ chr 'x' ∧ hexDigit digit ≠ chr 'X' ∧
      hexDigit digit ≠ chr '_' ∧ (lit "{}").contains (hexDigit digit) = false ∧
      (hexDigit digit).val < 127 ∧ isBlank (hexDigit digit) = false := by
    decide
  exact all digit small

/-- The digits of a number are digits. -/
theorem digit_of_mem_hexDigits
    {number position count : Nat}
    {c : CodePoint}
    (member : c ∈ hexDigits number position count) :
    ∃ digit < 16, c = hexDigit digit := by
  unfold hexDigits at member
  cases List.mem_map.mp member with
  | intro index found => exact ⟨_, Nat.mod_lt _ (by decide), found.2.symm⟩

theorem hexDigits_succ (number position count : Nat) :
    hexDigits number position (count + 1) =
      hexDigit (number / 16 ^ (31 - position) % 16) :: hexDigits number (position + 1) count := by
  unfold hexDigits
  rw [List.range_succ_eq_map, List.map_cons, List.map_map, Nat.sub_zero]
  congr 1
  apply List.map_congr_left
  intro index _
  have isIndex : 31 - position - (index + 1) = 31 - (position + 1) - index := by omega
  simp only [Function.comp_apply, Nat.succ_eq_add_one, isIndex]

theorem hexDigits_append (number position first second : Nat) :
    hexDigits number position first ++ hexDigits number (position + first) second =
      hexDigits number position (first + second) := by
  induction first generalizing position with
  | zero => simp [hexDigits]
  | succ first inductionHypothesis =>
      have isNext : position + (first + 1) = position + 1 + first := by omega
      have isLonger : first + 1 + second = first + second + 1 := by omega
      rw [isNext, isLonger, hexDigits_succ, hexDigits_succ, List.cons_append,
        inductionHypothesis]

/-- Nothing is removed from a text in which `old` cannot start. -/
theorem removeAll_eq_self
    {first : CodePoint}
    {rest text : Str}
    (isAbsent : first ∉ text) :
    removeAll (first :: rest) text = text := by
  unfold removeAll
  induction text with
  | nil => rfl
  | cons c text inductionHypothesis =>
      have isOther : first ≠ c := fun same => isAbsent (same ▸ List.mem_cons_self)
      have notPrefix : (first :: rest).isPrefixOf (c :: text) = false := by
        simp [List.isPrefixOf, isOther]
      rw [removeFrom, notPrefix, if_neg Bool.false_ne_true,
        inductionHypothesis fun member => isAbsent (List.mem_cons_of_mem _ member)]

/-- Removing one character is a filter. -/
theorem removeAll_singleton (c : CodePoint) (text : Str) :
    removeAll [c] text = text.filter (· != c) := by
  unfold removeAll
  induction text with
  | nil => rfl
  | cons d text inductionHypothesis =>
      by_cases same : d = c
      · subst same
        simpa [removeFrom, List.isPrefixOf] using inductionHypothesis
      · have isOther : c ≠ d := fun equal => same equal.symm
        simpa [removeFrom, List.isPrefixOf, same, isOther] using inductionHypothesis

/-- Nothing is stripped when none of the characters occurs. -/
theorem stripChars_eq_self
    {chars text : Str}
    (isAbsent : ∀ c ∈ text, chars.contains c = false) :
    stripChars chars text = text := by
  have kept : ∀ text : Str, (∀ c ∈ text, chars.contains c = false) →
      text.dropWhile (chars.contains ·) = text := by
    intro text isAbsent
    cases text with
    | nil => rfl
    | cons c text => rw [List.dropWhile_cons, isAbsent c List.mem_cons_self]; rfl
  unfold stripChars
  rw [kept text isAbsent, kept text.reverse fun c member =>
    isAbsent c (List.mem_reverse.mp member), List.reverse_reverse]

/-- Without its hyphens, the text of an id is the row of its digits. -/
theorem UUID.str_without_hyphens (id : UUID) :
    removeAll (lit "-") id.str = hexDigits id.val 0 32 := by
  have digitsKept : ∀ position count,
      (hexDigits id.val position count).filter (· != chr '-') =
        hexDigits id.val position count := by
    intro position count
    rw [List.filter_eq_self]
    intro c member
    have isDigit := digit_of_mem_hexDigits member
    cases isDigit with
    | intro digit found =>
        rw [found.2, bne_iff_ne]
        exact (hexDigit_facts found.1).2.1
  have hyphenRemoved : (lit "-").filter (· != chr '-') = [] := by decide
  have isLiteral : lit "-" = [chr '-'] := by decide
  rw [isLiteral, removeAll_singleton, UUID.str]
  simp only [List.filter_append, digitsKept, hyphenRemoved, List.append_nil]
  rw [hexDigits_append _ 0 8 4, hexDigits_append _ 0 12 4, hexDigits_append _ 0 16 4,
    hexDigits_append _ 0 20 12]

/-- A character of the text of an id is a hyphen or a digit. -/
theorem UUID.mem_str
    {id : UUID}
    {c : CodePoint}
    (member : c ∈ id.str) :
    c = chr '-' ∨ ∃ digit < 16, c = hexDigit digit := by
  have isLiteral : lit "-" = [chr '-'] := by decide
  simp only [UUID.str, isLiteral, List.mem_append, List.mem_singleton] at member
  have ofDigits : ∀ {position count}, c ∈ hexDigits id.val position count →
      c = chr '-' ∨ ∃ digit < 16, c = hexDigit digit :=
    fun isIn => .inr (digit_of_mem_hexDigits isIn)
  rcases member with (((((((first | hyphen) | second) | hyphen) | third) | hyphen) | fourth) |
    hyphen) | fifth
  · exact ofDigits first
  · exact .inl hyphen
  · exact ofDigits second
  · exact .inl hyphen
  · exact ofDigits third
  · exact .inl hyphen
  · exact ofDigits fourth
  · exact .inl hyphen
  · exact ofDigits fifth

/-- The digits from a position on, read after those before it. -/
theorem takeDigits_hexDigits
    (number : Nat)
    {position count : Nat}
    (isEnd : position + count = 32)
    (value : Nat) :
    takeDigits false value (hexDigits number position count) =
      some (value * 16 ^ count + number % 16 ^ count, []) := by
  induction count generalizing position value with
  | zero => simp [hexDigits, takeDigits, Nat.mod_one]
  | succ count inductionHypothesis =>
      have isPlace : 31 - position = count := by omega
      have small : number / 16 ^ count % 16 < 16 := Nat.mod_lt _ (by decide)
      rw [hexDigits_succ, isPlace, takeDigits, if_neg (hexDigit_facts small).2.2.2.2.2.1,
        hexValue_hexDigit small]
      simp only
      rw [inductionHypothesis (by omega), Nat.pow_succ, Nat.mod_mul]
      ring_nf

/-- Nothing stands before the digits of a number that `int` would pass over. -/
theorem takeSign_hexDigits
    (decimal : CodePoint → Option (Fin 10))
    (number position count : Nat) :
    takeSign (((hexDigits number position count).map (toAscii decimal)).dropWhile isBlank) =
      (1, hexDigits number position count) := by
  have isAscii : (hexDigits number position count).map (toAscii decimal) =
      (hexDigits number position count).map id := by
    apply List.map_congr_left
    intro c member
    have isDigit := digit_of_mem_hexDigits member
    cases isDigit with
    | intro digit found =>
        rw [found.2, toAscii, if_pos (hexDigit_facts found.1).2.2.2.2.2.2.2.1]
        rfl
  rw [isAscii, List.map_id]
  cases count with
  | zero => rfl
  | succ count =>
      have small : number / 16 ^ (31 - position) % 16 < 16 := Nat.mod_lt _ (by decide)
      rw [hexDigits_succ, List.dropWhile_cons, (hexDigit_facts small).2.2.2.2.2.2.2.2,
        if_neg Bool.false_ne_true, takeSign, if_neg (hexDigit_facts small).2.2.1,
        if_neg (hexDigit_facts small).2.1]

theorem dropMarker_hexDigits (number position count : Nat) :
    dropMarker (hexDigits number position count) = hexDigits number position count := by
  cases count with
  | zero => rfl
  | succ count =>
      cases count with
      | zero => rfl
      | succ count =>
          have small : number / 16 ^ (31 - (position + 1)) % 16 < 16 := Nat.mod_lt _ (by decide)
          rw [hexDigits_succ, hexDigits_succ, dropMarker, if_neg]
          rintro ⟨_, isMarker⟩
          exact isMarker.elim (hexDigit_facts small).2.2.2.1 (hexDigit_facts small).2.2.2.2.1

/-- `int` reads the digits of a number back. -/
theorem intBase16_hexDigits
    (decimal : CodePoint → Option (Fin 10))
    (number : Nat)
    {position count : Nat}
    (isEnd : position + (count + 1) = 32) :
    intBase16 decimal (hexDigits number position (count + 1)) =
      some ((number % 16 ^ (count + 1) : Nat) : Int) := by
  have isHead : ((hexDigits number position (count + 1)).head?.bind hexValue).isNone = false := by
    rw [hexDigits_succ, List.head?_cons, Option.bind_some,
      hexValue_hexDigit (Nat.mod_lt _ (by decide))]
    rfl
  unfold intBase16
  rw [takeSign_hexDigits]
  simp only [dropMarker_hexDigits]
  rw [isHead, takeDigits_hexDigits number isEnd, if_neg Bool.false_ne_true, Nat.zero_mul,
    Nat.zero_add]
  exact congrArg some (Int.one_mul _)

/-- `uuid.UUID(str(id)) == id`. -/
theorem UUID.parse_str (decimal : CodePoint → Option (Fin 10)) (id : UUID) :
    UUID.parse decimal id.str = some id := by
  have noU : chr 'u' ∉ id.str := by
    intro member
    rcases UUID.mem_str member with isHyphen | ⟨digit, small, isDigit⟩
    · exact absurd isHyphen (by decide)
    · exact (hexDigit_facts small).1 isDigit.symm
  have noBrace : ∀ c ∈ id.str, (lit "{}").contains c = false := by
    intro c member
    rcases UUID.mem_str member with rfl | ⟨digit, small, rfl⟩
    · decide
    · exact (hexDigit_facts small).2.2.2.2.2.2.1
  have isUrn : lit "urn:" = chr 'u' :: lit "rn:" := by decide
  have isUuid : lit "uuid:" = chr 'u' :: lit "uid:" := by decide
  have isHex : removeAll (lit "-") (stripChars (lit "{}")
      (removeAll (lit "uuid:") (removeAll (lit "urn:") id.str))) = hexDigits id.val 0 32 := by
    rw [isUrn, isUuid, removeAll_eq_self noU, removeAll_eq_self noU, stripChars_eq_self noBrace,
      UUID.str_without_hyphens]
  have isLength : (hexDigits id.val 0 32).length = 32 := by simp [hexDigits]
  have isRange : (16 : Nat) ^ (31 + 1) = 2 ^ 128 := by norm_num
  have isNumber : intBase16 decimal (hexDigits id.val 0 32) = some (id.val : Int) := by
    rw [intBase16_hexDigits decimal id.val (rfl : 0 + (31 + 1) = 32), isRange,
      Nat.mod_eq_of_lt id.isLt]
  simp only [UUID.parse, isHex, isLength, isNumber]
  simp

end SigmaForge
