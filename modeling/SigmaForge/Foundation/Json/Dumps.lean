import SigmaForge.Foundation.Json.RoundTrip
import SigmaForge.Foundation.Json.Size

/-!
# What `json.dumps` raises and writes

The values that the encoder refuses, and the characters of the texts that it writes
with `ensure_ascii`.
-/

namespace SigmaForge
namespace Json

open Text

/-! ## Refused values -/

/-- The encoder raises: `int.__repr__` writes no more digits than the limit, and with
`allow_nan=False` a float has to be finite. -/
def Scalar.refused (allowNan : Bool) : Scalar → Bool
  | .int value => maxStrDigits < (decimal value.natAbs).length
  | .float value => !allowNan && !value.isfinite
  | _ => false

mutual

/-- The encoder raises on some part of the value. -/
def refused (allowNan : Bool) : Value → Bool
  | .scalar value => value.refused allowNan
  | .list items => refusedItems allowNan items
  | .object members => refusedMembers allowNan members

/-- The encoder raises on some item. -/
def refusedItems (allowNan : Bool) : List Value → Bool
  | [] => false
  | item :: items => refused allowNan item || refusedItems allowNan items

/-- The encoder raises on some member. -/
def refusedMembers (allowNan : Bool) : List Member → Bool
  | [] => false
  | (_, value) :: members => refused allowNan value || refusedMembers allowNan members

end

/-- `json.dumps` with the given `allow_nan`, as far as it raises. -/
def dumpsOrRaise (allowNan : Bool) (floats : FloatText) (escape : CodePoint → Str)
    (value : Value) : Option Str :=
  if refused allowNan value then none else some (encode floats escape value)

/-- The size in UTF-8 of `json.dumps(value, ensure_ascii=False, allow_nan=False)`, unless it or
the encoding raises.  Separators raise nothing: a body with compact ones is rendered as well. -/
def renderedLength (floats : FloatText) (value : Value) : Option Nat :=
  (dumpsOrRaise false floats plainEscape value).bind utf8Length

theorem refusedItems_eq_false
    {allowNan : Bool}
    {items : List Value}
    (writable : ∀ item ∈ items, refused allowNan item = false) :
    refusedItems allowNan items = false := by
  induction items with
  | nil => rfl
  | cons item items inductionHypothesis =>
      rw [refusedItems, writable item List.mem_cons_self, Bool.false_or]
      exact inductionHypothesis fun other isOther => writable other (List.mem_cons_of_mem _ isOther)

theorem refusedMembers_eq_false
    {allowNan : Bool}
    {members : List Member}
    (writable : ∀ member ∈ members, refused allowNan member.2 = false) :
    refusedMembers allowNan members = false := by
  induction members with
  | nil => rfl
  | cons member members inductionHypothesis =>
      rw [refusedMembers, writable member List.mem_cons_self, Bool.false_or]
      exact inductionHypothesis fun other isOther => writable other (List.mem_cons_of_mem _ isOther)

theorem LoadableScalar.not_refused
    {scalar : Scalar}
    (loadable : LoadableScalar scalar)
    (allowNan : Bool) :
    scalar.refused allowNan = false := by
  cases scalar with
  | int value =>
      have bounded : value.natAbs < 10 ^ maxStrDigits := loadable
      have digits := length_decimal_le (by decide) bounded
      simpa [Scalar.refused] using digits
  | float value =>
      have finite : value.isfinite = true := loadable
      simp [Scalar.refused, finite]
  | null => rfl
  | bool flag => rfl
  | str text => rfl

/-- What can be read back is written, also as strict JSON. -/
theorem Value.Loadable.not_refused
    {value : Value}
    (loadable : value.Loadable)
    (allowNan : Bool) :
    refused allowNan value = false := by
  induction loadable with
  | scalar holds => exact LoadableScalar.not_refused holds allowNan
  | list _ inductionHypothesis => exact refusedItems_eq_false inductionHypothesis
  | object _ _ inductionHypothesis => exact refusedMembers_eq_false inductionHypothesis

/-! ## Printable texts -/

/-- The text consists of printable ASCII characters. -/
def Printable (text : Str) : Prop := ∀ c ∈ text, 0x20 ≤ c.val ∧ c.val ≤ 0x7e

instance (text : Str) : Decidable (Printable text) :=
  decidable_of_iff ((text.all fun c => 0x20 ≤ c.val && c.val ≤ 0x7e) = true)
    (by simp [Printable])

@[simp] theorem printable_nil : Printable [] := by simp [Printable]

@[simp] theorem printable_cons {c : CodePoint} {text : Str} :
    Printable (c :: text) ↔ (0x20 ≤ c.val ∧ c.val ≤ 0x7e) ∧ Printable text := by
  simp [Printable]

@[simp] theorem printable_append {left right : Str} :
    Printable (left ++ right) ↔ Printable left ∧ Printable right := by
  simp only [Printable, List.mem_append]
  constructor
  · exact fun both => ⟨fun c inLeft => both c (.inl inLeft), fun c inRight => both c (.inr inRight)⟩
  · exact fun ⟨inLeft, inRight⟩ c isMember => isMember.elim (inLeft c) (inRight c)

theorem printable_of_digits {text : Str} (digits : ∀ c ∈ text, isDigit c = true) :
    Printable text := by
  intro c isMember
  have digit := digits c isMember
  simp only [isDigit, Bool.and_eq_true, decide_eq_true_eq] at digit
  omega

theorem printable_decimal (number : Nat) : Printable (decimal number) :=
  printable_of_digits fun _ isMember => isDigit_of_mem_decimal isMember

theorem printable_intRepr (value : Int) : Printable (intRepr value) := by
  cases value with
  | ofNat number => exact printable_decimal number
  | negSucc number => exact printable_cons.mpr ⟨by decide, printable_decimal _⟩

theorem IsFraction.printable {text : Str} (isFraction : IsFraction text) : Printable text := by
  obtain ⟨digits, rfl, _, areDigits⟩ := isFraction
  exact printable_cons.mpr ⟨by decide, printable_of_digits areDigits⟩

theorem IsExponent.printable {text : Str} (isExponent : IsExponent text) : Printable text := by
  obtain ⟨e, sign, digits, rfl, isE, isSign, _, areDigits⟩ := isExponent
  have signs : ∀ sign ∈ [[], [chr '+'], [chr '-']], Printable sign := by decide
  refine printable_cons.mpr ⟨?_, printable_append.mpr
    ⟨signs sign isSign, printable_of_digits areDigits⟩⟩
  simp only [List.mem_cons, List.not_mem_nil, or_false] at isE
  rcases isE with rfl | rfl <;> decide

theorem IsFloatText.printable {text : Str} (isFloatText : IsFloatText text) :
    Printable text := by
  obtain ⟨sign, whole, fraction, exponent, rfl, isSign, isFraction, isExponent, _⟩ :=
    isFloatText.parts
  have signs : ∀ sign ∈ [[], [chr '-']], Printable sign := by decide
  simp only [printable_append]
  refine ⟨⟨signs sign isSign, printable_decimal whole⟩, ?_, ?_⟩
  · rcases isFraction with rfl | isFraction
    · exact printable_nil
    · exact isFraction.printable
  · rcases isExponent with rfl | isExponent
    · exact printable_nil
    · exact isExponent.printable

theorem printable_floatstr (floats : FloatText) (value : Float64) :
    Printable (floatstr floats value) := by
  unfold floatstr
  split_ifs with isFinite isNan isPositive
  · exact (floats.repr_isFloatText value isFinite).printable
  · decide
  · decide
  · decide

theorem printable_hexDigit (number : Nat) :
    0x20 ≤ (hexDigit (number % 16)).val ∧ (hexDigit (number % 16)).val ≤ 0x7e := by
  have small := Nat.mod_lt number (show 0 < 16 by decide)
  have all : ∀ digit : Fin 16, 0x20 ≤ (hexDigit digit).val ∧ (hexDigit digit).val ≤ 0x7e := by
    decide
  exact all ⟨number % 16, small⟩

theorem printable_unicodeEscape (unit : Nat) : Printable (unicodeEscape unit) := by
  simp only [unicodeEscape, printable_cons, printable_nil, and_true]
  exact ⟨by decide, by decide, printable_hexDigit _, printable_hexDigit _, printable_hexDigit _,
    printable_hexDigit _⟩

theorem printable_asciiEscape (c : CodePoint) : Printable (asciiEscape c) := by
  unfold asciiEscape
  cases isShort : shortEscape c with
  | some escaped =>
      have shorts : ∀ escaped ∈ (["\\\\", "\\\"", "\\b", "\\f", "\\n", "\\r", "\\t"].map lit),
          Printable escaped := by
        decide
      apply shorts
      unfold shortEscape at isShort
      split_ifs at isShort <;> simp [← Option.some.inj isShort]
  | none =>
      simp only
      split_ifs with isPlain inPlane
      · simp only [printable_cons, printable_nil, and_true]
        omega
      · exact printable_unicodeEscape _
      · exact printable_append.mpr ⟨printable_unicodeEscape _, printable_unicodeEscape _⟩

theorem printable_encodeString (text : Str) : Printable (encodeString asciiEscape text) := by
  have body : Printable (text.flatMap asciiEscape) := by
    intro c isMember
    obtain ⟨original, _, isEscaped⟩ := List.mem_flatMap.mp isMember
    exact printable_asciiEscape original c isEscaped
  exact printable_cons.mpr ⟨by decide, printable_append.mpr ⟨body, by decide⟩⟩

theorem printable_encodeScalar (floats : FloatText) (value : Scalar) :
    Printable (encodeScalar floats asciiEscape value) := by
  cases value with
  | null => exact (by decide : Printable (lit "null"))
  | bool flag => cases flag <;> simp only [encodeScalar] <;> decide
  | int number => exact printable_intRepr number
  | float number => exact printable_floatstr floats number
  | str text => exact printable_encodeString text

theorem printable_encodeItems
    {floats : FloatText}
    {items : List Value}
    (printable : ∀ item ∈ items, Printable (encode floats asciiEscape item)) :
    Printable (encodeItems floats asciiEscape items) := by
  induction items with
  | nil => exact (by decide : Printable (lit "]"))
  | cons item items inductionHypothesis =>
      simp only [encodeItems, printable_append]
      exact ⟨⟨by decide, printable item List.mem_cons_self⟩,
        inductionHypothesis fun other isOther => printable other (List.mem_cons_of_mem _ isOther)⟩

theorem printable_encodeMembers
    {floats : FloatText}
    {members : List Member}
    (printable : ∀ member ∈ members, Printable (encode floats asciiEscape member.2)) :
    Printable (encodeMembers floats asciiEscape members) := by
  induction members with
  | nil => exact (by decide : Printable (lit "\x7d"))
  | cons member members inductionHypothesis =>
      obtain ⟨key, value⟩ := member
      simp only [encodeMembers, printable_append]
      exact ⟨⟨by decide, ⟨printable_encodeString key, by decide⟩,
          printable (key, value) List.mem_cons_self⟩,
        inductionHypothesis fun other isOther => printable other (List.mem_cons_of_mem _ isOther)⟩

/-- With `ensure_ascii`, the text of every value is printable ASCII. -/
theorem printable_encode (floats : FloatText) (value : Value) :
    Printable (encode floats asciiEscape value) := by
  induction value using Value.parts_induction with
  | scalar value => exact printable_encodeScalar floats value
  | list items inductionHypothesis =>
      cases items with
      | nil => exact (by decide : Printable (lit "[]"))
      | cons item items =>
          simp only [encode, printable_cons, printable_append]
          exact ⟨by decide, inductionHypothesis item List.mem_cons_self,
            printable_encodeItems fun other isOther =>
              inductionHypothesis other (List.mem_cons_of_mem _ isOther)⟩
  | object members inductionHypothesis =>
      cases members with
      | nil => exact (by decide : Printable (lit "\x7b\x7d"))
      | cons member members =>
          obtain ⟨key, value⟩ := member
          simp only [encode, printable_cons, printable_append]
          exact ⟨by decide, ⟨⟨printable_encodeString key, by decide⟩,
              inductionHypothesis (key, value) List.mem_cons_self⟩,
            printable_encodeMembers fun other isOther =>
              inductionHypothesis other (List.mem_cons_of_mem _ isOther)⟩

/-- Printable texts are encoded in UTF-8, a byte for each character. -/
theorem Printable.utf8Length {text : Str} (printable : Printable text) :
    utf8Length text = some text.length := by
  have noSurrogate : ¬(text.any isSurrogate = true) := by
    rw [Bool.not_eq_true, List.any_eq_false]
    intro c isMember surrogate
    have bounds := printable c isMember
    simp only [isSurrogate, Bool.and_eq_true, decide_eq_true_eq] at surrogate
    omega
  have oneByte : text.map utf8Width = text.map fun _ => 1 := by
    apply List.map_congr_left
    intro c isMember
    have bounds := printable c isMember
    rw [utf8Width, if_pos (by omega)]
  rw [Json.utf8Length, if_neg noSurrogate, weight, oneByte, length_eq_weight, weight]

end Json
end SigmaForge
