import SigmaForge.Foundation.Json.Encode

/-!
# Column types

`uuid.UUID` with its text form, and the range of `INTEGER`.
-/

namespace SigmaForge

open Text Json

/-- `uuid.UUID`. -/
abbrev UUID := Fin (2 ^ 128)

instance uuidsNeZero : NeZero (2 ^ 128 : Nat) := ⟨by decide⟩

/-- The hexadecimal digits of `number` from the given position on. -/
def hexDigits (number : Nat) (position count : Nat) : Str :=
  (List.range count).map fun index => hexDigit (number / 16 ^ (31 - position - index) % 16)

/-- `str(uuid)`. -/
def UUID.str (id : UUID) : Str :=
  hexDigits id.val 0 8 ++ lit "-" ++ hexDigits id.val 8 4 ++ lit "-" ++
    hexDigits id.val 12 4 ++ lit "-" ++ hexDigits id.val 16 4 ++ lit "-" ++
    hexDigits id.val 20 12

example : UUID.str 0x00112233445566778899aabbccddeeff =
    lit "00112233-4455-6677-8899-aabbccddeeff" := by
  decide +kernel

theorem hexDigit_injective
    {digit digit' : Nat}
    (small : digit < 16)
    (small' : digit' < 16)
    (same : hexDigit digit = hexDigit digit') :
    digit = digit' := by
  have all : ∀ left right : Fin 16, hexDigit left = hexDigit right → left = right := by decide
  exact congrArg Fin.val (all ⟨digit, small⟩ ⟨digit', small'⟩ same)

/-- The text determines the digits that it shows. -/
theorem digit_eq_of_hexDigits
    {number number' position count : Nat}
    (same : hexDigits number position count = hexDigits number' position count)
    {index : Nat}
    (low : position ≤ index)
    (high : index < position + count) :
    number / 16 ^ (31 - index) % 16 = number' / 16 ^ (31 - index) % 16 := by
  unfold hexDigits at same
  rw [List.map_inj_left] at same
  have sameDigit := same (index - position) (List.mem_range.mpr (by omega))
  have isIndex : 31 - position - (index - position) = 31 - index := by omega
  rw [isIndex] at sameDigit
  exact hexDigit_injective (Nat.mod_lt _ (by decide)) (Nat.mod_lt _ (by decide)) sameDigit

/-- Numbers with the same last digits are equal up to these. -/
theorem mod_eq_of_digits
    {number number' : Nat}
    (count : Nat)
    (same : ∀ position < count, number / 16 ^ position % 16 = number' / 16 ^ position % 16) :
    number % 16 ^ count = number' % 16 ^ count := by
  induction count with
  | zero => simp [Nat.mod_one]
  | succ count inductionHypothesis =>
      rw [Nat.pow_succ, Nat.mod_mul, Nat.mod_mul,
        inductionHypothesis fun position isEarlier => same position (by omega),
        same count (by omega)]

/-- Different ids have different texts. -/
theorem UUID.str_injective : Function.Injective UUID.str := by
  intro left right sameText
  unfold UUID.str at sameText
  have lengths : ∀ number position count : Nat, (hexDigits number position count).length = count :=
    fun _ _ _ => by simp [hexDigits]
  obtain ⟨sameText, fifth⟩ := List.append_inj' sameText (by simp [lengths])
  obtain ⟨sameText, _⟩ := List.append_inj' sameText rfl
  obtain ⟨sameText, fourth⟩ := List.append_inj' sameText (by simp [lengths])
  obtain ⟨sameText, _⟩ := List.append_inj' sameText rfl
  obtain ⟨sameText, third⟩ := List.append_inj' sameText (by simp [lengths])
  obtain ⟨sameText, _⟩ := List.append_inj' sameText rfl
  obtain ⟨sameText, second⟩ := List.append_inj' sameText (by simp [lengths])
  obtain ⟨first, _⟩ := List.append_inj' sameText rfl
  have sameDigits : ∀ index < 32,
      left.val / 16 ^ (31 - index) % 16 = right.val / 16 ^ (31 - index) % 16 := by
    intro index small
    by_cases isFirst : index < 8
    · exact digit_eq_of_hexDigits first (by omega) (by omega)
    by_cases isSecond : index < 12
    · exact digit_eq_of_hexDigits second (by omega) (by omega)
    by_cases isThird : index < 16
    · exact digit_eq_of_hexDigits third (by omega) (by omega)
    by_cases isFourth : index < 20
    · exact digit_eq_of_hexDigits fourth (by omega) (by omega)
    · exact digit_eq_of_hexDigits fifth (by omega) (by omega)
  have sameMod : left.val % 16 ^ 32 = right.val % 16 ^ 32 := by
    apply mod_eq_of_digits
    intro position small
    have sameDigit := sameDigits (31 - position) (by omega)
    have isPosition : 31 - (31 - position) = position := by omega
    rwa [isPosition] at sameDigit
  have bound : (16 : Nat) ^ 32 = 2 ^ 128 := by norm_num
  rw [bound, Nat.mod_eq_of_lt left.isLt, Nat.mod_eq_of_lt right.isLt] at sameMod
  exact Fin.ext sameMod

/-- The type `INTEGER`. -/
def IsInteger (number : Int) : Prop := -2 ^ 31 ≤ number ∧ number < 2 ^ 31

instance (number : Int) : Decidable (IsInteger number) :=
  inferInstanceAs (Decidable (_ ∧ _))

/-- The type `SMALLINT`. -/
def IsSmallInt (number : Int) : Prop := -2 ^ 15 ≤ number ∧ number < 2 ^ 15

instance (number : Int) : Decidable (IsSmallInt number) :=
  inferInstanceAs (Decidable (_ ∧ _))

end SigmaForge
