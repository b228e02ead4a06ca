import SigmaForge.Foundation.Json.Encode

/-!
# Sizes of encoded values

How long the text of a value is, counted in any additive measure.  The size of
a text depends neither on the order of keys nor, up to a factor, on the
escaping of its strings.
-/

namespace SigmaForge
namespace Json

open Text

/-- The sum of a measure over the characters of a text. -/
def weight (measure : CodePoint → Nat) (text : Str) : Nat := (text.map measure).sum

section Weight

variable (measure : CodePoint → Nat)

@[simp] theorem weight_nil : weight measure [] = 0 := rfl

@[simp] theorem weight_cons (c : CodePoint) (text : Str) :
    weight measure (c :: text) = measure c + weight measure text := by
  simp [weight]

@[simp] theorem weight_append (left right : Str) :
    weight measure (left ++ right) = weight measure left + weight measure right := by
  simp [weight]

theorem length_eq_weight (text : Str) : text.length = weight (fun _ => 1) text := by
  simp [weight]

/-- A text weighs nothing exactly if none of its characters does. -/
theorem weight_eq_zero_iff (text : Str) :
    weight measure text = 0 ↔ ∀ c ∈ text, measure c = 0 := by
  induction text with
  | nil => simp
  | cons c text inductionHypothesis => simp [inductionHypothesis]

end Weight

/-- The number of bytes of a code point in UTF-8. -/
def utf8Width (c : CodePoint) : Nat :=
  if c.val < 0x80 then 1
  else if c.val < 0x800 then 2
  else if c.val < 0x10000 then 3
  else 4

/-- `len(text.encode("utf-8"))`, unless the text has a surrogate and `encode`
raises. -/
def utf8Length (text : Str) : Option Nat :=
  if text.any isSurrogate then none else some (weight utf8Width text)

/-! ## Order of keys -/

section SortKeys

variable (measure : CodePoint → Nat) (floats : FloatText) (escape : CodePoint → Str)

/-- The weight of a member. -/
private def memberWeight (member : Member) : Nat :=
  weight measure (encodeString escape member.1) + weight measure (lit ": ") +
    weight measure (encode floats escape member.2)

theorem weight_encodeItems (items : List Value) :
    weight measure (encodeItems floats escape items) =
      (items.map fun item =>
        weight measure (lit ", ") + weight measure (encode floats escape item)).sum +
      weight measure (lit "]") := by
  induction items with
  | nil => simp [encodeItems]
  | cons item items inductionHypothesis =>
      simp only [encodeItems, weight_append, inductionHypothesis, List.map_cons,
        List.sum_cons]
      omega

theorem weight_encodeMembers (members : List Member) :
    weight measure (encodeMembers floats escape members) =
      (members.map fun member =>
        weight measure (lit ", ") + memberWeight measure floats escape member).sum +
      weight measure (lit "\x7d") := by
  induction members with
  | nil => simp [encodeMembers]
  | cons member members inductionHypothesis =>
      obtain ⟨key, value⟩ := member
      simp only [encodeMembers, weight_append, inductionHypothesis, List.map_cons,
        List.sum_cons, memberWeight]
      omega

/-- The weight of an object, in which each member comes with one separator. -/
theorem weight_encode_object
    {members : List Member}
    (nonempty : members ≠ []) :
    weight measure (encode floats escape (.object members)) + weight measure (lit ", ") =
      measure (chr '\x7b') +
      ((members.map fun member =>
        weight measure (lit ", ") + memberWeight measure floats escape member).sum +
      weight measure (lit "\x7d")) := by
  obtain ⟨⟨key, value⟩, others, rfl⟩ := List.exists_cons_of_ne_nil nonempty
  simp only [encode, weight_cons, weight_append, weight_encodeMembers, List.map_cons,
    List.sum_cons, memberWeight]
  omega

/-- Sorting the keys of a value does not change how much its text weighs. -/
theorem weight_encode_sortKeys (value : Value) :
    weight measure (encode floats escape value.sortKeys) =
      weight measure (encode floats escape value) := by
  induction value using Value.parts_induction with
  | scalar value => simp
  | list items inductionHypothesis =>
      rw [Value.sortKeys_list]
      cases items with
      | nil => rfl
      | cons item items =>
          simp only [List.map_cons, encode, weight_cons, weight_append, weight_encodeItems,
            inductionHypothesis item List.mem_cons_self, List.map_map]
          congr 3
          apply congrArg List.sum
          apply List.map_congr_left
          intro other isOther
          simp [inductionHypothesis other (List.mem_cons_of_mem _ isOther)]
  | object members inductionHypothesis =>
      rw [Value.sortKeys_object]
      by_cases nonempty : members = []
      · simp [nonempty, Value.sortByKey]
      · have permuted := Value.sortByKey_perm
          (members.map fun member => (member.1, member.2.sortKeys))
        have sortedNonempty : Value.sortByKey
            (members.map fun member => (member.1, member.2.sortKeys)) ≠ [] := by
          intro isNil
          rw [isNil] at permuted
          exact nonempty (List.map_eq_nil_iff.mp permuted.nil_eq.symm)
        have sorted := weight_encode_object measure floats escape sortedNonempty
        have unsorted := weight_encode_object measure floats escape nonempty
        rw [((permuted.map _).sum_eq), List.map_map] at sorted
        have sums : members.map ((fun member =>
              weight measure (lit ", ") + memberWeight measure floats escape member) ∘
                fun member : Member => (member.1, member.2.sortKeys)) =
            members.map fun member =>
              weight measure (lit ", ") + memberWeight measure floats escape member := by
          apply List.map_congr_left
          intro member isMember
          simp [memberWeight, inductionHypothesis member isMember]
        rw [sums] at sorted
        omega

end SortKeys

/-- Values that are the same up to key order have texts of the same size. -/
theorem utf8Length_dumpsPlain_congr
    (floats : FloatText)
    {left right : Value}
    (same : left.Same right) :
    utf8Length (dumpsPlain floats left) = utf8Length (dumpsPlain floats right) := by
  have weights : ∀ measure,
      weight measure (dumpsPlain floats left) = weight measure (dumpsPlain floats right) := by
    intro measure
    rw [dumpsPlain, ← weight_encode_sortKeys, same, weight_encode_sortKeys, dumpsPlain]
  have surrogates : ∀ text : Str, text.any isSurrogate =
      decide (weight (fun c => if isSurrogate c then 1 else 0) text ≠ 0) := by
    intro text
    rw [Bool.eq_iff_iff, decide_eq_true_iff, ne_eq, weight_eq_zero_iff, List.any_eq_true]
    simp
  rw [utf8Length, utf8Length, surrogates, surrogates, weights, weights]

/-! ## Escaping -/

section Escaping

variable
    {measure measure' : CodePoint → Nat}
    {escape escape' : CodePoint → Str}
    {factor : Nat}
    (floats : FloatText)

theorem weight_le_of_le
    (bounded : ∀ c, measure c ≤ factor * measure' c)
    (text : Str) :
    weight measure text ≤ factor * weight measure' text := by
  induction text with
  | nil => simp
  | cons c text inductionHypothesis =>
      rw [weight_cons, weight_cons, Nat.mul_add]
      exact Nat.add_le_add (bounded c) inductionHypothesis

theorem weight_encodeString_le
    (bounded : ∀ c, measure c ≤ factor * measure' c)
    (escapes : ∀ c, weight measure (escape c) ≤ factor * weight measure' (escape' c))
    (text : Str) :
    weight measure (encodeString escape text) ≤
      factor * weight measure' (encodeString escape' text) := by
  have body : weight measure (text.flatMap escape) ≤
      factor * weight measure' (text.flatMap escape') := by
    induction text with
    | nil => simp
    | cons c text inductionHypothesis =>
        rw [List.flatMap_cons, List.flatMap_cons, weight_append, weight_append, Nat.mul_add]
        exact Nat.add_le_add (escapes c) inductionHypothesis
  have quote := bounded (chr '"')
  simp only [encodeString, weight_cons, weight_append, weight_nil, Nat.mul_add, Nat.add_zero]
  omega

/-- A bound on the escape of each character bounds the text of every value. -/
theorem weight_encode_le
    (bounded : ∀ c, measure c ≤ factor * measure' c)
    (escapes : ∀ c, weight measure (escape c) ≤ factor * weight measure' (escape' c))
    (value : Value) :
    weight measure (encode floats escape value) ≤
      factor * weight measure' (encode floats escape' value) := by
  have text := weight_le_of_le bounded
  have strings := weight_encodeString_le bounded escapes
  induction value using Value.parts_induction with
  | scalar value =>
      simp only [encode]
      cases value with
      | str content => exact strings content
      | null => exact text _
      | bool flag => cases flag <;> exact text _
      | int number => exact text _
      | float number => exact text _
  | list items inductionHypothesis =>
      cases items with
      | nil => exact text _
      | cons item items =>
          have first := inductionHypothesis item List.mem_cons_self
          have others : weight measure (encodeItems floats escape items) ≤
              factor * weight measure' (encodeItems floats escape' items) := by
            have remaining := fun other isOther =>
              inductionHypothesis other (List.mem_cons_of_mem _ isOther)
            clear inductionHypothesis
            induction items with
            | nil => exact text _
            | cons other items itemsHypothesis =>
                have second := remaining other List.mem_cons_self
                have rest := itemsHypothesis fun next isNext =>
                  remaining next (List.mem_cons_of_mem _ isNext)
                have separator := text (lit ", ")
                simp only [encodeItems, weight_append, Nat.mul_add]
                omega
          have bracket := bounded (chr '[')
          simp only [encode, weight_cons, weight_append, Nat.mul_add]
          omega
  | object members inductionHypothesis =>
      cases members with
      | nil => exact text _
      | cons member members =>
          obtain ⟨key, value⟩ := member
          have first := inductionHypothesis (key, value) List.mem_cons_self
          dsimp only at first
          have others : weight measure (encodeMembers floats escape members) ≤
              factor * weight measure' (encodeMembers floats escape' members) := by
            have remaining := fun other isOther =>
              inductionHypothesis other (List.mem_cons_of_mem _ isOther)
            clear inductionHypothesis
            induction members with
            | nil => exact text _
            | cons other members membersHypothesis =>
                obtain ⟨name, content⟩ := other
                have second := remaining (name, content) List.mem_cons_self
                dsimp only at second
                have rest := membersHypothesis fun next isNext =>
                  remaining next (List.mem_cons_of_mem _ isNext)
                have separator := text (lit ", ")
                have colon := text (lit ": ")
                have quoted := strings name
                simp only [encodeMembers, weight_append, Nat.mul_add]
                omega
          have brace := bounded (chr '\x7b')
          have colon := text (lit ": ")
          have quoted := strings key
          simp only [encode, weight_cons, weight_append, Nat.mul_add]
          omega

end Escaping

theorem one_le_utf8Width (c : CodePoint) : 1 ≤ utf8Width c := by
  unfold utf8Width
  split_ifs <;> omega

/-- No text has more characters than bytes. -/
theorem length_le_utf8 (text : Str) : text.length ≤ weight utf8Width text := by
  have bounded : ∀ c, 1 ≤ 1 * utf8Width c := by simpa using one_le_utf8Width
  rw [length_eq_weight, ← Nat.one_mul (weight utf8Width text)]
  exact weight_le_of_le bounded text

/-- The worst case of the ASCII escapes is `DEL`, one byte that becomes six
characters. -/
theorem length_asciiEscape_le (c : CodePoint) :
    (asciiEscape c).length ≤ 6 * weight utf8Width (plainEscape c) := by
  unfold asciiEscape plainEscape
  cases shortEscape c with
  | some escaped =>
      have bounded := length_le_utf8 escaped
      simp only
      omega
  | none =>
      by_cases control : c.val < 0x20
      · have notPrintable : ¬(0x20 ≤ c.val ∧ c.val < 0x7f) := by omega
        have inPlane : c.val < 0x10000 := by omega
        have bounded := length_le_utf8 (unicodeEscape c.val)
        simp only [notPrintable, inPlane, control, if_true, if_false]
        omega
      · simp only [control, if_false, weight_cons, weight_nil, Nat.add_zero]
        unfold utf8Width
        split_ifs
        all_goals simp only [unicodeEscape, List.length_append, List.length_cons, List.length_nil]
        all_goals omega

/-- The sorted ASCII text of a value has at most six characters for each byte
of its plain UTF-8 text. -/
theorem length_dumpsSorted_le
    (floats : FloatText)
    (value : Value) :
    (dumpsSorted floats value).length ≤ 6 * weight utf8Width (dumpsPlain floats value) := by
  calc (dumpsSorted floats value).length
      = weight (fun _ => 1) (encode floats asciiEscape value.sortKeys) := length_eq_weight _
    _ = weight (fun _ => 1) (encode floats asciiEscape value) :=
        weight_encode_sortKeys _ floats asciiEscape value
    _ ≤ 6 * weight utf8Width (encode floats plainEscape value) := by
        apply weight_encode_le floats
        · intro c
          have := one_le_utf8Width c
          omega
        · intro c
          rw [← length_eq_weight]
          exact length_asciiEscape_le c

end Json
end SigmaForge
