import Mathlib.Algebra.GroupWithZero.Nat
import Mathlib.Data.List.TakeWhile
import Mathlib.Data.Fin.Basic

/-!
# Python text

A Python `str` is a sequence of code points, lone surrogates included, so it is
modelled by a list of code points and not by `String`.  This module has the
string methods and the facts of `unicodedata` that the development uses.
-/

namespace SigmaForge
namespace Text

/-- A Unicode code point, surrogates included. -/
abbrev CodePoint := Fin 0x110000

/-- A Python `str`. -/
abbrev Str := List CodePoint

instance codePointsNeZero : NeZero (0x110000 : Nat) := ⟨by decide⟩

instance codePointLawfulBEq : LawfulBEq CodePoint := inferInstance

instance strLawfulBEq : LawfulBEq Str := inferInstance

/-- The code point of a character constant. -/
def chr (c : Char) : CodePoint :=
  ⟨c.toNat, by
    have valid := c.valid
    simp only [UInt32.isValidChar, Nat.isValidChar] at valid
    simp only [Char.toNat]
    omega⟩

/-- A string literal. -/
def lit (text : String) : Str := text.toList.map chr

/-! ## Character classes of ASCII -/

/-- `[A-Za-z]`. -/
def isLetter (c : CodePoint) : Bool :=
  (0x41 ≤ c.val && c.val ≤ 0x5a) || (0x61 ≤ c.val && c.val ≤ 0x7a)

/-- `[0-9]`. -/
def isDigit (c : CodePoint) : Bool := 0x30 ≤ c.val && c.val ≤ 0x39

/-- `str.isspace` on one code point. -/
def isspace (c : CodePoint) : Bool :=
  (0x09 ≤ c.val && c.val ≤ 0x0d) || (0x1c ≤ c.val && c.val ≤ 0x20) ||
    c.val == 0x85 || c.val == 0xa0 || c.val == 0x1680 ||
    (0x2000 ≤ c.val && c.val ≤ 0x200a) || c.val == 0x2028 || c.val == 0x2029 ||
    c.val == 0x202f || c.val == 0x205f || c.val == 0x3000

theorem isLetter_not_isDigit {c : CodePoint} (letter : isLetter c = true) :
    isDigit c = false := by
  simp only [isLetter, isDigit, Bool.or_eq_true, Bool.and_eq_true, decide_eq_true_eq,
    Bool.and_eq_false_iff, decide_eq_false_iff_not] at *
  omega

theorem isLetter_not_isspace {c : CodePoint} (letter : isLetter c = true) :
    isspace c = false := by
  simp only [isLetter, isspace, Bool.or_eq_true, Bool.and_eq_true, decide_eq_true_eq,
    Bool.or_eq_false_iff, Bool.and_eq_false_iff, decide_eq_false_iff_not,
    beq_eq_false_iff_ne] at *
  omega

/-! ## String methods -/

/-- `str.strip()`. -/
def strip (text : Str) : Str :=
  ((text.dropWhile isspace).reverse.dropWhile isspace).reverse

/-- Only white space strips to the empty string. -/
theorem strip_eq_nil_iff (text : Str) :
    strip text = [] ↔ ∀ c ∈ text, isspace c = true := by
  constructor
  · intro stripped
    have inner : ∀ c ∈ text.dropWhile isspace, isspace c = true := by
      simpa [strip, List.dropWhile_eq_nil_iff] using stripped
    intro c member
    rw [← List.takeWhile_append_dropWhile (p := isspace) (l := text),
      List.mem_append] at member
    rcases member with leading | remaining
    · exact List.mem_takeWhile_imp leading
    · exact inner c remaining
  · intro blank
    have emptied : text.dropWhile isspace = [] :=
      List.dropWhile_eq_nil_iff.mpr blank
    simp [strip, emptied]

/-- One letter of `str.lower()`, on ASCII text. -/
def lowerChar (c : CodePoint) : CodePoint :=
  if 0x41 ≤ c.val ∧ c.val ≤ 0x5a then c + 32 else c

/-- Only letters are lowered to letters. -/
theorem isLetter_of_lowerChar
    {c : CodePoint}
    (letter : isLetter (lowerChar c) = true) :
    isLetter c = true := by
  unfold lowerChar at letter
  split at letter
  · simp only [isLetter, Bool.or_eq_true, Bool.and_eq_true, decide_eq_true_eq]
    omega
  · exact letter

/-- `str.lower()`.  The program lowers only text that a pattern has already
restricted to ASCII. -/
def lower (text : Str) : Str := text.map lowerChar

/-- `str.isdigit()`, on ASCII text. -/
def isdigit (text : Str) : Bool := !text.isEmpty && text.all isDigit

/-- The value of one decimal digit. -/
def digitValue (c : CodePoint) : Nat := c.val - 0x30

/-- `int(text)` for a string of decimal digits. -/
def int (text : Str) : Nat :=
  text.foldl (fun value c => 10 * value + digitValue c) 0

/-- `text.split(sep, 1)[0]`, which is also the first part of
`text.partition(sep)`. -/
def beforeFirst (sep : CodePoint) (text : Str) : Str :=
  text.takeWhile (· != sep)

/-- The last part of `text.partition(sep)`. -/
def afterFirst (sep : CodePoint) (text : Str) : Str :=
  (text.dropWhile (· != sep)).tail

/-- `text.split(sep)`. -/
def split (sep : CodePoint) : Str → List Str
  | [] => [[]]
  | c :: text =>
      match split sep text with
      | [] => [[c]]
      | part :: parts => if c = sep then [] :: part :: parts else (c :: part) :: parts

theorem split_ne_nil (sep : CodePoint) (text : Str) : split sep text ≠ [] := by
  cases text with
  | nil => simp [split]
  | cons c text =>
      simp only [split]
      split
      · simp
      · split <;> simp

/-- Every character of the text other than the separators is in a part. -/
theorem exists_part_of_mem
    {sep c : CodePoint}
    {text : Str}
    (member : c ∈ text)
    (notSep : c ≠ sep) :
    ∃ part ∈ split sep text, c ∈ part := by
  induction text with
  | nil => simp at member
  | cons d text inductionHypothesis =>
      obtain ⟨first, others, parts⟩ := List.exists_cons_of_ne_nil (split_ne_nil sep text)
      rw [parts] at inductionHypothesis
      simp only [split, parts]
      rcases List.mem_cons.mp member with rfl | inText
      · rw [if_neg notSep]
        exact ⟨c :: first, List.mem_cons_self, List.mem_cons_self⟩
      · obtain ⟨part, isPart, inPart⟩ := inductionHypothesis inText
        split
        · exact ⟨part, List.mem_cons_of_mem _ isPart, inPart⟩
        · rcases List.mem_cons.mp isPart with rfl | inOthers
          · exact ⟨d :: part, List.mem_cons_self, List.mem_cons_of_mem _ inPart⟩
          · exact ⟨part, List.mem_cons_of_mem _ inOthers, inPart⟩

/-! ## Unicode -/

/-- General categories of Unicode, as far as the program tells them apart:
`mark` stands for `Mn`, `Mc` and `Me`, and `visible` for every letter, number,
punctuation and symbol category. -/
inductive GeneralCategory
  | Cc | Cf | Cs | Co | Cn | Zs | Zl | Zp | mark | visible
  deriving DecidableEq

/-- `unicodedata` of the running interpreter.  The tables grow with every
version of Unicode; what no version changes is carried along. -/
structure UnicodeData where
  /-- `unicodedata.category`. -/
  category : CodePoint → GeneralCategory
  /-- `Cc` is exactly the C0 and C1 controls. -/
  control_iff : ∀ c, category c = .Cc ↔ c.val ≤ 0x1f ∨ (0x7f ≤ c.val ∧ c.val ≤ 0x9f)
  /-- `Cs` is exactly the surrogate range. -/
  surrogate_iff : ∀ c, category c = .Cs ↔ 0xd800 ≤ c.val ∧ c.val ≤ 0xdfff

/-- The coarsest tables that meet the laws, exact on ASCII. -/
def UnicodeData.coarse : UnicodeData where
  category c :=
    if c.val ≤ 0x1f ∨ (0x7f ≤ c.val ∧ c.val ≤ 0x9f) then .Cc
    else if 0xd800 ≤ c.val ∧ c.val ≤ 0xdfff then .Cs
    else if c.val = 0x20 then .Zs
    else .visible
  control_iff c := by
    split_ifs <;> simp_all
  surrogate_iff c := by
    split_ifs with control
    · simp only [false_iff]
      omega
    all_goals simp_all

/-- The code points that UTF-8 cannot encode. -/
def isSurrogate (c : CodePoint) : Bool := 0xd800 ≤ c.val && c.val ≤ 0xdfff

end Text
end SigmaForge
