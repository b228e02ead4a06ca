import SigmaForge.Foundation.Json.Dumps

/-!
# JSON lines

A stream that is written line by line, each line a JSON text.  Whatever the values are, a
text of `json.dumps` has no line break of its own, so that the lines of the stream are the
texts that were written; and a reader may stop anywhere.
-/

namespace SigmaForge
namespace Json

open Text

/-- The line feed. -/
def newline : CodePoint := chr '\n'

/-- Every text followed by a line feed. -/
def writeLines (lines : List Str) : Str := lines.flatMap (· ++ [newline])

/-- The lines that are complete: `text.split("\n")[:-1]`. -/
def readLines (text : Str) : List Str := (split newline text).dropLast

@[simp] theorem writeLines_nil : writeLines [] = [] := rfl

@[simp] theorem writeLines_cons (line : Str) (lines : List Str) :
    writeLines (line :: lines) = line ++ newline :: writeLines lines := by
  simp [writeLines]

/-- A stream grows at its end. -/
theorem writeLines_append (lines lines' : List Str) :
    writeLines (lines ++ lines') = writeLines lines ++ writeLines lines' :=
  List.flatMap_append

/-! ## Splitting -/

/-- Without a separator there is one part. -/
theorem split_eq_singleton
    {sep : CodePoint}
    {text : Str}
    (absent : sep ∉ text) :
    split sep text = [text] := by
  induction text with
  | nil => rfl
  | cons c text inductionHypothesis =>
      have notSep : ¬(c = sep) := fun equal => absent (by simp [equal])
      have rest := inductionHypothesis fun isMember => absent (List.mem_cons_of_mem _ isMember)
      simp only [split, rest, if_neg notSep]

/-- The part before the first separator comes first. -/
theorem split_append
    {sep : CodePoint}
    {line : Str}
    (absent : sep ∉ line)
    (text : Str) :
    split sep (line ++ sep :: text) = line :: split sep text := by
  obtain ⟨part, parts, isSplit⟩ := List.exists_cons_of_ne_nil (split_ne_nil sep text)
  induction line with
  | nil => simp only [List.nil_append, split, isSplit, if_true]
  | cons c line inductionHypothesis =>
      have notSep : ¬(c = sep) := fun equal => absent (by simp [equal])
      have rest := inductionHypothesis fun isMember => absent (List.mem_cons_of_mem _ isMember)
      simp only [List.cons_append, split, rest, if_neg notSep]

/-- The lines of a stream are those that were written; an unfinished line is not read. -/
theorem readLines_writeLines_append
    {lines : List Str}
    (unbroken : ∀ line ∈ lines, newline ∉ line)
    {unfinished : Str}
    (absent : newline ∉ unfinished) :
    readLines (writeLines lines ++ unfinished) = lines := by
  induction lines with
  | nil => simp [readLines, split_eq_singleton absent]
  | cons line lines inductionHypothesis =>
      have rest := inductionHypothesis fun other isOther =>
        unbroken other (List.mem_cons_of_mem _ isOther)
      rw [readLines] at rest
      rw [writeLines_cons, List.append_assoc, List.cons_append, readLines,
        split_append (unbroken line List.mem_cons_self),
        List.dropLast_cons_of_ne_nil (split_ne_nil newline _), rest]

theorem readLines_writeLines
    {lines : List Str}
    (unbroken : ∀ line ∈ lines, newline ∉ line) :
    readLines (writeLines lines) = lines := by
  simpa using readLines_writeLines_append unbroken (List.not_mem_nil (a := newline))

/-- A stream that is cut off anywhere is a stream of some of the first lines, and an
unfinished line. -/
theorem exists_lines_of_prefix
    {lines : List Str}
    (unbroken : ∀ line ∈ lines, newline ∉ line)
    {text : Str}
    (isPrefix : text <+: writeLines lines) :
    ∃ count unfinished, text = writeLines (lines.take count) ++ unfinished ∧
      newline ∉ unfinished := by
  induction lines generalizing text with
  | nil =>
      have isNil : text = [] := List.prefix_nil.mp isPrefix
      exact ⟨0, [], by simp [isNil], by simp⟩
  | cons line lines inductionHypothesis =>
      rw [writeLines_cons] at isPrefix
      by_cases reaches : line.length < text.length
      · -- the first line is complete: the rest of the text is a prefix of the rest
        have whole : line ++ [newline] <+: text := by
          refine List.prefix_of_prefix_length_le ?_ isPrefix (by simpa using reaches)
          exact ⟨writeLines lines, by simp⟩
        obtain ⟨rest, rfl⟩ := whole
        have restPrefix : rest <+: writeLines lines := by
          rw [List.append_assoc, List.singleton_append, List.prefix_append_right_inj,
            List.cons_prefix_cons] at isPrefix
          exact isPrefix.2
        obtain ⟨count, unfinished, isRest, absent⟩ := inductionHypothesis
          (fun other isOther => unbroken other (List.mem_cons_of_mem _ isOther)) restPrefix
        exact ⟨count + 1, unfinished, by simp [isRest], absent⟩
      · have partOfLine : text <+: line :=
          List.prefix_of_prefix_length_le isPrefix (List.prefix_append _ _) (by omega)
        refine ⟨0, text, by simp, fun isMember => ?_⟩
        exact unbroken line List.mem_cons_self (partOfLine.subset isMember)

/-! ## Streams of values -/

section Streams

variable
    {floats : FloatText}
    {hooks : Hooks}

theorem newline_not_mem_of_printable {text : Str} (printable : Printable text) :
    newline ∉ text := by
  intro isMember
  have bounds := printable newline isMember
  exact absurd bounds.1 (by decide)

/-- `json.dumps` writes no line break. -/
theorem newline_not_mem_encode (floats : FloatText) (value : Value) :
    newline ∉ encode floats asciiEscape value :=
  newline_not_mem_of_printable (printable_encode floats value)

/-- `json.loads` reads the ASCII text of a loadable value back, its objects in their own
order. -/
theorem loads_encode
    (keepsDistinct : hooks.KeepsDistinct)
    {value : Value}
    (loadable : value.Loadable) :
    loads floats hooks (encode floats asciiEscape value) = .ok value := by
  obtain ⟨c, text, shape, notSpace, _, ascii⟩ := encode_starts floats loadable
  have noMark : (encode floats asciiEscape value).head? ≠ some 0xfeff := by
    rw [shape, List.head?_cons]
    intro isMark
    rw [Option.some.inj isMark] at ascii
    exact absurd ascii (by decide)
  have skipped : skipWhitespace (encode floats asciiEscape value) =
      encode floats asciiEscape value := by
    rw [shape]
    exact skipWhitespace_cons notSpace _
  have enough : (encode floats asciiEscape value).length <
      scanBudget (encode floats asciiEscape value) := by
    rw [scanBudget]
    omega
  have atEnd : Delimited [] := by simp [Delimited]
  have scanned := scanOnce_encode keepsDistinct loadable enough atEnd
  rw [List.append_nil] at scanned
  rw [loads, if_neg noMark, skipped, scanned]
  rfl

end Streams

end Json
end SigmaForge
