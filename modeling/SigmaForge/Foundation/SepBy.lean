import Mathlib.Data.List.Basic

/-!
# Separated lists in recursive-descent parsers

The loop `item (sep item)*` over a shared token position.  Parsers take the
remaining tokens and return what is left of them.  If the item parser
recognizes its language, then so does the loop, and the loop fails only as
its items fail.
-/

namespace SigmaForge
namespace SepBy

section Parser

variable {τ ε : Type}

/-- Repeat `sep item` as long as the next token is a separator.  Every round
consumes a token, so the number of tokens is enough fuel. -/
def loop
    (sep : τ → Bool)
    (item : List τ → Except ε (List τ)) :
    Nat → List τ → Except ε (List τ)
  | 0, tokens => .ok tokens
  | _ + 1, [] => .ok []
  | fuel + 1, token :: rest =>
      if sep token then item rest >>= loop sep item fuel else .ok (token :: rest)

/-- The parser of `item (sep item)*`. -/
def sepBy1
    (sep : τ → Bool)
    (item : List τ → Except ε (List τ))
    (tokens : List τ) : Except ε (List τ) :=
  item tokens >>= fun rest => loop sep item rest.length rest

end Parser

/-- The language of `item (sep item)*`. -/
inductive SepBy1 {τ : Type} (Item : List τ → Prop) (sep : τ → Bool) : List τ → Prop
  | last {tokens : List τ} : Item tokens → SepBy1 Item sep tokens
  | more {left right : List τ} {separator : τ} :
      Item left → sep separator = true → SepBy1 Item sep right →
      SepBy1 Item sep (left ++ separator :: right)

section Correctness

variable {τ ε : Type}

/-- What a parser consumes belongs to the language. -/
def Sound (parser : List τ → Except ε (List τ)) (Language : List τ → Prop) : Prop :=
  ∀ tokens rest, parser tokens = .ok rest →
    ∃ consumed, tokens = consumed ++ rest ∧ Language consumed

/-- A parser consumes any member of the language that one of the allowed
continuations follows. -/
def Complete
    (parser : List τ → Except ε (List τ))
    (Language : List τ → Prop)
    (Follows : List τ → Prop) : Prop :=
  ∀ consumed rest, Language consumed → Follows rest →
    parser (consumed ++ rest) = .ok rest

theorem Sound.length_le
    {parser : List τ → Except ε (List τ)}
    {Language : List τ → Prop}
    (sound : Sound parser Language)
    {tokens rest : List τ}
    (parsed : parser tokens = .ok rest) :
    rest.length ≤ tokens.length := by
  obtain ⟨consumed, split, _⟩ := sound tokens rest parsed
  simp [split]

/-- The token list does not go on with a separator. -/
def NotNext (sep : τ → Bool) (tokens : List τ) : Prop :=
  ∀ token, tokens.head? = some token → sep token = false

theorem NotNext.nil (sep : τ → Bool) : NotNext sep [] := by
  intro token isHead
  simp at isHead

theorem NotNext.cons
    {sep : τ → Bool}
    {token : τ}
    (different : sep token = false)
    (rest : List τ) :
    NotNext sep (token :: rest) := by
  intro head isHead
  simp only [List.head?_cons, Option.some.injEq] at isHead
  rw [← isHead]
  exact different

variable {sep : τ → Bool} {item : List τ → Except ε (List τ)} {Item : List τ → Prop}

/-- The loop consumes nothing, or a separator and a separated list. -/
private theorem loop_sound
    (sound : Sound item Item)
    (fuel : Nat)
    (tokens rest : List τ)
    (parsed : loop sep item fuel tokens = .ok rest) :
    tokens = rest ∨ ∃ separator consumed, tokens = separator :: consumed ++ rest ∧
      sep separator = true ∧ SepBy1 Item sep consumed := by
  induction fuel generalizing tokens with
  | zero =>
      left
      simpa [loop] using parsed
  | succ fuel inductionHypothesis =>
      cases tokens with
      | nil =>
          left
          simpa [loop] using parsed
      | cons token remaining =>
          by_cases isSep : sep token = true
          · right
            simp only [loop, isSep, if_true] at parsed
            cases first : item remaining with
            | error failure => simp [first, bind, Except.bind] at parsed
            | ok afterItem =>
                simp only [first, bind, Except.bind] at parsed
                obtain ⟨consumed, split, isItem⟩ := sound remaining afterItem first
                rcases inductionHypothesis afterItem parsed with same | continued
                · exact ⟨token, consumed, by simp [split, same], isSep, .last isItem⟩
                · obtain ⟨separator, more, split', isSep', isList⟩ := continued
                  exact ⟨token, consumed ++ separator :: more, by simp [split, split'],
                    isSep, .more isItem isSep' isList⟩
          · left
            simpa [loop, isSep] using parsed

/-- The separated-list parser is sound if its item parser is. -/
theorem sepBy1_sound (sound : Sound item Item) :
    Sound (sepBy1 sep item) (SepBy1 Item sep) := by
  intro tokens rest parsed
  unfold sepBy1 at parsed
  cases first : item tokens with
  | error failure => simp [first, bind, Except.bind] at parsed
  | ok afterItem =>
      simp only [first, bind, Except.bind] at parsed
      obtain ⟨consumed, split, isItem⟩ := sound tokens afterItem first
      rcases loop_sound sound _ afterItem rest parsed with same | continued
      · exact ⟨consumed, by rw [split, same], .last isItem⟩
      · obtain ⟨separator, more, split', isSep, isList⟩ := continued
        exact ⟨consumed ++ separator :: more, by simp [split, split'],
          .more isItem isSep isList⟩

/-- The loop stops in front of a token that is no separator. -/
private theorem loop_stop
    (fuel : Nat)
    (rest : List τ)
    (stops : NotNext sep rest) :
    loop sep item fuel rest = .ok rest := by
  cases fuel with
  | zero => rfl
  | succ fuel =>
      cases rest with
      | nil => rfl
      | cons token rest => simp [loop, stops token rfl]

/-- The separated-list parser is complete if its item parser is, and an item
may be followed by a separator. -/
theorem sepBy1_complete
    {Consumes : List τ → Prop}
    {Follows : List τ → Prop}
    (sound : Sound item Consumes)
    (complete : Complete item Item Follows)
    (separatorFollows : ∀ separator rest, sep separator = true →
      Follows (separator :: rest)) :
    Complete (sepBy1 sep item) (SepBy1 Item sep)
      (fun rest => Follows rest ∧ NotNext sep rest) := by
  have general : ∀ consumed rest, SepBy1 Item sep consumed → Follows rest →
      NotNext sep rest → ∃ afterItem, item (consumed ++ rest) = .ok afterItem ∧
        ∀ fuel, afterItem.length ≤ fuel → loop sep item fuel afterItem = .ok rest := by
    intro consumed rest isList follows stops
    induction isList with
    | last isItem =>
        exact ⟨rest, complete _ rest isItem follows, fun fuel _ => loop_stop fuel rest stops⟩
    | @more left right separator isItem isSep _ inductionHypothesis =>
        obtain ⟨afterItem, parsed, continued⟩ := inductionHypothesis
        refine ⟨separator :: (right ++ rest), ?_, ?_⟩
        · rw [List.append_assoc, List.cons_append]
          exact complete left _ isItem (separatorFollows separator _ isSep)
        · intro fuel enough
          cases fuel with
          | zero => simp at enough
          | succ fuel =>
              simp only [loop, isSep, if_true, parsed, bind, Except.bind]
              have shorter := sound.length_le parsed
              simp only [List.length_cons] at enough
              exact continued fuel (by omega)
  intro consumed rest isList ⟨follows, stops⟩
  obtain ⟨afterItem, parsed, continued⟩ := general consumed rest isList follows stops
  simp only [sepBy1, parsed, bind, Except.bind]
  exact continued _ (Nat.le_refl _)

private theorem loop_error
    (sound : Sound item Item)
    (holds : List τ → Prop)
    (kept : ∀ consumed separator rest, Item consumed → sep separator = true →
      holds (consumed ++ separator :: rest) → holds rest)
    (failure : ε)
    (fuel : Nat)
    (tokens : List τ)
    (started : ∃ consumed, Item consumed ∧ holds (consumed ++ tokens))
    (failed : loop sep item fuel tokens = .error failure) :
    ∃ remaining, holds remaining ∧ item remaining = .error failure := by
  induction fuel generalizing tokens with
  | zero => simp [loop] at failed
  | succ fuel inductionHypothesis =>
      cases tokens with
      | nil => simp [loop] at failed
      | cons token rest =>
          by_cases isSep : sep token = true
          · obtain ⟨consumed, isItem, isStart⟩ := started
            have isNext : holds rest := kept consumed token rest isItem isSep isStart
            simp only [loop, isSep, if_true] at failed
            cases first : item rest with
            | error failure' =>
                simp only [first, bind, Except.bind, Except.error.injEq] at failed
                exact ⟨rest, isNext, by rw [first, failed]⟩
            | ok afterItem =>
                simp only [first, bind, Except.bind] at failed
                obtain ⟨consumed', split, isItem'⟩ := sound rest afterItem first
                exact inductionHypothesis afterItem ⟨consumed', isItem', split ▸ isNext⟩ failed
          · simp [loop, isSep] at failed

/-- A separated list fails only as one of its items fails, at a place that has whatever
every next item inherits. -/
theorem sepBy1_error
    (sound : Sound item Item)
    (holds : List τ → Prop)
    (kept : ∀ consumed separator rest, Item consumed → sep separator = true →
      holds (consumed ++ separator :: rest) → holds rest)
    {failure : ε}
    {tokens : List τ}
    (started : holds tokens)
    (failed : sepBy1 sep item tokens = .error failure) :
    ∃ remaining, holds remaining ∧ item remaining = .error failure := by
  unfold sepBy1 at failed
  cases first : item tokens with
  | error failure' =>
      simp only [first, bind, Except.bind, Except.error.injEq] at failed
      exact ⟨tokens, started, by rw [first, failed]⟩
  | ok afterItem =>
      simp only [first, bind, Except.bind] at failed
      obtain ⟨consumed, split, isItem⟩ := sound tokens afterItem first
      exact loop_error sound holds kept failure _ _ ⟨consumed, isItem, split ▸ started⟩ failed

/-- Two item parsers that differ only where the first one fails in a given way. -/
def AgreesUnless (failure : ε) (item item' : List τ → Except ε (List τ)) : Prop :=
  ∀ tokens, item tokens = .error failure ∨ item' tokens = item tokens

private theorem loop_agreesUnless
    {item' : List τ → Except ε (List τ)}
    {failure : ε}
    (agrees : AgreesUnless failure item item')
    (fuel : Nat) :
    AgreesUnless failure (loop sep item fuel) (loop sep item' fuel) := by
  induction fuel with
  | zero => exact fun tokens => .inr rfl
  | succ fuel inductionHypothesis =>
      intro tokens
      cases tokens with
      | nil => exact .inr rfl
      | cons token rest =>
          by_cases isSep : sep token = true
          · simp only [loop, isSep, if_true]
            rcases agrees rest with isFailure | sameItem
            · exact .inl (by rw [isFailure]; rfl)
            · rw [sameItem]
              cases item rest with
              | error other => exact .inr rfl
              | ok afterItem => exact inductionHypothesis afterItem
          · exact .inr (by simp [loop, isSep])

/-- So do the parsers of their separated lists. -/
theorem AgreesUnless.sepBy1
    {item' : List τ → Except ε (List τ)}
    {failure : ε}
    (agrees : AgreesUnless failure item item') :
    AgreesUnless failure (sepBy1 sep item) (sepBy1 sep item') := by
  intro tokens
  unfold SepBy.sepBy1
  rcases agrees tokens with isFailure | sameItem
  · exact .inl (by rw [isFailure]; rfl)
  · rw [sameItem]
    cases item tokens with
    | error other => exact .inr rfl
    | ok afterItem => exact loop_agreesUnless agrees _ afterItem

end Correctness

end SepBy
end SigmaForge
