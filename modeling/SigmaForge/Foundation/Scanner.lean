import SigmaForge.Foundation.Text

/-!
# Scanning text for longest-match tokens

`re.finditer` over an alternation of token classes, each given by its first
character and by the characters that continue it.  The scan is characterized
by a relation between a text and its decomposition into skipped text and
tokens, and that decomposition is unique.
-/

namespace SigmaForge
namespace Scanner

open Text

/-- A match of a scan, with the text skipped since the previous match. -/
structure Match where
  /-- The text between the previous match and this one. -/
  skipped : Str
  /-- `match.group()`. -/
  group : Str
  deriving DecidableEq

/-- The token classes of a scan: whether a character starts a token, and if so
which characters continue it. -/
abbrev TokenClass := CodePoint → Option (CodePoint → Bool)

/-- Scan with `gap` skipped since the last match.  Every round consumes a
character, so the length of the text is enough fuel. -/
def scan (classes : TokenClass) : Nat → Str → Str → List Match × Str
  | _, gap, [] => ([], gap)
  | 0, gap, rest => ([], gap ++ rest)
  | fuel + 1, gap, c :: rest =>
      match classes c with
      | none => scan classes fuel (gap ++ [c]) rest
      | some continues =>
          let found := scan classes fuel [] (rest.dropWhile continues)
          (⟨gap, c :: rest.takeWhile continues⟩ :: found.1, found.2)

/-- All matches of a text, and the text after the last of them. -/
def finditer (classes : TokenClass) (text : Str) : List Match × Str :=
  scan classes text.length [] text

/-- `re.findall`. -/
def findall (classes : TokenClass) (text : Str) : List Str :=
  (finditer classes text).1.map Match.group

/-- A stretch of text in which no token starts. -/
def Gap (classes : TokenClass) (text : Str) : Prop :=
  ∀ c ∈ text, classes c = none

/-- A token of the class its first character selects. -/
def IsToken (classes : TokenClass) (continues : CodePoint → Bool) (token : Str) : Prop :=
  ∃ c body, token = c :: body ∧ classes c = some continues ∧
    ∀ d ∈ body, continues d = true

/-- A decomposition of a text into skipped stretches and longest-match tokens.
The last argument is the text after the last token. -/
inductive Tokenizes (classes : TokenClass) : Str → List Match → Str → Prop
  | done {tail : Str} :
      Gap classes tail → Tokenizes classes tail [] tail
  | token {gap token rest tail : Str} {continues : CodePoint → Bool} {found : List Match} :
      Gap classes gap →
      IsToken classes continues token →
      (∀ c, rest.head? = some c → continues c = false) →
      Tokenizes classes rest found tail →
      Tokenizes classes (gap ++ (token ++ rest)) (⟨gap, token⟩ :: found) tail

theorem Gap.append_singleton
    {classes : TokenClass}
    {gap : Str}
    {c : CodePoint}
    (clear : Gap classes gap)
    (noStart : classes c = none) :
    Gap classes (gap ++ [c]) := by
  intro d member
  rcases List.mem_append.mp member with inGap | isLast
  · exact clear d inGap
  · rw [List.mem_singleton.mp isLast]
    exact noStart

private theorem head_dropWhile_false
    (continues : CodePoint → Bool)
    (text : Str)
    (c : CodePoint)
    (isHead : (text.dropWhile continues).head? = some c) :
    continues c = false := by
  induction text with
  | nil => simp at isHead
  | cons d text inductionHypothesis =>
      rw [List.dropWhile_cons] at isHead
      split at isHead
      · exact inductionHypothesis isHead
      · rename_i stops
        simp only [List.head?_cons, Option.some.injEq] at isHead
        simpa [← isHead] using stops

/-- The scan produces a decomposition of the text. -/
theorem scan_tokenizes
    (classes : TokenClass)
    (fuel : Nat)
    (gap text : Str)
    (enough : text.length ≤ fuel)
    (clear : Gap classes gap) :
    Tokenizes classes (gap ++ text) (scan classes fuel gap text).1
      (scan classes fuel gap text).2 := by
  induction fuel generalizing gap text with
  | zero =>
      obtain rfl : text = [] := List.length_eq_zero_iff.mp (by omega)
      simpa [scan] using Tokenizes.done clear
  | succ fuel inductionHypothesis =>
      cases text with
      | nil => simpa [scan] using Tokenizes.done clear
      | cons c rest =>
          simp only [List.length_cons] at enough
          cases start : classes c with
          | none =>
              have scanned := inductionHypothesis (gap ++ [c]) rest (by omega)
                (clear.append_singleton start)
              simpa [scan, start] using scanned
          | some continues =>
              have shorter : (rest.dropWhile continues).length ≤ fuel :=
                (List.length_dropWhile_le continues rest).trans (by omega)
              have scanned := inductionHypothesis [] (rest.dropWhile continues)
                shorter (by simp [Gap])
              have isToken : IsToken classes continues (c :: rest.takeWhile continues) :=
                ⟨c, rest.takeWhile continues, rfl, start,
                  fun d member => List.mem_takeWhile_imp member⟩
              have assembled := Tokenizes.token clear isToken
                (head_dropWhile_false continues rest) scanned
              simpa [scan, start] using assembled

/-- A scan of the text decomposes it. -/
theorem finditer_tokenizes (classes : TokenClass) (text : Str) :
    Tokenizes classes text (finditer classes text).1 (finditer classes text).2 := by
  simpa [finditer] using
    scan_tokenizes classes text.length [] text (Nat.le_refl _) (by simp [Gap])

/-- Skipping a gap only lengthens the pending gap. -/
private theorem scan_gap
    (classes : TokenClass)
    (fuel : Nat)
    (pending gap rest : Str)
    (clear : Gap classes gap) :
    scan classes (gap.length + fuel) pending (gap ++ rest) =
      scan classes fuel (pending ++ gap) rest := by
  induction gap generalizing pending with
  | nil => simp
  | cons c gap inductionHypothesis =>
      have start : classes c = none := clear c List.mem_cons_self
      have remaining : Gap classes gap :=
        fun d member => clear d (List.mem_cons_of_mem _ member)
      have skipped := inductionHypothesis (pending ++ [c]) remaining
      rw [show (c :: gap).length + fuel = (gap.length + fuel) + 1 by
        simp only [List.length_cons]; omega]
      simp only [List.cons_append, scan, start]
      rw [skipped, List.append_assoc, List.singleton_append]

private theorem takeWhile_append_stop
    (continues : CodePoint → Bool)
    (body rest : Str)
    (inside : ∀ d ∈ body, continues d = true)
    (stops : ∀ c, rest.head? = some c → continues c = false) :
    (body ++ rest).takeWhile continues = body ∧
      (body ++ rest).dropWhile continues = rest := by
  induction body with
  | nil =>
      cases rest with
      | nil => simp
      | cons c rest => simp [stops c rfl]
  | cons d body inductionHypothesis =>
      have first := inside d List.mem_cons_self
      obtain ⟨taken, dropped⟩ := inductionHypothesis
        (fun e member => inside e (List.mem_cons_of_mem _ member))
      simp [first, taken, dropped]

/-- Any decomposition of a text is the one the scan finds. -/
theorem Tokenizes.finditer_eq
    {classes : TokenClass}
    {text tail : Str}
    {found : List Match}
    (tokenizes : Tokenizes classes text found tail) :
    finditer classes text = (found, tail) := by
  have general : ∀ extra, scan classes (text.length + extra) [] text = (found, tail) := by
    induction tokenizes with
    | @done tail clear =>
        intro extra
        have scanned := scan_gap classes extra [] tail [] clear
        simp only [List.append_nil, List.nil_append] at scanned
        rw [scanned]
        cases extra <;> rfl
    | @token gap token rest tail continues found clear isToken stops _ inductionHypothesis =>
        intro extra
        obtain ⟨c, body, rfl, start, inside⟩ := isToken
        obtain ⟨taken, dropped⟩ := takeWhile_append_stop continues body rest inside stops
        have lengths : (gap ++ (c :: body ++ rest)).length + extra =
            gap.length + ((rest.length + (body.length + extra)) + 1) := by
          simp only [List.length_append, List.length_cons]
          omega
        rw [lengths, scan_gap classes _ [] gap _ clear]
        simp only [List.cons_append, List.nil_append, scan, start, taken, dropped]
        rw [inductionHypothesis]
  simpa [finditer] using general 0

/-- Every match is a token of its class. -/
theorem Tokenizes.isToken
    {classes : TokenClass}
    {text tail : Str}
    {found : List Match}
    (tokenizes : Tokenizes classes text found tail)
    {m : Match}
    (member : m ∈ found) :
    ∃ continues, IsToken classes continues m.group := by
  induction tokenizes with
  | done => simp at member
  | token clear isToken stops _ inductionHypothesis =>
      rcases List.mem_cons.mp member with rfl | later
      · exact ⟨_, isToken⟩
      · exact inductionHypothesis later

/-! ## Scanning for some of the classes only -/

/-- `fewer` keeps some of the token classes of `classes`, and no token of a
class it drops contains the start of a token it keeps. -/
structure Restricts (fewer classes : TokenClass) : Prop where
  kept : ∀ c continues, fewer c = some continues → classes c = some continues
  dropped : ∀ c continues d, fewer c = none → classes c = some continues →
    continues d = true → fewer d = none

/-- Whether a token belongs to a kept class. -/
def startsToken (classes : TokenClass) (token : Str) : Bool :=
  match token with
  | [] => false
  | c :: _ => (classes c).isSome

private theorem Tokenizes.prepend_gap
    {classes : TokenClass}
    {text tail : Str}
    {found : List Match}
    (tokenizes : Tokenizes classes text found tail)
    {gap : Str}
    (clear : Gap classes gap) :
    ∃ found' tail', Tokenizes classes (gap ++ text) found' tail' ∧
      found'.map Match.group = found.map Match.group := by
  have joined : ∀ {more : Str}, Gap classes more → Gap classes (gap ++ more) := by
    intro more moreClear c member
    rcases List.mem_append.mp member with inGap | inMore
    · exact clear c inGap
    · exact moreClear c inMore
  cases tokenizes with
  | done tailClear =>
      exact ⟨[], gap ++ text, .done (joined tailClear), rfl⟩
  | @token between token rest tail continues found betweenClear isToken stops remaining =>
      refine ⟨⟨gap ++ between, token⟩ :: found, tail, ?_, rfl⟩
      rw [← List.append_assoc]
      exact .token (joined betweenClear) isToken stops remaining

/-- Scanning for fewer classes finds the same tokens, the others left out. -/
theorem Restricts.findall_eq
    {fewer classes : TokenClass}
    (restricts : Restricts fewer classes)
    (text : Str) :
    findall fewer text = (findall classes text).filter (startsToken fewer) := by
  have general : ∀ {text tail found}, Tokenizes classes text found tail →
      ∃ found' tail', Tokenizes fewer text found' tail' ∧
        found'.map Match.group = (found.map Match.group).filter (startsToken fewer) := by
    intro text tail found tokenizes
    have gapKept : ∀ {gap}, Gap classes gap → Gap fewer gap := by
      intro gap clear c member
      cases start : fewer c with
      | none => rfl
      | some continues =>
          have := restricts.kept c continues start
          rw [clear c member] at this
          contradiction
    induction tokenizes with
    | done clear => exact ⟨[], _, .done (gapKept clear), rfl⟩
    | @token gap token rest tail continues found clear isToken stops _ inductionHypothesis =>
        obtain ⟨found', tail', scanned, groups⟩ := inductionHypothesis
        obtain ⟨c, body, rfl, start, inside⟩ := isToken
        cases keep : fewer c with
        | some continues' =>
            have same : continues' = continues := by
              have := restricts.kept c continues' keep
              rw [start] at this
              exact (Option.some.inj this).symm
            subst same
            refine ⟨⟨gap, c :: body⟩ :: found', tail',
              .token (gapKept clear) ⟨c, body, rfl, keep, inside⟩ stops scanned, ?_⟩
            simp [startsToken, keep, groups]
        | none =>
            have tokenClear : Gap fewer (gap ++ c :: body) := by
              intro d member
              rcases List.mem_append.mp member with inGap | inToken
              · exact gapKept clear d inGap
              · rcases List.mem_cons.mp inToken with rfl | inBody
                · exact keep
                · exact restricts.dropped c continues d keep start (inside d inBody)
            obtain ⟨found'', tail'', joined, sameGroups⟩ := scanned.prepend_gap tokenClear
            refine ⟨found'', tail'', ?_, ?_⟩
            · simpa using joined
            · simp [startsToken, keep, sameGroups, groups]
  obtain ⟨found', tail', scanned, groups⟩ := general (finditer_tokenizes classes text)
  simpa [findall, scanned.finditer_eq] using groups

end Scanner
end SigmaForge
