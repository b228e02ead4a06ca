import SigmaForge.Foundation.Json.Decode

/-!
# Strict hooks

Hooks that refuse repeated keys and constants.  What is read with them is what is
read without hooks, every pair of every object kept, and the keys of every object
are distinct.
-/

namespace SigmaForge
namespace Json

open Text

/-- The hooks keep the pairs of an object, refuse repeated keys and refuse every
constant. -/
structure Hooks.Strict (hooks : Hooks) : Prop where
  objectPairs : ∀ {members value}, hooks.objectPairs members = some value →
    value = .object members ∧ (members.map Prod.fst).Nodup
  parseConstant : ∀ name, hooks.parseConstant name = none

/-- The hooks of a reader that keeps every pair, whatever it makes of constants. -/
def Hooks.pairs (parseConstant : Str → Option Value) : Hooks where
  objectPairs members := some (.object members)
  parseConstant := parseConstant

/-- `json.loads` with a limit on how deep calls may nest. -/
def loadsWithin (floats : FloatText) (hooks : Hooks) (limit : Nat) (text : Str) :
    Except LoadError Value :=
  if text.head? = some 0xfeff then .error .valueError
  else
    match scanOnce floats hooks limit (skipWhitespace text) with
    | .error failure => .error failure
    | .ok (value, rest) =>
        match skipWhitespace rest with
        | [] => .ok value
        | _ :: _ => .error .valueError

theorem loads_eq_loadsWithin (floats : FloatText) (hooks : Hooks) (text : Str) :
    loads floats hooks text = loadsWithin floats hooks (scanBudget text) text := rfl

/-- What one procedure reads, the other reads as well, and it has the property. -/
def ReadsAlso {α : Type} (scan scan' : Str → Except LoadError (α × Str)) (Holds : α → Prop) :
    Prop :=
  ∀ {text value rest}, scan text = .ok (value, rest) →
    scan' text = .ok (value, rest) ∧ Holds value

section Strict

variable
    {floats : FloatText}
    {hooks : Hooks}
    {parseConstant : Str → Option Value}
    {depth : Nat}

theorem hooked_strict
    (strict : hooks.Strict)
    {members : List Member}
    (distinct : ∀ member ∈ members, member.2.DistinctKeys)
    {text rest : Str}
    {value : Value}
    (isHooked : hooked (hooks.objectPairs members) text = .ok (value, rest)) :
    hooked ((Hooks.pairs parseConstant).objectPairs members) text = .ok (value, rest) ∧
      value.DistinctKeys := by
  unfold hooked at isHooked
  split at isHooked
  · rename_i object isObject
    obtain ⟨rfl, areDistinct⟩ := strict.objectPairs isObject
    simp only [Except.ok.injEq, Prod.mk.injEq] at isHooked
    obtain ⟨rfl, rfl⟩ := isHooked
    exact ⟨rfl, .object areDistinct distinct⟩
  · contradiction

theorem scanLiteral_strict (strict : hooks.Strict) :
    ReadsAlso (scanLiteral floats hooks) (scanLiteral floats (.pairs parseConstant))
      Value.DistinctKeys := by
  intro text value rest scanned
  unfold scanLiteral at scanned ⊢
  simp only [strict.parseConstant, hooked] at scanned
  split_ifs at scanned ⊢
  · simp only [Except.ok.injEq, Prod.mk.injEq] at scanned
    exact ⟨by rw [← scanned.1, ← scanned.2], scanned.1 ▸ .scalar trivial⟩
  · simp only [Except.ok.injEq, Prod.mk.injEq] at scanned
    exact ⟨by rw [← scanned.1, ← scanned.2], scanned.1 ▸ .scalar trivial⟩
  · simp only [Except.ok.injEq, Prod.mk.injEq] at scanned
    exact ⟨by rw [← scanned.1, ← scanned.2], scanned.1 ▸ .scalar trivial⟩
  · split at scanned
    · contradiction
    · rename_i number after isNumber
      simp only [Except.ok.injEq, Prod.mk.injEq] at scanned
      exact ⟨by rw [← scanned.1, ← scanned.2], scanned.1 ▸ .scalar trivial⟩

theorem scanOnce_strict
    (strict : hooks.Strict)
    (items : ReadsAlso (scanItems floats hooks depth)
      (scanItems floats (.pairs parseConstant) depth)
      fun items => ∀ item ∈ items, item.DistinctKeys)
    (members : ReadsAlso (scanMembers floats hooks depth)
      (scanMembers floats (.pairs parseConstant) depth)
      fun members => ∀ member ∈ members, member.2.DistinctKeys) :
    ReadsAlso (scanOnce floats hooks (depth + 1))
      (scanOnce floats (.pairs parseConstant) (depth + 1)) Value.DistinctKeys := by
  intro text value rest scanned
  cases text with
  | nil => simp [scanOnce] at scanned
  | cons c text =>
      unfold scanOnce at scanned ⊢
      split_ifs at scanned ⊢
      · split at scanned
        · contradiction
        · simp only [Except.ok.injEq, Prod.mk.injEq] at scanned
          exact ⟨by rw [← scanned.1, ← scanned.2], scanned.1 ▸ .scalar trivial⟩
      · split at scanned
        · contradiction
        · split_ifs at scanned ⊢
          · exact hooked_strict strict (by simp) scanned
          · split at scanned
            · contradiction
            · rename_i found after isFound
              obtain ⟨alsoFound, distinct⟩ := members isFound
              simp only [alsoFound]
              exact hooked_strict strict distinct scanned
      · split at scanned
        · contradiction
        · split_ifs at scanned ⊢
          · simp only [Except.ok.injEq, Prod.mk.injEq] at scanned
            exact ⟨by rw [← scanned.1, ← scanned.2], scanned.1 ▸ .list (by simp)⟩
          · split at scanned
            · contradiction
            · rename_i found after isFound
              obtain ⟨alsoFound, distinct⟩ := items isFound
              simp only [Except.ok.injEq, Prod.mk.injEq] at scanned
              simp only [alsoFound]
              exact ⟨by rw [← scanned.1, ← scanned.2], scanned.1 ▸ .list distinct⟩
      · exact scanLiteral_strict strict scanned

theorem scanItems_strict
    (once : ReadsAlso (scanOnce floats hooks depth)
      (scanOnce floats (.pairs parseConstant) depth) Value.DistinctKeys)
    (items : ReadsAlso (scanItems floats hooks depth)
      (scanItems floats (.pairs parseConstant) depth)
      fun items => ∀ item ∈ items, item.DistinctKeys) :
    ReadsAlso (scanItems floats hooks (depth + 1))
      (scanItems floats (.pairs parseConstant) (depth + 1))
      fun items => ∀ item ∈ items, item.DistinctKeys := by
  intro text value rest scanned
  unfold scanItems at scanned ⊢
  split at scanned
  · contradiction
  · rename_i item after isItem
    obtain ⟨alsoItem, distinctItem⟩ := once isItem
    simp only [alsoItem]
    split at scanned
    · contradiction
    · split_ifs at scanned ⊢
      · simp only [Except.ok.injEq, Prod.mk.injEq] at scanned
        obtain ⟨rfl, rfl⟩ := scanned
        exact ⟨rfl, by simpa using distinctItem⟩
      · split at scanned
        · contradiction
        · rename_i others last isOthers
          obtain ⟨alsoOthers, distinctOthers⟩ := items isOthers
          simp only [Except.ok.injEq, Prod.mk.injEq] at scanned
          obtain ⟨rfl, rfl⟩ := scanned
          simp only [alsoOthers]
          exact ⟨trivial, List.forall_mem_cons.mpr ⟨distinctItem, distinctOthers⟩⟩

theorem scanMembers_strict
    (once : ReadsAlso (scanOnce floats hooks depth)
      (scanOnce floats (.pairs parseConstant) depth) Value.DistinctKeys)
    (members : ReadsAlso (scanMembers floats hooks depth)
      (scanMembers floats (.pairs parseConstant) depth)
      fun members => ∀ member ∈ members, member.2.DistinctKeys) :
    ReadsAlso (scanMembers floats hooks (depth + 1))
      (scanMembers floats (.pairs parseConstant) (depth + 1))
      fun members => ∀ member ∈ members, member.2.DistinctKeys := by
  intro text value rest scanned
  cases text with
  | nil => simp [scanMembers] at scanned
  | cons quote text =>
      unfold scanMembers at scanned ⊢
      split_ifs at scanned ⊢
      split at scanned
      · contradiction
      · split at scanned
        · contradiction
        · split_ifs at scanned ⊢
          split at scanned
          · contradiction
          · rename_i content after isContent
            obtain ⟨alsoContent, distinctContent⟩ := once isContent
            simp only [alsoContent]
            split at scanned
            · contradiction
            · split_ifs at scanned ⊢
              · simp only [Except.ok.injEq, Prod.mk.injEq] at scanned
                obtain ⟨rfl, rfl⟩ := scanned
                exact ⟨rfl, by simpa using distinctContent⟩
              · split at scanned
                · contradiction
                · rename_i others last isOthers
                  obtain ⟨alsoOthers, distinctOthers⟩ := members isOthers
                  simp only [Except.ok.injEq, Prod.mk.injEq] at scanned
                  obtain ⟨rfl, rfl⟩ := scanned
                  simp only [alsoOthers]
                  exact ⟨trivial, List.forall_mem_cons.mpr ⟨distinctContent, distinctOthers⟩⟩

/-- Each of the three procedures reads with strict hooks only what it reads without
hooks, and only distinct keys. -/
theorem scan_strict (strict : hooks.Strict) (depth : Nat) :
    ReadsAlso (scanOnce floats hooks depth) (scanOnce floats (.pairs parseConstant) depth)
      Value.DistinctKeys ∧
    ReadsAlso (scanItems floats hooks depth) (scanItems floats (.pairs parseConstant) depth)
      (fun items => ∀ item ∈ items, item.DistinctKeys) ∧
    ReadsAlso (scanMembers floats hooks depth) (scanMembers floats (.pairs parseConstant) depth)
      fun members => ∀ member ∈ members, member.2.DistinctKeys := by
  induction depth with
  | zero =>
      refine ⟨?_, ?_, ?_⟩
      all_goals
        intro text value rest scanned
        simp [scanOnce, scanItems, scanMembers] at scanned
  | succ depth inductionHypothesis =>
      obtain ⟨once, items, members⟩ := inductionHypothesis
      exact ⟨scanOnce_strict strict items members, scanItems_strict once items,
        scanMembers_strict once members⟩

/-- A text that is read with strict hooks repeats no key in any object. -/
theorem loadsWithin_strict
    (strict : hooks.Strict)
    (parseConstant : Str → Option Value)
    {limit : Nat}
    {text : Str}
    {value : Value}
    (loaded : loadsWithin floats hooks limit text = .ok value) :
    loadsWithin floats (.pairs parseConstant) limit text = .ok value ∧ value.DistinctKeys := by
  unfold loadsWithin at loaded ⊢
  split_ifs at loaded ⊢
  split at loaded
  · contradiction
  · rename_i found rest isFound
    obtain ⟨alsoFound, distinct⟩ := (scan_strict strict limit).1 isFound
    rw [alsoFound]
    split at loaded
    · rename_i noRest
      obtain rfl := Except.ok.inj loaded
      simp only [noRest]
      exact ⟨trivial, distinct⟩
    · contradiction

end Strict

end Json
end SigmaForge
