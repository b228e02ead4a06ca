import SigmaForge.Foundation.Json.Compare

/-!
# Values that are alike

Two values are alike if they have the same parts, lists by position and objects by
key, and related scalars at the same places.  Equality up to key order and `==` of
Python are instances.
-/

namespace SigmaForge
namespace Json

open Text

namespace Value

/-- The same parts, with related scalars. -/
inductive Alike (related : Scalar → Scalar → Prop) : Value → Value → Prop
  | scalar {left right : Scalar} :
      related left right → Alike related (.scalar left) (.scalar right)
  | list {lefts rights : List Value} :
      lefts.length = rights.length →
      (∀ (position : Nat) left right, lefts[position]? = some left →
        rights[position]? = some right → Alike related left right) →
      Alike related (.list lefts) (.list rights)
  | object {lefts rights : List Member} :
      (∀ key, (lookup key lefts).isSome = (lookup key rights).isSome) →
      (∀ key left right, lookup key lefts = some left → lookup key rights = some right →
        Alike related left right) →
      Alike related (.object lefts) (.object rights)

/-- Related scalars at some place that both values have. -/
inductive Somewhere (related : Scalar → Scalar → Prop) : Value → Value → Prop
  | scalar {left right : Scalar} :
      related left right → Somewhere related (.scalar left) (.scalar right)
  | list {lefts rights : List Value} {left right : Value} (position : Nat) :
      lefts[position]? = some left → rights[position]? = some right →
      Somewhere related left right → Somewhere related (.list lefts) (.list rights)
  | object {lefts rights : List Member} {left right : Value} (key : Str) :
      lookup key lefts = some left → lookup key rights = some right →
      Somewhere related left right → Somewhere related (.object lefts) (.object rights)

section Relations

variable
    {related related' : Scalar → Scalar → Prop}
    {left right : Value}

theorem Alike.mono
    (alike : Alike related left right)
    (implies : ∀ first second, related first second → related' first second) :
    Alike related' left right := by
  induction alike with
  | scalar holds => exact .scalar (implies _ _ holds)
  | list sameLength _ inductionHypothesis => exact .list sameLength inductionHypothesis
  | object sameKeys _ inductionHypothesis => exact .object sameKeys inductionHypothesis

theorem Somewhere.mono
    (somewhere : Somewhere related left right)
    (implies : ∀ first second, related first second → related' first second) :
    Somewhere related' left right := by
  induction somewhere with
  | scalar holds => exact .scalar (implies _ _ holds)
  | list position isLeft isRight _ inductionHypothesis =>
      exact .list position isLeft isRight inductionHypothesis
  | object key isLeft isRight _ inductionHypothesis =>
      exact .object key isLeft isRight inductionHypothesis

theorem Alike.symm
    (alike : Alike related left right)
    (symmetric : ∀ first second, related first second → related' second first) :
    Alike related' right left := by
  induction alike with
  | scalar holds => exact .scalar (symmetric _ _ holds)
  | list sameLength _ inductionHypothesis =>
      exact .list sameLength.symm fun position left right isLeft isRight =>
        inductionHypothesis position right left isRight isLeft
  | object sameKeys _ inductionHypothesis =>
      exact .object (fun key => (sameKeys key).symm) fun key left right isLeft isRight =>
        inductionHypothesis key right left isRight isLeft

/-- Values that are alike to equal ones. -/
theorem Alike.of_equal
    {equal : Value}
    (alike : Alike (· = ·) equal left)
    (others : Alike related left right) :
    Alike related equal right := by
  induction others generalizing equal with
  | scalar holds =>
      cases alike with
      | scalar same => exact .scalar (same ▸ holds)
  | @list lefts rights sameLength _ inductionHypothesis =>
      cases alike with
      | @list equals _ sameLength' parts =>
          refine .list (sameLength'.trans sameLength) fun position value right isValue isRight => ?_
          have isPosition : position < lefts.length := by
            rw [← sameLength']
            exact (List.getElem?_eq_some_iff.mp isValue).1
          have isLeft := List.getElem?_eq_getElem isPosition
          exact inductionHypothesis position _ right isLeft isRight
            (parts position value _ isValue isLeft)
  | @object lefts rights sameKeys _ inductionHypothesis =>
      cases alike with
      | @object equals _ sameKeys' parts =>
          refine .object (fun key => (sameKeys' key).trans (sameKeys key)) ?_
          intro key value right isValue isRight
          have isThere := sameKeys' key
          rw [isValue] at isThere
          obtain ⟨left, isLeft⟩ := Option.isSome_iff_exists.mp isThere.symm
          exact inductionHypothesis key left right isLeft isRight
            (parts key value left isValue isLeft)

/-- Values that are alike are alike in another way as well, or there is a place
where they are not. -/
theorem Alike.iff_not_somewhere (alike : Alike related left right) :
    Alike related' left right ↔
      ¬Somewhere (fun first second => ¬related' first second) left right := by
  constructor
  · intro alike' somewhere
    induction somewhere with
    | scalar fails =>
        cases alike' with
        | scalar holds => exact fails holds
    | list position isLeft isRight _ inductionHypothesis =>
        cases alike with
        | list _ parts =>
            cases alike' with
            | list _ parts' =>
                exact inductionHypothesis (parts _ _ _ isLeft isRight)
                  (parts' _ _ _ isLeft isRight)
    | object key isLeft isRight _ inductionHypothesis =>
        cases alike with
        | object _ parts =>
            cases alike' with
            | object _ parts' =>
                exact inductionHypothesis (parts _ _ _ isLeft isRight)
                  (parts' _ _ _ isLeft isRight)
  · intro nowhere
    induction alike with
    | scalar _ =>
        refine .scalar (Classical.byContradiction fun fails => ?_)
        exact nowhere (.scalar fails)
    | list sameLength _ inductionHypothesis =>
        refine .list sameLength fun position left right isLeft isRight => ?_
        exact inductionHypothesis position left right isLeft isRight fun somewhere =>
          nowhere (.list position isLeft isRight somewhere)
    | object sameKeys _ inductionHypothesis =>
        refine .object sameKeys fun key left right isLeft isRight => ?_
        exact inductionHypothesis key left right isLeft isRight fun somewhere =>
          nowhere (.object key isLeft isRight somewhere)

/-- Where scalars are related at all places, they are at each. -/
theorem Alike.and_somewhere
    (alike : Alike related left right)
    (somewhere : Somewhere related' left right) :
    Somewhere (fun first second => related first second ∧ related' first second) left right := by
  induction somewhere with
  | scalar holds' =>
      cases alike with
      | scalar holds => exact .scalar ⟨holds, holds'⟩
  | list position isLeft isRight _ inductionHypothesis =>
      cases alike with
      | list _ parts =>
          exact .list position isLeft isRight (inductionHypothesis (parts _ _ _ isLeft isRight))
  | object key isLeft isRight _ inductionHypothesis =>
      cases alike with
      | object _ parts =>
          exact .object key isLeft isRight (inductionHypothesis (parts _ _ _ isLeft isRight))

theorem rel_iff_rel
    {α : Type}
    {first second : α → α → Prop}
    {left right : Option α}
    (same : ∀ value value', left = some value → right = some value' →
      (first value value' ↔ second value value')) :
    Option.Rel first left right ↔ Option.Rel second left right := by
  cases left with
  | none => cases right <;> simp
  | some value =>
      cases right with
      | none => simp
      | some value' => simpa using same value value' rfl rfl

theorem isSome_eq_of_rel
    {α : Type}
    {relation : α → α → Prop}
    {left right : Option α}
    (related : Option.Rel relation left right) :
    left.isSome = right.isSome := by
  cases related <;> rfl

/-- Objects are alike exactly when their members are. -/
theorem alike_object_iff {lefts rights : List Member} :
    Alike related (.object lefts) (.object rights) ↔
      ∀ key, Option.Rel (Alike related) (lookup key lefts) (lookup key rights) := by
  constructor
  · rintro (_ | _ | ⟨sameKeys, alike⟩) key
    have sameKey := sameKeys key
    cases isLeft : lookup key lefts with
    | none =>
        rw [isLeft] at sameKey
        cases isRight : lookup key rights with
        | none => exact .none
        | some right => simp [isRight] at sameKey
    | some left =>
        rw [isLeft] at sameKey
        obtain ⟨right, isRight⟩ := Option.isSome_iff_exists.mp sameKey.symm
        rw [isRight]
        exact .some (alike key left right isLeft isRight)
  · intro members
    refine .object (fun key => isSome_eq_of_rel (members key)) ?_
    intro key left right isLeft isRight
    have member := members key
    rw [isLeft, isRight, Option.rel_some_some] at member
    exact member

end Relations

/-! ## Equality up to key order -/

section Same

/-- Members with the same keys and equal values are permuted. -/
theorem perm_of_lookup
    {α : Type}
    {lefts rights : List (Str × α)}
    (distinct : (lefts.map Prod.fst).Nodup)
    (distinct' : (rights.map Prod.fst).Nodup)
    (same : ∀ key, lookup key lefts = lookup key rights) :
    lefts.Perm rights := by
  rw [List.perm_ext_iff_of_nodup (List.Nodup.of_map _ distinct) (List.Nodup.of_map _ distinct')]
  rintro ⟨key, value⟩
  rw [← lookup_eq_some_iff distinct, ← lookup_eq_some_iff distinct', same]

/-- Sorted members are equal exactly when they are found under the same keys. -/
theorem sortByKey_eq_iff
    {α : Type}
    {lefts rights : List (Str × α)}
    (distinct : (lefts.map Prod.fst).Nodup)
    (distinct' : (rights.map Prod.fst).Nodup) :
    sortByKey lefts = sortByKey rights ↔ ∀ key, lookup key lefts = lookup key rights := by
  constructor
  · intro sameOrder key
    have permuted : lefts.Perm rights :=
      (sortByKey_perm lefts).symm.trans (sameOrder ▸ sortByKey_perm rights)
    exact lookup_perm distinct permuted key
  · intro same
    exact sortByKey_eq_of_perm distinct (perm_of_lookup distinct distinct' same)

/-- Objects are the same up to key order exactly when their members are. -/
theorem same_object_iff
    {lefts rights : List Member}
    (distinct : (lefts.map Prod.fst).Nodup)
    (distinct' : (rights.map Prod.fst).Nodup) :
    (Value.object lefts).Same (.object rights) ↔
      ∀ key, Option.Rel Same (lookup key lefts) (lookup key rights) := by
  unfold Same
  rw [sortKeys_object, sortKeys_object, Value.object.injEq,
    sortByKey_eq_iff (by rwa [keys_map]) (by rwa [keys_map])]
  apply forall_congr'
  intro key
  rw [lookup_map sortKeys, lookup_map sortKeys]
  cases lookup key lefts <;> cases lookup key rights <;> simp

/-- Values are the same up to key order exactly when they are alike with equal
scalars. -/
theorem same_iff_alike
    {left right : Value}
    (distinct : left.DistinctKeys)
    (distinct' : right.DistinctKeys) :
    left.Same right ↔ Alike (· = ·) left right := by
  unfold Same
  induction distinct generalizing right with
  | @scalar value _ =>
      cases distinct' with
      | @scalar value' _ =>
          rw [sortKeys_scalar, sortKeys_scalar, Value.scalar.injEq]
          constructor
          · exact fun equal => .scalar equal
          · rintro (equal | _ | _)
            exact equal
      | list _ => exact ⟨fun equal => by simp at equal, fun alike => nomatch alike⟩
      | object _ _ => exact ⟨fun equal => by simp at equal, fun alike => nomatch alike⟩
  | @list lefts _ inductionHypothesis =>
      cases distinct' with
      | scalar _ => exact ⟨fun equal => by simp at equal, fun alike => nomatch alike⟩
      | object _ _ => exact ⟨fun equal => by simp at equal, fun alike => nomatch alike⟩
      | @list rights parts =>
          have atPosition : ∀ (position : Nat) left right, lefts[position]? = some left →
              rights[position]? = some right →
              (left.sortKeys = right.sortKeys ↔ Alike (· = ·) left right) :=
            fun position left right isLeft isRight =>
              inductionHypothesis left (List.mem_of_getElem? isLeft)
                (parts right (List.mem_of_getElem? isRight))
          rw [sortKeys_list, sortKeys_list, Value.list.injEq]
          constructor
          · intro equal
            refine .list (by simpa using congrArg List.length equal) ?_
            intro position left right isLeft isRight
            rw [← atPosition position left right isLeft isRight]
            have atEqual := congrArg (·[position]?) equal
            simpa [isLeft, isRight] using atEqual
          · rintro (_ | ⟨sameLength, alike⟩ | _)
            apply List.ext_getElem?
            intro position
            rw [List.getElem?_map, List.getElem?_map]
            cases isLeft : lefts[position]? with
            | none =>
                rw [List.getElem?_eq_none_iff, sameLength, ← List.getElem?_eq_none_iff] at isLeft
                rw [isLeft]
            | some left =>
                have isPosition : position < rights.length := by
                  rw [← sameLength]
                  exact (List.getElem?_eq_some_iff.mp isLeft).1
                have isRight := List.getElem?_eq_getElem isPosition
                rw [isRight, Option.map_some, Option.map_some,
                  (atPosition position left _ isLeft isRight).mpr
                    (alike position left _ isLeft isRight)]
  | @object lefts keys _ inductionHypothesis =>
      cases distinct' with
      | scalar _ => exact ⟨fun equal => by simp at equal, fun alike => nomatch alike⟩
      | list _ => exact ⟨fun equal => by simp at equal, fun alike => nomatch alike⟩
      | @object rights keys' parts =>
          have atKey : ∀ key left right, lookup key lefts = some left →
              lookup key rights = some right →
              (left.sortKeys = right.sortKeys ↔ Alike (· = ·) left right) :=
            fun key left right isLeft isRight =>
              inductionHypothesis _ ((lookup_eq_some_iff keys).mp isLeft)
                (parts _ ((lookup_eq_some_iff keys').mp isRight))
          refine (same_object_iff keys keys').trans ?_
          rw [alike_object_iff]
          exact forall_congr' fun key => rel_iff_rel (atKey key)

end Same

/-! ## Equality of Python -/

section PyEq

theorem pyEqItems_iff {lefts rights : List Value} :
    pyEqItems lefts rights = true ↔ lefts.length = rights.length ∧
      ∀ (position : Nat) left right, lefts[position]? = some left →
        rights[position]? = some right → pyEq left right = true := by
  induction lefts generalizing rights with
  | nil =>
      cases rights with
      | nil => simp [pyEqItems]
      | cons right rights => simp [pyEqItems]
  | cons left lefts inductionHypothesis =>
      cases rights with
      | nil => simp [pyEqItems]
      | cons right rights =>
          rw [pyEqItems, Bool.and_eq_true, inductionHypothesis]
          constructor
          · rintro ⟨first, sameLength, others⟩
            refine ⟨by simp [sameLength], fun position => ?_⟩
            cases position with
            | zero =>
                rintro _ _ ⟨⟩ ⟨⟩
                exact first
            | succ position => exact others position
          · rintro ⟨sameLength, each⟩
            exact ⟨each 0 left right rfl rfl, by simpa using sameLength,
              fun position => each (position + 1)⟩

theorem pyEqMembers_iff {lefts rights : List Member} :
    pyEqMembers lefts rights = true ↔ ∀ member ∈ lefts, ∃ right,
      lookup member.1 rights = some right ∧ pyEq member.2 right = true := by
  induction lefts with
  | nil => simp [pyEqMembers]
  | cons member lefts inductionHypothesis =>
      obtain ⟨key, left⟩ := member
      rw [pyEqMembers, Bool.and_eq_true, inductionHypothesis, List.forall_mem_cons]
      apply and_congr_left
      intro _
      cases lookup key rights <;> simp

theorem isSome_lookup_iff
    {α : Type}
    {key : Str}
    {members : List (Str × α)} :
    (lookup key members).isSome = true ↔ key ∈ members.map Prod.fst := by
  rw [← not_iff_not, Bool.not_eq_true, Option.isSome_eq_false_iff, Option.isNone_iff_eq_none,
    lookup_eq_none_iff]

/-- Dictionaries with as many members, all of whose keys are shared, have the same
keys. -/
theorem sameKeys_of_pyEqMembers
    {lefts rights : List Member}
    (distinct : (lefts.map Prod.fst).Nodup)
    (sameLength : lefts.length = rights.length)
    (equal : pyEqMembers lefts rights = true)
    (key : Str) :
    (lookup key lefts).isSome = (lookup key rights).isSome := by
  have included : lefts.map Prod.fst ⊆ rights.map Prod.fst := by
    intro name isName
    obtain ⟨member, isMember, rfl⟩ := List.mem_map.mp isName
    obtain ⟨right, isRight, _⟩ := pyEqMembers_iff.mp equal member isMember
    by_contra absent
    rw [← lookup_eq_none_iff, isRight] at absent
    contradiction
  have permuted : (lefts.map Prod.fst).Perm (rights.map Prod.fst) :=
    (List.subperm_of_subset distinct included).perm_of_length_le (by simp [sameLength])
  rw [Bool.eq_iff_iff, isSome_lookup_iff, isSome_lookup_iff, permuted.mem_iff]

/-- Dictionaries are equal exactly when their members are. -/
theorem pyEq_object_iff
    {lefts rights : List Member}
    (distinct : (lefts.map Prod.fst).Nodup)
    (distinct' : (rights.map Prod.fst).Nodup) :
    pyEq (.object lefts) (.object rights) = true ↔
      ∀ key, Option.Rel (fun left right => pyEq left right = true) (lookup key lefts)
        (lookup key rights) := by
  rw [pyEq, Bool.and_eq_true, beq_iff_eq]
  constructor
  · rintro ⟨sameLength, equal⟩ key
    have sameKey := sameKeys_of_pyEqMembers distinct sameLength equal key
    cases isLeft : lookup key lefts with
    | none =>
        rw [isLeft] at sameKey
        rw [Option.isSome_eq_false_iff.mp sameKey.symm |> Option.isNone_iff_eq_none.mp]
        exact .none
    | some left =>
        obtain ⟨right, isRight, isEqual⟩ :=
          pyEqMembers_iff.mp equal _ ((lookup_eq_some_iff distinct).mp isLeft)
        rw [isRight]
        exact .some isEqual
  · intro members
    have sameKeys : ∀ key, (lookup key lefts).isSome = (lookup key rights).isSome :=
      fun key => isSome_eq_of_rel (members key)
    have permuted : (lefts.map Prod.fst).Perm (rights.map Prod.fst) := by
      rw [List.perm_ext_iff_of_nodup distinct distinct']
      intro key
      rw [← not_iff_not, ← lookup_eq_none_iff, ← lookup_eq_none_iff,
        ← Option.isNone_iff_eq_none, ← Option.isNone_iff_eq_none,
        ← Option.isSome_eq_false_iff, ← Option.isSome_eq_false_iff, sameKeys]
    refine ⟨by simpa using permuted.length_eq, ?_⟩
    rw [pyEqMembers_iff]
    intro member isMember
    have related := members member.1
    rw [(lookup_eq_some_iff distinct).mpr isMember] at related
    cases isRight : lookup member.1 rights with
    | none =>
        rw [isRight] at related
        contradiction
    | some right =>
        rw [isRight, Option.rel_some_some] at related
        exact ⟨right, rfl, related⟩

/-- Two values are equal for Python exactly when they are alike with equal
scalars. -/
theorem pyEq_iff_alike
    {left right : Value}
    (distinct : left.DistinctKeys)
    (distinct' : right.DistinctKeys) :
    pyEq left right = true ↔ Alike (fun first second => first.pyEq second = true) left right := by
  induction distinct generalizing right with
  | @scalar value _ =>
      cases distinct' with
      | @scalar value' _ =>
          rw [pyEq]
          constructor
          · exact fun equal => .scalar equal
          · rintro (equal | _ | _)
            exact equal
      | list _ => exact ⟨fun equal => by simp [pyEq] at equal, fun alike => nomatch alike⟩
      | object _ _ => exact ⟨fun equal => by simp [pyEq] at equal, fun alike => nomatch alike⟩
  | @list lefts _ inductionHypothesis =>
      cases distinct' with
      | scalar _ => exact ⟨fun equal => by simp [pyEq] at equal, fun alike => nomatch alike⟩
      | object _ _ => exact ⟨fun equal => by simp [pyEq] at equal, fun alike => nomatch alike⟩
      | @list rights parts =>
          have atPosition : ∀ (position : Nat) left right, lefts[position]? = some left →
              rights[position]? = some right →
              (pyEq left right = true ↔
                Alike (fun first second => first.pyEq second = true) left right) :=
            fun position left right isLeft isRight =>
              inductionHypothesis left (List.mem_of_getElem? isLeft)
                (parts right (List.mem_of_getElem? isRight))
          rw [pyEq, pyEqItems_iff]
          constructor
          · rintro ⟨sameLength, equal⟩
            exact .list sameLength fun position left right isLeft isRight =>
              (atPosition position left right isLeft isRight).mp
                (equal position left right isLeft isRight)
          · rintro (_ | ⟨sameLength, alike⟩ | _)
            exact ⟨sameLength, fun position left right isLeft isRight =>
              (atPosition position left right isLeft isRight).mpr
                (alike position left right isLeft isRight)⟩
  | @object lefts keys _ inductionHypothesis =>
      cases distinct' with
      | scalar _ => exact ⟨fun equal => by simp [pyEq] at equal, fun alike => nomatch alike⟩
      | list _ => exact ⟨fun equal => by simp [pyEq] at equal, fun alike => nomatch alike⟩
      | @object rights keys' parts =>
          have atKey : ∀ key left right, lookup key lefts = some left →
              lookup key rights = some right →
              (pyEq left right = true ↔
                Alike (fun first second => first.pyEq second = true) left right) :=
            fun key left right isLeft isRight =>
              inductionHypothesis _ ((lookup_eq_some_iff keys).mp isLeft)
                (parts _ ((lookup_eq_some_iff keys').mp isRight))
          rw [pyEq_object_iff keys keys', alike_object_iff]
          exact forall_congr' fun key => rel_iff_rel (atKey key)

theorem Scalar.pyEq_symm
    {left right : Scalar}
    (equal : left.pyEq right = true) :
    right.pyEq left = true := by
  unfold Scalar.pyEq at equal ⊢
  generalize left.number = first at equal ⊢
  generalize right.number = second at equal ⊢
  cases first with
  | none =>
      cases second with
      | none =>
          rw [beq_iff_eq] at equal ⊢
          exact equal.symm
      | some number => simp at equal
  | some number =>
      cases second with
      | none => cases number <;> simp at equal
      | some other =>
          cases number with
          | nan => simp at equal
          | finite scaled =>
              obtain rfl : Number.finite scaled = other := by simpa using equal
              simp
          | infinite negative =>
              obtain rfl : Number.infinite negative = other := by simpa using equal
              simp

/-- A dictionary that is equal to a value is so in any order of its keys, and from
either side. -/
theorem pyEq_of_sorted
    {left right : Value}
    (distinct : left.DistinctKeys)
    (distinct' : right.DistinctKeys)
    (equal : pyEq right left.sortKeys = true) :
    pyEq left right = true := by
  have sorted : left.sortKeys.DistinctKeys :=
    distinct.sortKeys fun _ _ permuted => permuted.nodup_iff.mp
  have isSame : Alike (· = ·) left left.sortKeys :=
    (same_iff_alike distinct sorted).mp (sortKeys_idempotent distinct).symm
  rw [pyEq_iff_alike distinct' sorted] at equal
  rw [pyEq_iff_alike distinct distinct']
  exact isSame.of_equal (equal.symm fun _ _ => Scalar.pyEq_symm)

end PyEq

end Value

/-! ## Where the two equalities differ -/

/-- Equal scalars, and numbers of equal value. -/
def Scalar.EqualValue (left right : Scalar) : Prop :=
  left = right ∨ ∃ number, left.number = some number ∧ right.number = some number

/-- Numbers of equal value that are written differently: of different types, or
zeros of different signs. -/
def Scalar.Retyped (left right : Scalar) : Prop :=
  left ≠ right ∧ ∃ number, left.number = some number ∧ right.number = some number

/-- Any scalar but `NaN`. -/
def Scalar.IsComparable (scalar : Scalar) : Prop := scalar.number ≠ some .nan

theorem Scalar.pyEq_iff_equalValue
    {left right : Scalar}
    (comparable : left.IsComparable) :
    left.pyEq right = true ↔ left.EqualValue right := by
  unfold Scalar.pyEq Scalar.EqualValue
  unfold Scalar.IsComparable at comparable
  cases isLeft : left.number with
  | none =>
      cases isRight : right.number with
      | none => simp
      | some number =>
          simp only [Bool.false_eq_true, reduceCtorEq, false_and, exists_false, or_false, false_iff]
          rintro rfl
          rw [isLeft] at isRight
          contradiction
  | some number =>
      rw [isLeft] at comparable
      cases isRight : right.number with
      | none =>
          have different : left ≠ right := by
            rintro rfl
            rw [isLeft] at isRight
            contradiction
          cases number <;> simp_all
      | some other =>
          have sameNumber : left = right → number = other := by
            rintro rfl
            exact Option.some.inj (isLeft.symm.trans isRight)
          cases number with
          | nan => contradiction
          | finite scaled => 
              simp only [beq_iff_eq, Option.some.injEq, exists_eq_left']
              constructor
              · exact fun equal => .inr equal.symm
              · rintro (equal | equal)
                · exact sameNumber equal
                · exact equal.symm
          | infinite negative =>
              simp only [beq_iff_eq, Option.some.injEq, exists_eq_left']
              constructor
              · exact fun equal => .inr equal.symm
              · rintro (equal | equal)
                · exact sameNumber equal
                · exact equal.symm

namespace Value

/-- No scalar of the value is `NaN`. -/
abbrev Comparable : Value → Prop := Each Scalar.IsComparable List.Nodup

/-- The values agree at every place, but for numbers that are written
differently. -/
def OnlyRetyped (left right : Value) : Prop :=
  Alike Scalar.EqualValue left right ∧ Somewhere Scalar.Retyped left right

theorem Comparable.distinct {value : Value} (comparable : value.Comparable) :
    value.DistinctKeys :=
  comparable.mono (fun _ _ => trivial) fun _ holds => holds

/-- What is related to equal scalars is comparable. -/
theorem Alike.with_comparable
    {related : Scalar → Scalar → Prop}
    {left right : Value}
    (comparable : left.Comparable)
    (alike : Alike related left right) :
    Alike (fun first second => first.IsComparable ∧ related first second) left right := by
  induction alike with
  | scalar holds =>
      cases comparable with
      | scalar isComparable => exact .scalar ⟨isComparable, holds⟩
  | list sameLength _ inductionHypothesis =>
      cases comparable with
      | list parts =>
          exact .list sameLength fun position left right isLeft isRight =>
            inductionHypothesis position left right isLeft isRight
              (parts left (List.mem_of_getElem? isLeft))
  | object sameKeys _ inductionHypothesis =>
      cases comparable with
      | object keys parts =>
          exact .object sameKeys fun key left right isLeft isRight =>
            inductionHypothesis key left right isLeft isRight
              (parts _ ((lookup_eq_some_iff keys).mp isLeft))

theorem pyEq_iff_equalValue
    {left right : Value}
    (comparable : left.Comparable)
    (distinct : right.DistinctKeys) :
    pyEq left right = true ↔ Alike Scalar.EqualValue left right := by
  rw [pyEq_iff_alike comparable.distinct distinct]
  constructor
  · intro alike
    exact (alike.with_comparable comparable).mono fun _ _ holds =>
      (Scalar.pyEq_iff_equalValue holds.1).mp holds.2
  · intro alike
    exact (alike.with_comparable comparable).mono fun _ _ holds =>
      (Scalar.pyEq_iff_equalValue holds.1).mpr holds.2

/-- Values that are the same are equal for Python. -/
theorem pyEq_of_same
    {left right : Value}
    (comparable : left.Comparable)
    (distinct : right.DistinctKeys)
    (same : left.Same right) :
    pyEq left right = true := by
  rw [pyEq_iff_equalValue comparable distinct]
  exact ((same_iff_alike comparable.distinct distinct).mp same).mono fun _ _ equal => .inl equal

/-- Values that are equal for Python and not the same differ in how numbers are
written, and in nothing else. -/
theorem onlyRetyped_iff
    {left right : Value}
    (comparable : left.Comparable)
    (distinct : right.DistinctKeys) :
    OnlyRetyped left right ↔ pyEq left right = true ∧ ¬left.Same right := by
  rw [pyEq_iff_equalValue comparable distinct, same_iff_alike comparable.distinct distinct]
  apply and_congr_right
  intro alike
  rw [alike.iff_not_somewhere, not_not]
  constructor
  · exact fun somewhere => somewhere.mono fun _ _ retyped => retyped.1
  · intro somewhere
    refine (alike.and_somewhere somewhere).mono fun first second holds => ⟨holds.2, ?_⟩
    exact holds.1.resolve_left holds.2

/-- No scalar of the value is a number. -/
abbrev Numberless : Value → Prop := Each (fun scalar => scalar.number = none) List.Nodup

theorem Numberless.not_onlyRetyped
    {left right : Value}
    (numberless : left.Numberless) :
    ¬OnlyRetyped left right := by
  intro onlyRetyped
  have somewhere := onlyRetyped.2
  clear onlyRetyped
  induction somewhere with
  | scalar retyped =>
      obtain ⟨_, _, isNumber, _⟩ := retyped
      cases numberless with
      | scalar noNumber =>
          rw [noNumber] at isNumber
          contradiction
  | list position isLeft _ _ inductionHypothesis =>
      cases numberless with
      | list parts => exact inductionHypothesis (parts _ (List.mem_of_getElem? isLeft))
  | object key isLeft _ _ inductionHypothesis =>
      cases numberless with
      | object keys parts =>
          exact inductionHypothesis (parts _ ((lookup_eq_some_iff keys).mp isLeft))

/-- Without numbers, the two equalities are the same. -/
theorem Numberless.pyEq_iff_same
    {left right : Value}
    (numberless : left.Numberless)
    (distinct : right.DistinctKeys) :
    pyEq left right = true ↔ left.Same right := by
  have comparable : left.Comparable := by
    refine numberless.mono (fun scalar noNumber => ?_) fun _ keys => keys
    simp [Scalar.IsComparable, noNumber]
  have exactly := onlyRetyped_iff comparable distinct
  constructor
  · intro isEqual
    by_contra changed
    exact numberless.not_onlyRetyped (exactly.mpr ⟨isEqual, changed⟩)
  · exact pyEq_of_same comparable distinct

end Value

end Json
end SigmaForge
