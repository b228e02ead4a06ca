import SigmaForge.Foundation.Text
import Mathlib.Algebra.Group.Int.Defs
import Mathlib.Algebra.Group.Nat.Defs
import Mathlib.Data.List.Sort
import Mathlib.Data.List.Lex
import Mathlib.Order.Fin.Basic

/-!
# JSON values of Python

The values that `json` reads and writes.  Objects keep the order of their
members, as a `dict` does; two values are the same up to key order if they
agree once every object is sorted by key.
-/

namespace SigmaForge
namespace Json

open Text

/-- A Python `float`: the bits of an IEEE 754 double. -/
structure Float64 where
  bits : BitVec 64
  deriving DecidableEq

/-- `math.isfinite`: the exponent field is not all ones. -/
def Float64.isfinite (value : Float64) : Bool :=
  value.bits.toNat / 2 ^ 52 % 2 ^ 11 != 2 ^ 11 - 1

/-- The JSON values without parts.  Python tells `bool`, `int` and `float`
apart. -/
inductive Scalar
  | null
  | bool (value : Bool)
  | int (value : Int)
  | float (value : Float64)
  | str (value : Str)
  deriving DecidableEq

/-- A JSON value. -/
inductive Value
  | scalar (value : Scalar)
  | list (items : List Value)
  | object (members : List (Str × Value))

/-- A key of an object with its value. -/
abbrev Member := Str × Value

namespace Value

/-- Induction over all parts of a value. -/
@[elab_as_elim]
theorem parts_induction
    {motive : Value → Prop}
    (scalar : ∀ value, motive (.scalar value))
    (list : ∀ items, (∀ item ∈ items, motive item) → motive (.list items))
    (object : ∀ members : List Member,
      (∀ member ∈ members, motive member.2) → motive (.object members))
    (value : Value) : motive value := by
  refine Value.rec
    (motive_1 := motive)
    (motive_2 := fun items => ∀ item ∈ items, motive item)
    (motive_3 := fun members => ∀ member ∈ members, motive member.2)
    (motive_4 := fun member => motive member.2)
    scalar list object ?_ ?_ ?_ ?_ ?_ value
  · simp
  · intro head tail headHolds tailHolds item isMember
    rcases List.mem_cons.mp isMember with rfl | inTail
    · exact headHolds
    · exact tailHolds item inTail
  · simp
  · intro head tail headHolds tailHolds member isMember
    rcases List.mem_cons.mp isMember with rfl | inTail
    · exact headHolds
    · exact tailHolds member inTail
  · intro key value valueHolds
    exact valueHolds

/-- Every scalar of a value and the keys of each of its objects satisfy the
given properties. -/
inductive Each (Scalars : Scalar → Prop) (Keys : List Str → Prop) : Value → Prop
  | scalar {value : Scalar} : Scalars value → Each Scalars Keys (.scalar value)
  | list {items : List Value} :
      (∀ item ∈ items, Each Scalars Keys item) → Each Scalars Keys (.list items)
  | object {members : List Member} :
      Keys (members.map Prod.fst) →
      (∀ member ∈ members, Each Scalars Keys member.2) →
      Each Scalars Keys (.object members)

/-- The keys of every object are distinct, as in any `dict`. -/
abbrev DistinctKeys : Value → Prop := Each (fun _ => True) List.Nodup

theorem Each.mono
    {Scalars Scalars' : Scalar → Prop}
    {Keys Keys' : List Str → Prop}
    {value : Value}
    (each : Each Scalars Keys value)
    (scalars : ∀ scalar, Scalars scalar → Scalars' scalar)
    (keys : ∀ names, Keys names → Keys' names) :
    Each Scalars' Keys' value := by
  induction each with
  | scalar holds => exact .scalar (scalars _ holds)
  | list _ inductionHypothesis => exact .list inductionHypothesis
  | object holds _ inductionHypothesis => exact .object (keys _ holds) inductionHypothesis

/-- `dict.get`. -/
def lookup {α : Type} (key : Str) : List (Str × α) → Option α
  | [] => none
  | (name, value) :: members => if name = key then some value else lookup key members

theorem lookup_eq_some_iff
    {α : Type}
    {key : Str}
    {members : List (Str × α)}
    (distinct : (members.map Prod.fst).Nodup)
    {value : α} :
    lookup key members = some value ↔ (key, value) ∈ members := by
  induction members with
  | nil => simp [lookup]
  | cons member members inductionHypothesis =>
      obtain ⟨name, first⟩ := member
      simp only [List.map_cons, List.nodup_cons] at distinct
      by_cases isFirst : name = key
      · subst isFirst
        have absent : (name, value) ∉ members := fun isMember =>
          distinct.1 (List.mem_map.mpr ⟨_, isMember, rfl⟩)
        simp [lookup, absent, eq_comm]
      · have different : ¬(key = name) := fun equal => isFirst equal.symm
        simp [lookup, isFirst, different, inductionHypothesis distinct.2]

theorem lookup_eq_none_iff
    {α : Type}
    {key : Str}
    {members : List (Str × α)} :
    lookup key members = none ↔ key ∉ members.map Prod.fst := by
  induction members with
  | nil => simp [lookup]
  | cons member members inductionHypothesis =>
      obtain ⟨name, first⟩ := member
      by_cases isFirst : name = key
      · simp [lookup, isFirst]
      · have different : ¬(key = name) := fun equal => isFirst equal.symm
        rw [List.map_cons, List.mem_cons, not_or, ← inductionHypothesis]
        simp [lookup, isFirst, different]

/-- A member with the given key is looked up no matter how the members are
ordered. -/
theorem lookup_perm
    {α : Type}
    {members members' : List (Str × α)}
    (distinct : (members.map Prod.fst).Nodup)
    (permuted : members.Perm members')
    (key : Str) :
    lookup key members = lookup key members' := by
  have distinct' : (members'.map Prod.fst).Nodup :=
    (permuted.map Prod.fst).nodup_iff.mp distinct
  apply Option.ext
  intro value
  rw [lookup_eq_some_iff distinct, lookup_eq_some_iff distinct', permuted.mem_iff]

theorem keys_map (members : List Member) (f : Value → Value) :
    (members.map fun member => (member.1, f member.2)).map Prod.fst = members.map Prod.fst := by
  rw [List.map_map]
  rfl

/-- Looking up after changing the values. -/
theorem lookup_map
    {α β : Type}
    (f : α → β)
    (key : Str)
    (members : List (Str × α)) :
    lookup key (members.map fun member => (member.1, f member.2)) =
      (lookup key members).map f := by
  induction members with
  | nil => rfl
  | cons member members inductionHypothesis =>
      obtain ⟨name, first⟩ := member
      by_cases isFirst : name = key
      · simp [lookup, isFirst]
      · simp [lookup, isFirst, inductionHypothesis]

/-! ## Sorting keys -/

/-- Members in the order of `sort_keys`. -/
def sortByKey {α : Type} (members : List (Str × α)) : List (Str × α) :=
  members.insertionSort fun left right => left.1 ≤ right.1

theorem sortByKey_perm {α : Type} (members : List (Str × α)) :
    (sortByKey members).Perm members :=
  List.perm_insertionSort _ members

/-- Sorting looks at the keys only. -/
theorem sortByKey_map
    {α β : Type}
    (f : α → β)
    (members : List (Str × α)) :
    sortByKey (members.map fun member => (member.1, f member.2)) =
      (sortByKey members).map fun member => (member.1, f member.2) := by
  unfold sortByKey
  symm
  apply List.map_insertionSort
  intro left _ right _
  exact Iff.rfl

mutual

/-- Every object of the value sorted by key. -/
def sortKeys : Value → Value
  | .scalar value => .scalar value
  | .list items => .list (sortItems items)
  | .object members => .object (sortByKey (sortMembers members))

/-- `sortKeys` on the items of a list. -/
def sortItems : List Value → List Value
  | [] => []
  | item :: items => item.sortKeys :: sortItems items

/-- `sortKeys` on the values of members. -/
def sortMembers : List Member → List Member
  | [] => []
  | (key, value) :: members => (key, value.sortKeys) :: sortMembers members

end

theorem sortItems_eq_map (items : List Value) : sortItems items = items.map sortKeys := by
  induction items with
  | nil => rfl
  | cons item items inductionHypothesis => simp [sortItems, inductionHypothesis]

theorem sortMembers_eq_map (members : List Member) :
    sortMembers members = members.map fun member => (member.1, member.2.sortKeys) := by
  induction members with
  | nil => rfl
  | cons member members inductionHypothesis =>
      obtain ⟨key, value⟩ := member
      simp [sortMembers, inductionHypothesis]

@[simp] theorem sortKeys_scalar (value : Scalar) :
    (Value.scalar value).sortKeys = .scalar value := by
  simp [sortKeys]

@[simp] theorem sortKeys_list (items : List Value) :
    (Value.list items).sortKeys = .list (items.map sortKeys) := by
  simp [sortKeys, sortItems_eq_map]

@[simp] theorem sortKeys_object (members : List Member) :
    (Value.object members).sortKeys =
      .object (sortByKey (members.map fun member => (member.1, member.2.sortKeys))) := by
  simp [sortKeys, sortMembers_eq_map]

/-- Sorting the keys of a value changes neither its scalars nor its keys. -/
theorem Each.sortKeys
    {Scalars : Scalar → Prop}
    {Keys : List Str → Prop}
    (keysPerm : ∀ names names', names.Perm names' → Keys names → Keys names')
    {value : Value}
    (each : Each Scalars Keys value) :
    Each Scalars Keys value.sortKeys := by
  induction each with
  | scalar holds =>
      rw [sortKeys_scalar]
      exact .scalar holds
  | list _ inductionHypothesis =>
      rw [sortKeys_list]
      refine .list fun item isItem => ?_
      obtain ⟨original, isOriginal, rfl⟩ := List.mem_map.mp isItem
      exact inductionHypothesis original isOriginal
  | @object members holds _ inductionHypothesis =>
      rw [sortKeys_object]
      have permuted := sortByKey_perm
        (members.map fun member => (member.1, member.2.sortKeys))
      refine .object ?_ fun member isMember => ?_
      · refine keysPerm _ _ ((permuted.map Prod.fst).symm) ?_
        rw [List.map_map]
        exact holds
      · obtain ⟨original, isOriginal, rfl⟩ := List.mem_map.mp (permuted.mem_iff.mp isMember)
        exact inductionHypothesis original isOriginal

/-- Equality up to the order of keys at every level, with types told apart. -/
def Same (left right : Value) : Prop := left.sortKeys = right.sortKeys

/-- Sorting by key forgets the order of distinct keys. -/
theorem sortByKey_eq_of_perm
    {α : Type}
    {members members' : List (Str × α)}
    (distinct : (members.map Prod.fst).Nodup)
    (permuted : members.Perm members') :
    sortByKey members = sortByKey members' := by
  have sorted : ∀ list : List (Str × α),
      (sortByKey list).Pairwise fun left right => left.1 ≤ right.1 := by
    intro list
    have total : Std.Total fun left right : Str × α => left.1 ≤ right.1 :=
      ⟨fun left right => le_total left.1 right.1⟩
    have transitive : IsTrans (Str × α) fun left right => left.1 ≤ right.1 :=
      ⟨fun _ _ _ => le_trans⟩
    exact List.pairwise_insertionSort _ list
  have joined : (sortByKey members).Perm (sortByKey members') :=
    ((sortByKey_perm members).trans permuted).trans (sortByKey_perm members').symm
  refine joined.eq_of_pairwise ?_ (sorted members) (sorted members')
  intro left right isLeft isRight below above
  have isLeft' := (sortByKey_perm members).mem_iff.mp isLeft
  have isRight' := permuted.mem_iff.mpr ((sortByKey_perm members').mem_iff.mp isRight)
  exact List.inj_on_of_nodup_map distinct isLeft' isRight' (le_antisymm below above)

/-- Sorting is idempotent on distinct keys. -/
theorem sortKeys_idempotent
    {value : Value}
    (distinct : value.DistinctKeys) :
    value.sortKeys.sortKeys = value.sortKeys := by
  induction distinct with
  | scalar => simp
  | list _ inductionHypothesis =>
      simp only [sortKeys_list, List.map_map, Value.list.injEq]
      exact List.map_congr_left inductionHypothesis
  | @object members holds _ inductionHypothesis =>
      simp only [sortKeys_object, Value.object.injEq]
      have permuted := sortByKey_perm
        (members.map fun member => (member.1, member.2.sortKeys))
      have resorted := permuted.map fun member : Member => (member.1, member.2.sortKeys)
      rw [sortByKey_eq_of_perm ?_ resorted, List.map_map]
      · congr 1
        apply List.map_congr_left
        intro member isMember
        simp [inductionHypothesis member isMember]
      · have names := (resorted.map Prod.fst)
        rw [names.nodup_iff, List.map_map, List.map_map]
        exact holds

/-- Sorting the values of the members first does not change the sorted object. -/
theorem sortKeys_object_map
    {members : List Member}
    (distinct : (Value.object members).DistinctKeys) :
    (Value.object (members.map fun member => (member.1, member.2.sortKeys))).sortKeys =
      (Value.object members).sortKeys := by
  cases distinct with
  | object _ parts =>
      rw [sortKeys_object, sortKeys_object, List.map_map]
      congr 2
      apply List.map_congr_left
      intro member isMember
      simp [sortKeys_idempotent (parts member isMember)]

end Value

end Json
end SigmaForge
