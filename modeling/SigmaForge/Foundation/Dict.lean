import SigmaForge.Foundation.Json.Value

/-!
# Dictionaries that keep their order

What the assignment of an item does to a sequence of keys and values.  A `dict` has every
key once; the headers of a message may repeat one.
-/

namespace SigmaForge
namespace Dict

open Text
open Json.Value (lookup)

variable {α : Type}

/-- `items[key] = value`: the first occurrence of the key is replaced, and others are
dropped; a new key comes last. -/
def setItem (key : Str) (value : α) : List (Str × α) → List (Str × α)
  | [] => [(key, value)]
  | (name, old) :: items =>
      if name = key then (key, value) :: items.filter fun item => item.1 ≠ key
      else (name, old) :: setItem key value items

/-- `items.update(others)`. -/
def update (items others : List (Str × α)) : List (Str × α) :=
  others.foldl (fun items item => setItem item.1 item.2 items) items

/-- `items.getlist(key)`. -/
def getlist (key : Str) (items : List (Str × α)) : List α :=
  (items.filter fun item => item.1 = key).map Prod.snd

/-! ## One assignment -/

theorem lookup_filter_ne
    {key other : Str}
    (different : other ≠ key)
    (items : List (Str × α)) :
    lookup other (items.filter fun item => item.1 ≠ key) = lookup other items := by
  induction items with
  | nil => rfl
  | cons item items inductionHypothesis =>
      cases item with
      | mk name value =>
          by_cases isKey : name = key
          · have notOther : ¬(name = other) := fun equal => different (equal.symm.trans isKey)
            rw [List.filter_cons_of_neg (by simpa using isKey), lookup, if_neg notOther,
              inductionHypothesis]
          · rw [List.filter_cons_of_pos (by simpa using isKey), lookup, lookup,
              inductionHypothesis]

@[simp] theorem lookup_setItem_self (key : Str) (value : α) (items : List (Str × α)) :
    lookup key (setItem key value items) = some value := by
  induction items with
  | nil => simp [setItem, lookup]
  | cons item items inductionHypothesis =>
      by_cases isKey : item.1 = key
      · simp [setItem, lookup, isKey]
      · simp [setItem, lookup, isKey, inductionHypothesis]

/-- The other keys keep their values. -/
theorem lookup_setItem_of_ne
    {key other : Str}
    (different : other ≠ key)
    (value : α)
    (items : List (Str × α)) :
    lookup other (setItem key value items) = lookup other items := by
  have notOther : ¬(key = other) := fun equal => different equal.symm
  induction items with
  | nil => simp [setItem, lookup, notOther]
  | cons item items inductionHypothesis =>
      cases item with
      | mk name old =>
          by_cases isKey : name = key
          · rw [setItem, if_pos isKey, lookup, if_neg notOther, lookup_filter_ne different,
              lookup, isKey, if_neg notOther]
          · rw [setItem, if_neg isKey, lookup, lookup, inductionHypothesis]

/-- The key occurs once afterwards. -/
theorem getlist_setItem_self (key : Str) (value : α) (items : List (Str × α)) :
    getlist key (setItem key value items) = [value] := by
  induction items with
  | nil => simp [setItem, getlist]
  | cons item items inductionHypothesis =>
      rw [getlist] at inductionHypothesis
      by_cases isKey : item.1 = key
      · simp [setItem, getlist, isKey, List.filter_filter]
      · simp [setItem, getlist, isKey, inductionHypothesis]

/-- Another key has the values that it had. -/
theorem getlist_setItem_of_ne
    {key other : Str}
    (different : other ≠ key)
    (value : α)
    (items : List (Str × α)) :
    getlist other (setItem key value items) = getlist other items := by
  have notOther : ¬(key = other) := fun equal => different equal.symm
  induction items with
  | nil => simp [setItem, getlist, notOther]
  | cons item items inductionHypothesis =>
      rw [getlist, getlist] at inductionHypothesis
      by_cases isKey : item.1 = key
      · have others : (items.filter fun item => item.1 ≠ key).filter (fun item => item.1 = other) =
            items.filter fun item => item.1 = other := by
          rw [List.filter_filter]
          apply List.filter_congr
          intro item _
          by_cases isOther : item.1 = other
          · simp [isOther, different]
          · simp [isOther]
        rw [setItem, if_pos isKey, getlist, getlist,
          List.filter_cons_of_neg (by simpa using notOther),
          others, List.filter_cons_of_neg (by simpa [isKey] using notOther)]
      · simp only [setItem, isKey, if_false, getlist, List.filter_cons]
        split <;> simp [inductionHypothesis]

theorem mem_setItem
    {key : Str}
    {value : α}
    {items : List (Str × α)}
    {item : Str × α}
    (isMember : item ∈ setItem key value items) :
    item = (key, value) ∨ item ∈ items := by
  induction items with
  | nil => exact .inl (List.mem_singleton.mp isMember)
  | cons first items inductionHypothesis =>
      unfold setItem at isMember
      split at isMember
      · cases List.mem_cons.mp isMember with
        | inl isNew => exact .inl isNew
        | inr isOld => exact .inr (List.mem_cons_of_mem _ (List.mem_of_mem_filter isOld))
      · cases List.mem_cons.mp isMember with
        | inl isFirst => exact .inr (isFirst ▸ List.mem_cons_self)
        | inr isLater => exact (inductionHypothesis isLater).imp id (List.mem_cons_of_mem _)

/-- Distinct keys stay distinct. -/
theorem nodup_setItem
    {items : List (Str × α)}
    (distinct : (items.map Prod.fst).Nodup)
    (key : Str)
    (value : α) :
    ((setItem key value items).map Prod.fst).Nodup := by
  induction items with
  | nil => simp [setItem]
  | cons first items inductionHypothesis =>
      rw [List.map_cons, List.nodup_cons] at distinct
      unfold setItem
      split
      · rw [List.map_cons, List.nodup_cons]
        constructor
        · intro isLater
          obtain ⟨item, isItem, isKey⟩ := List.mem_map.mp isLater
          exact (of_decide_eq_true (List.mem_filter.mp isItem).2) isKey
        · exact distinct.2.sublist (List.filter_sublist.map _)
      · rename_i isOther
        rw [List.map_cons, List.nodup_cons]
        refine ⟨fun isLater => ?_, inductionHypothesis distinct.2⟩
        obtain ⟨item, isItem, isKey⟩ := List.mem_map.mp isLater
        cases mem_setItem isItem with
        | inl isNew => exact isOther (isKey ▸ congrArg Prod.fst isNew)
        | inr isOld => exact distinct.1 (isKey ▸ List.mem_map_of_mem isOld)

/-! ## Updates -/

theorem update_cons (items : List (Str × α)) (item : Str × α) (others : List (Str × α)) :
    update items (item :: others) = update (setItem item.1 item.2 items) others := rfl

theorem mem_update
    {items others : List (Str × α)}
    {item : Str × α}
    (isMember : item ∈ update items others) :
    item ∈ items ∨ item ∈ others := by
  induction others generalizing items with
  | nil => exact .inl isMember
  | cons other others inductionHypothesis =>
      cases inductionHypothesis isMember with
      | inl isEarlier =>
          cases mem_setItem isEarlier with
          | inl isNew => exact .inr (isNew ▸ List.mem_cons_self)
          | inr isOld => exact .inl isOld
      | inr isLater => exact .inr (List.mem_cons_of_mem _ isLater)

theorem nodup_update
    {items : List (Str × α)}
    (distinct : (items.map Prod.fst).Nodup)
    (others : List (Str × α)) :
    ((update items others).map Prod.fst).Nodup := by
  induction others generalizing items with
  | nil => exact distinct
  | cons other others inductionHypothesis =>
      exact inductionHypothesis (nodup_setItem distinct _ _)

/-- An update leaves the keys that it does not have. -/
theorem lookup_update_of_not_mem
    {key : Str}
    {others : List (Str × α)}
    (absent : key ∉ others.map Prod.fst)
    (items : List (Str × α)) :
    lookup key (update items others) = lookup key items := by
  induction others generalizing items with
  | nil => rfl
  | cons other others inductionHypothesis =>
      rw [List.map_cons, List.mem_cons, not_or] at absent
      rw [update_cons, inductionHypothesis absent.2, lookup_setItem_of_ne absent.1]

/-- The keys of an update have its values. -/
theorem lookup_update
    {others : List (Str × α)}
    (distinct : (others.map Prod.fst).Nodup)
    (items : List (Str × α))
    (key : Str) :
    lookup key (update items others) = (lookup key others).or (lookup key items) := by
  induction others generalizing items with
  | nil => simp [update, lookup]
  | cons other others inductionHypothesis =>
      rw [List.map_cons, List.nodup_cons] at distinct
      rw [update_cons, inductionHypothesis distinct.2]
      by_cases isKey : other.1 = key
      · have absent : lookup key others = none :=
          Json.Value.lookup_eq_none_iff.mpr (isKey ▸ distinct.1)
        simp [lookup, isKey, absent]
      · rw [lookup_setItem_of_ne fun equal => isKey equal.symm]
        simp [lookup, isKey]

end Dict
end SigmaForge
