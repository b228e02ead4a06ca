import Mathlib.Data.List.TakeDrop
import Mathlib.Order.Basic

/-!
# Listings by pages

A client reads a listing page by page, as long as it is told that there is more.
-/

namespace SigmaForge

section Paging

variable {α β : Type}

/-- The pages from the given offset on, put together.  A page is answered with its
items, and with whether there are more. -/
inductive Pages (page : Nat → List α → Bool → Prop) (limit : Nat) : Nat → List α → Prop
  | last {offset : Nat} {items : List α} :
      page offset items false → Pages page limit offset items
  | more {offset : Nat} {items rest : List α} :
      page offset items true → Pages page limit (offset + limit) rest →
      Pages page limit offset (items ++ rest)

/-- The pages from the first one on are the given items. -/
def Lists (page : Nat → List α → Bool → Prop) (limit : Nat) (items : List α) : Prop :=
  ∀ items', Pages page limit 0 items' ↔ items' = items

/-- Rows are paged by reading one more than is shown. -/
def PagesRows (rows : List β) (item : β → α) (limit : Nat)
    (page : Nat → List α → Bool → Prop) : Prop :=
  ∀ offset items more, page offset items more ↔
    items = (((rows.drop offset).take (limit + 1)).take limit).map item ∧
      more = decide (((rows.drop offset).take (limit + 1)).length > limit)

variable
    {rows : List β}
    {item : β → α}
    {limit : Nat}
    {page : Nat → List α → Bool → Prop}

/-- The pages together are the rest of the rows. -/
theorem PagesRows.eq
    (pagesRows : PagesRows rows item limit page)
    {offset : Nat}
    {items : List α}
    (pages : Pages page limit offset items) :
    items = (rows.drop offset).map item := by
  induction pages with
  | last isPage =>
      obtain ⟨rfl, isLast⟩ := (pagesRows _ _ _).mp isPage
      rename_i offset
      have short : (rows.drop offset).length ≤ limit := by
        rw [eq_comm, decide_eq_false_iff_not, List.length_take] at isLast
        omega
      rw [List.take_take, List.take_of_length_le (by omega)]
  | more isPage _ inductionHypothesis =>
      obtain ⟨rfl, _⟩ := (pagesRows _ _ _).mp isPage
      rw [inductionHypothesis, ← List.map_append, List.take_take, ← List.drop_drop,
        Nat.min_eq_left (Nat.le_succ limit), List.take_append_drop]

/-- The client comes to the last page. -/
theorem PagesRows.exists
    (pagesRows : PagesRows rows item limit page)
    (positive : 0 < limit)
    (offset : Nat) :
    ∃ items, Pages page limit offset items := by
  by_cases isLong : ((rows.drop offset).take (limit + 1)).length > limit
  · obtain ⟨rest, pages⟩ := pagesRows.exists positive (offset + limit)
    exact ⟨_, .more ((pagesRows _ _ _).mpr ⟨rfl, (decide_eq_true isLong).symm⟩) pages⟩
  · exact ⟨_, .last ((pagesRows _ _ _).mpr ⟨rfl, (decide_eq_false isLong).symm⟩)⟩
termination_by rows.length - offset
decreasing_by
  rw [List.length_take, List.length_drop] at isLong
  omega

/-- All rows are listed. -/
theorem PagesRows.lists
    (pagesRows : PagesRows rows item limit page)
    (positive : 0 < limit) :
    Lists page limit (rows.map item) := by
  intro items
  constructor
  · exact pagesRows.eq
  · rintro rfl
    obtain ⟨items, pages⟩ := pagesRows.exists positive 0
    have isAll : items = rows.map item := pagesRows.eq pages
    rw [← isAll]
    exact pages

/-- A listing is partitioned into pages: the page at an offset is the slice of the rows
from there on, there are more exactly if rows follow it, and a client that steps by the
limit while there are more gets every row once, in order. -/
structure Partitions (rows : List β) (item : β → α) (limit : Nat)
    (page : Nat → List α → Bool → Prop) : Prop where
  slice : ∀ offset items more, page offset items more ↔
    items = ((rows.drop offset).take limit).map item ∧
      (more = true ↔ offset + limit < rows.length)
  steps : Lists page limit (rows.map item)

/-- Reading one row more than is shown partitions the rows. -/
theorem PagesRows.partitions
    (pagesRows : PagesRows rows item limit page)
    (positive : 0 < limit) :
    Partitions rows item limit page where
  slice offset items more := by
    have truncated : ((rows.drop offset).take (limit + 1)).take limit =
        (rows.drop offset).take limit := by
      rw [List.take_take, Nat.min_eq_left (Nat.le_succ limit)]
    have isLonger : ((rows.drop offset).take (limit + 1)).length > limit ↔
        offset + limit < rows.length := by
      rw [List.length_take, List.length_drop]
      omega
    rw [pagesRows, truncated, Bool.eq_iff_iff, decide_eq_true_iff, isLonger]
  steps := pagesRows.lists positive

end Paging

end SigmaForge
