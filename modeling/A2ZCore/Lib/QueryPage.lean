import Mathlib

/-!
# A page by size

A read that returns the first items of a listing, as many as fit into a number of bytes, and leaves the
rest to the next read. What a caller makes of the one page is what it would make of the listing where
nothing that it looks for is among the rest.

## Main definitions

* `page`, `rest` — the items that are returned, and those that are not

## Main results

* `filter_page` — what a filter leaves of a page
-/

namespace QueryPage

variable {α : Type} (size : α → ℕ)

/-- How many of the items fit into `budget` bytes. -/
def fitting : ℕ → List α → ℕ
  | _, [] => 0
  | budget, a :: as => if size a ≤ budget then 1 + fitting (budget - size a) as else 0

/-- The items that are returned. -/
def page (budget : ℕ) (items : List α) : List α := items.take (fitting size budget items)

/-- The items that are left. -/
def rest (budget : ℕ) (items : List α) : List α := items.drop (fitting size budget items)

variable {size} {budget : ℕ} {items : List α}

theorem page_append_rest (size : α → ℕ) (budget : ℕ) (items : List α) :
    page size budget items ++ rest size budget items = items :=
  List.take_append_drop _ _

theorem fitting_eq_length (h : (items.map size).sum ≤ budget) :
    fitting size budget items = items.length := by
  induction items generalizing budget with
  | nil => rfl
  | cons a as ih =>
    rw [List.map_cons, List.sum_cons] at h
    rw [fitting, if_pos (by omega), ih (by omega), List.length_cons, Nat.add_comm]

/-- Items that fit together are all returned. -/
theorem rest_eq_nil (h : (items.map size).sum ≤ budget) : rest size budget items = [] := by
  rw [rest, fitting_eq_length h, List.drop_length]

/-- Where nothing that passes is left, the page has everything that passes. -/
theorem filter_page {p : α → Bool} (h : ∀ a ∈ rest size budget items, p a = false) :
    (page size budget items).filter p = items.filter p := by
  have hrest : (rest size budget items).filter p = [] :=
    List.filter_eq_nil_iff.mpr fun a ha => by simp [h a ha]
  conv_rhs => rw [← page_append_rest size budget items, List.filter_append, hrest, List.append_nil]

end QueryPage
