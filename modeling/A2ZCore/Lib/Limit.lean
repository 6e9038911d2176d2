import A2ZCore.Lib.Paging

/-!
# A limit on what is read

A query that reads the first rows of a listing, and no more than a number of them, before it looks which
of these pass a filter. What it gives out are the first rows that pass only where it did not matter that
the limit came first: nothing behind the rows that were read passes, or all that were read do.

## Main definitions

* `Top` — the greatest rows

## Main results

* `top_filter_take_iff` — when the rows that pass, among those read, are the greatest that pass
* `take_filter_perm_iff` — when the first rows that pass one filter are those that pass another
-/

namespace Paging

variable {α β : Type} [LinearOrder β] {key : α → β} {rows order : List α}

/-- The greatest `n` of the rows, greatest first. -/
def Top (key : α → β) (rows : List α) (n : ℕ) (result : List α) : Prop :=
  ∃ order, Listing key rows order ∧ result = order.take n

theorem Listing.filter (h : Listing key rows order) (p : α → Bool) :
    Listing key (rows.filter p) (order.filter p) where
  perm := h.perm.filter p
  sorted := h.sorted.filter p

theorem filter_take_append (p : α → Bool) (order : List α) (k : ℕ) :
    (order.take k).filter p ++ (order.drop k).filter p = order.filter p := by
  rw [← List.filter_append, List.take_append_drop]

/-- **The rows that pass, among the first `k`, are the greatest that pass**, exactly when none of those
not read passes, or those read are `n` and all pass. -/
theorem top_filter_take_iff (h : Listing key rows order) (p : α → Bool) {n k : ℕ} (hk : k ≤ n) :
    Top key (rows.filter p) n ((order.take k).filter p) ↔
      (∀ a ∈ order.drop k, p a = false) ∨
        (order.take k).length = n ∧ ∀ a ∈ order.take k, p a = true := by
  have happend := filter_take_append p order k
  have hread : (order.take k).length ≤ k := List.length_take_le k order
  have hpass : ((order.take k).filter p).length ≤ (order.take k).length := List.length_filter_le _ _
  constructor
  · rintro ⟨s, hs, heq⟩
    have hcount : s.length = ((order.take k).filter p).length + ((order.drop k).filter p).length := by
      rw [hs.perm.length_eq, ← (h.filter p).perm.length_eq, ← happend, List.length_append]
    have hlen := congrArg List.length heq
    rw [List.length_take] at hlen
    by_cases hfew : s.length ≤ n
    · left
      have hnone : ((order.drop k).filter p).length = 0 := by omega
      intro a ha
      by_contra hpa
      have hmem := List.mem_filter.mpr ⟨ha, by simpa using hpa⟩
      rw [List.length_eq_zero_iff.mp hnone] at hmem
      cases hmem
    · right
      have hfull : (order.take k).length = n := by omega
      refine ⟨hfull, fun a ha => ?_⟩
      have hall : ((order.take k).filter p).length = (order.take k).length := by omega
      exact List.length_filter_eq_length_iff.mp hall a ha
  · rintro (hnone | ⟨hfull, hall⟩)
    · have hrest : (order.drop k).filter p = [] :=
        List.filter_eq_nil_iff.mpr fun a ha => by simp [hnone a ha]
      rw [hrest, List.append_nil] at happend
      refine ⟨order.filter p, h.filter p, ?_⟩
      rw [happend, List.take_of_length_le (by rw [← happend]; omega)]
    · refine ⟨order.filter p, h.filter p, ?_⟩
      have hsame : (order.take k).filter p = order.take k := List.filter_eq_self.mpr hall
      rw [← happend, hsame, List.take_append_of_le_length hfull.ge, List.take_of_length_le hfull.le]

/-- **The first `k` rows that pass `q` are the rows that pass `p`**, exactly when no more than `k` pass
`p`, each of them passes `q`, and each of the first `k` that pass `q` passes `p`. -/
theorem take_filter_perm_iff (h : order.Perm rows) (p q : α → Bool) (k : ℕ) :
    ((order.filter q).take k).Perm (rows.filter p) ↔
      (∀ a ∈ rows, p a = true → q a = true) ∧ (∀ a ∈ (order.filter q).take k, p a = true) ∧
        (rows.filter p).length ≤ k := by
  constructor
  · intro hperm
    refine ⟨fun a ha hpa => ?_, fun a ha => ?_, ?_⟩
    · have hmem := hperm.mem_iff.mpr (List.mem_filter.mpr ⟨ha, hpa⟩)
      exact (List.mem_filter.mp (List.mem_of_mem_take hmem)).2
    · exact (List.mem_filter.mp (hperm.mem_iff.mp ha)).2
    · rw [← hperm.length_eq]
      exact List.length_take_le k _
  · rintro ⟨himp, hall, hlen⟩
    have hfilter : (order.filter q).filter p = order.filter p := by
      rw [List.filter_filter]
      refine List.filter_congr fun a ha => ?_
      have hqa := himp a (h.mem_iff.mp ha)
      cases hpa : p a
      · rfl
      · rw [hqa hpa]
        rfl
    have happend := filter_take_append p (order.filter q) k
    have hsame : ((order.filter q).take k).filter p = (order.filter q).take k :=
      List.filter_eq_self.mpr hall
    rw [hsame, hfilter] at happend
    -- What is left behind passes `q`, so that it would be too many.
    have hrest : ((order.filter q).drop k).filter p = [] := by
      by_cases hfew : (order.filter q).length ≤ k
      · rw [List.drop_of_length_le hfew]
        rfl
      · have hcount := congrArg List.length happend
        rw [List.length_append, List.length_take, (h.filter p).length_eq] at hcount
        exact List.length_eq_zero_iff.mp (by omega)
    rw [hrest, List.append_nil] at happend
    rw [happend]
    exact h.filter p

end Paging
