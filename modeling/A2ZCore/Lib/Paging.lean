import Mathlib

/-!
# Pages by offset

A listing is read page by page, each page by a query of its own: the rows in the order of a key,
greatest first, without the first `k * limit`, and `limit` of them at most. The key need not tell all
rows apart, and each query may have its ties in another order. So each page comes from a listing of its
own, and all that the listings share is the rows and the order of the keys.

The pages together are the rows, each once, whatever listings they come from, when no boundary between
two pages falls inside a group of rows with one key. `walk_perm_iff` says that this is also necessary.

## Main definitions

* `Listing` — an order the rows may come in
* `page`, `walk` — a page, and the pages one after the other
* `Aligned` — no boundary falls inside a group

## Main results

* `Listing.eq_split` — a listing around a key
* `walk_perm_iff` — the pages of any listings are the rows, exactly when these are aligned
-/

namespace Paging

variable {α β : Type} [LinearOrder β] {key : α → β} {rows : List α} {limit : ℕ}

/-- An order the rows may come in: greatest key first. -/
structure Listing (key : α → β) (rows order : List α) : Prop where
  perm : order.Perm rows
  sorted : order.Pairwise fun a b => key b ≤ key a

/-- Page `k` of a listing. -/
def page (limit : ℕ) (order : List α) (k : ℕ) : List α := (order.drop (k * limit)).take limit

/-- The first `m` pages, each from a listing of its own. -/
def walk (limit : ℕ) (orders : ℕ → List α) (m : ℕ) : List α :=
  (List.range m).flatMap fun k => page limit (orders k) k

/-- How many rows come before those with the key `t`, and how many have it. -/
def newer (key : α → β) (rows : List α) (t : β) : ℕ := rows.countP fun a => decide (t < key a)

@[inherit_doc newer]
def tied (key : α → β) (rows : List α) (t : β) : ℕ := rows.countP fun a => decide (key a = t)

/-- No boundary between two pages falls inside a group of rows with one key. -/
def Aligned (key : α → β) (limit : ℕ) (rows : List α) : Prop :=
  ∀ k t, ¬ (newer key rows t < k * limit ∧ k * limit < newer key rows t + tied key rows t)

theorem newer_add_tied_le (key : α → β) (rows : List α) (t : β) :
    newer key rows t + tied key rows t ≤ rows.length := by
  unfold newer tied
  induction rows with
  | nil => simp
  | cons a rows ih =>
    rw [List.countP_cons, List.countP_cons, List.length_cons]
    by_cases hgt : t < key a
    · simp [hgt, hgt.ne']
      omega
    · by_cases heq : key a = t
      · simp [heq]
        omega
      · simp [hgt, heq]
        omega

/-- Rows that fit on one page are aligned. -/
theorem aligned_of_length_le (h : rows.length ≤ limit) : Aligned key limit rows := by
  rintro k t ⟨hnewer, hinside⟩
  have hle := newer_add_tied_le key rows t
  rcases Nat.eq_zero_or_pos k with rfl | hk
  · omega
  · have : limit ≤ k * limit := Nat.le_mul_of_pos_left limit hk
    omega

/-! ### A listing around a key -/

/-- What is sorted falls into the rows before a key, those with it, and those behind it. -/
theorem split_of_sorted {order : List α} (h : order.Pairwise fun a b => key b ≤ key a) (t : β) :
    order = order.filter (fun a => decide (t < key a)) ++
      (order.filter (fun a => decide (key a = t)) ++ order.filter fun a => decide (key a < t)) := by
  induction order with
  | nil => rfl
  | cons a order ih =>
    rw [List.pairwise_cons] at h
    have hrest := ih h.2
    rcases lt_trichotomy (key a) t with hlt | heq | hgt
    · have hbehind : ∀ b ∈ order, key b < t := fun b hb => lt_of_le_of_lt (h.1 b hb) hlt
      have hnone : order.filter (fun b => decide (t < key b)) = [] := by
        rw [List.filter_eq_nil_iff]
        intro b hb
        simpa using (hbehind b hb).le
      have hnot : order.filter (fun b => decide (key b = t)) = [] := by
        rw [List.filter_eq_nil_iff]
        intro b hb
        simpa using (hbehind b hb).ne
      rw [hnone, hnot] at hrest
      simp only [List.filter_cons, decide_eq_true_eq, hlt, hlt.ne, not_lt.mpr hlt.le, if_true,
        if_false, hnone, hnot, List.nil_append]
      rw [← List.nil_append (order.filter _), ← List.nil_append ([] ++ order.filter _), ← hrest]
    · have hnone : order.filter (fun b => decide (t < key b)) = [] := by
        rw [List.filter_eq_nil_iff]
        intro b hb
        simpa [heq] using h.1 b hb
      rw [hnone] at hrest
      simp only [List.filter_cons, decide_eq_true_eq, heq, lt_irrefl, if_true, if_false, hnone,
        List.nil_append, List.cons_append]
      rw [← List.nil_append (order.filter _ ++ order.filter _), ← hrest]
    · simp only [List.filter_cons, decide_eq_true_eq, hgt, hgt.ne', not_lt.mpr hgt.le, if_true,
        if_false, List.cons_append]
      rw [← hrest]

namespace Listing

variable {order : List α}

theorem eq_split (h : Listing key rows order) (t : β) :
    ∃ before group behind, order = before ++ (group ++ behind) ∧
      before.length = newer key rows t ∧ group.length = tied key rows t ∧
      before.Perm (rows.filter fun a => decide (t < key a)) ∧
      (∀ a ∈ before, t < key a) ∧ (∀ a ∈ group, key a = t) ∧ ∀ a ∈ behind, key a < t := by
  refine ⟨_, _, _, split_of_sorted h.sorted t, ?_, ?_, h.perm.filter _, ?_, ?_, ?_⟩
  · rw [newer, List.countP_eq_length_filter]
    exact (h.perm.filter _).length_eq
  · rw [tied, List.countP_eq_length_filter]
    exact (h.perm.filter _).length_eq
  · intro a ha
    simpa using (List.mem_filter.mp ha).2
  · intro a ha
    simpa using (List.mem_filter.mp ha).2
  · intro a ha
    simpa using (List.mem_filter.mp ha).2

/-- The rows before a boundary between two pages, where rows are aligned. -/
theorem take_perm (h : Listing key rows order) (ha : Aligned key limit rows) {order' : List α}
    (h' : Listing key rows order') (k : ℕ) :
    (order.take (k * limit)).Perm (order'.take (k * limit)) := by
  have hlen : order.length = order'.length := h.perm.length_eq.trans h'.perm.length_eq.symm
  by_cases hlt : k * limit < order.length
  · -- the row behind the boundary
    obtain ⟨a, hget⟩ : ∃ a, order[k * limit]? = some a := ⟨_, List.getElem?_eq_getElem hlt⟩
    obtain ⟨before, group, behind, heq, hbefore, hgroup, hperm, hnewer, _, hbehind⟩ :=
      h.eq_split (key a)
    obtain ⟨before', _, _, heq', hbefore', _, hperm', _⟩ := h'.eq_split (key a)
    rw [heq] at hget
    have hle : before.length ≤ k * limit := by
      by_contra hgt
      rw [List.getElem?_append_left (by omega)] at hget
      exact absurd (hnewer a (List.mem_of_getElem? hget)) (lt_irrefl _)
    have hinside : k * limit < before.length + group.length := by
      by_contra hge
      rw [List.getElem?_append_right (by omega), List.getElem?_append_right (by omega)] at hget
      exact absurd (hbehind a (List.mem_of_getElem? hget)) (lt_irrefl _)
    have haligned := ha k (key a)
    have hboundary : k * limit = before.length := by omega
    have hboundary' : k * limit = before'.length := by omega
    have htake : order.take (k * limit) = before := by
      rw [hboundary, heq, List.take_left]
    have htake' : order'.take (k * limit) = before' := by
      rw [hboundary', heq', List.take_left]
    rw [htake, htake']
    exact hperm.trans hperm'.symm
  · rw [List.take_of_length_le (by omega), List.take_of_length_le (by omega)]
    exact h.perm.trans h'.perm.symm

/-- A boundary inside a group stands between two rows of it. -/
theorem exists_inside (h : Listing key rows order) {b : ℕ} {t : β} (hnewer : newer key rows t < b)
    (hinside : b < newer key rows t + tied key rows t) :
    ∃ u x y v, order = u ++ x :: y :: v ∧ u.length + 1 = b ∧ key x = key y := by
  obtain ⟨before, group, behind, heq, hbefore, hgroup, _, _, hkey, _⟩ := h.eq_split t
  obtain ⟨i, hi⟩ : ∃ i, b = before.length + (i + 1) := ⟨b - before.length - 1, by omega⟩
  have hsplit : ∃ x y, group = group.take i ++ x :: y :: group.drop (i + 2) := by
    have hfirst : i < group.length := by omega
    have hsecond : i + 1 < group.length := by omega
    refine ⟨group[i], group[i + 1], ?_⟩
    rw [← List.drop_eq_getElem_cons, ← List.drop_eq_getElem_cons, List.take_append_drop]
  obtain ⟨x, y, hxy⟩ := hsplit
  refine ⟨before ++ group.take i, x, y, group.drop (i + 2) ++ behind, ?_, ?_, ?_⟩
  · rw [heq]
    nth_rewrite 1 [hxy]
    simp
  · simp
    omega
  · rw [hkey x (by rw [hxy]; simp), hkey y (by rw [hxy]; simp)]

/-- Two rows with one key may change places. -/
theorem swap {u v : List α} {x y : α} (h : Listing key rows (u ++ x :: y :: v))
    (hkey : key x = key y) : Listing key rows (u ++ y :: x :: v) where
  perm := ((List.Perm.swap x y v).append_left u).trans h.perm
  sorted := by
    have hsorted := h.sorted
    simp only [List.pairwise_append, List.pairwise_cons, List.mem_cons, forall_eq_or_imp] at hsorted ⊢
    obtain ⟨hu, ⟨⟨hxy, hx⟩, hy, hv⟩, huv⟩ := hsorted
    refine ⟨hu, ⟨⟨hkey.le, hy⟩, hx, hv⟩, fun a ha => ?_⟩
    obtain ⟨hax, hay, hrest⟩ := huv a ha
    exact ⟨hay, hax, hrest⟩

end Listing

/-! ### The pages together -/

/-- The page behind a boundary. -/
theorem page_of_boundary (hlimit : 0 < limit) {u v : List α} {x y : α} {k : ℕ}
    (hu : u.length + 1 = k * limit) :
    page limit (u ++ x :: y :: v) k = [y] ++ v.take (limit - 1) := by
  obtain ⟨l, rfl⟩ : ∃ l, limit = l + 1 := ⟨limit - 1, by omega⟩
  rw [page, ← hu, List.drop_append, List.drop_of_length_le (by omega)]
  simp

theorem walk_succ (limit : ℕ) (orders : ℕ → List α) (m : ℕ) :
    walk limit orders (m + 1) = walk limit orders m ++ page limit (orders m) m := by
  simp [walk, List.range_succ]

theorem take_succ (limit : ℕ) (order : List α) (k : ℕ) :
    order.take ((k + 1) * limit) = order.take (k * limit) ++ page limit order k := by
  rw [Nat.succ_mul, List.take_add, page]

/-- The first pages are the first rows, in some order. -/
theorem walk_perm_take {orders : ℕ → List α} (ha : Aligned key limit rows)
    (horders : ∀ k, Listing key rows (orders k)) {order : List α} (h : Listing key rows order)
    (m : ℕ) : (walk limit orders m).Perm (order.take (m * limit)) := by
  induction m generalizing order with
  | zero => simp [walk]
  | succ m ih =>
    rw [walk_succ]
    refine ((ih (horders m)).append_right _).trans ?_
    rw [← take_succ]
    exact (horders m).take_perm ha h (m + 1)

/-- A walk with another listing for one page. -/
theorem walk_update (orders : ℕ → List α) (order : List α) {k m : ℕ} (hk : k < m) :
    ∃ before behind, walk limit orders m = before ++ (page limit (orders k) k ++ behind) ∧
      walk limit (Function.update orders k order) m = before ++ (page limit order k ++ behind) := by
  induction m with
  | zero => omega
  | succ m ih =>
    rw [walk_succ, walk_succ]
    by_cases hlast : k = m
    · subst hlast
      have hsame : walk limit (Function.update orders k order) k = walk limit orders k := by
        refine List.flatMap_congr fun j hj => ?_
        rw [Function.update_of_ne (by simp at hj; omega)]
      exact ⟨walk limit orders k, [], by simp, by simp [hsame]⟩
    · obtain ⟨before, behind, h₁, h₂⟩ := ih (by omega)
      refine ⟨before, behind ++ page limit (orders m) m, by rw [h₁]; simp, ?_⟩
      rw [h₂, Function.update_of_ne (by omega)]
      simp

/-- **The pages of any listings are the rows, each once, exactly when the rows are aligned.** -/
theorem walk_perm_iff (hlimit : 0 < limit) {m : ℕ} (hm : rows.length ≤ m * limit)
    (hnodup : rows.Nodup) {order : List α} (horder : Listing key rows order) :
    (∀ orders : ℕ → List α, (∀ k, Listing key rows (orders k)) →
        (walk limit orders m).Perm rows) ↔ Aligned key limit rows := by
  constructor
  · intro hall k t ⟨hnewer, hinside⟩
    obtain ⟨u, x, y, v, heq, hu, hkey⟩ := horder.exists_inside hnewer hinside
    subst heq
    have hkm : k < m := by
      have hlen := horder.perm.length_eq
      simp only [List.length_append, List.length_cons] at hlen
      by_contra hge
      have : m * limit ≤ k * limit := Nat.mul_le_mul_right limit (not_lt.mp hge)
      omega
    have hsame := hall (fun _ => u ++ x :: y :: v) fun _ => horder
    have hswap := hall (Function.update (fun _ => u ++ x :: y :: v) k (u ++ y :: x :: v)) fun j => by
      by_cases hj : j = k
      · rw [hj, Function.update_self]
        exact horder.swap hkey
      · rw [Function.update_of_ne hj]
        exact horder
    obtain ⟨before, behind, hwalk, hwalk'⟩ :=
      walk_update (fun _ => u ++ x :: y :: v) (u ++ y :: x :: v) hkm
    rw [hwalk] at hsame
    rw [hwalk'] at hswap
    have hpages := (List.perm_append_right_iff _).mp
      ((List.perm_append_left_iff before).mp (hsame.trans hswap.symm))
    rw [page_of_boundary hlimit hu, page_of_boundary hlimit hu] at hpages
    have hxy : y = x := List.singleton_perm_singleton.mp
      ((List.perm_append_right_iff (v.take (limit - 1))).mp hpages)
    have hnodup' := horder.perm.nodup_iff.mpr hnodup
    rw [hxy, List.nodup_append] at hnodup'
    exact (List.nodup_cons.mp hnodup'.2.1).1 (by simp)
  · intro ha orders horders
    refine (walk_perm_take ha horders horder m).trans ?_
    rw [List.take_of_length_le (by rw [horder.perm.length_eq]; exact hm)]
    exact horder.perm

end Paging
