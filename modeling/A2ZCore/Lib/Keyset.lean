import Mathlib

/-!
# Keyset pagination

A list that is read page by page. A page is a query with a limit of one row more than the page has,
and where that row is there, the cursor of the page's last row is handed out, which the next query
continues from. `Walk` is what a reader gets who follows the cursors until there is none.

Where the query with a row's cursor gives what follows the row, the walk gives the list. It is enough
that this holds of the rows that can end a page.

A list may also be written while it is read, so that each page finds other rows. The rows that are
given are still in order then, and none that stays in its place is left out. A reader who puts each
page before those that were read scrolls: nothing changes for the reader where what follows a cursor
stays while it is followed.

## Main definitions

* `cut` — a page of the rows of a query, and the cursor of the next one
* `Walk` — following the cursors to the end
* `sortBy` — the order of the rows
* `Walks` — following the cursors while the rows change
* `Scrolls` — following them, where each page goes before those that were read

## Main results

* `walk_of_suffix` — the walk of a list
* `walk_of_cut` — the walk of a list whose end the queries lose
* `filter_sortBy`, `filter_after` — what a query gives that selects the rows after a key
* `sorted_walks`, `length_filter_walks` — what is given while the rows change
* `exists_walks` — the walk ends once the rows change no more
* `scrolls_query` — what is given by scrolling
-/

namespace Keyset

variable {α γ ε : Type}

/-! ### Pages -/

/-- The first `n` rows, and where there are more, the cursor of the last of them. -/
def cut (key : α → γ) (n : ℕ) (rows : List α) : List α × Option γ :=
  (rows.take n, if n < rows.length then (rows.take n).getLast?.map key else none)

/-- The items that are read from a cursor on, to the last page. -/
inductive Walk (page : Option γ → Except ε (List α × Option γ)) : Option γ → List α → Prop where
  | last {c : Option γ} {items : List α} (h : page c = .ok (items, none)) : Walk page c items
  | next {c : Option γ} {items rest : List α} {c' : γ} (h : page c = .ok (items, some c'))
      (hrest : Walk page (some c') rest) : Walk page c (items ++ rest)

/-- A walk gives one list. -/
theorem Walk.unique {page : Option γ → Except ε (List α × Option γ)} {c : Option γ}
    {items items' : List α} (h : Walk page c items) (h' : Walk page c items') : items = items' := by
  induction h generalizing items' with
  | last h =>
    cases h' with
    | last h' =>
      rw [h] at h'
      cases h'
      rfl
    | next h' =>
      rw [h] at h'
      cases h'
  | next h hrest ih =>
    cases h' with
    | last h' =>
      rw [h] at h'
      cases h'
    | next h' hrest' =>
      rw [h] at h'
      cases h'
      rw [ih hrest']

/-- A list that fills a page, at the row that ends the page. -/
theorem exists_split {n : ℕ} (hn : 0 < n) {rows : List α} (h : n ≤ rows.length) :
    ∃ pre a post, rows = pre ++ a :: post ∧ pre.length + 1 = n := by
  have hlt : n - 1 < rows.length := by omega
  refine ⟨rows.take (n - 1), rows[n - 1], rows.drop n, ?_, ?_⟩
  · have hdrop : rows.drop (n - 1) = rows[n - 1] :: rows.drop n := by
      rw [List.drop_eq_getElem_cons hlt, Nat.sub_add_cancel hn]
    rw [← hdrop, List.take_append_drop]
  · rw [List.length_take]
    omega

/-- The page at whose end the list is split. -/
theorem cut_split (key : α → γ) {pre post : List α} {a : α} (hpost : post ≠ []) :
    cut key (pre.length + 1) (pre ++ a :: post) = (pre ++ [a], some (key a)) := by
  have htake : (pre ++ a :: post).take (pre.length + 1) = pre ++ [a] := by
    rw [List.take_append, List.take_of_length_le (Nat.le_succ _), Nat.add_sub_cancel_left,
      List.take_succ_cons, List.take_zero]
  have hlength : pre.length + 1 < (pre ++ a :: post).length := by
    have hpos := List.length_pos_of_ne_nil hpost
    simp only [List.length_append, List.length_cons]
    omega
  rw [cut, htake, if_pos hlength, List.getLast?_append]
  rfl

/-- A walk whose items are mapped. -/
theorem Walk.map {β : Type} (f : α → β) {page : Option γ → Except ε (List α × Option γ)}
    {c : Option γ} {items : List α} (h : Walk page c items) :
    Walk (fun c => (page c).map fun r => (r.1.map f, r.2)) c (items.map f) := by
  induction h with
  | last h => exact .last (by rw [h]; rfl)
  | next h _ ih =>
    rw [List.map_append]
    exact .next (by rw [h]; rfl) ih

section Queries

variable {page : Option γ → Except ε (List α × Option γ)} {key : α → γ} {n : ℕ}
  (after : α → List α)

variable (key) in
/-- **The walk of a list** where the query with a row's cursor gives the rows after it. -/
theorem walk_of_suffix (hn : 0 < n) (hpage : ∀ a, page (some (key a)) = .ok (cut key n (after a)))
    {c : Option γ} {rows : List α} (hc : page c = .ok (cut key n rows))
    (hnext : ∀ pre a post, rows = pre ++ a :: post → n ≤ pre.length + 1 → after a = post) :
    Walk page c rows := by
  induction hlength : rows.length using Nat.strong_induction_on generalizing rows c with
  | _ k ih =>
    subst hlength
    by_cases hlast : rows.length ≤ n
    · have hcut : cut key n rows = (rows, none) := by
        rw [cut, List.take_of_length_le hlast, if_neg (Nat.not_lt_of_le hlast)]
      exact .last (by rw [hc, hcut])
    · obtain ⟨pre, a, post, rfl, rfl⟩ := exists_split hn (Nat.le_of_not_le hlast)
      have hpost : post ≠ [] := by
        rintro rfl
        exact hlast (by simp)
      rw [List.append_cons]
      have hcut : page c = .ok (pre ++ [a], some (key a)) := by rw [hc, cut_split key hpost]
      refine .next hcut ?_
      have hafter := hnext pre a post rfl (Nat.le_refl _)
      refine ih post.length ?_ (by rw [hpage, hafter]) (fun pre' b post' h _ => ?_) rfl
      · simp only [List.length_append, List.length_cons]
        omega
      · refine hnext (pre ++ a :: pre') b post' (by rw [h]; simp) ?_
        simp only [List.length_append, List.length_cons]
        omega

variable (key) in
/-- The walk of a list, at least a page of which comes before an end that no later query gives. -/
theorem walk_of_cut (hn : 0 < n) (hpage : ∀ a, page (some (key a)) = .ok (cut key n (after a)))
    {c : Option γ} {rows : List α} (lost : List α) (hc : page c = .ok (cut key n (rows ++ lost)))
    (hlost : lost ≠ []) (hlength : n ≤ rows.length)
    (hnext : ∀ pre a post, rows = pre ++ a :: post → n ≤ pre.length + 1 → after a = post) :
    Walk page c rows := by
  obtain ⟨pre, a, rest, rfl, rfl⟩ := exists_split hn hlength
  have hrest : rest ++ lost ≠ [] := fun h => hlost (List.append_eq_nil_iff.mp h).2
  have hsplit : pre ++ a :: rest ++ lost = pre ++ a :: (rest ++ lost) := by
    rw [List.append_assoc, List.cons_append]
  rw [List.append_cons]
  have hcut : page c = .ok (pre ++ [a], some (key a)) := by rw [hc, hsplit, cut_split key hrest]
  refine .next hcut ?_
  have hafter := hnext pre a rest rfl (Nat.le_refl _)
  refine walk_of_suffix key after hn hpage (by rw [hpage, hafter]) fun pre' b post' h _ => ?_
  refine hnext (pre ++ a :: pre') b post' (by rw [h]; simp) ?_
  simp only [List.length_append, List.length_cons]
  omega

end Queries

/-! ### Order -/

section Order

variable {κ : Type} [LinearOrder κ] (key : α → κ)

/-- `ORDER BY` a key. -/
def sortBy (rows : List α) : List α := rows.insertionSort fun a b => key a ≤ key b

variable {key}

instance total_le : Std.Total fun a b : α => key a ≤ key b := ⟨fun a b => le_total (key a) (key b)⟩

instance trans_le : IsTrans α fun a b : α => key a ≤ key b := ⟨fun _ _ _ => le_trans⟩

theorem mem_sortBy {rows : List α} {a : α} : a ∈ sortBy key rows ↔ a ∈ rows :=
  List.mem_insertionSort _

theorem perm_sortBy (rows : List α) : (sortBy key rows).Perm rows := List.perm_insertionSort _ _

/-- Rows with different keys are in strict order. -/
theorem pairwise_sortBy {rows : List α} (h : rows.Pairwise fun a b => key a ≠ key b) :
    (sortBy key rows).Pairwise fun a b => key a < key b := by
  have hne : (sortBy key rows).Pairwise fun a b => key a ≠ key b :=
    (perm_sortBy rows).symm.pairwise h fun h => h.symm
  have hle := List.pairwise_insertionSort (fun a b => key a ≤ key b) rows
  exact (hle.and hne).imp fun h => lt_of_le_of_ne h.1 h.2

/-- Selecting and ordering are interchangeable. -/
theorem filter_sortBy {rows : List α} (h : rows.Pairwise fun a b => key a ≠ key b) (p : α → Bool) :
    sortBy key (rows.filter p) = (sortBy key rows).filter p := by
  have : Std.Irrefl fun a b : α => key a < key b := ⟨fun a => lt_irrefl (key a)⟩
  have : Std.Antisymm fun a b : α => key a < key b := ⟨fun a b h h' => absurd h (lt_asymm h')⟩
  refine List.Pairwise.eq_of_mem_iff (pairwise_sortBy (h.filter p)) ((pairwise_sortBy h).filter p)
    fun a => ?_
  rw [mem_sortBy, List.mem_filter, List.mem_filter, mem_sortBy]

/-- What comes after a row in an ordered list. -/
theorem filter_after {rows pre post : List α} {a : α}
    (h : rows.Pairwise fun a b => key a < key b) (hsplit : rows = pre ++ a :: post) :
    rows.filter (fun b => key a < key b) = post := by
  subst hsplit
  rw [List.pairwise_append, List.pairwise_cons] at h
  obtain ⟨_, ⟨hafter, _⟩, hbefore⟩ := h
  have hpre : pre.filter (fun b => decide (key a < key b)) = [] := by
    refine List.filter_eq_nil_iff.mpr fun b hb => ?_
    simpa using (hbefore b hb a List.mem_cons_self).le
  have hpost : post.filter (fun b => decide (key a < key b)) = post :=
    List.filter_eq_self.mpr fun b hb => by simpa using hafter b hb
  rw [List.filter_append, hpre, List.filter_cons_of_neg (by simp), hpost, List.nil_append]

/-- An ordered list whose rows of one kind come first. -/
theorem filter_append_filter {rows : List α} {r : α → α → Prop} {p : α → Bool}
    (h : rows.Pairwise r) (hp : ∀ a b, r a b → p b = true → p a = true) :
    rows = rows.filter p ++ rows.filter fun a => !p a := by
  induction rows with
  | nil => rfl
  | cons a rows ih =>
    rw [List.pairwise_cons] at h
    cases hpa : p a with
    | true =>
      rw [List.filter_cons_of_pos hpa, List.filter_cons_of_neg (by simp [hpa]), List.cons_append,
        ← ih h.2]
    | false =>
      have hnone : (a :: rows).filter p = [] := by
        refine List.filter_eq_nil_iff.mpr fun b hb hpb => ?_
        rcases List.mem_cons.mp hb with rfl | hb
        · rw [hpa] at hpb
          cases hpb
        · rw [hp a b (h.1 b hb) hpb] at hpa
          cases hpa
      rw [hnone, List.nil_append]
      refine (List.filter_eq_self.mpr fun b hb => ?_).symm
      simpa using List.filter_eq_nil_iff.mp hnone b hb

end Order

/-! ### A list that is written while it is read -/

/-- The pages that are read from a cursor on, to the last page: `page k` is the query that the `k`-th
page is read by, in the state that it finds. -/
inductive Walks (page : ℕ → Option γ → Except ε (List α × Option γ)) :
    ℕ → Option γ → List (List α) → Prop where
  | last {k : ℕ} {c : Option γ} {items : List α} (h : page k c = .ok (items, none)) :
      Walks page k c [items]
  | next {k : ℕ} {c : Option γ} {items : List α} {c' : γ} {rest : List (List α)}
      (h : page k c = .ok (items, some c')) (hrest : Walks page (k + 1) (some c') rest) :
      Walks page k c (items :: rest)

/-- The items that are read from a cursor on, where each page goes before those that were read. -/
inductive Scrolls (page : ℕ → Option γ → Except ε (List α × Option γ)) :
    ℕ → Option γ → List α → Prop where
  | last {k : ℕ} {c : Option γ} {items : List α} (h : page k c = .ok (items, none)) :
      Scrolls page k c items
  | next {k : ℕ} {c : Option γ} {items rest : List α} {c' : γ} (h : page k c = .ok (items, some c'))
      (hrest : Scrolls page (k + 1) (some c') rest) : Scrolls page k c (rest ++ items)

/-- The cursor that a reader has after a page, of those that follow the cursors from the start. -/
inductive Reached (page : ℕ → Option γ → Except ε (List α × Option γ)) : ℕ → γ → Prop where
  | first {items : List α} {c : γ} (h : page 0 none = .ok (items, some c)) : Reached page 0 c
  | next {k : ℕ} {c : γ} {items : List α} {c' : γ} (h : Reached page k c)
      (hpage : page (k + 1) (some c) = .ok (items, some c')) : Reached page (k + 1) c'

/-- Scrolling gives one list. -/
theorem Scrolls.unique {page : ℕ → Option γ → Except ε (List α × Option γ)} {k : ℕ} {c : Option γ}
    {items items' : List α} (h : Scrolls page k c items) (h' : Scrolls page k c items') :
    items = items' := by
  induction h generalizing items' with
  | last h =>
    cases h' with
    | last h' =>
      rw [h] at h'
      cases h'
      rfl
    | next h' =>
      rw [h] at h'
      cases h'
  | next h hrest ih =>
    cases h' with
    | last h' =>
      rw [h] at h'
      cases h'
    | next h' hrest' =>
      rw [h] at h'
      cases h'
      rw [ih hrest']

/-- Pages whose items are mapped. -/
theorem walks_map {β : Type} (f : α → β) {page : ℕ → Option γ → Except ε (List α × Option γ)} {k : ℕ}
    {c : Option γ} {items : List (List β)} :
    Walks (fun k c => (page k c).map fun r => (r.1.map f, r.2)) k c items ↔
      ∃ pages, Walks page k c pages ∧ items = pages.map (List.map f) := by
  constructor
  · intro h
    induction h with
    | @last k c items h =>
      cases hp : page k c with
      | error e => simp [hp, Except.map] at h
      | ok r =>
        obtain ⟨rows, c'⟩ := r
        simp only [hp, Except.map, Except.ok.injEq, Prod.mk.injEq] at h
        obtain ⟨rfl, rfl⟩ := h
        exact ⟨[rows], .last hp, rfl⟩
    | @next k c items c' rest h _ ih =>
      obtain ⟨pages, hpages, rfl⟩ := ih
      cases hp : page k c with
      | error e => simp [hp, Except.map] at h
      | ok r =>
        obtain ⟨rows, c''⟩ := r
        simp only [hp, Except.map, Except.ok.injEq, Prod.mk.injEq] at h
        obtain ⟨rfl, rfl⟩ := h
        exact ⟨rows :: pages, .next hp hpages, rfl⟩
  · rintro ⟨pages, h, rfl⟩
    induction h with
    | last h => exact .last (by rw [h]; rfl)
    | next h _ ih => exact .next (by rw [h]; rfl) ih

section Written

variable {κ : Type} [LinearOrder κ] {key : α → κ}

variable (key) in
/-- What comes after the row that the last page ended with. -/
def follows (start : Option α) (b : α) : Bool := start.all fun a => key a < key b

theorem follows_some {a b : α} : follows key (some a) b = true ↔ key a < key b := by
  simp [follows]

variable (key) in
/-- The rows of a query, after the row that the last page ended with. -/
def query (rows : List α) (start : Option α) : List α := sortBy key (rows.filter (follows key start))

theorem mem_query {rows : List α} {start : Option α} {b : α} :
    b ∈ query key rows start ↔ b ∈ rows ∧ follows key start b = true := by
  rw [query, mem_sortBy, List.mem_filter]

theorem sorted_query {rows : List α} (h : rows.Pairwise fun a b => key a ≠ key b)
    (start : Option α) : (query key rows start).Pairwise fun a b => key a < key b :=
  pairwise_sortBy (h.filter _)

/-- The next query on the same rows gives what was left. -/
theorem query_next {rows pre post : List α} {start : Option α} {a : α}
    (h : rows.Pairwise fun a b => key a ≠ key b) (hsplit : query key rows start = pre ++ a :: post) :
    query key rows (some a) = post := by
  have ha : follows key start a = true := by
    have hmem : a ∈ query key rows start := by simp [hsplit]
    exact (mem_query.mp hmem).2
  have hfilter : rows.filter (follows key (some a)) =
      (rows.filter (follows key start)).filter fun b => key a < key b := by
    rw [List.filter_filter]
    refine List.filter_congr fun b _ => ?_
    cases start with
    | none => simp [follows]
    | some c =>
      simp only [follows, Option.all_some, decide_eq_true_eq] at ha ⊢
      by_cases hab : key a < key b
      · simp [hab, ha.trans hab]
      · simp [hab]
  rw [query, hfilter, filter_sortBy (h.filter _)]
  exact filter_after (sorted_query h start) hsplit

/-- A page ends the query, or is split off before the last row of the page. -/
theorem cut_cases (cursor : α → γ) {n : ℕ} (hn : 0 < n) (rows : List α) :
    cut cursor n rows = (rows, none) ∨ ∃ pre a post, rows = pre ++ a :: post ∧
      cut cursor n rows = (pre ++ [a], some (cursor a)) := by
  by_cases hlast : rows.length ≤ n
  · left
    rw [cut, List.take_of_length_le hlast, if_neg (Nat.not_lt_of_le hlast)]
  · right
    obtain ⟨pre, a, post, rfl, rfl⟩ := exists_split hn (Nat.le_of_not_le hlast)
    have hpost : post ≠ [] := by
      rintro rfl
      exact hlast (by simp)
    exact ⟨pre, a, post, rfl, cut_split cursor hpost⟩

variable {page : ℕ → Option γ → Except ε (List α × Option γ)} {cursor : α → γ} {n : ℕ}
  {rows : ℕ → List α}

/-- The pages are those of the queries. -/
theorem walks_induction (hn : 0 < n)
    (hpage : ∀ k start, page k (start.map cursor) = .ok (cut cursor n (query key (rows k) start)))
    {P : ℕ → Option α → List (List α) → Prop}
    (last : ∀ k start, P k start [query key (rows k) start])
    (next : ∀ k start pre a post rest, query key (rows k) start = pre ++ a :: post →
      P (k + 1) (some a) rest → P k start ((pre ++ [a]) :: rest))
    {k : ℕ} {start : Option α} {pages : List (List α)}
    (h : Walks page k (start.map cursor) pages) : P k start pages := by
  generalize hc : start.map cursor = c at h
  induction h generalizing start with
  | @last k c items h =>
    rw [← hc, hpage] at h
    rcases cut_cases cursor hn (query key (rows k) start) with hcut | ⟨_, _, _, _, hcut⟩
    · rw [hcut] at h
      cases h
      exact last k start
    · rw [hcut] at h
      cases h
  | @next k c items c' rest h _ ih =>
    rw [← hc, hpage] at h
    rcases cut_cases cursor hn (query key (rows k) start) with hcut | ⟨pre, a, post, hsplit, hcut⟩
    · rw [hcut] at h
      cases h
    · rw [hcut] at h
      cases h
      exact next k start pre a post rest hsplit (ih rfl)

/-- **Scrolling back**: where the rows after a cursor stay while it is followed, what is given is what
the query gives at the start. -/
theorem scrolls_query {β : Type} {f : ℕ → α → β}
    {page : ℕ → Option γ → Except ε (List β × Option γ)} (hn : 0 < n)
    (hne : ∀ k, (rows k).Pairwise fun a b => key a ≠ key b)
    (hpage : ∀ k start, page k (start.map cursor) =
      .ok (((cut cursor n (query key (rows k) start)).1.map (f k)).reverse,
        (cut cursor n (query key (rows k) start)).2))
    (hkept : ∀ k a, Reached page k (cursor a) →
      query key (rows (k + 1)) (some a) = query key (rows k) (some a) ∧
        ∀ b ∈ query key (rows k) (some a), f (k + 1) b = f k b) :
    Scrolls page 0 none ((query key (rows 0) none).map (f 0)).reverse := by
  suffices hscroll : ∀ m k start, (query key (rows k) start).length = m →
      (∀ items c, page k (start.map cursor) = .ok (items, some c) → Reached page k c) →
      Scrolls page k (start.map cursor) ((query key (rows k) start).map (f k)).reverse from
    hscroll _ 0 none rfl fun _ _ => .first
  intro m
  induction m using Nat.strong_induction_on with
  | _ m ih =>
    intro k start hm hreached
    rcases cut_cases cursor hn (query key (rows k) start) with hcut | ⟨pre, a, post, hsplit, hcut⟩
    · have hlast := hpage k start
      rw [hcut] at hlast
      exact .last hlast
    · have hnext := hpage k start
      rw [hcut] at hnext
      have ha := hreached _ _ hnext
      obtain ⟨hquery, hf⟩ := hkept k a ha
      rw [query_next (hne k) hsplit] at hquery hf
      have hlt : post.length < m := by
        rw [← hm, hsplit]
        simp only [List.length_append, List.length_cons]
        omega
      have hrest := ih post.length hlt (k + 1) (some a) (by rw [hquery]) fun _ _ => .next ha
      rw [hquery, List.map_congr_left hf] at hrest
      rw [hsplit, List.append_cons, List.map_append, List.reverse_append]
      exact .next hnext hrest

variable (hn : 0 < n)
  (hpage : ∀ k start, page k (start.map cursor) = .ok (cut cursor n (query key (rows k) start)))

include hn hpage

/-- What a page gives is among the rows that it finds. -/
theorem mem_rows_of_walks {k : ℕ} (start : Option α) {pages : List (List α)}
    (h : Walks page k (start.map cursor) pages) :
    ∀ b ∈ pages.flatten, ∃ j < pages.length, b ∈ rows (k + j) := by
  refine walks_induction (P := fun k _ pages => ∀ b ∈ pages.flatten, ∃ j < pages.length,
    b ∈ rows (k + j)) hn hpage (fun k start b hb => ?_)
    (fun k start pre a post rest hsplit ih b hb => ?_) h
  · rw [List.flatten_singleton] at hb
    exact ⟨0, by simp, (mem_query.mp hb).1⟩
  · rw [List.flatten_cons, List.mem_append] at hb
    rcases hb with hb | hb
    · have hmem : b ∈ query key (rows k) start := by
        rw [hsplit, List.append_cons]
        exact List.mem_append_left _ hb
      exact ⟨0, by simp, (mem_query.mp hmem).1⟩
    · obtain ⟨j, hj, hrow⟩ := ih b hb
      refine ⟨j + 1, by simpa using hj, ?_⟩
      rwa [Nat.add_assoc, Nat.add_comm 1 j] at hrow

variable (hne : ∀ k, (rows k).Pairwise fun a b => key a ≠ key b)

include hne

/-- **A walk in order**: whatever the rows of each page are, each row given comes after those before
it. -/
theorem sorted_walks {k : ℕ} (start : Option α) {pages : List (List α)}
    (h : Walks page k (start.map cursor) pages) :
    pages.flatten.Pairwise fun a b => key a < key b := by
  refine (walks_induction (P := fun k start pages => (∀ b ∈ pages.flatten, follows key start b) ∧
    pages.flatten.Pairwise fun a b => key a < key b) hn hpage (fun k start => ?_)
    (fun k start pre a post rest hsplit ih => ?_) h).2
  · rw [List.flatten_singleton]
    exact ⟨fun b hb => (mem_query.mp hb).2, sorted_query (hne k) start⟩
  · obtain ⟨hafter, hrest⟩ := ih
    have hsorted := sorted_query (hne k) start
    rw [hsplit, List.append_cons, List.pairwise_append] at hsorted
    have hle : ∀ b ∈ pre ++ [a], key b ≤ key a := by
      intro b hb
      rcases List.mem_append.mp hb with hb | hb
      · exact ((List.pairwise_append.mp hsorted.1).2.2 b hb a List.mem_cons_self).le
      · rw [List.mem_singleton.mp hb]
    have hgt : ∀ b ∈ rest.flatten, key a < key b := by
      intro b hb
      simpa [follows] using hafter b hb
    have hmem : ∀ b ∈ pre ++ [a], follows key start b = true := by
      intro b hb
      refine (mem_query.mp (?_ : b ∈ query key (rows k) start)).2
      rw [hsplit, List.append_cons]
      exact List.mem_append_left _ hb
    rw [List.flatten_cons]
    refine ⟨fun b hb => ?_, List.pairwise_append.mpr ⟨hsorted.1, hrest, fun b hb c hc =>
      (hle b hb).trans_lt (hgt c hc)⟩⟩
    rcases List.mem_append.mp hb with hb | hb
    · exact hmem b hb
    · have ha := hmem a (List.mem_append_right _ List.mem_cons_self)
      cases start with
      | none => rfl
      | some c =>
        simp only [follows, Option.all_some, decide_eq_true_eq] at ha ⊢
        exact ha.trans (hgt b hb)

/-- A key that every page finds is given. -/
theorem exists_mem_walks {k : ℕ} (start : Option α) {pages : List (List α)}
    (h : Walks page k (start.map cursor) pages) {x : κ} (hstart : ∀ a ∈ start, key a < x)
    (hfound : ∀ j < pages.length, ∃ b ∈ rows (k + j), key b = x) :
    ∃ b ∈ pages.flatten, key b = x := by
  refine walks_induction (P := fun k start pages => (∀ a ∈ start, key a < x) →
    (∀ j < pages.length, ∃ b ∈ rows (k + j), key b = x) → ∃ b ∈ pages.flatten, key b = x)
    hn hpage (fun k start hstart hfound => ?_)
    (fun k start pre a post rest hsplit ih hstart hfound => ?_) h hstart hfound
  all_goals
    obtain ⟨b, hb, hbx⟩ := hfound 0 (by simp)
    have hmem : b ∈ query key (rows k) start := by
      refine mem_query.mpr ⟨hb, ?_⟩
      cases start with
      | none => rfl
      | some c => simpa [follows, hbx] using hstart c rfl
  · exact ⟨b, by simpa using hmem, hbx⟩
  · have hsorted := sorted_query (hne k) start
    rw [hsplit] at hmem hsorted
    rw [List.append_cons, List.mem_append] at hmem
    rcases hmem with hmem | hmem
    · exact ⟨b, by rw [List.flatten_cons]; exact List.mem_append_left _ hmem, hbx⟩
    · -- the row comes after the page, so that the next page looks for it
      have hab : key a < key b :=
        (List.pairwise_cons.mp (List.pairwise_append.mp hsorted).2.1).1 b hmem
      obtain ⟨c, hc, hcx⟩ := ih (by simpa [hbx] using hab) fun j hj => by
        have hfound' := hfound (j + 1) (by simpa using hj)
        rwa [Nat.add_comm j 1, ← Nat.add_assoc] at hfound'
      exact ⟨c, by rw [List.flatten_cons]; exact List.mem_append_right _ hc, hcx⟩

/-- **Given once**: what every page finds at the same key. -/
theorem length_filter_walks {k : ℕ} {pages : List (List α)} (h : Walks page k none pages) {x : κ}
    {p : α → Bool} (hp : ∀ j < pages.length, ∀ b ∈ rows (k + j), p b = true ↔ key b = x)
    (hfound : ∀ j < pages.length, ∃ b ∈ rows (k + j), key b = x) :
    (pages.flatten.filter p).length = 1 := by
  have hsorted := sorted_walks hn hpage hne none h
  obtain ⟨b, hb, hbx⟩ := exists_mem_walks hn hpage hne none h (by simp) hfound
  obtain ⟨pre, post, hsplit⟩ := List.append_of_mem hb
  have hkey : ∀ c ∈ pages.flatten, p c = true ↔ key c = x := by
    intro c hc
    obtain ⟨j, hj, hrow⟩ := mem_rows_of_walks hn hpage none h c hc
    exact hp j hj c hrow
  rw [hsplit, List.pairwise_append, List.pairwise_cons] at hsorted
  obtain ⟨_, ⟨hafter, _⟩, hbefore⟩ := hsorted
  have hpre : pre.filter p = [] := by
    refine List.filter_eq_nil_iff.mpr fun c hc hpc => ?_
    have hcx := (hkey c (by rw [hsplit]; exact List.mem_append_left _ hc)).mp hpc
    exact absurd (hbefore c hc b List.mem_cons_self) (by rw [hcx, hbx]; exact lt_irrefl x)
  have hpost : post.filter p = [] := by
    refine List.filter_eq_nil_iff.mpr fun c hc hpc => ?_
    have hcx := (hkey c (by rw [hsplit]; simp [hc])).mp hpc
    exact absurd (hafter c hc) (by rw [hcx, hbx]; exact lt_irrefl x)
  rw [hsplit, List.filter_append, List.filter_cons_of_pos ((hkey b hb).mpr hbx), hpre, hpost]
  rfl

/-- The walk ends once the rows change no more. -/
theorem exists_walks {N : ℕ} (hrows : ∀ j, N ≤ j → rows j = rows N) (k : ℕ) (start : Option α) :
    ∃ pages, Walks page k (start.map cursor) pages := by
  have hstill : ∀ m k start, N ≤ k → (query key (rows N) start).length = m →
      ∃ pages, Walks page k (start.map cursor) pages := by
    intro m
    induction m using Nat.strong_induction_on with
    | _ m ih =>
      intro k start hk hm
      have hq := hpage k start
      rw [hrows k hk] at hq
      rcases cut_cases cursor hn (query key (rows N) start) with hcut | ⟨pre, a, post, hsplit, hcut⟩
      · exact ⟨_, .last (hq.trans (congrArg _ hcut))⟩
      · have hpost := query_next (hne N) hsplit
        have hlt : post.length < m := by
          rw [← hm, hsplit]
          simp only [List.length_append, List.length_cons]
          omega
        obtain ⟨pages, hpages⟩ := ih post.length hlt (k + 1) (some a) (by omega) (by rw [hpost])
        exact ⟨_, .next (hq.trans (congrArg _ hcut)) hpages⟩
  induction hd : N - k generalizing k start with
  | zero => exact hstill _ k start (by omega) rfl
  | succ d ih =>
    rcases cut_cases cursor hn (query key (rows k) start) with hcut | ⟨pre, a, post, hsplit, hcut⟩
    · exact ⟨_, .last ((hpage k start).trans (congrArg _ hcut))⟩
    · obtain ⟨pages, hpages⟩ := ih (k + 1) (some a) (by omega)
      exact ⟨_, .next ((hpage k start).trans (congrArg _ hcut)) hpages⟩

end Written

end Keyset
