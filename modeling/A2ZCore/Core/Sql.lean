import A2ZCore.Core.World
import A2ZCore.Lib.Table
import Mathlib

/-!
# Database sessions

What the services' sessions have in common, at READ COMMITTED. A `SELECT` sees what is committed
when it runs. A session collects its writes and sends them at a flush, inside its transaction,
where the constraints are checked; they become visible to the other sessions at the commit, all or
none.

An object that was loaded and changed is written by an `UPDATE` that names only the columns whose
value differs from the loaded one, so a statement is given both, and `column` is what it leaves in
one column. Whatever another session committed to the other columns in between stays.

## Main definitions

* `column` — the value an `UPDATE` leaves
* `orderBy`, `scalarOneOrNone` — the rows of a `SELECT`, and what a lookup makes of them
* `Core.Fate.query`, `Core.Fate.transact` — a statement that reads, and one that commits

## Main results

* `sorted_orderBy`, `exists_tie` — what a query's order determines, and what it leaves open
* `Core.Fate.transact_cases` — a commit carries out all its writes or none
-/

namespace A2ZCore

open Relational

/-- The value of a column after an `UPDATE`: the new one when the session changed it. -/
def column {α : Type} [DecidableEq α] (loaded current row : α) : α :=
  if current = loaded then row else current

@[simp] theorem column_self {α : Type} [DecidableEq α] (loaded current : α) :
    column loaded current loaded = current := by
  unfold column
  split
  · next h => exact h.symm
  · rfl

@[simp] theorem column_same {α : Type} [DecidableEq α] (loaded row : α) :
    column loaded loaded row = row := by
  simp [column]

/-- How the driver reports a violated constraint. -/
def violationErr : Violation → PyErr
  | .unique => ⟨.integrityError, "duplicate key value violates unique constraint"⟩
  | .domain => ⟨.dbApiError, "value out of range"⟩

/-- `ORDER BY` a time, ties as the database likes. -/
def orderBy {α : Type} (time : α → DateTime) (id : α → String) (tie : String → ℕ) (rows : List α) :
    List α :=
  rows.insertionSort fun a b =>
    (time a).ordinal < (time b).ordinal ∨
      ((time a).ordinal = (time b).ordinal ∧ tie (id a) ≤ tie (id b))

section OrderBy

variable {α : Type} (time : α → DateTime) (id : α → String)

/-- The order the rows of a query are sorted by, ties decided. -/
def Earlier (tie : String → ℕ) (a b : α) : Prop :=
  (time a).ordinal < (time b).ordinal ∨
    ((time a).ordinal = (time b).ordinal ∧ tie (id a) ≤ tie (id b))

instance (tie : String → ℕ) : DecidableRel (Earlier time id tie) := fun a b =>
  inferInstanceAs (Decidable ((time a).ordinal < (time b).ordinal ∨
    ((time a).ordinal = (time b).ordinal ∧ tie (id a) ≤ tie (id b))))

theorem pairwise_orderBy (tie : String → ℕ) (rows : List α) :
    (orderBy time id tie rows).Pairwise (Earlier time id tie) := by
  have htotal : Std.Total (Earlier time id tie) :=
    ⟨fun a b => by simp only [Earlier]; omega⟩
  have htrans : IsTrans α (Earlier time id tie) :=
    ⟨fun a b c hab hbc => by simp only [Earlier] at *; omega⟩
  exact List.pairwise_insertionSort (Earlier time id tie) rows

theorem perm_orderBy (tie : String → ℕ) (rows : List α) :
    (orderBy time id tie rows).Perm rows :=
  List.perm_insertionSort _ _

theorem sorted_orderBy (tie : String → ℕ) (rows : List α) :
    (orderBy time id tie rows).Pairwise fun a b => (time a).ordinal ≤ (time b).ordinal := by
  refine (pairwise_orderBy time id tie rows).imp fun hab => ?_
  simp only [Earlier] at hab
  omega

/-- **Ties may come in any order**: whatever order the rows have in which no time decreases, the
database may reply with it. -/
theorem exists_tie {order : List α}
    (hsorted : order.Pairwise fun a b => (time a).ordinal ≤ (time b).ordinal)
    (hid : (order.map id).Nodup) :
    ∃ tie, ∀ rows, rows.Perm order → orderBy time id tie rows = order := by
  refine ⟨fun s => (order.map id).idxOf s, fun rows hperm => ?_⟩
  have hinj := List.inj_on_of_nodup_map hid
  have hordered : order.Pairwise (Earlier time id fun s => (order.map id).idxOf s) := by
    rw [List.pairwise_iff_getElem] at hsorted ⊢
    intro i j hi hj hij
    have hplace : ∀ n (hn : n < order.length), (order.map id).idxOf (id order[n]) = n := by
      intro n hn
      have := hid.idxOf_getElem n (by simpa using hn)
      simpa using this
    have htime := hsorted i j hi hj hij
    simp only [Earlier, hplace]
    omega
  refine List.Perm.eq_of_pairwise (fun a b ha hb hab hba => ?_) (pairwise_orderBy time id _ rows)
    hordered ((perm_orderBy time id _ rows).trans hperm)
  have ha' : a ∈ order := hperm.subset ((perm_orderBy time id _ rows).subset ha)
  have hplace : (order.map id).idxOf (id a) = (order.map id).idxOf (id b) := by
    simp only [Earlier] at hab hba
    omega
  exact hinj ha' hb ((List.idxOf_inj (List.mem_map_of_mem ha')).mp hplace)

end OrderBy

/-- `Result.scalar_one_or_none`. -/
def scalarOneOrNone {α : Type} : List α → Except PyErr (Option α)
  | [] => .ok none
  | [a] => .ok (some a)
  | _ => .error ⟨.multipleResultsFound, "Multiple rows were found when one or none was required"⟩

theorem mem_of_scalarOneOrNone {α : Type} {rows : List α} {a : α}
    (h : scalarOneOrNone rows = .ok (some a)) : a ∈ rows := by
  match rows, h with
  | [b], h => cases h; exact List.mem_singleton.mpr rfl

theorem eq_nil_of_scalarOneOrNone {α : Type} {rows : List α}
    (h : scalarOneOrNone rows = .ok none) : rows = [] := by
  match rows with
  | [] => rfl
  | [_] => cases h
  | _ :: _ :: _ => cases h

/-- A write that goes through a table's check. -/
theorem map_eq_ok {α β : Type} {r : Except Violation α} {f : α → β} {b : β}
    (h : r.map f = .ok b) : ∃ a, r = .ok a ∧ f a = b := by
  cases r with
  | error v => cases h
  | ok a => cases h; exact ⟨a, rfl, rfl⟩

/-! ### Statements -/

namespace Core

variable {α W D : Type}

/-- A statement that changes nothing. -/
def Fate.query (fate : Fate) (r : Except PyErr α) (w : W) : Except PyErr α × W :=
  fate.settle (r.map fun a => (a, w)) w

/-- A statement that changes the state as a whole, where no constraint is violated. -/
def Fate.transact (fate : Fate) (r : Except Violation D) (put : D → W) (w : W) :
    Except PyErr Unit × W :=
  fate.settle ((r.mapError violationErr).map fun d => ((), put d)) w

/-- A query leaves the state alone. -/
@[simp] theorem Fate.snd_query (fate : Fate) (r : Except PyErr α) (w : W) :
    (fate.query r w).2 = w := by
  cases r with
  | error e => rw [query, Except.map, settle_error]
  | ok a => cases fate <;> rfl

/-- A query that succeeds replies with what it reads. -/
theorem Fate.eq_of_query {fate : Fate} {r : Except PyErr α} {w : W} {a : α}
    (h : (fate.query r w).1 = .ok a) : r = .ok a := by
  cases r with
  | error e => cases fate <;> cases h
  | ok b => cases fate <;> cases h; rfl

/-- The statement takes effect: it is not lost, and the constraints hold. -/
def Fate.Lands (fate : Fate) (r : Except Violation D) : Prop :=
  (∀ e, fate ≠ .lost e) ∧ ∃ d, r = .ok d

instance (fate : Fate) (r : Except Violation D) : Decidable (fate.Lands r) :=
  match fate, r with
  | .lost e, _ => .isFalse fun h => h.1 e rfl
  | .ok, .ok d => .isTrue ⟨nofun, d, rfl⟩
  | .late _, .ok d => .isTrue ⟨nofun, d, rfl⟩
  | .ok, .error _ => .isFalse fun ⟨_, _, h⟩ => nomatch h
  | .late _, .error _ => .isFalse fun ⟨_, _, h⟩ => nomatch h

/-- A transaction is carried out when it lands, and changes nothing when it does not. -/
theorem Fate.transact_cases (fate : Fate) (r : Except Violation D) (put : D → W) (w : W) :
    (fate.Lands r ∧ ∃ d, r = .ok d ∧ (fate.transact r put w).2 = put d) ∨
      (¬fate.Lands r ∧ (fate.transact r put w).2 = w ∧ ∃ e, (fate.transact r put w).1 = .error e) := by
  cases r with
  | error v =>
    refine .inr ⟨fun ⟨_, _, h⟩ => (nomatch h), ?_⟩
    rw [transact, Except.mapError, Except.map, settle_error]
    exact ⟨rfl, _, rfl⟩
  | ok d =>
    cases fate with
    | ok => exact .inl ⟨⟨nofun, d, rfl⟩, d, rfl, rfl⟩
    | lost e => exact .inr ⟨fun h => h.1 e rfl, rfl, e, rfl⟩
    | late e => exact .inl ⟨⟨nofun, d, rfl⟩, d, rfl, rfl⟩

end Core

end A2ZCore
