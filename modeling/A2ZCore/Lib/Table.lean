import Mathlib

/-!
# Tables with constraints

A relational table is a list of rows that satisfies its constraints: every row is within its
columns' types, and no two rows agree on the columns of a key. `Table S` carries both facts, so a
table that violates its schema cannot be built; `Table.ofRows` is the only way to make one from
rows that are not known to satisfy it, and it says which constraint failed.

## Main definitions

* `Schema` — the constraints of a table
* `Table`, `Table.ofRows` — rows that satisfy them, and the check
* `Table.insert`, `Table.modify`, `Table.delete` — the three statements that write

## Main results

* `Table.eq_of_clash` — two rows that agree on a key are one row
* `Table.find?_eq_some_of_clash` — selecting by a key finds the row
* `Table.restrict_insert`, `Table.restrict_modify`, `Table.restrict_delete` — a statement on a part of
  a table
* `Table.restrict_of_insert`, `Table.restrict_of_modify`, `Table.restrict_of_delete` — a statement that
  leaves a part alone
-/

namespace Relational

/-- The constraints of a table with rows in `α`. -/
structure Schema (α : Type) where
  /-- Every column of the row is within its type. -/
  valid : α → Bool
  /-- The rows agree on the columns of some key. -/
  clash : α → α → Bool
  clash_symm : ∀ a b, clash a b = clash b a

/-- Which kind of constraint a statement violated. -/
inductive Violation where
  | domain
  | unique
  deriving DecidableEq, Repr

variable {α : Type} {S : Schema α}

/-- Rows that satisfy a schema. -/
structure Table (S : Schema α) where
  rows : List α
  valid : ∀ a ∈ rows, S.valid a = true
  unique : rows.Pairwise fun a b => S.clash a b = false

namespace Table

/-- The table without rows. -/
def empty (S : Schema α) : Table S := ⟨[], by simp, List.Pairwise.nil⟩

/-- Check rows against the schema. -/
def ofRows (S : Schema α) (rows : List α) : Except Violation (Table S) :=
  if hvalid : ∀ a ∈ rows, S.valid a = true then
    if hunique : rows.Pairwise fun a b => S.clash a b = false then
      .ok ⟨rows, hvalid, hunique⟩
    else .error .unique
  else .error .domain

/-- `INSERT`. -/
def insert (t : Table S) (a : α) : Except Violation (Table S) := ofRows S (t.rows ++ [a])

/-- `UPDATE`: every row is replaced by its image under `f`. -/
def modify (t : Table S) (f : α → α) : Except Violation (Table S) := ofRows S (t.rows.map f)

/-- `DELETE`: the rows that satisfy `p` go. -/
def delete (t : Table S) (p : α → Bool) : Table S where
  rows := t.rows.filter fun a => !p a
  valid := fun a ha => t.valid a (List.mem_filter.mp ha).1
  unique := t.unique.filter _

/-- The rows that satisfy `p`, as a table. -/
def restrict (p : α → Bool) (t : Table S) : Table S where
  rows := t.rows.filter p
  valid := fun a ha => t.valid a (List.mem_filter.mp ha).1
  unique := t.unique.filter _

@[simp] theorem rows_empty : (empty S).rows = [] := rfl

@[simp] theorem rows_delete (t : Table S) (p : α → Bool) :
    (t.delete p).rows = t.rows.filter fun a => !p a := rfl

theorem rows_ofRows {rows : List α} {t : Table S} (h : ofRows S rows = .ok t) : t.rows = rows := by
  unfold ofRows at h
  split at h
  · split at h
    · cases h; rfl
    · cases h
  · cases h

theorem rows_insert {t t' : Table S} {a : α} (h : t.insert a = .ok t') :
    t'.rows = t.rows ++ [a] :=
  rows_ofRows h

theorem rows_modify {t t' : Table S} {f : α → α} (h : t.modify f = .ok t') :
    t'.rows = t.rows.map f :=
  rows_ofRows h

/-- A row that satisfies the constraints can be inserted. -/
theorem exists_insert (t : Table S) {a : α} (hvalid : S.valid a = true)
    (hclash : ∀ b ∈ t.rows, S.clash b a = false) : ∃ t', t.insert a = .ok t' := by
  have hvalid' : ∀ b ∈ t.rows ++ [a], S.valid b = true := by
    intro b hb
    rcases List.mem_append.mp hb with hold | hnew
    · exact t.valid b hold
    · exact List.mem_singleton.mp hnew ▸ hvalid
  have hunique : (t.rows ++ [a]).Pairwise fun b c => S.clash b c = false := by
    refine List.pairwise_append.mpr ⟨t.unique, List.pairwise_singleton _ _, fun b hb c hc => ?_⟩
    exact List.mem_singleton.mp hc ▸ hclash b hb
  refine ⟨⟨t.rows ++ [a], hvalid', hunique⟩, ?_⟩
  rw [insert, ofRows, dif_pos hvalid', dif_pos hunique]

/-- A statement goes through where it leaves the keys of every row alone. -/
theorem exists_modify (t : Table S) {f : α → α} (hvalid : ∀ a, S.valid (f a) = S.valid a)
    (hclash : ∀ a b, S.clash (f a) (f b) = S.clash a b) : ∃ t', t.modify f = .ok t' := by
  have hvalid' : ∀ a ∈ t.rows.map f, S.valid a = true := by
    intro a ha
    obtain ⟨b, hb, rfl⟩ := List.mem_map.mp ha
    rw [hvalid]
    exact t.valid b hb
  have hunique : (t.rows.map f).Pairwise fun a b => S.clash a b = false := by
    rw [List.pairwise_map]
    exact t.unique.imp fun h => by rw [hclash, h]
  exact ⟨⟨_, hvalid', hunique⟩, by rw [modify, ofRows, dif_pos hvalid', dif_pos hunique]⟩

/-- Two rows of a table that agree on a key are one row. -/
theorem eq_of_clash (t : Table S) {a b : α} (ha : a ∈ t.rows) (hb : b ∈ t.rows)
    (h : S.clash a b = true) : a = b := by
  by_contra hne
  have : Std.Symm fun a b => S.clash a b = false :=
    ⟨fun x y hxy => by rw [S.clash_symm]; exact hxy⟩
  have hfalse : S.clash a b = false := t.unique.forall ha hb hne
  rw [hfalse] at h
  cases h

/-- A predicate that only rows clashing with `a` satisfy selects `a`. -/
theorem find?_eq_some_of_clash (t : Table S) {p : α → Bool} {a : α} (ha : a ∈ t.rows)
    (hpa : p a = true) (hp : ∀ b, p b = true → S.clash b a = true) :
    t.rows.find? p = some a := by
  obtain ⟨b, hb⟩ : ∃ b, t.rows.find? p = some b := by
    rw [← Option.isSome_iff_exists, List.find?_isSome]
    exact ⟨a, ha, hpa⟩
  have hmem : b ∈ t.rows := List.mem_of_find?_eq_some hb
  rw [hb, t.eq_of_clash hmem ha (hp b (List.find?_some hb))]

/-- A predicate that only rows clashing with `a` satisfy selects `a` alone. -/
theorem filter_eq_singleton_of_clash (t : Table S) {p : α → Bool} {a : α} (ha : a ∈ t.rows)
    (hpa : p a = true) (hp : ∀ b, p b = true → S.clash b a = true) : t.rows.filter p = [a] := by
  have hall : ∀ b ∈ t.rows.filter p, b = a := fun b hb =>
    t.eq_of_clash (List.mem_filter.mp hb).1 ha (hp b (List.mem_filter.mp hb).2)
  have hunique : (t.rows.filter p).Pairwise fun b c => S.clash b c = false := t.unique.filter _
  match hrows : t.rows.filter p with
  | [] =>
    have hmem : a ∈ t.rows.filter p := List.mem_filter.mpr ⟨ha, hpa⟩
    rw [hrows] at hmem
    cases hmem
  | [b] =>
    rw [hrows] at hall
    rw [hall b (List.mem_singleton.mpr rfl)]
  | b :: c :: rest =>
    rw [hrows] at hall hunique
    have hb : b = a := hall b (by simp)
    have hc : c = a := hall c (by simp)
    have hclash := List.rel_of_pairwise_cons hunique (List.mem_cons_self)
    rw [hb, hc, hp a hpa] at hclash
    cases hclash

/-- A row that was inserted agrees with no other row on a key. -/
theorem clash_of_insert {t t' : Table S} {a b : α} (h : t.insert a = .ok t') (hb : b ∈ t.rows) :
    S.clash b a = false := by
  have hrows := rows_insert h
  have hunique := t'.unique
  rw [hrows, List.pairwise_append] at hunique
  exact hunique.2.2 b hb a (List.mem_singleton.mpr rfl)

/-! ### A part of a table -/

@[ext] theorem ext {t t' : Table S} (h : t.rows = t'.rows) : t = t' := by
  cases t
  cases t'
  cases h
  rfl

@[simp] theorem rows_restrict (p : α → Bool) (t : Table S) :
    (t.restrict p).rows = t.rows.filter p := rfl

/-- A part of a table is found again in itself. -/
theorem restrict_restrict (p : α → Bool) (t : Table S) : (t.restrict p).restrict p = t.restrict p := by
  refine Table.ext ?_
  rw [rows_restrict, rows_restrict, List.filter_filter]
  simp only [Bool.and_self]

/-- Rows outside a part of a table that violate nothing are not noticed in it. -/
theorem restrict_ofRows {p : α → Bool} {rows : List α}
    (hvalid : ∀ a ∈ rows, p a = false → S.valid a = true)
    (hclash : rows.Pairwise fun a b => p a = true ∧ p b = true ∨ S.clash a b = false) :
    (ofRows S rows).map (restrict p) = ofRows S (rows.filter p) := by
  have hiff : (rows.Pairwise fun a b => S.clash a b = false) ↔
      (rows.filter p).Pairwise fun a b => S.clash a b = false := by
    refine ⟨List.Pairwise.filter p, fun h => ?_⟩
    rw [List.pairwise_filter] at h
    refine (h.and hclash).imp fun h => ?_
    rcases h.2 with ⟨ha, hb⟩ | hfalse
    · exact h.1 ha hb
    · exact hfalse
  by_cases hv : ∀ a ∈ rows, S.valid a = true
  · have hv' : ∀ a ∈ rows.filter p, S.valid a = true := fun a ha => hv a (List.mem_filter.mp ha).1
    by_cases hu : rows.Pairwise fun a b => S.clash a b = false
    · rw [ofRows, dif_pos hv, dif_pos hu, ofRows, dif_pos hv', dif_pos (hiff.mp hu)]
      rfl
    · rw [ofRows, dif_pos hv, dif_neg hu, ofRows, dif_pos hv', dif_neg (fun h => hu (hiff.mpr h))]
      rfl
  · have hv' : ¬∀ a ∈ rows.filter p, S.valid a = true := by
      intro h
      refine hv fun a ha => ?_
      cases hp : p a with
      | false => exact hvalid a ha hp
      | true => exact h a (List.mem_filter.mpr ⟨ha, hp⟩)
    rw [ofRows, dif_neg hv, ofRows, dif_neg hv']
    rfl

/-- A row of a part is inserted as into the part alone, where it clashes with no other row. -/
theorem restrict_insert {p : α → Bool} (t : Table S) {a : α} (ha : p a = true)
    (hclash : ∀ b ∈ t.rows, p b = false → S.clash b a = false) :
    (t.insert a).map (restrict p) = (t.restrict p).insert a := by
  have hfilter : (t.rows ++ [a]).filter p = (t.restrict p).rows ++ [a] := by
    rw [List.filter_append, List.filter_cons_of_pos ha]
    rfl
  rw [insert, insert, ← hfilter]
  refine restrict_ofRows (fun b hb hp => ?_) ?_
  · rcases List.mem_append.mp hb with hold | hnew
    · exact t.valid b hold
    · rw [List.mem_singleton.mp hnew, ha] at hp
      cases hp
  · refine List.pairwise_append.mpr ⟨t.unique.imp .inr, List.pairwise_singleton _ _, fun b hb c hc => ?_⟩
    obtain rfl := List.mem_singleton.mp hc
    cases hp : p b with
    | true => exact .inl ⟨rfl, ha⟩
    | false => exact .inr (hclash b hb hp)

/-- An update that leaves keys alone, and the rows outside a part, is one of the part alone. -/
theorem restrict_modify {p : α → Bool} (t : Table S) {f : α → α} (hp : ∀ a, p (f a) = p a)
    (hclash : ∀ a b, S.clash (f a) (f b) = S.clash a b)
    (hf : ∀ a ∈ t.rows, p a = false → f a = a) :
    (t.modify f).map (restrict p) = (t.restrict p).modify f := by
  have hfilter : (t.rows.map f).filter p = (t.restrict p).rows.map f := by
    rw [List.filter_map]
    exact congrArg _ (List.filter_congr fun a _ => hp a)
  rw [modify, modify, ← hfilter]
  refine restrict_ofRows (fun b hb hpb => ?_) ?_
  · obtain ⟨a, ha, rfl⟩ := List.mem_map.mp hb
    rw [hp] at hpb
    rw [hf a ha hpb]
    exact t.valid a ha
  · refine List.pairwise_map.mpr (t.unique.imp fun h => .inr ?_)
    rw [hclash]
    exact h

/-- A statement on one table of several, next to the same statement on a part of each. -/
theorem map_of_restrict {D E : Type} {p : α → Bool} {r r' : Except Violation (Table S)}
    {put : Table S → D} {put' : Table S → E} {part : D → E} (h : r.map (restrict p) = r')
    (hput : ∀ t, part (put t) = put' (t.restrict p)) : (r.map put).map part = r'.map put' := by
  subst h
  cases r with
  | error v => rfl
  | ok t => exact congrArg Except.ok (hput t)

/-- A deletion from a part is one from the table. -/
theorem restrict_delete (t : Table S) (p q : α → Bool) :
    (t.delete q).restrict p = (t.restrict p).delete q := by
  refine ext ?_
  simp only [rows_restrict, rows_delete, List.filter_filter]
  exact List.filter_congr fun a _ => Bool.and_comm _ _

section Outside

variable {t t' : Table S} {p q : α → Bool}

/-- Where a part is left alone, its rows were there. -/
theorem mem_of_restrict_eq (h : t'.restrict p = t.restrict p) {a : α} (ha : a ∈ t'.rows)
    (hp : p a = true) : a ∈ t.rows := by
  have hmem : a ∈ (t'.restrict p).rows := List.mem_filter.mpr ⟨ha, hp⟩
  rw [h] at hmem
  exact (List.mem_filter.mp hmem).1

/-- A row outside a part is inserted without a trace in it. -/
theorem restrict_of_insert {a : α} (h : t.insert a = .ok t') (ha : p a = false) :
    t'.restrict p = t.restrict p := by
  refine ext ?_
  rw [rows_restrict, rows_restrict, rows_insert h, List.filter_append,
    List.filter_cons_of_neg (by simp [ha]), List.filter_nil, List.append_nil]

/-- Rows outside a part are deleted without a trace in it. -/
theorem restrict_of_delete (h : ∀ a ∈ t.rows, p a = true → q a = false) :
    (t.delete q).restrict p = t.restrict p := by
  refine ext ?_
  rw [rows_restrict, rows_restrict, rows_delete, List.filter_filter]
  refine List.filter_congr fun a ha => ?_
  cases hp : p a with
  | false => rfl
  | true => simp [h a ha hp]

/-- Rows outside a part are updated without a trace in it. -/
theorem restrict_of_modify {f : α → α} (h : t.modify f = .ok t') (hp : ∀ a, p (f a) = p a)
    (hf : ∀ a ∈ t.rows, p a = true → f a = a) : t'.restrict p = t.restrict p := by
  refine ext ?_
  rw [rows_restrict, rows_restrict, rows_modify h, List.filter_map]
  have hfilter : t.rows.filter (p ∘ f) = t.rows.filter p := List.filter_congr fun a _ => hp a
  rw [hfilter]
  refine (List.map_congr_left fun a ha => ?_).trans (List.map_id _)
  obtain ⟨hmem, hpa⟩ := List.mem_filter.mp ha
  exact hf a hmem hpa

/-- A lookup that only rows of a part satisfy, in the part. -/
theorem find?_restrict (t : Table S) (h : ∀ a ∈ t.rows, q a = true → p a = true) :
    (t.restrict p).rows.find? q = t.rows.find? q := by
  rw [rows_restrict, List.find?_filter]
  refine List.find?_congr fun a ha => ?_
  cases hq : q a with
  | false => simp
  | true => simp [h a ha hq]

/-- A lookup by a key, in a part: what is found is there, where it is one of the part. -/
theorem find?_restrict_of_key (t : Table S)
    (hkey : ∀ a ∈ t.rows, ∀ b ∈ t.rows, q a = true → q b = true → a = b) :
    (t.restrict p).rows.find? q = (t.rows.find? q).filter p := by
  cases hfind : t.rows.find? q with
  | none =>
    refine List.find?_eq_none.mpr fun b hb => ?_
    exact List.find?_eq_none.mp hfind b (List.mem_filter.mp hb).1
  | some a =>
    have hmem := List.mem_of_find?_eq_some hfind
    have hqa := List.find?_some hfind
    cases hp : p a with
    | true =>
      rw [t.find?_restrict fun b hb hqb => by rwa [← hkey a hmem b hb hqa hqb], hfind, Option.filter_some,
        if_pos hp]
    | false =>
      rw [Option.filter_some, if_neg (by simp [hp])]
      refine List.find?_eq_none.mpr fun b hb hqb => ?_
      obtain ⟨hbmem, hpb⟩ := List.mem_filter.mp hb
      rw [← hkey a hmem b hbmem hqa hqb, hp] at hpb
      cases hpb

/-- A selection that only rows of a part satisfy, in the part. -/
theorem filter_restrict (t : Table S) (h : ∀ a ∈ t.rows, q a = true → p a = true) :
    (t.restrict p).rows.filter q = t.rows.filter q := by
  rw [rows_restrict, List.filter_filter]
  refine List.filter_congr fun a ha => ?_
  cases hq : q a with
  | false => rfl
  | true => simp [h a ha hq]

end Outside

end Table

end Relational
