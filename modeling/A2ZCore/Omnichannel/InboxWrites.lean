import A2ZCore.Omnichannel.InboxWalk

/-!
# Walking the inbox while it is written

A client follows the cursors of the default order while conversations arrive and move up between the
pages. Each page continues after the time and the id of the last row of the page before, not after a
number of rows, so that what is written elsewhere shifts nothing. This rests on no assumption about
what is written: `dbs k` is the database that the `k`-th page finds, and it may be any.

## Main definitions

* `StableWalk` — what a walk gives when the database changes between its pages

## Main results

* `stableWalk`
-/

namespace A2ZCore.Omnichannel

open Keyset Relational

section Pages

variable {ι : Type} [LinearOrder ι] (collate : String ↪ ι) (search : TextSearch)
  (membership : Core.Membership) (filter : InboxFilter) (limit : ℤ) (dbs : ℕ → Db)

/-- The pages of the default order, where the `k`-th page is read from the database `dbs k`. -/
def pageWhileWritten (k : ℕ) (cursor : Option Cursor) :
    Except PyErr (List ConversationSummary × Option Cursor) :=
  inboxPage collate search membership (dbs k) filter limit true cursor

/-- The pages of the default order that are read from the start of the inbox to the last page. -/
abbrev ReadThrough (pages : List (List ConversationSummary)) : Prop :=
  Walks (pageWhileWritten collate search membership filter limit dbs) 0 none pages

/-- Every page of the walk finds the conversation with this id among those that match, at this
time. -/
def Unmoved (id : String) (ts : Option DateTime) (pages : List (List ConversationSummary)) : Prop :=
  ∀ k < pages.length, ∃ row ∈ filter.matching search (dbs k),
    row.1.id = id ∧ row.1.lastMessageAt = ts

/-- A walk over an inbox that is written between the pages ends unless it is written forever. It gives
what matches and stays in its place once, and nothing again that has not moved. -/
structure StableWalk : Prop where
  ends : ∀ N, (∀ k, N ≤ k → dbs k = dbs N) →
    ∃ pages, ReadThrough collate search membership filter limit dbs pages
  once : ∀ pages, ReadThrough collate search membership filter limit dbs pages →
    ∀ id ts, Unmoved search filter dbs id ts pages →
      (pages.flatten.filter fun item => item.id == id).length = 1
  unrepeated : ∀ pages, ReadThrough collate search membership filter limit dbs pages →
    pages.flatten.Pairwise fun a b => a.id = b.id → a.lastMessageAt ≠ b.lastMessageAt

/-- The place of a row. -/
def rowKey (row : Conversation × ChannelIdentity) : WithTop ℤ ×ₗ ιᵒᵈ := descKey collate row.1

/-- The place of a conversation with this id and this time. -/
def place (id : String) (ts : Option DateTime) : WithTop ℤ ×ₗ ιᵒᵈ :=
  toLex (ts.elim ⊤ fun t => ((-(t.ordinal : ℤ) : ℤ) : WithTop ℤ), OrderDual.toDual (collate id))

/-- The query with a cursor selects what follows its row. -/
theorem rowsPage_eq_query (db : Db) (start : Option (Conversation × ChannelIdentity)) :
    rowsPage collate search db filter limit true (start.map rowCursor) =
      .ok (cut rowCursor (pageSize limit)
        (query (rowKey collate) (filter.matching search db) start)) := by
  cases start with
  | none =>
    refine congrArg (fun rows => Except.ok (cut rowCursor (pageSize limit) rows)) ?_
    exact ordered_desc collate _
  | some row =>
    refine congrArg (fun rows => Except.ok (cut rowCursor (pageSize limit) rows)) ?_
    have hselect : ((filter.matching search db).filter fun b =>
        (cursorPredicate collate true row.1.lastMessageAt row.1.id b.1).holds) =
        (filter.matching search db).filter (follows (rowKey collate) (some row)) := by
      refine List.filter_congr fun b _ => ?_
      rw [Bool.eq_iff_iff, cursorPredicate_desc]
      exact decide_eq_true_iff.symm
    exact (ordered_desc collate _).trans (congrArg _ hselect)

/-- The pages are those of the rows. -/
theorem readThrough_iff (pages : List (List ConversationSummary)) :
    ReadThrough collate search membership filter limit dbs pages ↔
      ∃ rows, Walks (fun k => rowsPage collate search (dbs k) filter limit true) 0 none rows ∧
        pages = rows.map (List.map summary) := by
  rw [← walks_map]
  have hpages : pageWhileWritten collate search membership filter limit dbs =
      fun k c => (rowsPage collate search (dbs k) filter limit true c).map fun r =>
        (r.1.map summary, r.2) := by
    funext k
    exact inboxPage_eq collate search membership (dbs k) filter limit true
  rw [ReadThrough, hpages]

/-- One row matches for each id. -/
theorem row_eq_of_id {db : Db} {a b : Conversation × ChannelIdentity}
    (ha : a ∈ filter.matching search db) (hb : b ∈ filter.matching search db)
    (hid : a.1.id = b.1.id) : a = b := by
  by_contra hne
  have : Std.Symm fun x y : Conversation × ChannelIdentity => x.1.id ≠ y.1.id :=
    ⟨fun _ _ h => h.symm⟩
  exact (pairwise_matching search).forall ha hb hne hid

/-- **The default order is stable under writes**: whatever is written to the database between the
pages, a walk gives each conversation that matches and stays in its place exactly once, and none
twice whose time is the same. -/
theorem stableWalk : StableWalk collate search membership filter limit dbs := by
  have hn := pageSize_pos limit
  have hpage : ∀ k start, rowsPage collate search (dbs k) filter limit true
      (Option.map rowCursor start) = .ok (cut rowCursor (pageSize limit)
        (query (rowKey collate) (filter.matching search (dbs k)) start)) :=
    fun k start => rowsPage_eq_query collate search filter limit (dbs k) start
  have hne : ∀ k, (filter.matching search (dbs k)).Pairwise fun a b =>
      rowKey collate a ≠ rowKey collate b :=
    fun k => descKey_ne collate search (dbs k) filter
  refine ⟨fun N hstill => ?_, fun pages hpages id ts hunmoved => ?_, fun pages hpages => ?_⟩
  · obtain ⟨rows, hrows⟩ := exists_walks hn hpage hne (N := N)
      (fun k hk => by rw [hstill k hk]) 0 none
    exact ⟨_, (readThrough_iff collate search membership filter limit dbs _).mpr ⟨rows, hrows, rfl⟩⟩
  · obtain ⟨rows, hrows, rfl⟩ :=
      (readThrough_iff collate search membership filter limit dbs pages).mp hpages
    rw [Unmoved, List.length_map] at hunmoved
    have hplace : ∀ k < rows.length, ∀ row ∈ filter.matching search (dbs k),
        (summary row).id = id ↔ rowKey collate row = place collate id ts := by
      intro k hk row hrow
      obtain ⟨row', hrow', rfl, rfl⟩ := hunmoved k hk
      constructor
      · intro hid
        rw [row_eq_of_id search filter hrow hrow' hid]
        rfl
      · intro hkey
        exact collate.injective (Prod.ext_iff.mp hkey).2
    have hone := length_filter_walks hn hpage hne hrows
      (x := place collate id ts) (p := fun row => (summary row).id == id)
      (fun k hk row hrow => by
        rw [Nat.zero_add] at hrow
        rw [beq_iff_eq]
        exact hplace k hk row hrow)
      (fun k hk => by
        obtain ⟨row, hrow, hid, hts⟩ := hunmoved k hk
        rw [Nat.zero_add]
        exact ⟨row, hrow, (hplace k hk row hrow).mp hid⟩)
    rw [← List.map_flatten, List.filter_map, List.length_map]
    exact hone
  · obtain ⟨rows, hrows, rfl⟩ :=
      (readThrough_iff collate search membership filter limit dbs pages).mp hpages
    have hsorted := sorted_walks hn hpage hne none hrows
    rw [← List.map_flatten, List.pairwise_map]
    refine hsorted.imp fun {a b} hlt hid hts => hlt.ne ?_
    simp only [summary] at hid hts
    rw [rowKey, rowKey, descKey, descKey, hid, hts]

end Pages

end A2ZCore.Omnichannel
