import A2ZCore.Omnichannel.Inbox
import Mathlib

/-!
# Walking the inbox

A client reads the inbox page by page, newest or oldest conversation first. The continuation
predicate of the descending order gives what follows the cursor, nulls included. That of the
ascending order asks for a time, so that the conversations without one, which come last, are lost
unless the first page reaches them.

## Main definitions

* `inOrder` — the conversations that match, in the order of the request
* `WalksAlike` — both walks give them all

## Main results

* `walksAlike_iff`
-/

namespace A2ZCore.Omnichannel

open Keyset Relational

section Order

variable {ι : Type} [LinearOrder ι] (collate : String ↪ ι)

/-- The place of a conversation in the descending order. -/
def descKey (c : Conversation) : WithTop ℤ ×ₗ ιᵒᵈ :=
  toLex (c.lastMessageAt.elim ⊤ fun t => ((-(t.ordinal : ℤ) : ℤ) : WithTop ℤ),
    OrderDual.toDual (collate c.id))

/-- The place of a conversation in the ascending order. -/
def ascKey (c : Conversation) : WithTop ℤ ×ₗ ι :=
  toLex (c.lastMessageAt.elim ⊤ fun t => ((t.ordinal : ℤ) : WithTop ℤ), collate c.id)

theorem descKey_lt (a b : Conversation) : descKey collate a < descKey collate b ↔
    match a.lastMessageAt, b.lastMessageAt with
    | some s, some t => t.ordinal < s.ordinal ∨
        s.ordinal = t.ordinal ∧ collate b.id < collate a.id
    | some _, none => True
    | none, some _ => False
    | none, none => collate b.id < collate a.id := by
  rw [descKey, descKey, Prod.Lex.toLex_lt_toLex]
  cases a.lastMessageAt <;> cases b.lastMessageAt <;>
    simp only [Option.elim_none, Option.elim_some, lt_self_iff_false, true_and, false_or, false_and,
      true_or, not_top_lt, WithTop.coe_lt_top, WithTop.coe_lt_coe, WithTop.coe_inj,
      WithTop.top_ne_coe, Int.neg_lt_neg_iff, Int.neg_inj, Int.ofNat_lt, Int.natCast_inj,
      OrderDual.toDual_lt_toDual]

theorem ascKey_lt (a b : Conversation) : ascKey collate a < ascKey collate b ↔
    match a.lastMessageAt, b.lastMessageAt with
    | some s, some t => s.ordinal < t.ordinal ∨
        s.ordinal = t.ordinal ∧ collate a.id < collate b.id
    | some _, none => True
    | none, some _ => False
    | none, none => collate a.id < collate b.id := by
  rw [ascKey, ascKey, Prod.Lex.toLex_lt_toLex]
  cases a.lastMessageAt <;> cases b.lastMessageAt <;> simp

theorem precedes_desc (a b : Conversation) :
    precedes collate true a b = true ↔ descKey collate a < descKey collate b := by
  rw [descKey_lt]
  unfold precedes
  cases a.lastMessageAt with
  | none => cases b.lastMessageAt <;> simp
  | some s =>
    cases b.lastMessageAt with
    | none => simp
    | some t => by_cases h : s.ordinal = t.ordinal <;> simp [h]

theorem precedes_asc (a b : Conversation) :
    precedes collate false a b = true ↔ ascKey collate a < ascKey collate b := by
  rw [ascKey_lt]
  unfold precedes
  cases a.lastMessageAt with
  | none => cases b.lastMessageAt <;> simp
  | some s =>
    cases b.lastMessageAt with
    | none => simp
    | some t => by_cases h : s.ordinal = t.ordinal <;> simp [h]

/-- The descending predicate selects what comes after the cursor's row. -/
theorem cursorPredicate_desc (a b : Conversation) :
    (cursorPredicate collate true a.lastMessageAt a.id b).holds = true ↔
      descKey collate a < descKey collate b := by
  rw [descKey_lt]
  unfold cursorPredicate
  cases a.lastMessageAt with
  | none => cases b.lastMessageAt <;> simp
  | some s =>
    cases b.lastMessageAt with
    | none => simp
    | some t => simp [@eq_comm _ t.ordinal]

/-- The ascending predicate selects what comes after the cursor's row, but no nulls after a time. -/
theorem cursorPredicate_asc (a b : Conversation) :
    (cursorPredicate collate false a.lastMessageAt a.id b).holds = true ↔
      ascKey collate a < ascKey collate b ∧
        (a.lastMessageAt.isSome → b.lastMessageAt.isSome) := by
  rw [ascKey_lt]
  unfold cursorPredicate
  cases a.lastMessageAt with
  | none => cases b.lastMessageAt <;> simp
  | some s =>
    cases b.lastMessageAt with
    | none => simp
    | some t => simp [@eq_comm _ t.ordinal]

end Order

section Pages

variable {ι : Type} [LinearOrder ι] (collate : String ↪ ι) (search : TextSearch)
  (membership : Core.Membership) (db : Db) (filter : InboxFilter) (limit : ℤ)

/-- The field that a request sorts by. -/
def sortField (sortDesc : Bool) : String := if sortDesc then "-last_message_at" else "last_message_at"

/-- The rows of a page. -/
def pageSize : ℕ := (clamp limit defaultConversationLimit).toNat

theorem pageSize_pos : 0 < pageSize limit := by
  unfold pageSize clamp defaultConversationLimit maxLimit
  split <;> omega

/-- The pages of a request. -/
def inboxPage (sortDesc : Bool) (cursor : Option Cursor) :
    Except PyErr (List ConversationSummary × Option Cursor) :=
  (listConversations collate search (some membership) db filter (sortField sortDesc) limit
    cursor).map fun page => (page.items, page.nextCursor)

/-- Rows in the order of a request. -/
def ordered (sortDesc : Bool) (rows : List (Conversation × ChannelIdentity)) :
    List (Conversation × ChannelIdentity) :=
  rows.insertionSort fun a b => !precedes collate sortDesc b.1 a.1

/-- The conversations that match, in the order of a request. -/
def inOrder (sortDesc : Bool) : List ConversationSummary :=
  (ordered collate sortDesc (filter.matching search db)).map summary

/-- The cursor of a row. -/
def rowCursor (row : Conversation × ChannelIdentity) : Cursor :=
  encodeCursor row.1.lastMessageAt row.1.id

/-- The rows of the pages of a request. -/
def rowsPage (sortDesc : Bool) (cursor : Option Cursor) :
    Except PyErr (List (Conversation × ChannelIdentity) × Option Cursor) :=
  (continues collate sortDesc cursor).map fun continued =>
    cut rowCursor (pageSize limit) (ordered collate sortDesc
      ((filter.matching search db).filter fun row => continued row.1))

theorem inboxPage_eq (sortDesc : Bool) :
    inboxPage collate search membership db filter limit sortDesc = fun cursor =>
      (rowsPage collate search db filter limit sortDesc cursor).map fun r =>
        (r.1.map summary, r.2) := by
  funext cursor
  have hsort : sortField sortDesc ∈ sortFields := by cases sortDesc <;> decide
  have hdesc : (sortField sortDesc == "-last_message_at") = sortDesc := by cases sortDesc <;> decide
  unfold inboxPage listConversations rowsPage
  rw [hdesc]
  simp only [Option.isNone_some, hsort, not_true_eq_false, if_false, Bool.false_eq_true]
  cases continues collate sortDesc cursor with
  | error e => rfl
  | ok continued =>
    set rows := ordered collate sortDesc
      ((filter.matching search db).filter fun row => continued row.1)
    have htake : (rows.take (pageSize limit + 1)).take (pageSize limit) = rows.take (pageSize limit) := by
      rw [List.take_take, Nat.min_eq_left (Nat.le_succ _)]
    have hmore : (rows.take (pageSize limit + 1)).length > pageSize limit ↔
        pageSize limit < rows.length := by
      rw [List.length_take]
      omega
    refine congrArg Except.ok (Prod.ext ?_ ?_)
    · exact congrArg (List.map summary) htake
    · show (if (rows.take (pageSize limit + 1)).length > pageSize limit then
          ((rows.take (pageSize limit + 1)).take (pageSize limit)).getLast?.map rowCursor else none) =
        if pageSize limit < rows.length then (rows.take (pageSize limit)).getLast?.map rowCursor
          else none
      rw [htake]
      simp only [hmore]

variable {db filter}

theorem insertionSort_congr {α : Type} {r r' : α → α → Prop} [DecidableRel r] [DecidableRel r']
    (h : ∀ a b, r a b ↔ r' a b) (rows : List α) : rows.insertionSort r = rows.insertionSort r' := by
  obtain rfl : r = r' := funext fun a => funext fun b => propext (h a b)
  congr

theorem ordered_desc (rows : List (Conversation × ChannelIdentity)) :
    ordered collate true rows = sortBy (fun row => descKey collate row.1) rows :=
  insertionSort_congr (fun a b => by
    rw [Bool.not_eq_true', ← Bool.not_eq_true, precedes_desc, not_lt]) rows

theorem ordered_asc (rows : List (Conversation × ChannelIdentity)) :
    ordered collate false rows = sortBy (fun row => ascKey collate row.1) rows :=
  insertionSort_congr (fun a b => by
    rw [Bool.not_eq_true', ← Bool.not_eq_true, precedes_asc, not_lt]) rows

theorem perm_ordered (sortDesc : Bool) (rows : List (Conversation × ChannelIdentity)) :
    (ordered collate sortDesc rows).Perm rows :=
  List.perm_insertionSort _ _

/-- No two rows are of one conversation. -/
theorem pairwise_matching :
    (filter.matching search db).Pairwise fun a b => a.1.id ≠ b.1.id := by
  refine List.Pairwise.filter _ (List.pairwise_flatMap.mpr ⟨fun c _ => ?_, ?_⟩)
  · refine List.pairwise_map.mpr ((db.identities.unique.filter _).imp_of_mem fun hi hj h => ?_)
    have hi' := (List.mem_filter.mp hi).2
    have hj' := (List.mem_filter.mp hj).2
    rw [beq_iff_eq] at hi' hj'
    simp [identitySchema, ← hi', ← hj'] at h
  · refine db.conversations.unique.imp fun h x hx y hy => ?_
    obtain ⟨i, _, rfl⟩ := List.mem_map.mp hx
    obtain ⟨j, _, rfl⟩ := List.mem_map.mp hy
    simpa [conversationSchema] using h

variable (db filter) in
omit [LinearOrder ι] in
theorem descKey_ne : (filter.matching search db).Pairwise fun a b =>
    descKey collate a.1 ≠ descKey collate b.1 :=
  (pairwise_matching search).imp fun h heq => h (collate.injective (Prod.ext_iff.mp heq).2)

variable (db filter) in
omit [LinearOrder ι] in
theorem ascKey_ne : (filter.matching search db).Pairwise fun a b =>
    ascKey collate a.1 ≠ ascKey collate b.1 :=
  (pairwise_matching search).imp fun h heq => h (collate.injective (Prod.ext_iff.mp heq).2)

variable (db filter) in
/-- The descending walk gives every conversation that matches. -/
theorem walk_desc : Walk (inboxPage collate search membership db filter limit true) none
    (inOrder collate search db filter true) := by
  rw [inboxPage_eq]
  refine Walk.map summary (walk_of_suffix (n := pageSize limit) rowCursor
    (fun a => ordered collate true ((filter.matching search db).filter fun row =>
      (cursorPredicate collate true a.1.lastMessageAt a.1.id row.1).holds))
    (pageSize_pos limit) (fun _ => rfl) ?_ fun pre a post hsplit _ => ?_)
  · exact congrArg (fun rows => Except.ok (cut rowCursor _ (ordered collate true rows)))
      (List.filter_eq_self.mpr fun _ _ => rfl)
  · rw [ordered_desc] at hsplit
    have hsorted := pairwise_sortBy (descKey_ne collate search db filter)
    rw [ordered_desc, filter_sortBy (descKey_ne collate search db filter), ← filter_after hsorted hsplit]
    refine List.filter_congr fun row _ => ?_
    rw [Bool.eq_iff_iff, cursorPredicate_desc, decide_eq_true_iff]

/-- The rows with a time. -/
def timed (rows : List (Conversation × ChannelIdentity)) : List (Conversation × ChannelIdentity) :=
  rows.filter fun row => row.1.lastMessageAt.isSome

theorem timed_of_lt {a b : Conversation} (h : ascKey collate a < ascKey collate b)
    (hb : b.lastMessageAt.isSome) : a.lastMessageAt.isSome := by
  rw [ascKey_lt] at h
  cases ha : a.lastMessageAt with
  | some s => rfl
  | none =>
    cases hb' : b.lastMessageAt with
    | some t => rw [ha, hb'] at h; exact h.elim
    | none => rw [hb'] at hb; cases hb

/-- What the query with a row's cursor gives, in ascending order. -/
theorem after_asc (a : Conversation × ChannelIdentity) :
    ordered collate false ((filter.matching search db).filter fun row =>
        (cursorPredicate collate false a.1.lastMessageAt a.1.id row.1).holds) =
      (ordered collate false (filter.matching search db)).filter fun row =>
        ascKey collate a.1 < ascKey collate row.1 ∧
          (a.1.lastMessageAt.isSome → row.1.lastMessageAt.isSome) := by
  rw [ordered_asc, ordered_asc, filter_sortBy (ascKey_ne collate search db filter)]
  refine List.filter_congr fun row _ => ?_
  rw [Bool.eq_iff_iff, cursorPredicate_asc, decide_eq_true_iff]

variable (db filter) in
theorem sorted_asc : (ordered collate false (filter.matching search db)).Pairwise fun a b =>
    ascKey collate a.1 < ascKey collate b.1 := by
  rw [ordered_asc]
  exact pairwise_sortBy (ascKey_ne collate search db filter)

/-- The ascending walk gives every conversation that matches, where the rows that end a page are
followed by rows with a time, or have none. -/
theorem walk_asc
    (h : ∀ pre a post, ordered collate false (filter.matching search db) = pre ++ a :: post →
      pageSize limit ≤ pre.length + 1 → a.1.lastMessageAt.isSome →
        ∀ row ∈ post, row.1.lastMessageAt.isSome) :
    Walk (inboxPage collate search membership db filter limit false) none
      (inOrder collate search db filter false) := by
  rw [inboxPage_eq]
  refine Walk.map summary (walk_of_suffix (n := pageSize limit) rowCursor
    (fun a => ordered collate false ((filter.matching search db).filter fun row =>
      (cursorPredicate collate false a.1.lastMessageAt a.1.id row.1).holds))
    (pageSize_pos limit) (fun _ => rfl) ?_ fun pre a post hsplit hlength => ?_)
  · exact congrArg (fun rows => Except.ok (cut rowCursor _ (ordered collate false rows)))
      (List.filter_eq_self.mpr fun _ _ => rfl)
  · have hpost := filter_after (sorted_asc collate search db filter) hsplit
    rw [after_asc]
    refine Eq.trans (List.filter_congr fun row hrow => ?_) hpost
    rw [decide_eq_decide]
    refine ⟨fun hlt => hlt.1, fun hlt => ⟨hlt, fun ha => ?_⟩⟩
    refine h pre a post hsplit hlength ha row ?_
    rw [← hpost]
    exact List.mem_filter.mpr ⟨hrow, by simpa using hlt⟩

/-- The ascending walk gives the conversations with a time, where there are others and the first page
ends before them. -/
theorem walk_timed (hlength : pageSize limit ≤ (timed (filter.matching search db)).length)
    (hnull : ∃ row ∈ filter.matching search db, row.1.lastMessageAt = none) :
    Walk (inboxPage collate search membership db filter limit false) none
      ((timed (ordered collate false (filter.matching search db))).map summary) := by
  set rows := ordered collate false (filter.matching search db) with hrows
  have hsorted := sorted_asc collate search db filter
  have hperm : rows.Perm (filter.matching search db) := perm_ordered collate false _
  have hsplit : rows = timed rows ++ rows.filter fun row => !row.1.lastMessageAt.isSome :=
    filter_append_filter hsorted fun a b hlt hb => timed_of_lt collate hlt hb
  rw [inboxPage_eq]
  refine Walk.map summary (walk_of_cut (n := pageSize limit) rowCursor
    (fun a => ordered collate false ((filter.matching search db).filter fun row =>
      (cursorPredicate collate false a.1.lastMessageAt a.1.id row.1).holds))
    (pageSize_pos limit) (fun _ => rfl) (rows.filter fun row => !row.1.lastMessageAt.isSome)
    ?_ ?_ ?_ fun pre a post htimed _ => ?_)
  · rw [← hsplit]
    exact congrArg (fun rows => Except.ok (cut rowCursor _ (ordered collate false rows)))
      (List.filter_eq_self.mpr fun _ _ => rfl)
  · obtain ⟨row, hrow, hnone⟩ := hnull
    refine List.ne_nil_of_mem (a := row) (List.mem_filter.mpr ⟨hperm.mem_iff.mpr hrow, ?_⟩)
    rw [hnone]
    rfl
  · rw [timed, (hperm.filter _).length_eq]
    exact hlength
  · have ha : a ∈ timed rows := htimed ▸ List.mem_append_right _ List.mem_cons_self
    have hpost := filter_after (hsorted.filter _) htimed
    rw [after_asc, ← hpost, List.filter_filter]
    refine List.filter_congr fun row _ => ?_
    rw [Bool.eq_iff_iff, decide_eq_true_iff, Bool.and_eq_true, decide_eq_true_iff]
    exact ⟨fun h => ⟨h.1, h.2 (List.mem_filter.mp ha).2⟩, fun h => ⟨h.1, fun _ => h.2⟩⟩

theorem perm_inOrder (sortDesc : Bool) : (inOrder collate search db filter sortDesc).Perm
    ((filter.matching search db).map summary) :=
  (perm_ordered collate sortDesc _).map summary

variable (db filter)

/-- Both walks give every conversation that matches once, in the order of the request, so that they
give the same conversations. -/
structure WalksAlike : Prop where
  descending : Walk (inboxPage collate search membership db filter limit true) none
    (inOrder collate search db filter true)
  ascending : Walk (inboxPage collate search membership db filter limit false) none
    (inOrder collate search db filter false)
  same : ∀ items items', Walk (inboxPage collate search membership db filter limit true) none items →
    Walk (inboxPage collate search membership db filter limit false) none items' → items.Perm items'

/-- No conversation that matches is without a time, or the first page reaches those that are. -/
def NullsReached : Prop :=
  (∀ row ∈ filter.matching search db, row.1.lastMessageAt.isSome) ∨
    (timed (filter.matching search db)).length < pageSize limit

variable {db filter limit}

theorem walk_asc_of_nullsReached (h : NullsReached search db filter limit) :
    Walk (inboxPage collate search membership db filter limit false) none
      (inOrder collate search db filter false) := by
  have hperm := perm_ordered collate false (filter.matching search db)
  refine walk_asc collate search membership limit fun pre a post hsplit hlength ha row hrow => ?_
  rcases h with hnone | hreached
  · refine hnone row (hperm.mem_iff.mp ?_)
    rw [hsplit]
    exact List.mem_append_right _ (List.mem_cons_of_mem _ hrow)
  · -- the rows up to the end of the page would all have a time
    have hsorted := sorted_asc collate search db filter
    rw [hsplit, List.pairwise_append] at hsorted
    have hpre : pre.filter (fun row => row.1.lastMessageAt.isSome) = pre :=
      List.filter_eq_self.mpr fun b hb =>
        timed_of_lt collate (hsorted.2.2 b hb a List.mem_cons_self) ha
    have hcount : (timed (filter.matching search db)).length =
        (pre ++ a :: timed post).length := by
      rw [timed, ← (hperm.filter _).length_eq, hsplit, List.filter_append, hpre,
        List.filter_cons_of_pos (by simpa using ha)]
      rfl
    rw [List.length_append, List.length_cons] at hcount
    omega

variable (db filter limit)

/-- **The two walks of the inbox** give the same conversations exactly when none that matches is
without a time, or fewer than a page have one. -/
theorem walksAlike_iff : WalksAlike collate search membership db filter limit ↔
    NullsReached search db filter limit := by
  constructor
  · intro h
    by_contra hnot
    rw [NullsReached, not_or, not_lt] at hnot
    obtain ⟨hnull, hlength⟩ := hnot
    push Not at hnull
    obtain ⟨row, hrow, hnone⟩ := hnull
    have hnone' : row.1.lastMessageAt = none := by simpa using hnone
    have hwalk := (walk_timed collate search membership limit hlength ⟨row, hrow, hnone'⟩).unique
      h.ascending
    -- so no row was lost
    have hcount := congrArg List.length hwalk
    rw [inOrder, List.length_map, List.length_map] at hcount
    have hall := List.length_filter_eq_length_iff.mp hcount row
      ((perm_ordered collate false _).mem_iff.mpr hrow)
    exact hnone hall
  · intro h
    have hdesc := walk_desc collate search membership db filter limit
    have hasc := walk_asc_of_nullsReached collate search membership h
    refine ⟨hdesc, hasc, fun items items' hwalk hwalk' => ?_⟩
    rw [hwalk.unique hdesc, hwalk'.unique hasc]
    exact (perm_inOrder collate search true).trans (perm_inOrder collate search false).symm

end Pages

/-! ### A conversation that is lost -/

/-- An org with two customers, one of whom has not written yet. -/
def quietDb : Db :=
  { Db.empty with
    identities := ⟨[⟨"identity", "org", "whatsapp", "4915", some "Kim", none,
        ⟨⟨2026, 1, 1⟩, 0, 0, 0, 0⟩⟩, ⟨"quiet", "org", "whatsapp", "4916", none, none,
        ⟨⟨2026, 1, 1⟩, 0, 0, 0, 0⟩⟩], by simp [identitySchema], by simp [identitySchema]⟩
    conversations := ⟨[⟨"conversation", "org", "identity", "open", none,
        some ⟨⟨2026, 1, 2⟩, 0, 0, 0, 0⟩, some "Hi", 1, ⟨⟨2026, 1, 1⟩, 0, 0, 0, 0⟩⟩,
        ⟨"silence", "org", "quiet", "open", none, none, none, 0, ⟨⟨2026, 1, 1⟩, 0, 0, 0, 0⟩⟩],
      by decide, by simp [conversationSchema]⟩ }

/-- Every conversation of the org. -/
def everything : InboxFilter := ⟨"org", none, none, none⟩

/-- A search that finds nothing. -/
def noSearch : TextSearch := ⟨fun _ _ => false, fun _ _ => false⟩

/-- The customer who has not written yet is not on the ascending walk with pages of one row. -/
theorem not_walksAlike : ¬∀ (ι : Type) (_ : LinearOrder ι) (collate : String ↪ ι)
    (search : TextSearch) (membership : Core.Membership) (db : Db) (filter : InboxFilter)
    (limit : ℤ), WalksAlike collate search membership db filter limit := by
  intro h
  have halike := h String inferInstance (.refl String) noSearch
    ⟨"ada", "org", .member, ⟨⟨2026, 1, 1⟩, 0, 0, 0, 0⟩⟩ quietDb everything 1
  have hmatching : everything.matching noSearch quietDb =
      [(quietDb.conversations.rows[0], quietDb.identities.rows[0]),
        (quietDb.conversations.rows[1], quietDb.identities.rows[1])] := by decide
  have hwalk := (walk_timed _ _ _ 1 (by rw [hmatching]; decide)
    ⟨_, by rw [hmatching]; exact List.mem_cons_of_mem _ List.mem_cons_self, rfl⟩).unique
      halike.ascending
  have hcount := congrArg List.length hwalk
  rw [(perm_inOrder _ _ false).length_eq, List.length_map, List.length_map, timed,
    ((perm_ordered _ false _).filter _).length_eq, hmatching] at hcount
  revert hcount
  decide

end A2ZCore.Omnichannel
