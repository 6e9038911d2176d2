import A2ZCore.Core.IsoFormat
import A2ZCore.Core.Services
import A2ZCore.Lib.Contract
import A2ZCore.Lib.Limit
import Mathlib

/-!
# Reading the audit log

`audit.get_audit_events` is one Query on the index by org and time. The store reads the org's items
newest first, as many as the limit says and as fit on a page, and only then looks which of them pass the
filters. Times it compares as texts. So an event that should have been found is missed where events that
do not pass are newer, and a time bound that is not in UTC is compared by what its clock shows.

## Main definitions

* `LoggedEvent`, `toEvent` — the events that are returned
* `IsGsi1`, `Gsi1Query.answer` — the index, and what a Query on it answers
* `getAuditEvents` — the query of the source
* `Audited` — the states whose log was written by `log_audit`
* `Between`, `BetweenClocks` — what the time bounds say, and what the store compares

## Main results

* `getAuditEvents_top_iff` — when the newest matching events are returned
* `getAuditEvents_between_iff` — when the events between two times are returned
-/

namespace A2ZCore.Core

open Interaction Paging

/-! ### Events -/

/-- `audit.AuditEvent`. -/
structure LoggedEvent where
  eventId : String
  orgId : String
  timestamp : Moment
  actorId : String
  action : String
  resourceType : String
  resourceId : String
  metadata : Json

/-- The item that is written for an event. -/
def LoggedEvent.item (e : LoggedEvent) : AuditEvent where
  eventId := e.eventId
  orgId := e.orgId
  timestamp := e.timestamp.isoformat
  actorId := e.actorId
  action := e.action
  resourceType := e.resourceType
  resourceId := e.resourceId
  metadata := e.metadata

/-- `audit._to_event`. -/
def toEvent (data : AuditEvent) : Except PyErr LoggedEvent :=
  match fromisoformat data.timestamp with
  | none =>
    .error ⟨.exception "ValueError", "Invalid isoformat string: " ++ pyRepr data.timestamp⟩
  | some timestamp => .ok
    { eventId := data.eventId, orgId := data.orgId, timestamp, actorId := data.actorId,
      action := data.action, resourceType := data.resourceType, resourceId := data.resourceId,
      metadata := data.metadata }

theorem toEvent_item (e : LoggedEvent) : toEvent e.item = .ok e := by
  simp only [toEvent, LoggedEvent.item, fromisoformat_isoformat]

theorem mapM_toEvent_item (events : List LoggedEvent) :
    (events.map LoggedEvent.item).mapM toEvent = .ok events := by
  induction events with
  | nil => rfl
  | cons e events ih =>
    rw [List.map_cons, List.mapM_cons, toEvent_item, ih]
    rfl

/-! ### The index -/

/-- A Query on `GSI1`, newest first. The bounds are on the sort key; the filters are applied to what has
been read. -/
structure Gsi1Query where
  org : String
  lower : Option String
  upper : Option String
  action : Option String
  actor : Option String
  resource : Option String
  limit : ℤ

/-- The key condition. -/
def Gsi1Query.inRange (q : Gsi1Query) (e : AuditEvent) : Bool :=
  q.lower.all (· ≤ e.timestamp) && q.upper.all (e.timestamp ≤ ·)

/-- The filter expression. -/
def passes (action actor resource : Option String) (e : AuditEvent) : Bool :=
  action.all (e.action == ·) && (actor.all (e.actorId == ·) && resource.all (e.resourceId == ·))

/-- `GSI1` holds the items of each org in the order of their timestamps. -/
structure IsGsi1 (items : List AuditEvent) (gsi1 : String → List AuditEvent) : Prop where
  perm : ∀ org, (gsi1 org).Perm (items.filter fun e => e.orgId == org)
  sorted : ∀ org, (gsi1 org).Pairwise fun a b => a.timestamp ≤ b.timestamp

/-- How many of the items fit into `budget` bytes. -/
def roomFor (size : AuditEvent → ℕ) : ℕ → List AuditEvent → ℕ
  | _, [] => 0
  | budget, e :: es => if size e ≤ budget then 1 + roomFor size (budget - size e) es else 0

/-- How many items a Query reads: up to the limit, and up to a page of 1 MB. -/
def reads (size : AuditEvent → ℕ) (limit : ℕ) (items : List AuditEvent) : ℕ :=
  min limit (roomFor size 1048576 items)

/-- What DynamoDB answers. -/
def Gsi1Query.answer (size : AuditEvent → ℕ) (gsi1 : String → List AuditEvent) (q : Gsi1Query) :
    Except PyErr (List AuditEvent) :=
  if q.limit < 1 then
    .error ⟨.exception "ParamValidationError", "Parameter validation failed:\nInvalid value for " ++
      "parameter Limit, value: " ++ toString q.limit ++ ", valid min value: 1"⟩
  else if (q.lower.bind fun l => q.upper.map fun u => decide (u < l)) = some true then
    .error ⟨.clientError "ValidationException", "The BETWEEN operator requires upper bound to be " ++
      "greater than or equal to lower bound"⟩
  else
    let items := (gsi1 q.org).reverse.filter q.inRange
    .ok ((items.take (reads size q.limit.toNat items)).filter (passes q.action q.actor q.resource))

/-- `audit.get_audit_events`, over what the Query returns. -/
def getAuditEvents (query : Gsi1Query → Except PyErr (List AuditEvent)) (orgId : String)
    (actionType actorId resourceId : Option String) (fromTime toTime : Option Moment) (limit : ℤ) :
    Except PyErr (List LoggedEvent) :=
  let resp := query
    { org := orgId, lower := fromTime.map Moment.isoformat, upper := toTime.map Moment.isoformat,
      action := actionType, actor := actorId, resource := resourceId, limit }
  match resp with
  | .error exc => .error ⟨.auditError, "Failed to query audit log: " ++ exc.text⟩
  | .ok items => items.mapM toEvent

/-! ### The log -/

/-- The states whose log was written by `log_audit`, at times that exist. Whatever else happens leaves
the log alone, and so does a call that is stopped: it writes at its last step. -/
inductive Audited : World → Prop where
  | empty {w : World} (h : w.audit = []) : Audited w
  | other {w w' : World} (hw : Audited w) (h : w'.audit = w.audit) : Audited w'
  | logged {w w' : World} {o : Proc.Oracle Choice} {r : Except PyErr AuditEvent} (hw : Audited w)
      (orgId actorId action resourceType resourceId : String) (metadata : Json)
      (ho : ∀ n x, o n = some x → x.now.Valid)
      (h : Proc.exec Call.answer (logAudit orgId actorId action resourceType resourceId metadata) o w =
        (some r, w')) : Audited w'

/-- A call of `log_audit` appends one event, with the time that was read, or nothing. -/
theorem wp_logAudit (orgId actorId action resourceType resourceId : String) (metadata : Json)
    (w : World) :
    (Contract.alone Call.answer fun x => x.now.Valid).wp
      (logAudit orgId actorId action resourceType resourceId metadata) w fun _ w' =>
        w'.audit = w.audit ∨
          ∃ e : LoggedEvent, e.timestamp.offset = 0 ∧ w'.audit = w.audit ++ [e.item] := by
  refine Contract.wp_bind (Contract.wp_alone_perform fun x hx => ?_)
  refine Contract.wp_bind (Contract.wp_alone_perform fun y _ => ?_)
  refine Contract.wp_bind (Contract.wp_handle (Contract.wp_alone_perform fun z _ => ?_))
  let e : LoggedEvent :=
    { eventId := y.token, orgId, timestamp := hx.utc, actorId, action, resourceType, resourceId,
      metadata }
  have hitem : e.item = ⟨y.token, orgId, x.now.isoformat, actorId, action, resourceType, resourceId,
      metadata⟩ := by
    simp only [e, LoggedEvent.item, hx.isoformat_utc]
  cases hfate : z.fate with
  | ok =>
    simp only [Call.answer, hfate, Fate.settle]
    exact .inr ⟨e, rfl, by rw [hitem]⟩
  | lost exc =>
    simp only [Call.answer, hfate, Fate.settle]
    exact .inl rfl
  | late exc =>
    simp only [Call.answer, hfate, Fate.settle]
    exact .inr ⟨e, rfl, by rw [hitem]⟩

/-- Every item of the log is that of an event at a time in UTC. -/
theorem Audited.item {w : World} (hw : Audited w) :
    ∀ item ∈ w.audit, ∃ e : LoggedEvent, e.timestamp.offset = 0 ∧ item = e.item := by
  induction hw with
  | empty h =>
    rw [h]
    simp
  | other hw h ih => rwa [h]
  | logged hw orgId actorId action resourceType resourceId metadata ho h ih =>
    rcases Contract.exec_alone (wp_logAudit _ _ _ _ _ _ _) ho h with hsame | ⟨e, he, happend⟩
    · rwa [hsame]
    · rw [happend]
      intro item hitem
      rcases List.mem_append.mp hitem with hold | hnew
      · exact ih item hold
      · exact ⟨e, he, List.mem_singleton.mp hnew⟩

/-- The events of a list of items. -/
def eventsOf (items : List AuditEvent) : List LoggedEvent :=
  items.filterMap fun item => (toEvent item).toOption

/-- The events of an org. -/
def auditLog (w : World) (orgId : String) : List LoggedEvent :=
  eventsOf (w.audit.filter fun item => item.orgId == orgId)

/-- The events of an org, newest first, as the index has them. -/
def newestFirst (gsi1 : String → List AuditEvent) (orgId : String) : List LoggedEvent :=
  eventsOf (gsi1 orgId).reverse

/-! ### The order of the index -/

theorem instant_of_utc {m : Moment} (h : m.offset = 0) : m.instant = m.wall.micros := by
  rw [Moment.instant, h, Int.sub_zero]

/-- A time in UTC before a time, as texts: its clock shows no more. -/
theorem isoformat_utc_le_iff {m n : Moment} (hm : m.offset = 0) :
    m.isoformat ≤ n.isoformat ↔ m.wall.micros ≤ n.wall.micros := by
  have hzero := offsetText_zero_le n.offset_lt
  rw [String.le_iff_toList_le, isoformat_le_iff, hm, ← micros_lt_iff m.valid n.valid,
    ← micros_eq_iff m.valid n.valid]
  simp only [hzero, and_true]
  omega

/-- A time before a time in UTC, as texts: its clock shows less, or it is the same time in UTC. -/
theorem isoformat_le_utc_iff {m n : Moment} (hn : n.offset = 0) :
    m.isoformat ≤ n.isoformat ↔
      m.wall.micros < n.wall.micros ∨ m.wall.micros = n.wall.micros ∧ m.offset = 0 := by
  rw [String.le_iff_toList_le, isoformat_le_iff, hn, ← micros_lt_iff m.valid n.valid,
    ← micros_eq_iff m.valid n.valid, offsetText_le_zero_iff m.offset_lt]

theorem map_item_eventsOf {items : List AuditEvent}
    (h : ∀ item ∈ items, ∃ e : LoggedEvent, e.timestamp.offset = 0 ∧ item = e.item) :
    (eventsOf items).map LoggedEvent.item = items ∧
      ∀ e ∈ eventsOf items, e.timestamp.offset = 0 := by
  induction items with
  | nil => simp [eventsOf]
  | cons item items ih =>
    obtain ⟨e, he, rfl⟩ := h item (List.mem_cons_self ..)
    obtain ⟨hmap, hutc⟩ := ih fun i hi => h i (List.mem_cons_of_mem _ hi)
    have hread : (toEvent e.item).toOption = some e := by
      rw [toEvent_item]
      rfl
    have hcons : eventsOf (e.item :: items) = e :: eventsOf items := List.filterMap_cons_some hread
    rw [hcons]
    refine ⟨by rw [List.map_cons, hmap], ?_⟩
    simpa [he] using hutc

section Index

variable {w : World} {gsi1 : String → List AuditEvent}

/-- The index lists the events of an org, newest first. -/
theorem IsGsi1.listing (h : IsGsi1 w.audit gsi1) (hw : Audited w) (orgId : String) :
    (newestFirst gsi1 orgId).map LoggedEvent.item = (gsi1 orgId).reverse ∧
      (∀ e ∈ newestFirst gsi1 orgId, e.timestamp.offset = 0) ∧
        Listing (fun e : LoggedEvent => e.timestamp.instant) (auditLog w orgId)
          (newestFirst gsi1 orgId) := by
  have hperm : (gsi1 orgId).reverse.Perm (w.audit.filter fun item => item.orgId == orgId) :=
    (List.reverse_perm _).trans (h.perm orgId)
  have hitem : ∀ item ∈ (gsi1 orgId).reverse,
      ∃ e : LoggedEvent, e.timestamp.offset = 0 ∧ item = e.item := fun item hmem =>
    hw.item item (List.mem_of_mem_filter (hperm.mem_iff.mp hmem))
  obtain ⟨hmap, hutc⟩ := map_item_eventsOf hitem
  have hsorted := List.pairwise_reverse.mpr (h.sorted orgId)
  rw [← hmap, List.pairwise_map] at hsorted
  refine ⟨hmap, hutc, hperm.filterMap _, hsorted.imp_of_mem fun {a b} ha hb hle => ?_⟩
  have hle' := (isoformat_utc_le_iff (hutc b hb)).mp hle
  rw [instant_of_utc (hutc a ha), instant_of_utc (hutc b hb)]
  exact Int.ofNat_le.mpr hle'

/-! ### What a query returns -/

/-- The filters of a query, of an event. -/
def Matches (actionType actorId resourceId : Option String) (e : LoggedEvent) : Bool :=
  actionType.all (e.action == ·) && (actorId.all (e.actorId == ·) && resourceId.all (e.resourceId == ·))

/-- How many events a query reads. -/
def readsOf (size : AuditEvent → ℕ) (limit : ℕ) (events : List LoggedEvent) : ℕ :=
  reads size limit (events.map LoggedEvent.item)

theorem readsOf_le (size : AuditEvent → ℕ) (limit : ℕ) (events : List LoggedEvent) :
    readsOf size limit events ≤ limit := Nat.min_le_left limit _

/-- The bounds of a query that are given are in the order the store asks for. -/
def BoundsInOrder (fromTime toTime : Option Moment) : Prop :=
  ∀ f ∈ fromTime, ∀ t ∈ toTime, f.isoformat ≤ t.isoformat

/-- The key condition, of an event. -/
def InRange (fromTime toTime : Option Moment) (e : LoggedEvent) : Bool :=
  fromTime.all (fun f => f.isoformat ≤ e.timestamp.isoformat) &&
    toTime.all (fun t => e.timestamp.isoformat ≤ t.isoformat)

/-- What is returned: of the events in the range, those that were read and match. -/
theorem getAuditEvents_answer (h : IsGsi1 w.audit gsi1) (hw : Audited w) (size : AuditEvent → ℕ)
    (orgId : String) (actionType actorId resourceId : Option String) (fromTime toTime : Option Moment)
    {n : ℕ} (hn : 1 ≤ n) (events : List LoggedEvent) :
    getAuditEvents (Gsi1Query.answer size gsi1) orgId actionType actorId resourceId fromTime toTime n =
        .ok events ↔
      BoundsInOrder fromTime toTime ∧
        events = (((newestFirst gsi1 orgId).filter (InRange fromTime toTime)).take
          (readsOf size n ((newestFirst gsi1 orgId).filter (InRange fromTime toTime)))).filter
            (Matches actionType actorId resourceId) := by
  obtain ⟨hmap, -, -⟩ := h.listing hw orgId
  have hlimit : ¬((n : ℤ) < 1) := by omega
  have horder : ((fromTime.map Moment.isoformat).bind fun l =>
      (toTime.map Moment.isoformat).map fun u => decide (u < l)) = some true ↔
        ¬BoundsInOrder fromTime toTime := by
    cases fromTime <;> cases toTime <;> simp [BoundsInOrder]
  have hrange : Gsi1Query.inRange ⟨orgId, fromTime.map Moment.isoformat, toTime.map Moment.isoformat,
      actionType, actorId, resourceId, n⟩ ∘ LoggedEvent.item = InRange fromTime toTime := by
    have htime : ∀ e : LoggedEvent, e.item.timestamp = e.timestamp.isoformat := fun _ => rfl
    funext e
    cases fromTime <;> cases toTime <;>
      simp only [Function.comp, Gsi1Query.inRange, InRange, Option.map_none, Option.map_some,
        Option.all_none, Option.all_some, htime]
  have hmatch : passes actionType actorId resourceId ∘ LoggedEvent.item =
      Matches actionType actorId resourceId := rfl
  unfold getAuditEvents Gsi1Query.answer
  dsimp only
  rw [if_neg hlimit, Int.toNat_natCast, ← hmap, List.filter_map, hrange]
  by_cases hbounds : BoundsInOrder fromTime toTime
  · rw [if_neg (by rw [horder]; exact not_not_intro hbounds), ← List.map_take, List.filter_map, hmatch]
    dsimp only
    rw [mapM_toEvent_item, Except.ok.injEq, readsOf]
    exact ⟨fun heq => ⟨hbounds, heq.symm⟩, fun heq => heq.2.symm⟩
  · rw [if_pos (horder.mpr hbounds)]
    exact ⟨fun heq => (nomatch heq), fun heq => absurd heq.1 hbounds⟩

/-- **The newest matching events are returned**, exactly when none of those that were not read matches,
or as many were read as the limit says, and all match. -/
theorem getAuditEvents_top_iff (h : IsGsi1 w.audit gsi1) (hw : Audited w) (size : AuditEvent → ℕ)
    (orgId : String) (actionType actorId resourceId : Option String) {n : ℕ} (hn : 1 ≤ n) :
    (∃ events, getAuditEvents (Gsi1Query.answer size gsi1) orgId actionType actorId resourceId none none
        n = .ok events ∧
      Top (fun e : LoggedEvent => e.timestamp.instant)
        ((auditLog w orgId).filter (Matches actionType actorId resourceId)) n events) ↔
      (∀ e ∈ (newestFirst gsi1 orgId).drop (readsOf size n (newestFirst gsi1 orgId)),
          Matches actionType actorId resourceId e = false) ∨
        ((newestFirst gsi1 orgId).take (readsOf size n (newestFirst gsi1 orgId))).length = n ∧
          ∀ e ∈ (newestFirst gsi1 orgId).take (readsOf size n (newestFirst gsi1 orgId)),
            Matches actionType actorId resourceId e = true := by
  have hbounds : BoundsInOrder none none := fun f hf => (nomatch hf)
  have hall : (newestFirst gsi1 orgId).filter (InRange none none) = newestFirst gsi1 orgId :=
    List.filter_eq_self.mpr fun _ _ => rfl
  rw [← top_filter_take_iff (h.listing hw orgId).2.2 (Matches actionType actorId resourceId)
    (readsOf_le size n _)]
  simp only [getAuditEvents_answer h hw size orgId actionType actorId resourceId none none hn, hbounds,
    hall, true_and]
  exact ⟨fun ⟨_, heq, htop⟩ => heq ▸ htop, fun htop => ⟨_, rfl, htop⟩⟩

/-- The event lies between two times. -/
def Between (fromTime toTime : Moment) (e : LoggedEvent) : Bool :=
  fromTime.instant ≤ e.timestamp.instant && e.timestamp.instant ≤ toTime.instant

/-- What the store compares: what the clocks of the bounds show, and whether the lower one is in UTC. -/
def BetweenClocks (fromTime toTime : Moment) (e : LoggedEvent) : Bool :=
  (fromTime.wall.micros < e.timestamp.wall.micros ||
      fromTime.wall.micros = e.timestamp.wall.micros && fromTime.offset = 0) &&
    e.timestamp.wall.micros ≤ toTime.wall.micros

/-- The order the store asks for: that of the clocks, and where these are equal, of the offsets as they
are written. -/
def ClocksInOrder (fromTime toTime : Moment) : Prop :=
  fromTime.wall.micros < toTime.wall.micros ∨
    fromTime.wall.micros = toTime.wall.micros ∧ offsetText fromTime.offset ≤ offsetText toTime.offset

theorem boundsInOrder_iff (fromTime toTime : Moment) :
    BoundsInOrder (some fromTime) (some toTime) ↔ ClocksInOrder fromTime toTime := by
  have htext : fromTime.isoformat ≤ toTime.isoformat ↔ ClocksInOrder fromTime toTime := by
    rw [String.le_iff_toList_le, isoformat_le_iff, ← micros_lt_iff fromTime.valid toTime.valid,
      ← micros_eq_iff fromTime.valid toTime.valid, ClocksInOrder]
  rw [← htext]
  exact ⟨fun hall => hall fromTime rfl toTime rfl, by rintro hle _ ⟨⟩ _ ⟨⟩; exact hle⟩

theorem inRange_iff (fromTime toTime : Moment) (e : LoggedEvent) :
    InRange (some fromTime) (some toTime) e = true ↔
      fromTime.isoformat ≤ e.timestamp.isoformat ∧ e.timestamp.isoformat ≤ toTime.isoformat := by
  simp only [InRange, Option.all_some, Bool.and_eq_true, decide_eq_true_eq]

theorem betweenClocks_iff (fromTime toTime : Moment) (e : LoggedEvent) :
    BetweenClocks fromTime toTime e = true ↔
      (fromTime.wall.micros < e.timestamp.wall.micros ∨
        fromTime.wall.micros = e.timestamp.wall.micros ∧ fromTime.offset = 0) ∧
      e.timestamp.wall.micros ≤ toTime.wall.micros := by
  simp only [BetweenClocks, Bool.and_eq_true, Bool.or_eq_true, decide_eq_true_eq]

/-- For an event in UTC the texts compare as the clocks. -/
theorem inRange_eq {e : LoggedEvent} (he : e.timestamp.offset = 0) (fromTime toTime : Moment) :
    InRange (some fromTime) (some toTime) e = BetweenClocks fromTime toTime e := by
  rw [Bool.eq_iff_iff, inRange_iff, betweenClocks_iff, isoformat_le_utc_iff he,
    isoformat_utc_le_iff he]

/-- **The events between two times are returned**, exactly when the clocks of the bounds are in order,
every event between the times is between their clocks, every event that is read lies between the times,
and as many can be read. -/
theorem getAuditEvents_between_iff (h : IsGsi1 w.audit gsi1) (hw : Audited w) (size : AuditEvent → ℕ)
    (orgId : String) (fromTime toTime : Moment) {n : ℕ} (hn : 1 ≤ n) :
    (∃ events, getAuditEvents (Gsi1Query.answer size gsi1) orgId none none none (some fromTime)
        (some toTime) n = .ok events ∧
      events.Perm ((auditLog w orgId).filter (Between fromTime toTime))) ↔
      ClocksInOrder fromTime toTime ∧
        (∀ e ∈ auditLog w orgId, Between fromTime toTime e = true →
          BetweenClocks fromTime toTime e = true) ∧
        (∀ e ∈ ((newestFirst gsi1 orgId).filter (BetweenClocks fromTime toTime)).take (readsOf size n
            ((newestFirst gsi1 orgId).filter (BetweenClocks fromTime toTime))),
          Between fromTime toTime e = true) ∧
        ((auditLog w orgId).filter (Between fromTime toTime)).length ≤
          readsOf size n ((newestFirst gsi1 orgId).filter (BetweenClocks fromTime toTime)) := by
  obtain ⟨-, hutc, hlisting⟩ := h.listing hw orgId
  have hrange : (newestFirst gsi1 orgId).filter (InRange (some fromTime) (some toTime)) =
      (newestFirst gsi1 orgId).filter (BetweenClocks fromTime toTime) :=
    List.filter_congr fun e he => inRange_eq (hutc e he) fromTime toTime
  have hall : ∀ events : List LoggedEvent, events.filter (Matches none none none) = events :=
    fun _ => List.filter_eq_self.mpr fun _ _ => rfl
  rw [← take_filter_perm_iff hlisting.perm (Between fromTime toTime) (BetweenClocks fromTime toTime)]
  simp only [getAuditEvents_answer h hw size orgId none none none (some fromTime) (some toTime) hn,
    boundsInOrder_iff, hrange, hall]
  exact ⟨fun ⟨_, ⟨horder, heq⟩, hperm⟩ => ⟨horder, heq ▸ hperm⟩,
    fun ⟨horder, hperm⟩ => ⟨_, ⟨horder, rfl⟩, hperm⟩⟩

/-- Bounds in UTC are compared as times. -/
theorem betweenClocks_of_utc {fromTime toTime : Moment} (hfrom : fromTime.offset = 0)
    (hto : toTime.offset = 0) {e : LoggedEvent} (he : e.timestamp.offset = 0) :
    BetweenClocks fromTime toTime e = Between fromTime toTime e := by
  rw [Bool.eq_iff_iff]
  simp only [BetweenClocks, Between, instant_of_utc hfrom, instant_of_utc hto, instant_of_utc he, hfrom,
    Bool.and_eq_true, Bool.or_eq_true, decide_eq_true_eq, and_true, Int.ofNat_le]
  omega

/-- Between bounds in UTC, the events that are returned are the newest, as many as can be read. -/
theorem getAuditEvents_utc (h : IsGsi1 w.audit gsi1) (hw : Audited w) (size : AuditEvent → ℕ)
    (orgId : String) {fromTime toTime : Moment} (hfrom : fromTime.offset = 0) (hto : toTime.offset = 0)
    (horder : fromTime.instant ≤ toTime.instant) {n : ℕ} (hn : 1 ≤ n) :
    getAuditEvents (Gsi1Query.answer size gsi1) orgId none none none (some fromTime) (some toTime) n =
      .ok (((newestFirst gsi1 orgId).filter (Between fromTime toTime)).take
        (readsOf size n ((newestFirst gsi1 orgId).filter (Between fromTime toTime)))) := by
  obtain ⟨-, hutc, -⟩ := h.listing hw orgId
  have hrange : (newestFirst gsi1 orgId).filter (InRange (some fromTime) (some toTime)) =
      (newestFirst gsi1 orgId).filter (Between fromTime toTime) :=
    List.filter_congr fun e he => by
      rw [inRange_eq (hutc e he), betweenClocks_of_utc hfrom hto (hutc e he)]
  have hclocks : ClocksInOrder fromTime toTime := by
    rw [instant_of_utc hfrom, instant_of_utc hto, Int.ofNat_le] at horder
    rw [ClocksInOrder, hfrom, hto]
    rcases horder.lt_or_eq with hlt | heq
    · exact .inl hlt
    · exact .inr ⟨heq, le_refl _⟩
  rw [getAuditEvents_answer h hw size orgId none none none (some fromTime) (some toTime) hn,
    boundsInOrder_iff, hrange]
  exact ⟨hclocks, (List.filter_eq_self.mpr fun _ _ => rfl).symm⟩

end Index

/-! ### A log of two events -/

/-- The first event: the org is created at midnight. -/
def orgCreated : LoggedEvent where
  eventId := "e1"
  orgId := "org-a"
  timestamp := DateTime.Valid.utc (t := ⟨⟨2026, 1, 1⟩, 0, 0, 0, 0⟩) (by decide)
  actorId := "user-1"
  action := "org.created"
  resourceType := "org"
  resourceId := "org-a"
  metadata := .obj []

/-- The second event: another user changes the settings an hour later. -/
def settingsChanged : LoggedEvent where
  eventId := "e2"
  orgId := "org-a"
  timestamp := DateTime.Valid.utc (t := ⟨⟨2026, 1, 1⟩, 1, 0, 0, 0⟩) (by decide)
  actorId := "user-2"
  action := "settings.changed"
  resourceType := "settings"
  resourceId := "org-a"
  metadata := .obj []

/-- The log after the two. -/
def twoEvents : World :=
  { World.initial with audit := [orgCreated.item, settingsChanged.item] }

/-- The index of a log whose items were written in order. -/
def indexOf (w : World) (org : String) : List AuditEvent := w.audit.filter fun e => e.orgId == org

theorem isGsi1_indexOf {w : World} (h : w.audit.Pairwise fun a b => a.timestamp ≤ b.timestamp) :
    IsGsi1 w.audit (indexOf w) where
  perm _ := .refl _
  sorted _ := h.filter _

theorem isGsi1_twoEvents : IsGsi1 twoEvents.audit (indexOf twoEvents) := by
  have hle : orgCreated.item.timestamp ≤ settingsChanged.item.timestamp :=
    (isoformat_utc_le_iff rfl).mpr (by decide)
  exact isGsi1_indexOf (by simp [twoEvents, hle])

/-- A call of `log_audit` that goes through. -/
theorem audited_append {w : World} (hw : Audited w) (e : LoggedEvent) (h : e.timestamp.offset = 0) :
    Audited { w with audit := w.audit ++ [e.item] } := by
  have hvalid := e.timestamp.valid
  have htime : e.timestamp.wall.isoformat = e.timestamp.isoformat := by
    rw [← hvalid.isoformat_utc]
    simp only [Moment.isoformat, DateTime.Valid.utc, h]
  have hrun : Audited { w with audit := w.audit ++ [{ e.item with
      timestamp := e.timestamp.wall.isoformat }] } :=
    .logged (o := fun _ => some { Choice.calm e.eventId with now := e.timestamp.wall }) hw e.orgId
      e.actorId e.action e.resourceType e.resourceId e.metadata (by rintro n _ ⟨⟩; exact hvalid) rfl
  rwa [htime] at hrun

theorem audited_twoEvents : Audited twoEvents :=
  audited_append (audited_append (w := World.initial) (.empty rfl) orgCreated rfl) settingsChanged rfl

theorem newestFirst_twoEvents : newestFirst (indexOf twoEvents) "org-a" =
    [settingsChanged, orgCreated] := by
  have hindex : (indexOf twoEvents "org-a").reverse = [settingsChanged.item, orgCreated.item] := rfl
  rw [newestFirst, hindex, eventsOf]
  simp [toEvent_item, Except.toOption]

theorem auditLog_twoEvents : auditLog twoEvents "org-a" = [orgCreated, settingsChanged] := by
  have hitems : (twoEvents.audit.filter fun item => item.orgId == "org-a") =
      [orgCreated.item, settingsChanged.item] := rfl
  rw [auditLog, hitems, eventsOf]
  simp [toEvent_item, Except.toOption]

/-- The events of `user-1` are asked for, and the page has room for those of `user-2` too. -/
theorem getAuditEvents_top_iff_twoEvents :
    ∃ events, getAuditEvents (Gsi1Query.answer (fun _ => 400) (indexOf twoEvents)) "org-a" none
        (some "user-1") none none none (2 : ℕ) = .ok events ∧
      Top (fun e : LoggedEvent => e.timestamp.instant)
        ((auditLog twoEvents "org-a").filter (Matches none (some "user-1") none)) 2 events := by
  refine (getAuditEvents_top_iff isGsi1_twoEvents audited_twoEvents (fun _ => 400) "org-a" none
    (some "user-1") none (by decide)).mpr (.inl ?_)
  rw [newestFirst_twoEvents]
  exact fun e he => absurd he List.not_mem_nil

/-- The newest event of `user-1` is asked for: the newest of the log is read, which is not theirs. -/
theorem not_getAuditEvents_top :
    ¬∀ (w : World) (gsi1 : String → List AuditEvent) (size : AuditEvent → ℕ) (orgId : String)
      (actionType actorId resourceId : Option String) (n : ℕ), Audited w → IsGsi1 w.audit gsi1 → 1 ≤ n →
        ∃ events, getAuditEvents (Gsi1Query.answer size gsi1) orgId actionType actorId resourceId none
            none n = .ok events ∧
          Top (fun e : LoggedEvent => e.timestamp.instant)
            ((auditLog w orgId).filter (Matches actionType actorId resourceId)) n events := by
  intro h
  obtain ⟨events, hget, order, hlisting, htake⟩ := h twoEvents (indexOf twoEvents) (fun _ => 0) "org-a"
    none (some "user-1") none 1 audited_twoEvents isGsi1_twoEvents (by decide)
  rw [getAuditEvents_answer isGsi1_twoEvents audited_twoEvents _ _ _ _ _ _ _ (by decide),
    newestFirst_twoEvents] at hget
  have hnone : events = [] := hget.2
  have hmatching : (auditLog twoEvents "org-a").filter (Matches none (some "user-1") none) =
      [orgCreated] := by
    rw [auditLog_twoEvents]
    rfl
  have hone : order = [orgCreated] := List.perm_singleton.mp (hmatching ▸ hlisting.perm)
  rw [hnone, hone] at htake
  cases htake

/-- A time by a clock an hour ahead of UTC. -/
def anHourAhead (t : DateTime) (h : t.Valid) : Moment := ⟨t, 3600000000, h, by decide⟩

/-- The events between half an hour before midnight and noon, by a clock an hour ahead. -/
theorem getAuditEvents_between_iff_twoEvents :
    ∃ events, getAuditEvents (Gsi1Query.answer (fun _ => 400) (indexOf twoEvents)) "org-a" none none
        none (some (anHourAhead ⟨⟨2025, 12, 31⟩, 23, 30, 0, 0⟩ (by decide)))
        (some (anHourAhead ⟨⟨2026, 1, 1⟩, 12, 0, 0, 0⟩ (by decide))) (2 : ℕ) = .ok events ∧
      events.Perm ((auditLog twoEvents "org-a").filter
        (Between (anHourAhead ⟨⟨2025, 12, 31⟩, 23, 30, 0, 0⟩ (by decide))
          (anHourAhead ⟨⟨2026, 1, 1⟩, 12, 0, 0, 0⟩ (by decide)))) := by
  refine (getAuditEvents_between_iff isGsi1_twoEvents audited_twoEvents (fun _ => 400) "org-a" _ _
    (by decide)).mpr ?_
  rw [newestFirst_twoEvents, auditLog_twoEvents]
  exact ⟨.inl (by decide), by decide, by decide, by decide⟩

/-- The first event lies between 0:30 and 1:30 by a clock an hour ahead, but its text comes before that
of the lower bound. -/
theorem not_getAuditEvents_between :
    ¬∀ (w : World) (gsi1 : String → List AuditEvent) (size : AuditEvent → ℕ) (orgId : String)
      (fromTime toTime : Moment) (n : ℕ), Audited w → IsGsi1 w.audit gsi1 → 1 ≤ n →
        ((auditLog w orgId).filter (Between fromTime toTime)).length ≤ n →
          ∃ events, getAuditEvents (Gsi1Query.answer size gsi1) orgId none none none (some fromTime)
              (some toTime) n = .ok events ∧
            events.Perm ((auditLog w orgId).filter (Between fromTime toTime)) := by
  intro h
  have hlen : ((auditLog twoEvents "org-a").filter (Between
      (anHourAhead ⟨⟨2026, 1, 1⟩, 0, 30, 0, 0⟩ (by decide))
      (anHourAhead ⟨⟨2026, 1, 1⟩, 1, 30, 0, 0⟩ (by decide)))).length ≤ 2 := by
    refine (List.length_filter_le _ _).trans ?_
    rw [auditLog_twoEvents]
    rfl
  obtain ⟨events, hget, hperm⟩ := h twoEvents (indexOf twoEvents) (fun _ => 0) "org-a" _ _ 2
    audited_twoEvents isGsi1_twoEvents (by decide) hlen
  rw [getAuditEvents_answer isGsi1_twoEvents audited_twoEvents _ _ _ _ _ _ _ (by decide)] at hget
  have hmem : orgCreated ∈ events := by
    rw [hperm.mem_iff, auditLog_twoEvents]
    exact List.mem_filter.mpr ⟨List.mem_cons_self .., by decide⟩
  rw [hget.2] at hmem
  have hrange := (List.mem_filter.mp (List.mem_of_mem_take (List.mem_of_mem_filter hmem))).2
  rw [inRange_eq rfl] at hrange
  exact absurd hrange (by decide)

end A2ZCore.Core
