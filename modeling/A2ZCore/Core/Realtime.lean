import A2ZCore.Core.Values
import A2ZCore.Lib.LossyLog
import Mathlib

/-!
# The realtime broker

`app.core.realtime`: the registry of subscriber queues, and what `subscribe`, leaving its block,
`publish_update` and `Subscription.get` do to it. Each of these is one step: there is no `await`
between reading the registry and changing it or a queue.

A queue is an object of its own, here a number. The broker also holds the open `subscribe` blocks
with the queue and the keys they will take back when they are left: in the source these are the
locals of the blocks.

## Main definitions

* `Broker`, `Broker.step` — the registry, the queues and the open blocks, and one action on them
* `sentOn`, `receivedBy`, `lostBy` — what was published on a subscriber's channels, what it has
  received, and what it has lost

## Main results

* `refines_log` — to each live subscriber the broker is a lossy log of what is published on its
  channels, and the registry holds the keys of the live subscribers
-/

namespace A2ZCore.Core

/-! ### The broker -/

/-- `_QUEUE_MAXSIZE`. -/
def queueMaxsize : ℕ := 100

/-- `_channel_key`. -/
def channelKey (channel : String) : String := "rt:" ++ channel

/-- An open `subscribe` block: its queue, and its keys. -/
structure Subscription where
  queue : ℕ
  keys : List String

/-- The module's state, and the open blocks. -/
structure Broker where
  /-- `_subscribers` -/
  subscribers : String → Option (Finset ℕ)
  queues : ℕ → List Json
  subscriptions : List Subscription
  nextQueue : ℕ

namespace Broker

/-- No subscriber. -/
def empty : Broker := ⟨fun _ => none, fun _ => [], [], 0⟩

/-- `_subscribers.get(key, ())`. -/
def members (b : Broker) (key : String) : Finset ℕ := (b.subscribers key).getD ∅

/-- `_put_dropping_oldest`. -/
def putDroppingOldest (queue : List Json) (message : Json) : List Json :=
  if queue.length < queueMaxsize then queue ++ [message] else queue.tail ++ [message]

/-- The loop of `publish_update` over a snapshot of the key's queues. -/
def deliver (b : Broker) (key : String) (message : Json) : Broker :=
  { b with queues := fun q =>
      if q ∈ b.members key then putDroppingOldest (b.queues q) message else b.queues q }

/-- `_subscribers.setdefault(key, set()).add(queue)`. -/
def join (queue : ℕ) (subscribers : String → Option (Finset ℕ)) (key : String) :
    String → Option (Finset ℕ) :=
  Function.update subscribers key (some (insert queue ((subscribers key).getD ∅)))

/-- What leaving a block does to one of its keys. -/
def leave (queue : ℕ) (subscribers : String → Option (Finset ℕ)) (key : String) :
    String → Option (Finset ℕ) :=
  match subscribers key with
  | none => subscribers
  | some subs =>
    if subs.erase queue = ∅ then Function.update subscribers key none
    else Function.update subscribers key (some (subs.erase queue))

/-- Entering `subscribe(*channels)`. -/
def subscribe (b : Broker) (channels : List String) : Broker :=
  let keys := channels.map channelKey
  { subscribers := keys.foldl (join b.nextQueue) b.subscribers
    queues := Function.update b.queues b.nextQueue []
    subscriptions := ⟨b.nextQueue, keys⟩ :: b.subscriptions
    nextQueue := b.nextQueue + 1 }

/-- Leaving a block: the `finally` of `subscribe`. -/
def unsubscribe (b : Broker) (queue : ℕ) : Broker :=
  match b.subscriptions.find? fun s => s.queue = queue with
  | none => b
  | some s =>
    { b with
      subscribers := s.keys.foldl (leave queue) b.subscribers
      subscriptions := b.subscriptions.filter fun s => s.queue ≠ queue }

/-- What happens at the broker. -/
inductive Action where
  | subscribe (channels : List String)
  | unsubscribe (queue : ℕ)
  | publishUpdate (orgId channel : String) (payload : List (String × Json))
  /-- `Subscription.get`, which returns when there is an entry, or else times out. -/
  | get (queue : ℕ)

/-- The message that `publish_update` makes of its payload. -/
def updateMessage (orgId : String) (payload : List (String × Json)) : Json :=
  .obj (Json.set "org_id" (.str orgId) payload)

/-- One action. -/
def step (b : Broker) : Action → Broker
  | .subscribe channels => b.subscribe channels
  | .unsubscribe queue => b.unsubscribe queue
  | .publishUpdate orgId channel payload =>
    b.deliver (channelKey channel) (updateMessage orgId payload)
  | .get queue => { b with queues := Function.update b.queues queue (b.queues queue).tail }

/-- A sequence of actions. -/
def run (b : Broker) (actions : List Action) : Broker := actions.foldl step b

/-! ### What a subscriber sees -/

/-- What is published on one of the channels. -/
def sent (channels : List String) : Action → List Json
  | .publishUpdate orgId channel payload =>
    if channel ∈ channels then [updateMessage orgId payload] else []
  | _ => []

/-- What a subscriber's `get` returns. -/
def received (queue : ℕ) (b : Broker) : Action → List Json
  | .get q => if q = queue then (b.queues queue).head?.toList else []
  | _ => []

/-- What a subscriber loses: the oldest entry of its queue, when a publish reaches it and its queue
is full. -/
def lost (queue : ℕ) (b : Broker) : Action → List Json
  | .publishUpdate _ channel _ =>
    if queue ∈ b.members (channelKey channel) ∧ (b.queues queue).length = queueMaxsize
      then (b.queues queue).head?.toList else []
  | _ => []

/-- What is published on one of the channels by a sequence of actions. -/
def sentOn (channels : List String) (actions : List Action) : List Json :=
  actions.flatMap (sent channels)

/-- What a subscriber has received in a sequence of actions. -/
def receivedBy (queue : ℕ) : Broker → List Action → List Json
  | _, [] => []
  | b, a :: actions => b.received queue a ++ (b.step a).receivedBy queue actions

/-- What a subscriber has lost in a sequence of actions. -/
def lostBy (queue : ℕ) : Broker → List Action → List Json
  | _, [] => []
  | b, a :: actions => b.lost queue a ++ (b.step a).lostBy queue actions

/-! ### The registry -/

variable {queue q : ℕ} {subscribers : String → Option (Finset ℕ)} {key : String} {keys : List String}

theorem channelKey_injective : Function.Injective channelKey := by
  intro a b h
  simpa [channelKey] using h

theorem mem_join {k : String} :
    q ∈ (join queue subscribers k key).getD ∅ ↔
      q ∈ (subscribers key).getD ∅ ∨ q = queue ∧ key = k := by
  by_cases hk : key = k
  · subst hk
    simp [join, or_comm]
  · simp [join, hk]

theorem join_ne_empty {k : String} (h : subscribers key ≠ some ∅) :
    join queue subscribers k key ≠ some ∅ := by
  by_cases hk : key = k
  · subst hk
    simp [join]
  · simpa [join, hk] using h

theorem mem_leave {k : String} :
    q ∈ (leave queue subscribers k key).getD ∅ ↔
      q ∈ (subscribers key).getD ∅ ∧ ¬(q = queue ∧ key = k) := by
  unfold leave
  by_cases hk : key = k
  · subst hk
    cases hsubs : subscribers key with
    | none => simp [hsubs]
    | some subs =>
      by_cases hempty : subs.erase queue = ∅
      · have hmem : q ∉ subs.erase queue := by simp [hempty]
        simp only [hempty, if_true, Function.update_self, Option.getD_none, Option.getD_some]
        simp at hmem ⊢
        tauto
      · simp [hempty, and_comm]
  · cases hsubs : subscribers k with
    | none => simp [hk]
    | some subs =>
      by_cases hempty : subs.erase queue = ∅ <;> simp [hempty, hk]

theorem leave_ne_empty {k : String} (h : subscribers key ≠ some ∅) :
    leave queue subscribers k key ≠ some ∅ := by
  unfold leave
  cases hsubs : subscribers k with
  | none => exact h
  | some subs =>
    by_cases hk : key = k
    · subst hk
      by_cases hempty : subs.erase queue = ∅ <;> simp [hempty]
    · by_cases hempty : subs.erase queue = ∅ <;> simpa [hempty, hk] using h

theorem mem_foldl_join :
    q ∈ (keys.foldl (join queue) subscribers key).getD ∅ ↔
      q ∈ (subscribers key).getD ∅ ∨ q = queue ∧ key ∈ keys := by
  induction keys generalizing subscribers with
  | nil => simp
  | cons k keys ih =>
    rw [List.foldl_cons, ih, mem_join, List.mem_cons]
    tauto

theorem foldl_join_ne_empty (h : subscribers key ≠ some ∅) :
    keys.foldl (join queue) subscribers key ≠ some ∅ := by
  induction keys generalizing subscribers with
  | nil => exact h
  | cons k keys ih => exact ih (join_ne_empty h)

theorem mem_foldl_leave :
    q ∈ (keys.foldl (leave queue) subscribers key).getD ∅ ↔
      q ∈ (subscribers key).getD ∅ ∧ ¬(q = queue ∧ key ∈ keys) := by
  induction keys generalizing subscribers with
  | nil => simp
  | cons k keys ih =>
    rw [List.foldl_cons, ih, mem_leave, List.mem_cons]
    tauto

theorem foldl_leave_ne_empty (h : subscribers key ≠ some ∅) :
    keys.foldl (leave queue) subscribers key ≠ some ∅ := by
  induction keys generalizing subscribers with
  | nil => exact h
  | cons k keys ih => exact ih (leave_ne_empty h)

/-- The registry holds the queues of the open blocks under their keys, and no empty set. -/
structure WellFormed (b : Broker) : Prop where
  mem_iff : ∀ key q, q ∈ b.members key ↔ ∃ s ∈ b.subscriptions, s.queue = q ∧ key ∈ s.keys
  ne_empty : ∀ key, b.subscribers key ≠ some ∅
  unique : ∀ s ∈ b.subscriptions, ∀ t ∈ b.subscriptions, s.queue = t.queue → s = t
  lt : ∀ s ∈ b.subscriptions, s.queue < b.nextQueue

theorem wellFormed_empty : empty.WellFormed := by
  constructor <;> simp [empty, members]

theorem WellFormed.registered_iff {b : Broker} (h : b.WellFormed) (key : String) :
    b.subscribers key ≠ none ↔ ∃ s ∈ b.subscriptions, key ∈ s.keys := by
  constructor
  · intro hsome
    obtain ⟨subs, hsubs⟩ := Option.ne_none_iff_exists'.mp hsome
    have hne : subs ≠ ∅ := fun hempty => h.ne_empty key (hempty ▸ hsubs)
    obtain ⟨q, hq⟩ := Finset.nonempty_iff_ne_empty.mpr hne
    have hmem : q ∈ b.members key := by simpa [members, hsubs] using hq
    obtain ⟨s, hs, _, hkey⟩ := (h.mem_iff key q).mp hmem
    exact ⟨s, hs, hkey⟩
  · rintro ⟨s, hs, hkey⟩ hnone
    have hmem := (h.mem_iff key s.queue).mpr ⟨s, hs, rfl, hkey⟩
    simp [members, hnone] at hmem

theorem WellFormed.subscribe {b : Broker} (h : b.WellFormed) (channels : List String) :
    (b.subscribe channels).WellFormed := by
  constructor
  · intro key q
    show q ∈ ((channels.map channelKey).foldl (join b.nextQueue) b.subscribers key).getD ∅ ↔ _
    have hmem := h.mem_iff key q
    rw [members] at hmem
    rw [mem_foldl_join, hmem]
    simp only [Broker.subscribe, List.mem_cons, exists_eq_or_imp]
    rw [or_comm, eq_comm]
  · exact fun key => foldl_join_ne_empty (h.ne_empty key)
  · intro s hs t ht hst
    rcases List.mem_cons.mp hs with rfl | hs <;> rcases List.mem_cons.mp ht with rfl | ht
    · rfl
    · exact absurd hst (h.lt t ht).ne'
    · exact absurd hst (h.lt s hs).ne
    · exact h.unique s hs t ht hst
  · intro s hs
    show s.queue < b.nextQueue + 1
    rcases List.mem_cons.mp hs with rfl | hs
    · exact Nat.lt_succ_self _
    · exact (h.lt s hs).trans (Nat.lt_succ_self _)

theorem WellFormed.unsubscribe {b : Broker} (h : b.WellFormed) (queue : ℕ) :
    (b.unsubscribe queue).WellFormed := by
  unfold Broker.unsubscribe
  split
  · exact h
  · next s hs =>
    have hmem : s ∈ b.subscriptions := List.mem_of_find?_eq_some hs
    have hqueue : s.queue = queue := by simpa using List.find?_some hs
    constructor
    · intro key q
      show q ∈ (s.keys.foldl (leave queue) b.subscribers key).getD ∅ ↔ _
      have hin := h.mem_iff key q
      rw [members] at hin
      rw [mem_foldl_leave, hin]
      simp only [List.mem_filter, decide_eq_true_eq]
      constructor
      · rintro ⟨⟨t, ht, htq, hkey⟩, hnot⟩
        refine ⟨t, ⟨ht, fun hsame => hnot ⟨htq.symm.trans hsame, ?_⟩⟩, htq, hkey⟩
        rwa [h.unique s hmem t ht (hqueue.trans hsame.symm)]
      · rintro ⟨t, ⟨ht, hne⟩, htq, hkey⟩
        exact ⟨⟨t, ht, htq, hkey⟩, fun hsame => hne (htq.trans hsame.1)⟩
    · exact fun key => foldl_leave_ne_empty (h.ne_empty key)
    · exact fun t ht u hu => h.unique t (List.mem_of_mem_filter ht) u (List.mem_of_mem_filter hu)
    · exact fun t ht => h.lt t (List.mem_of_mem_filter ht)

theorem WellFormed.step {b : Broker} (h : b.WellFormed) (a : Action) : (b.step a).WellFormed := by
  cases a with
  | subscribe channels => exact h.subscribe channels
  | unsubscribe queue => exact h.unsubscribe queue
  | publishUpdate => exact ⟨h.mem_iff, h.ne_empty, h.unique, h.lt⟩
  | get => exact ⟨h.mem_iff, h.ne_empty, h.unique, h.lt⟩

theorem WellFormed.run {b : Broker} (h : b.WellFormed) (actions : List Action) :
    (b.run actions).WellFormed := by
  induction actions generalizing b with
  | nil => exact h
  | cons a actions ih => exact ih (h.step a)

/-! ### A live subscriber -/

/-- What an action is to the log of a subscriber. -/
def events (queue : ℕ) (channels : List String) : Action → List (LossyLog.Event Json)
  | .publishUpdate orgId channel payload =>
    if channel ∈ channels then [.write (updateMessage orgId payload)] else []
  | .get q => if q = queue then [.take] else []
  | _ => []

theorem written_events (channels : List String) (actions : List Action) :
    LossyLog.written (actions.flatMap (events queue channels)) = sentOn channels actions := by
  induction actions with
  | nil => rfl
  | cons a actions ih =>
    rw [List.flatMap_cons, sentOn, List.flatMap_cons, ← sentOn, ← ih]
    cases a with
    | publishUpdate orgId channel payload =>
      by_cases hchannel : channel ∈ channels <;> simp [events, sent, hchannel, LossyLog.written]
    | get q => by_cases hq : q = queue <;> simp [events, sent, hq, LossyLog.written]
    | subscribe | unsubscribe => simp [events, sent]

/-- A subscriber's queue is the queue of its log. -/
theorem WellFormed.mem_members {b : Broker} (h : b.WellFormed) {channels : List String}
    (hlive : ⟨queue, channels.map channelKey⟩ ∈ b.subscriptions) (channel : String) :
    queue ∈ b.members (channelKey channel) ↔ channel ∈ channels := by
  rw [h.mem_iff]
  constructor
  · rintro ⟨s, hs, hqueue, hkey⟩
    rw [h.unique s hs _ hlive hqueue] at hkey
    simpa [channelKey_injective.eq_iff] using hkey
  · intro hchannel
    exact ⟨_, hlive, rfl, List.mem_map_of_mem hchannel⟩

/-- One action, at a live subscriber that is not the one that leaves. -/
theorem WellFormed.step_live {b : Broker} (h : b.WellFormed) {channels : List String}
    (hlive : ⟨queue, channels.map channelKey⟩ ∈ b.subscriptions) {a : Action}
    (ha : a ≠ .unsubscribe queue) {l : LossyLog Json} (hqueue : b.queues queue = l.queue)
    (hfull : l.queue.length ≤ queueMaxsize) :
    ⟨queue, channels.map channelKey⟩ ∈ (b.step a).subscriptions ∧
      l.run queueMaxsize (events queue channels a) =
        ⟨l.taken ++ b.received queue a, (b.step a).queues queue, l.lost ++ b.lost queue a⟩ := by
  cases a with
  | subscribe cs =>
    have hne : queue ≠ b.nextQueue := (h.lt _ hlive).ne
    refine ⟨List.mem_cons_of_mem _ hlive, ?_⟩
    simp [events, received, lost, Broker.step, Broker.subscribe, hne, hqueue]
  | unsubscribe q =>
    have hne : queue ≠ q := fun hq => ha (congrArg Action.unsubscribe hq.symm)
    refine ⟨?_, ?_⟩
    · simp only [Broker.step, Broker.unsubscribe]
      split
      · exact hlive
      · simpa [hne] using hlive
    · simp only [events, received, lost, Broker.step, Broker.unsubscribe, LossyLog.run_nil, List.append_nil]
      split <;> simp [hqueue]
  | publishUpdate orgId channel payload =>
    refine ⟨hlive, ?_⟩
    have hmem := h.mem_members hlive channel
    by_cases hchannel : channel ∈ channels
    · have hin := hmem.mpr hchannel
      by_cases hroom : l.queue.length < queueMaxsize
      · have hne : l.queue.length ≠ queueMaxsize := hroom.ne
        simp [events, received, lost, Broker.step, deliver, hchannel, hin, hqueue, hroom, hne,
          LossyLog.step, LossyLog.push, LossyLog.dropped, putDroppingOldest]
      · have heq : l.queue.length = queueMaxsize := by omega
        simp [events, received, lost, Broker.step, deliver, hchannel, hin, hqueue, heq,
          LossyLog.step, LossyLog.push, LossyLog.dropped, putDroppingOldest]
    · have hout := hmem.not.mpr hchannel
      simp [events, received, lost, Broker.step, deliver, hchannel, hout, hqueue]
  | get q =>
    refine ⟨hlive, ?_⟩
    by_cases hq : q = queue
    · subst hq
      simp [events, received, lost, Broker.step, LossyLog.step, hqueue]
    · simp [events, received, lost, Broker.step, hq, Ne.symm hq, hqueue]

/-- **To a live subscriber the broker is a lossy log.** -/
theorem WellFormed.run_live {b : Broker} (h : b.WellFormed) {channels : List String}
    (hlive : ⟨queue, channels.map channelKey⟩ ∈ b.subscriptions) {actions : List Action}
    (hstay : .unsubscribe queue ∉ actions) {sent : List Json} {l : LossyLog Json}
    (hqueue : b.queues queue = l.queue) (hconforms : l.Conforms queueMaxsize sent) :
    l.run queueMaxsize (actions.flatMap (events queue channels)) =
      ⟨l.taken ++ b.receivedBy queue actions, (b.run actions).queues queue,
        l.lost ++ b.lostBy queue actions⟩ := by
  induction actions generalizing b sent l with
  | nil => simp [receivedBy, lostBy, Broker.run, hqueue]
  | cons a actions ih =>
    rw [List.mem_cons, not_or] at hstay
    obtain ⟨hlive', hstep⟩ := h.step_live hlive (Ne.symm hstay.1) hqueue hconforms.length_le
    have hconforms' : (l.run queueMaxsize (events queue channels a)).Conforms queueMaxsize _ :=
      LossyLog.conforms_run (by decide) hconforms
    rw [hstep] at hconforms'
    have hrest := ih (h.step a) hlive' hstay.2 rfl hconforms'
    rw [List.flatMap_cons, LossyLog.run_append, hstep, hrest]
    simp [receivedBy, lostBy, Broker.run]

end Broker

/-- **The broker refines a bounded lossy log**, in every interleaving of subscribing, leaving,
publishing and receiving. What a live subscriber has received, followed by its queue, comes in the
order in which it was published on the subscriber's channels since it subscribed, and holds each
publish at most once; its queue holds the newest, at most a hundred; what is missing was lost, oldest
first, when the queue was full. A publish leaves the queues of subscribers of other channels. And a
key is in the registry exactly when it has a live subscriber. -/
theorem refines_log (actions : List Broker.Action) :
    (∀ earlier channels later, actions = earlier ++ .subscribe channels :: later →
      .unsubscribe (Broker.empty.run earlier).nextQueue ∉ later →
      ∀ (queue : ℕ) (b : Broker), queue = (Broker.empty.run earlier).nextQueue →
        b = Broker.empty.run (earlier ++ [.subscribe channels]) →
        (b.receivedBy queue later ++ (Broker.empty.run actions).queues queue).Sublist
          (Broker.sentOn channels later) ∧
        (Broker.empty.run actions).queues queue <:+ Broker.sentOn channels later ∧
        ((Broker.empty.run actions).queues queue).length ≤ queueMaxsize ∧
        (b.lostBy queue later ++ (b.receivedBy queue later ++
          (Broker.empty.run actions).queues queue)).Perm (Broker.sentOn channels later)) ∧
    (∀ orgId channel payload, ∀ s ∈ (Broker.empty.run actions).subscriptions,
      channelKey channel ∉ s.keys →
      ((Broker.empty.run actions).step (.publishUpdate orgId channel payload)).queues s.queue =
        (Broker.empty.run actions).queues s.queue) ∧
    ∀ key, (Broker.empty.run actions).subscribers key ≠ none ↔
      ∃ s ∈ (Broker.empty.run actions).subscriptions, key ∈ s.keys := by
  have hwell : (Broker.empty.run actions).WellFormed := Broker.wellFormed_empty.run actions
  refine ⟨?_, ?_, ?_⟩
  · rintro earlier channels later rfl hstay queue b rfl rfl
    have hbefore : (Broker.empty.run (earlier ++ [.subscribe channels])).WellFormed :=
      Broker.wellFormed_empty.run _
    have hsubscribed : Broker.empty.run (earlier ++ [.subscribe channels]) =
        (Broker.empty.run earlier).subscribe channels := by
      simp [Broker.run, Broker.step]
    have hrun : Broker.empty.run (earlier ++ .subscribe channels :: later) =
        (Broker.empty.run (earlier ++ [.subscribe channels])).run later := by
      simp [Broker.run]
    rw [hrun]
    generalize Broker.empty.run (earlier ++ [.subscribe channels]) = b at hbefore hsubscribed ⊢
    have hlive : ⟨(Broker.empty.run earlier).nextQueue, channels.map channelKey⟩ ∈
        b.subscriptions := hsubscribed ▸ List.mem_cons_self
    have hqueue : b.queues (Broker.empty.run earlier).nextQueue = [] := by
      rw [hsubscribed]
      exact Function.update_self _ _ _
    have hlog := hbefore.run_live hlive hstay hqueue (LossyLog.conforms_empty queueMaxsize)
    have hconforms : (LossyLog.empty.run queueMaxsize (later.flatMap
        (Broker.events (Broker.empty.run earlier).nextQueue channels))).Conforms queueMaxsize _ :=
      LossyLog.conforms_run (by decide) (LossyLog.conforms_empty queueMaxsize)
    rw [hlog, Broker.written_events, List.nil_append] at hconforms
    exact ⟨hconforms.sublist, hconforms.suffix, hconforms.length_le, hconforms.perm⟩
  · intro orgId channel payload s hs hkey
    have hout : s.queue ∉ (Broker.empty.run actions).members (channelKey channel) := by
      rw [hwell.mem_iff]
      rintro ⟨t, ht, hqueue, hin⟩
      rw [hwell.unique t ht s hs hqueue] at hin
      exact hkey hin
    simp [Broker.step, Broker.deliver, hout]
  · exact hwell.registered_iff

/-- Publishes on both channels of a subscriber, with a read and the end of another subscription among
them. -/
def overlapping : List Broker.Action :=
  [.subscribe ["inbox"], .publishUpdate "org" "inbox" [("n", .int 1)], .get 0,
    .publishUpdate "org" "alerts" [("n", .int 2)], .unsubscribe 1,
    .publishUpdate "org" "inbox" [("n", .int 3)]]

theorem refines_log_overlapping :
    ((Broker.empty.run [.subscribe ["inbox", "alerts", "inbox"]]).receivedBy 0 overlapping ++
      (Broker.empty.run (.subscribe ["inbox", "alerts", "inbox"] :: overlapping)).queues 0).Sublist
      (Broker.sentOn ["inbox", "alerts", "inbox"] overlapping) :=
  ((refines_log (.subscribe ["inbox", "alerts", "inbox"] :: overlapping)).1 [] _ overlapping rfl
    (by simp [overlapping, Broker.run, Broker.empty]) 0 _ rfl rfl).1

end A2ZCore.Core
