import A2ZCore.Omnichannel.Publishing

/-!
# Streams of updates

`stream.stream_events` relays what is published to a browser: it subscribes to the channel of one org and
to the notification channel of one user, and yields each message that it takes from its queue. The
endpoint looks the user's membership of that org up before.

The user's channel is named after the user alone. A stream yields data of its own org as long as, while
it is open, nothing that belongs to another org is published to its user.

## Main definitions

* `RelayCall`, `RelayWorld` — the calls of streams, and of what publishes, over the realtime broker
* `streamInbox`, `streamEvents`
* `Isolated` — each data frame of a stream belongs to the org of the stream
* `NotifiesWithin` — the condition on what is published to users

## Main results

* `isolated_of_notifiesWithin` — any number of streams, requests and workers, in any interleaving
-/

namespace A2ZCore.Omnichannel

open Interaction Interaction.Proc Interaction.Contract A2ZCore.Core

/-! ### The calls -/

/-- What a stream yields. -/
inductive Frame where
  /-- `_frame_data` -/
  | data (message : Json)
  /-- `_frame_comment` -/
  | comment (text : String)

/-- The platform's process: the service, its broker, and the frames that each stream has yielded. -/
structure RelayWorld where
  service : World
  broker : Broker
  frames : List ((String × String) × Frame)

/-- What the environment decides at a call: beyond the rest, whether a `get` times out, and whether the
client has gone. -/
structure RelayChoice extends toService : Choice where
  timesOut : Bool
  disconnected : Bool

/-- The calls of streams, and those of everything else. -/
inductive RelayCall where
  | system (c : SystemCall)
  | clock
  | subscribe (channels : List String)
  | unsubscribe (queue : ℕ)
  | isDisconnected
  | get (queue : ℕ)
  | yieldFrame (orgId userId : String) (frame : Frame)

/-- What a call replies. -/
def RelayCall.Resp : RelayCall → Type
  | system c => c.Resp
  | clock => ℚ
  | subscribe _ => ℕ
  | unsubscribe _ => Unit
  | isDisconnected => Bool
  | get _ => Option Json
  | yieldFrame _ _ _ => Unit

/-- What a call hands to the broker. -/
def SystemCall.published : SystemCall → Option (String × Json)
  | .service (.core (.brokerPublish key message)) => some (key, message)
  | .admin (.core (.brokerPublish key message)) => some (key, message)
  | _ => none

/-- The broker after a call. -/
def Broker.after (b : Broker) (c : SystemCall) : Broker :=
  match c.published with
  | some (key, message) => b.deliver key message
  | none => b

/-- The reply to a call and the state it leaves. Where a stream awaits something it can be cancelled. -/
def RelayCall.answer (c : RelayCall) (x : RelayChoice) (w : RelayWorld) :
    Except PyErr c.Resp × RelayWorld :=
  match c with
  | .system c =>
    let r := c.answer x.toService w.service
    (r.1, { w with service := r.2, broker := Broker.after w.broker c })
  | .clock => (.ok x.monotonic, w)
  | .subscribe channels => (.ok w.broker.nextQueue, { w with broker := w.broker.subscribe channels })
  | .unsubscribe queue => (.ok (), { w with broker := w.broker.unsubscribe queue })
  | .isDisconnected => x.fate.query (.ok x.disconnected) w
  | .get queue =>
    if x.timesOut then (.ok none, w)
    else x.fate.settle (.ok ((w.broker.queues queue).head?,
      { w with broker := w.broker.step (.get queue) })) w
  | .yieldFrame orgId userId frame =>
    let w' := { w with frames := w.frames ++ [((orgId, userId), frame)] }
    match x.fate with
    | .ok => (.ok (), w')
    | .lost e | .late e => (.error e, w')

/-! ### `stream.py`, and its endpoint -/

/-- A program of the platform. -/
abbrev RelayProg := Proc RelayCall RelayCall.Resp PyErr

/-- One call. -/
def relayRun (c : RelayCall) : RelayProg c.Resp := Proc.perform c

/-- A program that streams nothing. -/
def system {α : Type} (p : SystemProg α) : RelayProg α := p.embed RelayCall.system fun _ r => r

/-- `_channels_for`. -/
def channelsFor (orgId userId : String) : List String := [orgChannel orgId, userChannel userId]

/-- `_MAX_LIFETIME_SECONDS`. -/
def maxLifetimeSeconds : ℚ := 300

/-- The loop of `stream_events`, for a number of rounds. -/
def relay (orgId userId : String) (started : ℚ) (queue : ℕ) : ℕ → RelayProg Unit
  | 0 => return ()
  | rounds + 1 => do
    let now : ℚ ← relayRun .clock
    if maxLifetimeSeconds ≤ now - started then return ()
    else
      let gone : Bool ← relayRun .isDisconnected
      if gone then return ()
      else match ← relayRun (.get queue) with
        | none => do
          relayRun (.yieldFrame orgId userId (.comment "keepalive"))
          relay orgId userId started queue rounds
        | some message => do
          relayRun (.yieldFrame orgId userId (.data message))
          relay orgId userId started queue rounds

/-- `stream_events`. -/
def streamEvents (orgId userId : String) (rounds : ℕ) : RelayProg Unit := do
  let started : ℚ ← relayRun .clock
  let queue : ℕ ← relayRun (.subscribe (channelsFor orgId userId))
  Proc.tryFinally
    (do
      relayRun (.yieldFrame orgId userId (.comment "connected"))
      relay orgId userId started queue rounds)
    (relayRun (.unsubscribe queue))

/-- `stream_inbox`, for the user whom the token names. -/
def streamInbox (orgId userId : String) (rounds : ℕ) : RelayProg Unit := do
  let _ ← system (service (requireMembership userId orgId "Not a member of this org"))
  streamEvents orgId userId rounds

/-! ### Streams, requests and workers -/

/-- What runs on the platform. -/
inductive PlatformTask where
  | request (req : OrgRequest)
  | worker (rounds : ℕ)
  | stream (orgId userId : String) (rounds : ℕ)

namespace PlatformTask

/-- What the platform does. -/
def program (registry : Registry) : PlatformTask → RelayProg Unit
  | request req => system (req.program registry)
  | worker rounds => system (service (runForever registry rounds))
  | stream orgId userId rounds => streamInbox orgId userId rounds

/-- The org and the user of a stream. -/
def stream? : PlatformTask → Option (String × String)
  | stream orgId userId _ => some (orgId, userId)
  | _ => none

end PlatformTask

/-- The platform when it has started: nothing is subscribed. -/
def platform (registry : Registry) (tasks : List PlatformTask) (w : World) :
    Pool RelayCall RelayCall.Resp PyErr Unit RelayWorld where
  procs := tasks.map (PlatformTask.program registry)
  world := ⟨w, .empty, []⟩

/-- The org that a message names. -/
def orgOf : Json → Option String
  | .obj fields => match fields.lookup "org_id" with
    | some (.str orgId) => some orgId
    | _ => none
  | _ => none

/-- The frame belongs to the org of its stream, if it carries data. -/
def Frame.BelongsTo (orgId : String) : Frame → Prop
  | .data message => orgOf message = some orgId
  | .comment _ => True

/-- Each stream has yielded data of its own org only. -/
def Isolated (w : RelayWorld) : Prop := ∀ f ∈ w.frames, f.2.BelongsTo f.1.1

/-- The keys of a stream's channels. -/
def streamKeys (s : String × String) : List String := (channelsFor s.1 s.2).map channelKey

/-- While one of the streams is open, nothing is published to its user that belongs to another org. -/
def NotifiesWithin (streams : List (String × String)) : RelayCall → RelayChoice → RelayWorld → Prop
  | .system c, _, w => ∀ p ∈ c.published, ∀ s ∈ streams,
    (∃ sub ∈ w.broker.subscriptions, sub.keys = streamKeys s) →
      p.1 = channelKey (userChannel s.2) → orgOf p.2 = some s.1
  | _, _, _ => True

/-! ### Channels -/

theorem orgChannel_injective : Function.Injective orgChannel := by
  intro a b h
  simpa [orgChannel] using h

theorem orgChannel_ne_userChannel (orgId userId : String) : orgChannel orgId ≠ userChannel userId := by
  intro h
  have hhead := congrArg (fun channel : String => channel.toList.head?) h
  simp [orgChannel, userChannel] at hhead

theorem orgOf_updateMessage (orgId : String) (payload : List (String × Json)) :
    orgOf (Broker.updateMessage orgId payload) = some orgId := by
  rw [Broker.updateMessage, orgOf, Json.lookup_set, if_pos rfl]

/-- A message on one of a stream's channels belongs to the stream's org, if it is a notification of its
user only where it does. -/
theorem orgOf_of_scoped {key : String} {message : Json} {s : String × String}
    (hscoped : Scoped key message) (hkey : key ∈ streamKeys s)
    (huser : key = channelKey (userChannel s.2) → orgOf message = some s.1) :
    orgOf message = some s.1 := by
  obtain ⟨orgId, payload, rfl, hkind⟩ := hscoped
  rcases List.mem_pair.mp hkey with horg | hnotification
  · rcases hkind with hsame | ⟨userId, hother⟩
    · rw [orgOf_updateMessage, orgChannel_injective (Broker.channelKey_injective (hsame.symm.trans horg))]
    · have hchannel := Broker.channelKey_injective (horg.symm.trans hother)
      exact absurd hchannel (orgChannel_ne_userChannel _ _)
  · exact huser hnotification

/-! ### What a stream holds -/

/-- The queue is one that a stream has subscribed, and holds what belongs to the stream's org. -/
structure HoldsOwn (b : Broker) (queue : ℕ) (s : String × String) : Prop where
  lt : queue < b.nextQueue
  keys : ∀ sub ∈ b.subscriptions, sub.queue = queue → sub.keys = streamKeys s
  own : ∀ message ∈ b.queues queue, orgOf message = some s.1

/-- What a step of the platform keeps at the broker. -/
structure KeepsStreams (streams : List (String × String)) (b b' : Broker) : Prop where
  wellFormed : b.WellFormed → b'.WellFormed
  holds : b.WellFormed → ∀ s ∈ streams, ∀ queue, HoldsOwn b queue s → HoldsOwn b' queue s

section Streams

variable {streams : List (String × String)}

theorem KeepsStreams.refl (b : Broker) : KeepsStreams streams b b :=
  ⟨fun h => h, fun _ _ _ _ h => h⟩

theorem KeepsStreams.trans {b b' b'' : Broker} (h : KeepsStreams streams b b')
    (h' : KeepsStreams streams b' b'') : KeepsStreams streams b b'' :=
  ⟨fun hb => h'.wellFormed (h.wellFormed hb), fun hb s hs queue hown =>
    h'.holds (h.wellFormed hb) s hs queue (h.holds hb s hs queue hown)⟩

theorem mem_putDroppingOldest {queue : List Json} {message m : Json}
    (h : m ∈ Broker.putDroppingOldest queue message) : m ∈ queue ∨ m = message := by
  unfold Broker.putDroppingOldest at h
  split at h
  · simpa using h
  · rcases List.mem_append.mp h with hold | hnew
    · exact .inl (List.mem_of_mem_tail hold)
    · exact .inr (List.mem_singleton.mp hnew)

theorem keepsStreams_deliver {b : Broker} {key : String} {message : Json} (hscoped : Scoped key message)
    (hwithin : ∀ s ∈ streams, (∃ sub ∈ b.subscriptions, sub.keys = streamKeys s) →
      key = channelKey (userChannel s.2) → orgOf message = some s.1) :
    KeepsStreams streams b (b.deliver key message) := by
  refine ⟨fun h => ⟨h.mem_iff, h.ne_empty, h.unique, h.lt⟩, fun hb s hs queue h => ?_⟩
  refine ⟨h.lt, h.keys, fun m hm => ?_⟩
  by_cases hmember : queue ∈ b.members key
  · rw [Broker.deliver] at hm
    dsimp only at hm
    rw [if_pos hmember] at hm
    rcases mem_putDroppingOldest hm with hold | rfl
    · exact h.own m hold
    · obtain ⟨sub, hsub, hqueue, hkey⟩ := (hb.mem_iff key queue).mp hmember
      have hkeys := h.keys sub hsub hqueue
      rw [hkeys] at hkey
      exact orgOf_of_scoped hscoped hkey (hwithin s hs ⟨sub, hsub, hkeys⟩)
  · rw [Broker.deliver] at hm
    dsimp only at hm
    rw [if_neg hmember] at hm
    exact h.own m hm

theorem keepsStreams_subscribe (b : Broker) (channels : List String) :
    KeepsStreams streams b (b.subscribe channels) := by
  refine ⟨fun h => h.subscribe channels, fun hb s _ queue h => ?_⟩
  have hne : queue ≠ b.nextQueue := h.lt.ne
  refine ⟨h.lt.trans (Nat.lt_succ_self _), fun sub hsub hqueue => ?_, fun m hm => ?_⟩
  · rcases List.mem_cons.mp hsub with rfl | hold
    · exact absurd hqueue.symm hne
    · exact h.keys sub hold hqueue
  · rw [Broker.subscribe] at hm
    dsimp only at hm
    rw [Function.update_of_ne hne] at hm
    exact h.own m hm

theorem keepsStreams_unsubscribe (b : Broker) (q : ℕ) :
    KeepsStreams streams b (b.unsubscribe q) := by
  refine ⟨fun h => h.unsubscribe q, fun hb s _ queue h => ?_⟩
  unfold Broker.unsubscribe
  split
  · exact h
  · exact ⟨h.lt, fun sub hsub => h.keys sub (List.mem_of_mem_filter hsub), h.own⟩

theorem keepsStreams_get (b : Broker) (q : ℕ) : KeepsStreams streams b (b.step (.get q)) := by
  refine ⟨fun h => h.step _, fun hb s _ queue h => ⟨h.lt, h.keys, fun m hm => ?_⟩⟩
  by_cases hq : queue = q
  · subst hq
    rw [Broker.step] at hm
    dsimp only at hm
    rw [Function.update_self] at hm
    exact h.own m (List.mem_of_mem_tail hm)
  · rw [Broker.step] at hm
    dsimp only at hm
    rw [Function.update_of_ne hq] at hm
    exact h.own m hm

/-- A stream that has just subscribed holds nothing. -/
theorem holdsOwn_subscribe {b : Broker} (hb : b.WellFormed) (s : String × String) :
    HoldsOwn (b.subscribe (channelsFor s.1 s.2)) b.nextQueue s := by
  refine ⟨Nat.lt_succ_self _, fun sub hsub hqueue => ?_, fun m hm => ?_⟩
  · rcases List.mem_cons.mp hsub with rfl | hold
    · rfl
    · exact absurd hqueue (hb.lt sub hold).ne
  · rw [Broker.subscribe] at hm
    dsimp only at hm
    rw [Function.update_self] at hm
    exact absurd hm List.not_mem_nil

/-! ### The setting of a task -/

/-- The setting of a task among others. -/
def relaying (streams : List (String × String)) :
    Contract RelayCall RelayCall.Resp PyErr RelayChoice RelayWorld where
  answer := RelayCall.answer
  rely w w' := KeepsStreams streams w.broker w'.broker
  admits := NotifiesWithin streams
  guar _ _ w w' := KeepsStreams streams w.broker w'.broker ∧ (Isolated w → Isolated w')
  rely_refl w := .refl w.broker
  rely_trans h h' := h.trans h'

/-- A program that streams nothing. -/
theorem relaying_system {α : Type} {p : SystemProg α} (hp : p.Calls ScopedSystem) :
    (relaying streams).Preserves (fun w => w.broker.WellFormed) (system p) := by
  intro w hw
  refine wp_of_stable (P := fun c => ∃ c', c = .system c' ∧ ScopedSystem c')
    (fun w w' h hw => KeepsStreams.wellFormed h hw) ?_
      (Calls.embed (hp.mono fun c hc => ⟨c, rfl, hc⟩)) hw
  rintro _ ⟨c, rfl, hc⟩ x w hw hwithin
  have hkeeps : KeepsStreams streams w.broker (Broker.after w.broker c) := by
    unfold Broker.after
    cases hpublished : c.published with
    | none => exact .refl _
    | some p =>
      have hscoped : Scoped p.1 p.2 := by
        unfold SystemCall.published at hpublished
        split at hpublished
        · cases hpublished; exact hc
        · cases hpublished; exact hc
        · cases hpublished
      exact keepsStreams_deliver hscoped (hwithin p hpublished)
  exact ⟨⟨hkeeps, fun h => h⟩, hkeeps.wellFormed hw⟩

/-- The broker is in order, and the queue holds what belongs to the stream's org. -/
def Serves (queue : ℕ) (s : String × String) (w : RelayWorld) : Prop :=
  w.broker.WellFormed ∧ HoldsOwn w.broker queue s

section Relay

variable {s : String × String} {queue : ℕ}

theorem serves_keeps (hs : s ∈ streams) {w w' : RelayWorld} (hw : Serves queue s w)
    (h : KeepsStreams streams w.broker w'.broker) : Serves queue s w' :=
  ⟨h.wellFormed hw.1, h.holds hw.1 s hs queue hw.2⟩

/-- A call of a stream that keeps the broker, other than yielding data. -/
theorem relaying_perform (hs : s ∈ streams) {c : RelayCall}
    (hkeeps : ∀ x w, KeepsStreams streams w.broker (c.answer x w).2.broker)
    (hframes : ∀ x w, Isolated w → Isolated (c.answer x w).2) :
    (relaying streams).Preserves (Serves queue s) (relayRun c) := fun _ hw =>
  wp_perform fun _ h x _ =>
    ⟨⟨hkeeps x _, hframes x _⟩, serves_keeps hs (serves_keeps hs hw h) (hkeeps x _)⟩

/-- A frame that belongs to the stream's org. -/
theorem relaying_yieldFrame (hs : s ∈ streams) {frame : Frame} (hframe : frame.BelongsTo s.1) :
    (relaying streams).Preserves (Serves queue s) (relayRun (.yieldFrame s.1 s.2 frame)) := by
  have hanswer : ∀ x w, (RelayCall.answer (.yieldFrame s.1 s.2 frame) x w).2 =
      { w with frames := w.frames ++ [(s, frame)] } := by
    intro x w
    unfold RelayCall.answer
    dsimp only
    cases x.fate <;> rfl
  refine relaying_perform hs (fun x w => ?_) fun x w hw => ?_
  · rw [hanswer]
    exact .refl _
  · rw [hanswer]
    intro f hf
    rcases List.mem_append.mp hf with hold | hnew
    · exact hw f hold
    · rw [List.mem_singleton.mp hnew]
      exact hframe

/-- What a `get` takes was in the queue. -/
theorem get_answer (queue : ℕ) (x : RelayChoice) (w : RelayWorld) :
    (((RelayCall.get queue).answer x w).2 = w ∨
      ((RelayCall.get queue).answer x w).2 = { w with broker := w.broker.step (.get queue) }) ∧
    ∀ message, ((RelayCall.get queue).answer x w).1 = .ok (some message) →
      message ∈ w.broker.queues queue := by
  unfold RelayCall.answer
  dsimp only
  split
  · exact ⟨.inl rfl, nofun⟩
  · cases x.fate with
    | ok => exact ⟨.inr rfl, fun message h => List.mem_of_mem_head? (Except.ok.inj h)⟩
    | lost e => exact ⟨.inl rfl, nofun⟩
    | late e => exact ⟨.inr rfl, nofun⟩

/-- A message that a stream takes from its queue belongs to the stream's org. -/
theorem relaying_get (hs : s ∈ streams) {w : RelayWorld} (hw : Serves queue s w) :
    (relaying streams).wp (relayRun (.get queue)) w fun r w' => Serves queue s w' ∧
      ∀ message, r = .ok (some message) → orgOf message = some s.1 := by
  refine wp_perform fun w₁ h x _ => ?_
  have hw₁ := serves_keeps hs hw h
  obtain ⟨hafter, htaken⟩ := get_answer queue x w₁
  have hkeeps : KeepsStreams streams w₁.broker ((RelayCall.get queue).answer x w₁).2.broker := by
    rcases hafter with hsame | htook
    · rw [hsame]
      exact .refl _
    · rw [htook]
      exact keepsStreams_get _ _
  have hframes : Isolated w₁ → Isolated ((RelayCall.get queue).answer x w₁).2 := by
    rcases hafter with hsame | htook
    · rw [hsame]
      exact fun h => h
    · rw [htook]
      exact fun h => h
  exact ⟨⟨hkeeps, hframes⟩, serves_keeps hs hw₁ hkeeps,
    fun message hmessage => hw₁.2.own message (htaken message hmessage)⟩

theorem relaying_relay (hs : s ∈ streams) (started : ℚ) (rounds : ℕ) :
    (relaying streams).Preserves (Serves queue s) (relay s.1 s.2 started queue rounds) := by
  induction rounds with
  | zero => exact fun _ hw => hw
  | succ rounds ih =>
    have hclock : (relaying streams).Preserves (Serves queue s) (relayRun .clock) :=
      relaying_perform hs (fun _ _ => .refl _) fun _ _ h => h
    have hgone : (relaying streams).Preserves (Serves queue s) (relayRun .isDisconnected) := by
      have hsame : ∀ x w, (RelayCall.isDisconnected.answer x w).2 = w := by
        intro x w
        unfold RelayCall.answer
        cases x.fate <;> rfl
      refine relaying_perform hs (fun x w => ?_) fun x w hw => ?_
      · rw [hsame]
        exact .refl _
      · rwa [hsame]
    refine Preserves.bind hclock fun now => ?_
    split
    · exact fun _ hw => hw
    refine Preserves.bind hgone fun gone => ?_
    split
    · exact fun _ hw => hw
    intro w hw
    refine wp_bind (wp_mono (fun r w' h => ?_) (relaying_get hs hw))
    obtain ⟨hw', htaken⟩ := h
    cases r with
    | error e => exact hw'
    | ok taken =>
      cases taken with
      | none =>
        have hcomment : (Frame.comment "keepalive").BelongsTo s.1 := trivial
        exact Preserves.bind (relaying_yieldFrame hs hcomment) (fun _ => ih) w' hw'
      | some message =>
        have hdata : (Frame.data message).BelongsTo s.1 := htaken message rfl
        exact Preserves.bind (relaying_yieldFrame hs hdata) (fun _ => ih) w' hw'

end Relay

/-- A stream yields data of its org. -/
theorem relaying_streamInbox {s : String × String} (hs : s ∈ streams) (rounds : ℕ) {w : RelayWorld}
    (hw : w.broker.WellFormed) :
    (relaying streams).wp (streamInbox s.1 s.2 rounds) w fun _ _ => True := by
  have hmembership : (service (requireMembership s.2 s.1 "Not a member of this org")).Calls
      ScopedSystem := Calls.embed (scoped_requireMembership _ _ _)
  refine wp_bind (wp_mono (fun r w₁ hw₁ => ?_) (relaying_system hmembership w hw))
  cases r with
  | error e => trivial
  | ok membership =>
    refine wp_bind (wp_perform fun w₂ h x _ => ?_)
    refine ⟨⟨.refl _, fun h => h⟩, ?_⟩
    have hw₂ : w₂.broker.WellFormed := KeepsStreams.wellFormed h hw₁
    refine wp_bind (wp_perform fun w₃ h x _ => ?_)
    have hw₃ : w₃.broker.WellFormed := KeepsStreams.wellFormed h hw₂
    refine ⟨⟨keepsStreams_subscribe _ _, fun h => h⟩, ?_⟩
    have hserves : Serves w₃.broker.nextQueue s
        { w₃ with broker := w₃.broker.subscribe (channelsFor s.1 s.2) } :=
      ⟨hw₃.subscribe _, holdsOwn_subscribe hw₃ s⟩
    have hconnected : (Frame.comment "connected").BelongsTo s.1 := trivial
    refine wp_mono (fun _ _ _ => trivial) (Preserves.tryFinally (J := Serves w₃.broker.nextQueue s)
      (Preserves.bind (relaying_yieldFrame hs hconnected) fun _ => relaying_relay hs _ _) ?_ _ hserves)
    exact relaying_perform hs (fun _ w => keepsStreams_unsubscribe _ _) fun _ _ h => h

end Streams

/-- **Streams are isolated.** In any interleaving of streams, requests and workers in which nothing that
belongs to another org is published to the user of an open stream, each stream yields data of its own
org. -/
theorem isolated_of_notifiesWithin (registry : Registry) (tasks : List PlatformTask) (w : World)
    (schedule : List (ℕ × RelayChoice))
    (h : Pool.Along RelayCall.answer (NotifiesWithin (tasks.filterMap (·.stream?)))
      (platform registry tasks w) schedule) :
    Isolated ((platform registry tasks w).run RelayCall.answer schedule).world := by
  set streams := tasks.filterMap (·.stream?) with hstreams
  have hprograms : ∀ p ∈ (platform registry tasks w).procs,
      (relaying streams).wp p ⟨w, .empty, []⟩ fun _ _ => True := by
    intro p hp
    obtain ⟨task, htask, rfl⟩ := List.mem_map.mp hp
    have hempty : Broker.empty.WellFormed := Broker.wellFormed_empty
    cases task with
    | request req =>
      exact wp_mono (fun _ _ _ => trivial) (relaying_system (scoped_request registry req) _ hempty)
    | worker rounds =>
      exact wp_mono (fun _ _ _ => trivial)
        (relaying_system (Calls.embed (scoped_runForever registry rounds)) _ hempty)
    | stream orgId userId rounds =>
      have hmem : (orgId, userId) ∈ streams := by
        rw [hstreams, List.mem_filterMap]
        exact ⟨_, htask, rfl⟩
      exact relaying_streamInbox hmem rounds hempty
  obtain ⟨hguar, _⟩ := Pool.run_wp (K := relaying streams) (fun _ _ _ _ h => And.left h)
    (fun _ _ _ _ _ => trivial) hprograms h
  have hinitial : Isolated (platform registry tasks w).world := fun f hf => absurd hf List.not_mem_nil
  exact Pool.run_invariant (J := Isolated) (hguar.mono fun c x w h => And.right h) hinitial

/-! ### A user of two orgs -/

instance (orgId : String) (frame : Frame) : Decidable (frame.BelongsTo orgId) := by
  unfold Frame.BelongsTo
  split <;> infer_instance

instance (w : RelayWorld) : Decidable (Isolated w) :=
  inferInstanceAs (Decidable (∀ f ∈ w.frames, f.2.BelongsTo f.1.1))

instance (streams : List (String × String)) (c : RelayCall) (x : RelayChoice) (w : RelayWorld) :
    Decidable (NotifiesWithin streams c x w) := by
  unfold NotifiesWithin
  split <;> infer_instance

/-- A call that goes through. -/
def RelayChoice.calm (token : String) : RelayChoice where
  toService := .calm token
  timesOut := false
  disconnected := false

/-- A schedule of calls that all go through, by whose turn it is. -/
def relayCalmly (turns : List ℕ) : List (ℕ × RelayChoice) :=
  turns.zipIdx.map fun t => (t.1, .calm ("t" ++ toString t.2))

/-- kim has the inbox of an org open, and claims a conversation of `org`. -/
def watching (orgId : String) : List PlatformTask :=
  [.stream orgId "kim" 5, .request (.claim "org" "conversation" "kim")]

/-- The stream is opened, the conversation is claimed, and the stream goes on. -/
def claimedWhileWatching : List (ℕ × RelayChoice) :=
  relayCalmly (List.replicate 4 0 ++ List.replicate 12 1 ++ List.replicate 20 0)

theorem isolated_watching : Isolated ((platform whatsappRegistry (watching "org") inboxWorld).run
    RelayCall.answer claimedWhileWatching).world :=
  isolated_of_notifiesWithin whatsappRegistry (watching "org") inboxWorld claimedWhileWatching
    (by decide +kernel)

/-- The stream of another org of kim's is told of the conversation. -/
theorem not_isolated : ¬∀ (registry : Registry) (tasks : List PlatformTask) (w : World)
    (schedule : List (ℕ × RelayChoice)),
      Isolated ((platform registry tasks w).run RelayCall.answer schedule).world := by
  intro h
  have hrun := h whatsappRegistry (watching "clinic") inboxWorld claimedWhileWatching
  exact absurd hrun (by decide +kernel)

end A2ZCore.Omnichannel
