import A2ZCore.Core.JsonText
import A2ZCore.Lib.EventStream
import A2ZCore.Omnichannel.Stream

/-!
# The text of a stream

What a browser reads of a stream. Each update is published as the text of a JSON document, on one line
since every line break in it is escaped; `stream.stream_events` frames it as data, and yields comments in
between. So however the stream is interleaved with what else happens at the broker, the browser sees one
event for each update the stream has relayed, in order, and reads the update from it. The updates that
it has not relayed wait in its queue, as long as none was dropped there, and a stream that goes on
relays one in each round.

## Main definitions

* `frameData`, `frameComment`, `Frame.text` — the frames
* `amidAnswer` — a stream among everything else that happens at the broker
* `updatesOn` — the updates published on a list of channels

## Main results

* `keeping_relay` — a round of the stream relays an update where one waits
* `streamEvents_events` — what the browser reads
-/

namespace A2ZCore

namespace Core.Broker

/-- The updates that are published on one of the channels: by which org, and the payload. -/
def updatesOn (channels : List String) (actions : List Action) :
    List (String × List (String × Json)) :=
  actions.flatMap fun
    | .publishUpdate orgId channel payload => if channel ∈ channels then [(orgId, payload)] else []
    | _ => []

theorem sentOn_eq (channels : List String) (actions : List Action) :
    sentOn channels actions = (updatesOn channels actions).map fun u => updateMessage u.1 u.2 := by
  induction actions with
  | nil => rfl
  | cons a actions ih =>
    rw [sentOn, updatesOn, List.flatMap_cons, List.flatMap_cons, List.map_append, ← updatesOn, ← ih,
      ← sentOn]
    cases a with
    | publishUpdate orgId channel payload =>
      by_cases hchannel : channel ∈ channels <;> simp [sent, hchannel]
    | subscribe | unsubscribe | get => rfl

theorem run_append (b : Broker) (as bs : List Action) : b.run (as ++ bs) = (b.run as).run bs :=
  List.foldl_append

theorem receivedBy_append (queue : ℕ) (b : Broker) (as bs : List Action) :
    b.receivedBy queue (as ++ bs) = b.receivedBy queue as ++ (b.run as).receivedBy queue bs := by
  induction as generalizing b with
  | nil => rfl
  | cons a as ih =>
    rw [List.cons_append, receivedBy, receivedBy, ih, List.append_assoc]
    rfl

/-- A subscriber receives nothing by what others do. -/
theorem receivedBy_eq_nil {queue : ℕ} (b : Broker) {actions : List Action}
    (h : .get queue ∉ actions) : b.receivedBy queue actions = [] := by
  induction actions generalizing b with
  | nil => rfl
  | cons a actions ih =>
    rw [List.mem_cons, not_or] at h
    rw [receivedBy, ih _ h.2, List.append_nil]
    cases a with
    | get q =>
      have hq : q ≠ queue := fun hsame => h.1 (congrArg Action.get hsame.symm)
      simp [received, hq]
    | subscribe | unsubscribe | publishUpdate => rfl

/-- A live subscriber that has lost nothing has received what was published on its channels, but for
what waits in its queue. -/
theorem WellFormed.receivedBy_append_queue {b : Broker} (h : b.WellFormed) {queue : ℕ}
    {channels : List String} (hlive : ⟨queue, channels.map channelKey⟩ ∈ b.subscriptions)
    {actions : List Action} (hstay : .unsubscribe queue ∉ actions) (hempty : b.queues queue = [])
    (hlost : b.lostBy queue actions = []) :
    b.receivedBy queue actions ++ (b.run actions).queues queue = sentOn channels actions := by
  have hlog := h.run_live hlive hstay hempty (LossyLog.conforms_empty queueMaxsize)
  have hconforms : (LossyLog.empty.run queueMaxsize (actions.flatMap
      (events queue channels))).Conforms queueMaxsize _ :=
    LossyLog.conforms_run (by decide) (LossyLog.conforms_empty queueMaxsize)
  rw [hlog, written_events, List.nil_append, hlost] at hconforms
  exact hconforms.sublist.eq_of_length hconforms.perm.length_eq

/-- What is neither written to a live subscriber nor taken from it leaves its queue. -/
theorem WellFormed.queues_append {b : Broker} (h : b.WellFormed) {queue : ℕ}
    {channels : List String} (hlive : ⟨queue, channels.map channelKey⟩ ∈ b.subscriptions)
    (hempty : b.queues queue = []) {actions more : List Action}
    (hstay : .unsubscribe queue ∉ actions ++ more)
    (hnone : ∀ a ∈ more, events queue channels a = []) :
    (b.run (actions ++ more)).queues queue = (b.run actions).queues queue := by
  have hbefore := h.run_live hlive (fun hmem => hstay (List.mem_append_left more hmem)) hempty
    (LossyLog.conforms_empty queueMaxsize)
  have hafter := h.run_live hlive hstay hempty (LossyLog.conforms_empty queueMaxsize)
  rw [List.flatMap_append, List.flatMap_eq_nil_iff.mpr hnone, List.append_nil, hbefore] at hafter
  exact (congrArg LossyLog.queue hafter).symm

end Core.Broker

namespace Omnichannel

open Interaction Interaction.Proc Interaction.Contract A2ZCore.Core

/-! ### Frames -/

/-- `_frame_data`. -/
def frameData (data : String) : String := "data: " ++ data ++ "\n\n"

/-- `_frame_comment`. -/
def frameComment (text : String) : String := ": " ++ text ++ "\n\n"

/-- The text that is yielded. The broker carries the text of each message. -/
def Frame.text : Frame → String
  | .data message => frameData message.dumps
  | .comment text => frameComment text

/-- The message of a data frame. -/
def Frame.message? : Frame → Option Json
  | .data message => some message
  | .comment _ => none

/-! ### A stream among everything else -/

/-- What the environment decides at a call of the stream, and what has been done at the broker since its
last call. -/
structure AmidChoice where
  choice : RelayChoice
  others : List Broker.Action

/-- A stream that has subscribed: its queue, the broker then, and what has been done there since. -/
structure Opened where
  queue : ℕ
  broker : Broker
  actions : List Broker.Action

/-- The process, and the stream that is watched. -/
structure StreamWorld where
  relay : RelayWorld
  opened : Option Opened

/-- A stream's queue is known to the stream alone: the others neither read from it nor close it. -/
def isForeign (queue : ℕ) : Broker.Action → Bool
  | .get q | .unsubscribe q => q != queue
  | .subscribe _ | .publishUpdate _ _ _ => true

/-- What the others have done. -/
def StreamWorld.interfere (w : StreamWorld) (others : List Broker.Action) : StreamWorld :=
  match w.opened with
  | none => { w with relay := { w.relay with broker := w.relay.broker.run others } }
  | some s =>
    let others := others.filter (isForeign s.queue)
    { relay := { w.relay with broker := w.relay.broker.run others }
      opened := some { s with actions := s.actions ++ others } }

/-- There is a message in the stream's queue. -/
def StreamWorld.finds (w : StreamWorld) : Bool :=
  w.opened.any fun s => !(w.relay.broker.queues s.queue).isEmpty

/-- A call that is cancelled has had no effect. A `get` that finds a message does not wait for one, and
does not time out. -/
def RelayChoice.settled (x : RelayChoice) (finds : Bool) : RelayChoice :=
  { x with
    fate := match x.fate with
      | .late e => .lost e
      | fate => fate
    timesOut := x.timesOut && !finds }

/-- What is known of the stream after one of its calls. -/
def openedAfter (c : RelayCall) (x : RelayChoice) (before after : RelayWorld)
    (opened : Option Opened) : Option Opened :=
  match c with
  | .subscribe _ => some ⟨before.broker.nextQueue, after.broker, []⟩
  | .get queue =>
    if x.timesOut ∨ x.fate ≠ .ok then opened
    else opened.map fun s => { s with actions := s.actions ++ [.get queue] }
  | _ => opened

/-- The reply to a call of the stream, after the others. -/
def amidAnswer (c : RelayCall) (x : AmidChoice) (w : StreamWorld) :
    Except PyErr c.Resp × StreamWorld :=
  let w' := w.interfere x.others
  let r := c.answer (x.choice.settled w.finds) w'.relay
  (r.1, ⟨r.2, openedAfter c (x.choice.settled w.finds) w'.relay r.2 w'.opened⟩)

/-- What the stream has yielded. -/
def StreamWorld.text (w : StreamWorld) : List Char :=
  w.relay.frames.flatMap fun f => f.2.text.toList

/-! ### What is relayed -/

/-- What a stream has yielded, and what it has taken to yield next, is what it has received since it
subscribed to its channels. -/
structure Relayed (channels : List String) (pending : List Json) (s : Opened) (w : StreamWorld) :
    Prop where
  opened : w.opened = some s
  wellFormed : s.broker.WellFormed
  live : ⟨s.queue, channels.map channelKey⟩ ∈ s.broker.subscriptions
  fresh : s.broker.queues s.queue = []
  stays : .unsubscribe s.queue ∉ s.actions
  received : w.relay.frames.filterMap (fun f => f.2.message?) ++ pending =
    s.broker.receivedBy s.queue s.actions
  comments : ∀ f ∈ w.relay.frames, ∀ text, f.2 = .comment text → text = "connected" ∨ text = "keepalive"

/-- The same while the stream is open. -/
structure Relaying (channels : List String) (pending : List Json) (s : Opened) (w : StreamWorld) :
    Prop extends Relayed channels pending s w where
  broker : w.relay.broker = s.broker.run s.actions

section Steps

variable {channels : List String} {pending : List Json} {s : Opened} {w : StreamWorld}

theorem not_mem_filter_foreign (queue : ℕ) (others : List Broker.Action) :
    .get queue ∉ others.filter (isForeign queue) ∧
      .unsubscribe queue ∉ others.filter (isForeign queue) := by
  constructor <;> (intro h; simpa [isForeign] using (List.mem_filter.mp h).2)

/-- The others do not change what is relayed. -/
theorem Relaying.interfere (h : Relaying channels pending s w) (others : List Broker.Action) :
    ∃ s', s'.queue = s.queue ∧ Relaying channels pending s' (w.interfere others) := by
  obtain ⟨hget, hunsubscribe⟩ := not_mem_filter_foreign s.queue others
  have hw : w.interfere others = ⟨{ w.relay with
      broker := w.relay.broker.run (others.filter (isForeign s.queue)) },
        some { s with actions := s.actions ++ others.filter (isForeign s.queue) }⟩ := by
    rw [StreamWorld.interfere, h.opened]
  rw [hw]
  refine ⟨{ s with actions := s.actions ++ others.filter (isForeign s.queue) }, rfl,
    ⟨rfl, h.wellFormed, h.live, h.fresh, ?_, ?_, h.comments⟩, ?_⟩
  · intro hmem
    rcases List.mem_append.mp hmem with hold | hnew
    · exact h.stays hold
    · exact hunsubscribe hnew
  · rw [Broker.receivedBy_append, Broker.receivedBy_eq_nil _ hget, List.append_nil]
    exact h.received
  · dsimp only
    rw [Broker.run_append, h.broker]

/-- A call that looks at the clock or at the client. -/
theorem Relaying.look (h : Relaying channels pending s w) {c : RelayCall} (x : AmidChoice)
    (hc : c = .clock ∨ c = .isDisconnected) :
    ∃ s', s'.queue = s.queue ∧ Relaying channels pending s' (amidAnswer c x w).2 := by
  obtain ⟨s', hqueue, h'⟩ := h.interfere x.others
  refine ⟨s', hqueue, ?_⟩
  rcases hc with rfl | rfl
  · exact h'
  · have hsame : (amidAnswer .isDisconnected x w).2 = w.interfere x.others := by
      unfold amidAnswer RelayCall.answer openedAfter
      cases (x.choice.settled w.finds).fate <;> rfl
    rwa [hsame]

/-- What the stream has taken is yielded, or a comment. -/
theorem Relaying.yieldFrame (orgId userId : String) {frame : Frame}
    (h : Relaying channels frame.message?.toList s w)
    (hcomment : ∀ text, frame = .comment text → text = "connected" ∨ text = "keepalive")
    (x : AmidChoice) :
    ∃ s', s'.queue = s.queue ∧
      Relaying channels [] s' (amidAnswer (.yieldFrame orgId userId frame) x w).2 := by
  obtain ⟨s', hqueue, h'⟩ := h.interfere x.others
  have hyielded : (amidAnswer (.yieldFrame orgId userId frame) x w).2 =
      ⟨{ (w.interfere x.others).relay with
        frames := (w.interfere x.others).relay.frames ++ [((orgId, userId), frame)] },
          (w.interfere x.others).opened⟩ := by
    unfold amidAnswer RelayCall.answer openedAfter
    cases (x.choice.settled w.finds).fate <;> rfl
  have hlast : [((orgId, userId), frame)].filterMap (fun f => f.2.message?) =
      frame.message?.toList := by
    cases hmessage : frame.message? <;> simp [hmessage]
  rw [hyielded]
  refine ⟨s', hqueue, ⟨h'.opened, h'.wellFormed, h'.live, h'.fresh, h'.stays, ?_, ?_⟩, h'.broker⟩
  · rw [List.filterMap_append, hlast, List.append_nil]
    exact h'.received
  · intro f hf text hframe
    rcases List.mem_append.mp hf with hold | hnew
    · exact h'.comments f hold text hframe
    · rw [List.mem_singleton.mp hnew] at hframe
      exact hcomment text hframe

/-- The message that the stream has taken, if it has taken one. -/
def taken : Except PyErr (Option Json) → List Json
  | .ok (some message) => [message]
  | _ => []

/-- The stream takes the next message, or none. -/
theorem Relaying.get (h : Relaying channels [] s w) (x : AmidChoice) :
    ∃ s', s'.queue = s.queue ∧ Relaying channels (taken (amidAnswer (.get s.queue) x w).1) s'
      (amidAnswer (.get s.queue) x w).2 := by
  obtain ⟨s', hqueue, h'⟩ := h.interfere x.others
  by_cases htimeout : (x.choice.settled w.finds).timesOut
  · have hnone : amidAnswer (.get s.queue) x w = (.ok none, w.interfere x.others) := by
      simp only [amidAnswer, RelayCall.answer, openedAfter, htimeout, if_true, true_or]
    rw [hnone]
    exact ⟨s', hqueue, h'⟩
  · cases hfate : (x.choice.settled w.finds).fate with
    | ok =>
      have htook : amidAnswer (.get s.queue) x w =
          (.ok ((w.interfere x.others).relay.broker.queues s.queue).head?,
            ⟨{ (w.interfere x.others).relay with
              broker := (w.interfere x.others).relay.broker.step (.get s.queue) },
                some { s' with actions := s'.actions ++ [.get s.queue] }⟩) := by
        simp [amidAnswer, RelayCall.answer, openedAfter, htimeout, hfate, Fate.settle, h'.opened]
      have hhead : taken (.ok ((w.interfere x.others).relay.broker.queues s.queue).head?) =
          (s'.broker.run s'.actions).received s'.queue (.get s.queue) := by
        rw [h'.broker, ← hqueue]
        cases hq : ((s'.broker.run s'.actions).queues s'.queue).head? <;>
          simp [taken, Broker.received, hq]
      have hreceived := h'.received
      rw [List.append_nil] at hreceived
      have hall : (w.interfere x.others).relay.frames.filterMap (fun f => f.2.message?) ++
          taken (.ok ((w.interfere x.others).relay.broker.queues s.queue).head?) =
            s'.broker.receivedBy s'.queue (s'.actions ++ [.get s.queue]) := by
        rw [hhead, Broker.receivedBy_append, hreceived, Broker.receivedBy, Broker.receivedBy,
          List.append_nil]
      rw [htook]
      refine ⟨{ s' with actions := s'.actions ++ [.get s.queue] }, hqueue,
        ⟨rfl, h'.wellFormed, h'.live, h'.fresh, ?_, hall, h'.comments⟩, ?_⟩
      · intro hmem
        rcases List.mem_append.mp hmem with hold | hnew
        · exact h'.stays hold
        · cases List.mem_singleton.mp hnew
      · dsimp only
        rw [Broker.run_append, h'.broker]
        rfl
    | lost e =>
      have hlost : amidAnswer (.get s.queue) x w = (.error e, w.interfere x.others) := by
        simp [amidAnswer, RelayCall.answer, openedAfter, htimeout, hfate, Fate.settle]
      rw [hlost]
      exact ⟨s', hqueue, h'⟩
    | late e =>
      have hnever : (x.choice.settled w.finds).fate ≠ .late e := by
        unfold RelayChoice.settled
        dsimp only
        split
        · simp
        · next hnot => exact hnot e
      exact absurd hfate hnever

/-- The stream closes its subscription. -/
theorem Relaying.close (h : Relaying channels [] s w) (x : AmidChoice) (queue : ℕ) :
    ∃ s', Relayed channels [] s' (amidAnswer (.unsubscribe queue) x w).2 := by
  obtain ⟨s', -, h'⟩ := h.interfere x.others
  exact ⟨s', h'.opened, h'.wellFormed, h'.live, h'.fresh, h'.stays, h'.received, h'.comments⟩

/-- The stream subscribes. -/
theorem Relaying.subscribe (hb : w.relay.broker.WellFormed) (hframes : w.relay.frames = [])
    (hopened : w.opened = none) (x : AmidChoice) :
    ∃ s, (amidAnswer (.subscribe channels) x w).1 = .ok s.queue ∧
      Relaying channels [] s (amidAnswer (.subscribe channels) x w).2 := by
  have hw : w.interfere x.others = { w with relay := { w.relay with
      broker := w.relay.broker.run x.others } } := by
    rw [StreamWorld.interfere, hopened]
  set b := w.relay.broker.run x.others with hbdef
  have hrun : b.WellFormed := hb.run x.others
  have hanswer : amidAnswer (.subscribe channels) x w = (.ok b.nextQueue,
      ⟨{ w.relay with broker := b.subscribe channels }, some ⟨b.nextQueue, b.subscribe channels, []⟩⟩) := by
    simp only [amidAnswer, RelayCall.answer, openedAfter, hw]
  rw [hanswer]
  refine ⟨⟨b.nextQueue, b.subscribe channels, []⟩, rfl, ⟨rfl, hrun.subscribe channels,
    List.mem_cons_self, Function.update_self _ _ _, List.not_mem_nil, ?_, ?_⟩, rfl⟩
  · simp [hframes, Broker.receivedBy]
  · rw [hframes]
    exact fun f hf => absurd hf List.not_mem_nil

end Steps

/-! ### A run of the stream -/

section Run

variable {channels : List String} {queue : ℕ}

/-- The stream is open, and has yielded what it has taken. -/
def Open (channels : List String) (queue : ℕ) (w : StreamWorld) : Prop :=
  ∃ s, s.queue = queue ∧ Relaying channels [] s w

theorem wp_yield (orgId userId : String) {frame : Frame} {w : StreamWorld} {s : Opened}
    (hcomment : ∀ text, frame = .comment text → text = "connected" ∨ text = "keepalive")
    (hw : Relaying channels frame.message?.toList s w) :
    (solo amidAnswer).wp (relayRun (.yieldFrame orgId userId frame)) w fun _ w' =>
      Open channels s.queue w' :=
  wp_solo_perform fun x => hw.yieldFrame orgId userId hcomment x

theorem open_relay (orgId userId : String) (started : ℚ) (rounds : ℕ) :
    (solo amidAnswer).Preserves (Open channels queue) (relay orgId userId started queue rounds) := by
  induction rounds with
  | zero => exact fun _ hw => hw
  | succ rounds ih =>
    have hlook : ∀ c, c = .clock ∨ c = .isDisconnected →
        (solo amidAnswer).Preserves (Open channels queue) (relayRun c) := by
      rintro c hc w ⟨s, rfl, hs⟩
      exact wp_solo_perform fun x => hs.look x hc
    refine Preserves.bind (hlook _ (.inl rfl)) fun now => ?_
    split
    · exact fun _ hw => hw
    refine Preserves.bind (hlook _ (.inr rfl)) fun gone => ?_
    split
    · exact fun _ hw => hw
    rintro w ⟨s, rfl, hs⟩
    refine wp_bind (wp_solo_perform fun x => ?_)
    obtain ⟨s', hqueue, hs'⟩ := hs.get x
    have hyield : ∀ (frame : Frame) (w' : StreamWorld),
        (∀ text, frame = .comment text → text = "connected" ∨ text = "keepalive") →
        Relaying channels frame.message?.toList s' w' →
        (solo amidAnswer).wp ((relayRun (.yieldFrame orgId userId frame)).bind fun _ =>
          relay orgId userId started s.queue rounds) w' fun _ w'' => Open channels s.queue w'' := by
      intro frame w' hcomment hw'
      refine wp_bind (wp_mono (fun r w'' hopen => ?_) (wp_yield orgId userId hcomment hw'))
      rw [hqueue] at hopen
      cases r with
      | ok _ => exact ih w'' hopen
      | error e => exact hopen
    revert hs'
    generalize amidAnswer (.get s.queue) x w = r
    obtain ⟨r, w'⟩ := r
    intro hs'
    cases r with
    | error e => exact ⟨s', hqueue, hs'⟩
    | ok message =>
      cases message with
      | none =>
        exact hyield (.comment "keepalive") w' (by rintro _ ⟨⟩; exact .inr rfl) hs'
      | some message =>
        exact hyield (.data message) w' nofun hs'

/-- What a stream has yielded when it has ended is what it has received. -/
theorem wp_streamEvents (orgId userId : String) (rounds : ℕ) {w : StreamWorld}
    (hb : w.relay.broker.WellFormed) (hframes : w.relay.frames = []) (hopened : w.opened = none) :
    (solo amidAnswer).wp (streamEvents orgId userId rounds) w fun _ w' =>
      ∃ s, Relayed (channelsFor orgId userId) [] s w' := by
  refine wp_bind (wp_solo_perform fun x => ?_)
  have hinterfere : (w.interfere x.others).relay.broker.WellFormed ∧
      (w.interfere x.others).relay.frames = [] ∧ (w.interfere x.others).opened = none := by
    rw [StreamWorld.interfere, hopened]
    exact ⟨hb.run x.others, hframes, rfl⟩
  obtain ⟨hb', hframes', hopened'⟩ := hinterfere
  show (solo amidAnswer).wp _ (w.interfere x.others) _
  refine wp_bind (wp_solo_perform fun y => ?_)
  obtain ⟨s, hqueue, hs⟩ : ∃ s,
      (amidAnswer (.subscribe (channelsFor orgId userId)) y (w.interfere x.others)).1 = .ok s.queue ∧
        Relaying (channelsFor orgId userId) [] s
          (amidAnswer (.subscribe (channelsFor orgId userId)) y (w.interfere x.others)).2 :=
    Relaying.subscribe hb' hframes' hopened' y
  rw [hqueue]
  refine wp_tryFinally (J := Open (channelsFor orgId userId) s.queue) ?_ fun w' hw' => ?_
  · refine wp_bind (wp_mono (fun r w' hw' => ?_) (wp_yield orgId userId
      (by rintro _ ⟨⟩; exact .inl rfl) hs))
    cases r with
    | ok _ => exact open_relay orgId userId _ rounds w' hw'
    | error e => exact hw'
  · obtain ⟨s', -, hs'⟩ := hw'
    exact wp_solo_perform fun z => hs'.close z s.queue

end Run

/-! ### What waits -/

/-- Nothing cuts the stream short: no call is cancelled, the client stays, and the clock reads less than
a lifetime more than `start`. From its round `m` on, nothing is published to it. -/
structure Settling (channels : List String) (start : ℚ) (m : ℕ) (x : AmidChoice) (w : StreamWorld) :
    Prop where
  fate : x.choice.fate = .ok
  stays : x.choice.disconnected = false
  start_le : start ≤ x.choice.monotonic
  lt : x.choice.monotonic < start + maxLifetimeSeconds
  quiet : m < w.relay.frames.length → Broker.updatesOn channels x.others = []

/-- How many messages the stream has yielded. -/
def StreamWorld.relayed (w : StreamWorld) : ℕ :=
  (w.relay.frames.filterMap fun f => f.2.message?).length

/-- In round `d` of a stream it has yielded a message for each round since `m`, or nothing waits. -/
structure Keeping (channels : List String) (queue m d : ℕ) (w : StreamWorld) : Prop where
  opened : Open channels queue w
  rounds : w.relay.frames.length = d + 1
  caught : d - m ≤ w.relayed ∨ w.relay.broker.queues queue = []

section Progress

variable {channels : List String} {queue m d : ℕ} {start : ℚ} {w : StreamWorld}

theorem frames_interfere (w : StreamWorld) (others : List Broker.Action) :
    (w.interfere others).relay.frames = w.relay.frames := by
  unfold StreamWorld.interfere
  cases w.opened <;> rfl

/-- Others that publish nothing to the stream leave its queue. -/
theorem Relaying.queues_interfere {pending : List Json} {s : Opened}
    (h : Relaying channels pending s w) {others : List Broker.Action}
    (hquiet : Broker.updatesOn channels others = []) :
    (w.interfere others).relay.broker.queues s.queue = w.relay.broker.queues s.queue := by
  have hw : (w.interfere others).relay.broker =
      s.broker.run (s.actions ++ others.filter (isForeign s.queue)) := by
    rw [StreamWorld.interfere, h.opened, Broker.run_append, ← h.broker]
  rw [hw, h.broker]
  refine h.wellFormed.queues_append h.live h.fresh ?_ fun a ha => ?_
  · intro hmem
    rcases List.mem_append.mp hmem with hold | hnew
    · exact h.stays hold
    · exact (not_mem_filter_foreign s.queue others).2 hnew
  · obtain ⟨hothers, hforeign⟩ := List.mem_filter.mp ha
    have hnone := List.flatMap_eq_nil_iff.mp hquiet a hothers
    cases a with
    | publishUpdate orgId channel payload =>
      have hchannel : channel ∉ channels := by simpa using hnone
      exact if_neg hchannel
    | get q => exact if_neg (by simpa [isForeign] using hforeign)
    | subscribe | unsubscribe => rfl

theorem Keeping.interfere (h : Keeping channels queue m d w) {others : List Broker.Action}
    (hquiet : m < w.relay.frames.length → Broker.updatesOn channels others = []) :
    Keeping channels queue m d (w.interfere others) := by
  obtain ⟨s, rfl, hs⟩ := h.opened
  have hframes := frames_interfere w others
  have hrelayed : (w.interfere others).relayed = w.relayed := by
    rw [StreamWorld.relayed, hframes, StreamWorld.relayed]
  obtain ⟨s', hqueue, hs'⟩ := hs.interfere others
  refine ⟨⟨s', hqueue, hs'⟩, by rw [hframes, h.rounds], ?_⟩
  rw [hrelayed]
  by_cases hm : m ≤ d
  · rw [hs.queues_interfere (hquiet (by rw [h.rounds]; omega))]
    exact h.caught
  · exact .inl (by omega)

/-- A call that looks at the clock or at the client tells that the stream goes on. -/
theorem Keeping.look (h : Keeping channels queue m d w) {x : AmidChoice}
    (hx : Settling channels start m x w) :
    (amidAnswer .clock x w).1 = .ok x.choice.monotonic ∧
      Keeping channels queue m d (amidAnswer .clock x w).2 ∧
      (amidAnswer .isDisconnected x w).1 = .ok false ∧
      Keeping channels queue m d (amidAnswer .isDisconnected x w).2 := by
  have hfate : (x.choice.settled w.finds).fate = .ok := by
    rw [RelayChoice.settled, hx.fate]
  have hlook : amidAnswer .isDisconnected x w = (.ok false, w.interfere x.others) := by
    unfold amidAnswer RelayCall.answer openedAfter
    dsimp only
    rw [hfate]
    show (_, _) = _
    rw [show (x.choice.settled w.finds).disconnected = false from hx.stays]
    rfl
  rw [hlook]
  exact ⟨rfl, h.interfere hx.quiet, rfl, h.interfere hx.quiet⟩

/-- A `get` takes the next message if there is one. -/
theorem Keeping.get (h : Keeping channels queue m d w) {x : AmidChoice}
    (hx : Settling channels start m x w) : ∃ message : Option Json,
      (amidAnswer (.get queue) x w).1 = .ok message ∧
      (∃ s, s.queue = queue ∧ Relaying channels message.toList s (amidAnswer (.get queue) x w).2) ∧
      (amidAnswer (.get queue) x w).2.relay.frames.length = d + 1 ∧
      (d + 1 - m ≤ (amidAnswer (.get queue) x w).2.relayed + message.toList.length ∨
        (amidAnswer (.get queue) x w).2.relay.broker.queues queue = []) := by
  have hafter := h.interfere hx.quiet
  obtain ⟨s, rfl, hs⟩ := h.opened
  have hfate : (x.choice.settled w.finds).fate = .ok := by
    rw [RelayChoice.settled, hx.fate]
  obtain ⟨s', hqueue, htaken⟩ := hs.get x
  by_cases htimeout : (x.choice.settled w.finds).timesOut
  · have hnone : amidAnswer (.get s.queue) x w = (.ok none, w.interfere x.others) := by
      simp only [amidAnswer, RelayCall.answer, openedAfter, htimeout, if_true, true_or]
    have hempty : w.relay.broker.queues s.queue = [] := by
      have hfinds : w.finds = false := by
        simp only [RelayChoice.settled, Bool.and_eq_true] at htimeout
        simpa using htimeout.2
      simpa [StreamWorld.finds, hs.opened] using hfinds
    rw [hnone] at htaken ⊢
    refine ⟨none, rfl, ⟨s', hqueue, htaken⟩, hafter.rounds, ?_⟩
    by_cases hm : m ≤ d
    · right
      rw [hs.queues_interfere (hx.quiet (by rw [h.rounds]; omega)), hempty]
    · exact .inl (by omega)
  · have htook : (amidAnswer (.get s.queue) x w).1 =
          .ok ((w.interfere x.others).relay.broker.queues s.queue).head? ∧
        (amidAnswer (.get s.queue) x w).2.relay = { (w.interfere x.others).relay with
          broker := (w.interfere x.others).relay.broker.step (.get s.queue) } := by
      simp [amidAnswer, RelayCall.answer, htimeout, hfate, Fate.settle]
    obtain ⟨hreply, hrelay⟩ := htook
    rw [hreply] at htaken
    have hrelayed : (amidAnswer (.get s.queue) x w).2.relayed = (w.interfere x.others).relayed := by
      rw [StreamWorld.relayed, hrelay, StreamWorld.relayed]
    cases hwaiting : (w.interfere x.others).relay.broker.queues s.queue with
    | nil =>
      rw [hwaiting] at hreply htaken
      refine ⟨none, hreply, ⟨s', hqueue, htaken⟩, by rw [hrelay]; exact hafter.rounds, .inr ?_⟩
      rw [hrelay, Broker.step]
      simp [hwaiting]
    | cons message rest =>
      rw [hwaiting] at hreply htaken
      refine ⟨some message, hreply, ⟨s', hqueue, htaken⟩, by rw [hrelay]; exact hafter.rounds, .inl ?_⟩
      have hcaught : d - m ≤ (w.interfere x.others).relayed :=
        hafter.caught.resolve_right (by rw [hwaiting]; exact List.cons_ne_nil _ _)
      rw [hrelayed, Option.toList_some, List.length_singleton]
      omega

/-- The round ends with a frame. -/
theorem Keeping.yieldFrame (orgId userId : String) (frame : Frame) {s : Opened}
    (hs : Relaying channels frame.message?.toList s w)
    (hcomment : ∀ text, frame = .comment text → text = "connected" ∨ text = "keepalive")
    (hrounds : w.relay.frames.length = d)
    (hcaught : d - m ≤ w.relayed + frame.message?.toList.length ∨
      w.relay.broker.queues s.queue = [])
    {x : AmidChoice} (hx : Settling channels start m x w) :
    (amidAnswer (.yieldFrame orgId userId frame) x w).1 = .ok () ∧
      Keeping channels s.queue m d (amidAnswer (.yieldFrame orgId userId frame) x w).2 := by
  have hfate : (x.choice.settled w.finds).fate = .ok := by
    rw [RelayChoice.settled, hx.fate]
  have hyielded : amidAnswer (.yieldFrame orgId userId frame) x w =
      (.ok (), ⟨{ (w.interfere x.others).relay with
        frames := (w.interfere x.others).relay.frames ++ [((orgId, userId), frame)] },
          (w.interfere x.others).opened⟩) := by
    simp only [amidAnswer, RelayCall.answer, openedAfter, hfate]
  have hopen : Open channels s.queue (amidAnswer (.yieldFrame orgId userId frame) x w).2 :=
    hs.yieldFrame orgId userId hcomment x
  rw [hyielded] at hopen ⊢
  refine ⟨rfl, hopen, ?_, ?_⟩
  · rw [List.length_append, frames_interfere, hrounds]
    rfl
  · have hrelayed : w.relayed + frame.message?.toList.length =
        StreamWorld.relayed ⟨{ (w.interfere x.others).relay with
          frames := (w.interfere x.others).relay.frames ++ [((orgId, userId), frame)] },
            (w.interfere x.others).opened⟩ := by
      rw [StreamWorld.relayed, StreamWorld.relayed, List.filterMap_append, List.length_append,
        frames_interfere]
      cases hmessage : frame.message? <;> simp [hmessage]
    rw [← hrelayed]
    by_cases hm : m < d
    · rw [hs.queues_interfere (hx.quiet (by rw [hrounds]; exact hm))]
      exact hcaught
    · exact .inl (by omega)

/-- The setting of a stream that nothing cuts short. -/
def settling (channels : List String) (start : ℚ) (m : ℕ) :
    Contract RelayCall RelayCall.Resp PyErr AmidChoice StreamWorld :=
  admitting amidAnswer fun _ => Settling channels start m

/-- Each round yields a frame, and a message if one waits. -/
theorem keeping_relay (orgId userId : String) {started : ℚ} (hstarted : start ≤ started)
    (rounds : ℕ) (hw : Keeping channels queue m d w) :
    (settling channels start m).wp (relay orgId userId started queue rounds) w fun _ w' =>
      Keeping channels queue m (d + rounds) w' := by
  induction rounds generalizing d w with
  | zero => exact hw
  | succ rounds ih =>
    refine wp_bind (wp_admitting_perform fun x hx => ?_)
    obtain ⟨hnow, hw₁, -⟩ := hw.look hx
    rw [hnow]
    have hlasts : ¬maxLifetimeSeconds ≤ x.choice.monotonic - started := by
      have hlt := hx.lt
      intro hle
      linarith
    show (settling channels start m).wp (ite _ _ _) _ _
    rw [if_neg hlasts]
    refine wp_bind (wp_admitting_perform fun y hy => ?_)
    obtain ⟨-, -, hgone, hw₂⟩ := hw₁.look hy
    rw [hgone]
    show (settling channels start m).wp (ite _ _ _) _ _
    rw [if_neg Bool.false_ne_true]
    refine wp_bind (wp_admitting_perform fun z hz => ?_)
    obtain ⟨message, hreply, ⟨s, hqueue, hs⟩, hrounds, hcaught⟩ := hw₂.get hz
    rw [hreply]
    subst hqueue
    revert hs hrounds hcaught
    generalize (amidAnswer (.get s.queue) z _).2 = w₃
    intro hs hrounds hcaught
    have hyield : ∀ frame : Frame, frame.message? = message →
        (∀ text, frame = .comment text → text = "connected" ∨ text = "keepalive") →
        (settling channels start m).wp ((relayRun (.yieldFrame orgId userId frame)).bind fun _ =>
          relay orgId userId started s.queue rounds) w₃ fun _ w' =>
            Keeping channels s.queue m (d + (rounds + 1)) w' := by
      rintro frame rfl hcomment
      refine wp_bind (wp_admitting_perform fun x' hx' => ?_)
      obtain ⟨hyielded, hw'⟩ := Keeping.yieldFrame orgId userId _ hs hcomment hrounds hcaught hx'
      rw [hyielded, show d + (rounds + 1) = d + 1 + rounds by omega]
      exact ih hw'
    cases message with
    | none => exact hyield (.comment "keepalive") rfl (by rintro _ ⟨⟩; exact .inr rfl)
    | some message => exact hyield (.data message) rfl nofun

/-- What a stream that nothing cut short has relayed when it has ended. -/
theorem wp_streamEvents_settling (orgId userId : String) (rounds : ℕ)
    (hb : w.relay.broker.WellFormed) (hframes : w.relay.frames = []) (hopened : w.opened = none) :
    (settling (channelsFor orgId userId) start m).wp (streamEvents orgId userId rounds) w
      fun _ w' => ∃ s, Relayed (channelsFor orgId userId) [] s w' ∧
        (rounds - m ≤ (s.broker.receivedBy s.queue s.actions).length ∨
          (s.broker.run s.actions).queues s.queue = []) := by
  refine wp_bind (wp_admitting_perform fun x hx => ?_)
  have hinterfere : (w.interfere x.others).relay.broker.WellFormed ∧
      (w.interfere x.others).relay.frames = [] ∧ (w.interfere x.others).opened = none := by
    rw [StreamWorld.interfere, hopened]
    exact ⟨hb.run x.others, hframes, rfl⟩
  obtain ⟨hb', hframes', hopened'⟩ := hinterfere
  show (settling _ _ _).wp _ (w.interfere x.others) _
  refine wp_bind (wp_admitting_perform fun y _ => ?_)
  obtain ⟨s, hqueue, hs⟩ : ∃ s : Opened,
      (amidAnswer (.subscribe (channelsFor orgId userId)) y (w.interfere x.others)).1 = .ok s.queue ∧
        Relaying (channelsFor orgId userId) [] s
          (amidAnswer (.subscribe (channelsFor orgId userId)) y (w.interfere x.others)).2 :=
    Relaying.subscribe hb' hframes' hopened' y
  have hnoFrames : (amidAnswer (.subscribe (channelsFor orgId userId)) y
      (w.interfere x.others)).2.relay.frames = [] :=
    (frames_interfere _ y.others).trans hframes'
  rw [hqueue]
  refine wp_tryFinally (J := Keeping (channelsFor orgId userId) s.queue m rounds) ?_ fun w' hw' => ?_
  · refine wp_bind (wp_admitting_perform fun z hz => ?_)
    obtain ⟨hyielded, hw'⟩ := Keeping.yieldFrame (m := m) (d := 0) orgId userId
      (.comment "connected") hs (by rintro _ ⟨⟩; exact .inl rfl)
      (by rw [hnoFrames]; rfl) (.inl (by omega)) hz
    rw [hyielded]
    have hrelay := keeping_relay orgId userId hx.start_le rounds hw'
    rwa [Nat.zero_add] at hrelay
  · refine wp_admitting_perform fun z hz => ?_
    have hafter := hw'.interfere hz.quiet
    obtain ⟨s', hqueue', hs'⟩ := hafter.opened
    have hsame : (amidAnswer (.unsubscribe s.queue) z w').2.relay.frames =
        (w'.interfere z.others).relay.frames := rfl
    refine ⟨s', ⟨hs'.opened, hs'.wellFormed, hs'.live, hs'.fresh, hs'.stays, hs'.received,
      hs'.comments⟩, ?_⟩
    have hreceived := hs'.received
    rw [List.append_nil] at hreceived
    rw [← hreceived, ← hs'.broker, hqueue']
    exact hafter.caught

end Progress

/-! ### What the browser reads -/

/-- A frame as the rules of event streams see it. -/
def Frame.wire : Frame → EventStream.Frame
  | .data message => .data message.text
  | .comment text => .comment text.toList

theorem Frame.toList_text (f : Frame) : f.text.toList = f.wire.text := by
  cases f <;> simp [Frame.text, frameData, frameComment, Json.dumps, Frame.wire,
    EventStream.Frame.text, EventStream.Frame.line]

theorem Frame.data?_wire (f : Frame) : f.wire.data? = f.message?.map Json.text := by
  cases f <;> rfl

/-- No frame of a stream has a line break inside. -/
theorem Relayed.oneLine {channels : List String} {pending : List Json} {s : Opened} {w : StreamWorld}
    (h : Relayed channels pending s w) :
    ∀ f ∈ w.relay.frames.map fun f => f.2.wire, EventStream.OneLine f.body := by
  intro f hf
  obtain ⟨⟨stream, frame⟩, hmem, rfl⟩ := List.mem_map.mp hf
  cases hframe : frame with
  | data message =>
    intro c hc
    have hprintable := Json.printable_text message c hc
    constructor
    · rintro rfl
      exact absurd hprintable (by decide)
    · rintro rfl
      exact absurd hprintable (by decide)
  | comment text =>
    rcases h.comments _ hmem text hframe with rfl | rfl
    · show EventStream.OneLine "connected".toList
      decide
    · show EventStream.OneLine "keepalive".toList
      decide

/-- The events of a stream are its messages. -/
theorem Relayed.parse {channels : List String} {s : Opened} {w : StreamWorld}
    (h : Relayed channels [] s w) :
    EventStream.parse w.text =
      (s.broker.receivedBy s.queue s.actions).map fun m => EventStream.messageOf m.text := by
  have htext : w.text = (w.relay.frames.map fun f => f.2.wire).flatMap EventStream.Frame.text := by
    rw [StreamWorld.text, List.flatMap_map]
    simp only [Frame.toList_text]
  have hdata : (w.relay.frames.map fun f => f.2.wire).filterMap EventStream.Frame.data? =
      (w.relay.frames.filterMap fun f => f.2.message?).map Json.text := by
    rw [List.filterMap_map, List.map_filterMap]
    congr 1
    funext f
    exact Frame.data?_wire f.2
  have hreceived := h.received
  rw [List.append_nil] at hreceived
  rw [htext, EventStream.parse_frames h.oneLine, hdata, hreceived, List.map_map]
  rfl

/-- **The browser reads the updates.** However a stream is interleaved with what happens at the broker,
if its queue never overflows, then what it has yielded is one event for each update that was published on
its channels while it was open, in order, but for those that still wait in its queue when it ends. The
data of each is a JSON document: the payload, with the publisher's org in it. And none waits where
nothing cut the stream short, and after the last update it went on for a round for each. -/
theorem streamEvents_events (orgId userId : String) (rounds : ℕ) (earlier : List Broker.Action)
    (service : World) {o : Oracle AmidChoice} {r : Except PyErr Unit} {w : StreamWorld} {s : Opened}
    (h : exec amidAnswer (streamEvents orgId userId rounds) o
      ⟨⟨service, Broker.empty.run earlier, []⟩, none⟩ = (some r, w))
    (hs : w.opened = some s) (hlost : s.broker.lostBy s.queue s.actions = [])
    (hplain : ∀ u ∈ Broker.updatesOn (channelsFor orgId userId) s.actions,
      (Json.obj u.2).plain = true) :
    ∃ relayed waiting,
      Broker.updatesOn (channelsFor orgId userId) s.actions = relayed ++ waiting ∧
      (s.broker.run s.actions).queues s.queue =
        waiting.map (fun u => Broker.updateMessage u.1 u.2) ∧
      List.Forall₂ (fun (e : EventStream.Event) u => e.type = "message".toList ∧
        Json.loads (String.ofList e.data) = some (.obj (Json.set "org_id" (.str u.1) u.2)))
          (EventStream.parse w.text) relayed ∧
      ∀ start m, m + (relayed ++ waiting).length ≤ rounds →
        Along amidAnswer (fun _ => Settling (channelsFor orgId userId) start m)
          (streamEvents orgId userId rounds) o ⟨⟨service, Broker.empty.run earlier, []⟩, none⟩ →
        waiting = [] := by
  have hb := Broker.wellFormed_empty.run earlier
  obtain ⟨s', h'⟩ := exec_solo (wp_streamEvents orgId userId rounds hb rfl rfl) h
  obtain rfl : s' = s := Option.some.inj (h'.opened.symm.trans hs)
  have hall := h'.wellFormed.receivedBy_append_queue h'.live h'.stays h'.fresh hlost
  rw [Broker.sentOn_eq] at hall
  obtain ⟨relayed, waiting, hsplit, hrelayed, hwaiting⟩ := List.map_eq_append_iff.mp hall.symm
  refine ⟨relayed, waiting, hsplit, hwaiting.symm, ?_, fun start m hrounds halong => ?_⟩
  · rw [h'.parse, ← hrelayed, List.map_map, List.forall₂_map_left_iff, List.forall₂_same]
    intro u hu
    refine ⟨rfl, ?_⟩
    have hmember : u ∈ Broker.updatesOn (channelsFor orgId userId) s'.actions := by
      rw [hsplit]
      exact List.mem_append_left _ hu
    exact Json.loads_dumps (Json.plain_set "org_id" (hplain u hmember) rfl)
  · obtain ⟨s'', h'', hcaught⟩ := exec_post
      (wp_streamEvents_settling orgId userId rounds hb rfl rfl) halong h
    obtain rfl : s'' = s' := Option.some.inj (h''.opened.symm.trans hs)
    rcases hcaught with hmany | hempty
    · rw [← hrelayed, List.length_map] at hmany
      rw [List.length_append] at hrounds
      exact List.length_eq_zero_iff.mp (by omega)
    · rw [hempty, List.map_eq_nil_iff] at hwaiting
      exact hwaiting

/-- A message with line breaks in its text. -/
def brokenLines : List (String × Json) := [("text", .str "one\r\ndata: two\n\n")]

/-- A heartbeat, then the message, and one more round. -/
def heartbeatAndMessage : Oracle AmidChoice := fun n =>
  some ⟨{ RelayChoice.calm "t" with timesOut := n == 5 },
    if n = 8 then [.publishUpdate "org" (orgChannel "org") brokenLines] else []⟩

/-- kim's stream of three rounds. -/
def relayedMessage : Option (Except PyErr Unit) × StreamWorld :=
  exec amidAnswer (streamEvents "org" "kim" 3) heartbeatAndMessage
    ⟨⟨inboxWorld, Broker.empty, []⟩, none⟩

instance (channels : List String) (start : ℚ) (m : ℕ) (x : AmidChoice) (w : StreamWorld) :
    Decidable (Settling channels start m x w) :=
  decidable_of_iff (x.choice.fate = .ok ∧ x.choice.disconnected = false ∧ start ≤ x.choice.monotonic ∧
      x.choice.monotonic < start + maxLifetimeSeconds ∧
      (m < w.relay.frames.length → Broker.updatesOn channels x.others = []))
    ⟨fun h => ⟨h.1, h.2.1, h.2.2.1, h.2.2.2.1, h.2.2.2.2⟩,
      fun h => ⟨h.fate, h.stays, h.start_le, h.lt, h.quiet⟩⟩

theorem streamEvents_events_heartbeat : ∃ s, relayedMessage.2.opened = some s ∧
    Broker.updatesOn (channelsFor "org" "kim") s.actions = [("org", brokenLines)] ∧
      List.Forall₂ (fun (e : EventStream.Event) u => e.type = "message".toList ∧
        Json.loads (String.ofList e.data) = some (.obj (Json.set "org_id" (.str u.1) u.2)))
          (EventStream.parse relayedMessage.2.text) [("org", brokenLines)] := by
  have hended : relayedMessage.1.isSome := by decide +kernel
  have hopened : ∀ s ∈ relayedMessage.2.opened, s.broker.lostBy s.queue s.actions = [] := by
    decide +kernel
  have hpublished : relayedMessage.2.opened.map (fun s =>
      Broker.updatesOn (channelsFor "org" "kim") s.actions) = some [("org", brokenLines)] := by
    with_unfolding_all rfl
  have hsettling : Along amidAnswer (fun _ => Settling (channelsFor "org" "kim") 0 2)
      (streamEvents "org" "kim" 3) heartbeatAndMessage ⟨⟨inboxWorld, Broker.empty, []⟩, none⟩ := by
    decide +kernel
  obtain ⟨r, hr⟩ := Option.isSome_iff_exists.mp hended
  have hrun : relayedMessage = (some r, relayedMessage.2) := Prod.ext hr rfl
  cases hs : relayedMessage.2.opened with
  | none => exact absurd hs (by decide +kernel)
  | some s =>
    have hlost := hopened s hs
    have hupdates : Broker.updatesOn (channelsFor "org" "kim") s.actions = [("org", brokenLines)] := by
      rw [hs] at hpublished
      exact Option.some.inj hpublished
    have hplain : ∀ u ∈ Broker.updatesOn (channelsFor "org" "kim") s.actions,
        (Json.obj u.2).plain = true := by
      rw [hupdates]
      decide
    obtain ⟨relayed, waiting, hsplit, -, hevents, hdrained⟩ :=
      streamEvents_events "org" "kim" 3 [] inboxWorld hrun hs hlost hplain
    have hwaiting : waiting = [] :=
      hdrained 0 2 (by rw [← hsplit, hupdates]; decide) hsettling
    rw [hupdates, hwaiting, List.append_nil] at hsplit
    rw [← hsplit] at hevents
    exact ⟨s, rfl, hupdates, hevents⟩

end Omnichannel

end A2ZCore
