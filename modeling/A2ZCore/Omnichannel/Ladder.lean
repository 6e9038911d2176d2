import A2ZCore.Omnichannel.Outbound
import A2ZCore.Omnichannel.Statuses

/-!
# The ladder of a message's statuses

Delivery updates move a message up the ladder `queued`, `sent`, `delivered`, `read`. The outbound
worker writes `sent` and `failed` without looking: it marks a message by what became of this attempt,
also where an earlier attempt of the same entry had already sent it.

`climbs_of_notSentAgain` says that no message moves down the ladder, and none that was sent is marked
failed, in every run of the worker in which a message that has been sent is sent again only to the
same end.

## Main definitions

* `Follows`, `Climbs` — a status that may come next; what each call does to the messages
* `LadderUpdates` — the delivery updates are on the ladder
* `NotSentAgain` — how a message that has been sent may be sent again

## Main results

* `climbs_of_notSentAgain`
-/

namespace A2ZCore.Omnichannel

open Interaction Interaction.Proc Interaction.Contract Messaging Relational

/-- The statuses of a message that has been sent. -/
def sentStatuses : List String := ["sent", "delivered", "read"]

/-- The statuses on the ladder. -/
def ladder : List String := "queued" :: sentStatuses

/-- A status may come after another: it is not lower on the ladder, and a message that has been sent
remains so, and is not `failed`. -/
structure Follows (status status' : String) : Prop where
  climbs : status ∈ ladder → status' ∈ ladder → statusRank status ≤ statusRank status'
  kept : status ∈ sentStatuses → status' ∈ sentStatuses

/-- No message that goes out moves down the ladder, and none that has been sent is marked failed. -/
def Climbs (w w' : World) : Prop :=
  ∀ m ∈ w.db.messages.rows, m.direction = .outbound → ∃ m' ∈ w'.db.messages.rows,
    m'.id = m.id ∧ m'.direction = .outbound ∧ Follows m.status m'.status

/-- The delivery updates of a payload are on the ladder. -/
def LadderUpdates : Call → Choice → World → Prop
  | .normalizeInbound adapter rawPayload, _, _ =>
    ∀ updates, adapter.interpretDeliveryWebhook rawPayload = .ok updates →
      ∀ update ∈ updates, update.status ∈ sentStatuses
  | _, _, _ => True

/-- An entry that names the message has been received as often as it will be. -/
def LastAttempt (w : World) (id : String) : Prop :=
  ∃ e ∈ w.queues .outbound, sqsMaxReceiveCount ≤ e.receives ∧ Names e.body.body id

/-- The provider refuses a message. -/
def Refused (x : Choice) : Prop :=
  ∃ e, (x.fate = .lost e ∨ x.fate = .late e) ∧ e.cls = .channelAdapterError

/-- The provider accepts no message that is delivered or read, and refuses none at the last attempt
that has been sent. -/
def NotSentAgain : Call → Choice → World → Prop
  | .sendOutbound messageId _ _ _ _, x, w =>
    ∀ m ∈ w.db.messages.rows, m.id = messageId → m.direction = .outbound →
      (x.fate = .ok → m.status ≠ "delivered" ∧ m.status ≠ "read") ∧
        (Refused x → LastAttempt w messageId → m.status ∉ sentStatuses)
  | _, _, _ => True

instance (status status' : String) : Decidable (Follows status status') :=
  decidable_of_iff ((status ∈ ladder → status' ∈ ladder → statusRank status ≤ statusRank status') ∧
      (status ∈ sentStatuses → status' ∈ sentStatuses))
    ⟨fun h => ⟨h.1, h.2⟩, fun h => ⟨h.1, h.2⟩⟩

instance (w w' : World) : Decidable (Climbs w w') :=
  inferInstanceAs (Decidable (∀ m ∈ w.db.messages.rows, _ → ∃ m' ∈ w'.db.messages.rows, _))

instance (c : Call) (x : Choice) (w : World) : Decidable (LadderUpdates c x w) := by
  apply Call.casesOn (motive := fun c => Decidable (LadderUpdates c x w)) c
  case normalizeInbound =>
    intro adapter rawPayload
    exact match h : adapter.interpretDeliveryWebhook rawPayload with
      | .error e => .isTrue fun updates hupdates => nomatch h.symm.trans hupdates
      | .ok updates => decidable_of_iff (∀ update ∈ updates, update.status ∈ sentStatuses)
        ⟨fun hall updates' hupdates => by rwa [← Except.ok.inj (h.symm.trans hupdates)],
          fun hall => hall updates h⟩
  all_goals intros; exact .isTrue trivial

instance (w : World) (id : String) : Decidable (LastAttempt w id) :=
  inferInstanceAs (Decidable (∃ e ∈ w.queues .outbound, _ ∧ _))

instance (x : Choice) : Decidable (Refused x) :=
  match h : x.fate with
  | .ok => .isFalse fun ⟨_, he, _⟩ => by rw [h] at he; rcases he with he | he <;> cases he
  | .lost e | .late e => decidable_of_iff (e.cls = .channelAdapterError)
    ⟨fun hcls => ⟨e, by simp [h], hcls⟩, fun ⟨_, he, hcls⟩ => by
      obtain rfl : e = _ := by simpa [h] using he
      exact hcls⟩

instance (c : Call) (x : Choice) (w : World) : Decidable (NotSentAgain c x w) := by
  apply Call.casesOn (motive := fun c => Decidable (NotSentAgain c x w)) c
  case sendOutbound =>
    intro messageId _ _ _ _
    exact inferInstanceAs (Decidable (∀ m ∈ w.db.messages.rows, m.id = messageId →
      m.direction = .outbound → (x.fate = .ok → m.status ≠ "delivered" ∧ m.status ≠ "read") ∧
        (Refused x → LastAttempt w messageId → m.status ∉ sentStatuses)))
  all_goals intros; exact .isTrue trivial

theorem Follows.refl (status : String) : Follows status status := ⟨fun _ _ => le_rfl, fun h => h⟩

/-- What holds from each status to the next holds over a whole run. -/
theorem Follows.trans {a b c : String} (h : Follows a b) (h' : Follows b c) : Follows a c := by
  refine ⟨fun ha hc => ?_, fun ha => h'.kept (h.kept ha)⟩
  rcases List.mem_cons.mp ha with rfl | hsent
  · have hrank : ∀ status ∈ ladder, 0 ≤ statusRank status := by decide
    exact hrank c hc
  · have hb : b ∈ ladder := List.mem_cons_of_mem _ (h.kept hsent)
    exact (h.climbs ha hb).trans (h'.climbs hb hc)

theorem Climbs.trans {u v w : World} (h : Climbs u v) (h' : Climbs v w) : Climbs u w := by
  intro m hm hdirection
  obtain ⟨m', hm', hid, hdirection', hfollows⟩ := h m hm hdirection
  obtain ⟨m'', hm'', hid', hdirection'', hfollows'⟩ := h' m' hm' hdirection'
  exact ⟨m'', hm'', hid'.trans hid, hdirection'', hfollows.trans hfollows'⟩

theorem Climbs.refl (w : World) : Climbs w w := fun m hm hdirection =>
  ⟨m, hm, rfl, hdirection, .refl m.status⟩

/-- The setting of the worker. -/
def climbing : Contract Call Call.Resp PyErr Choice World where
  answer := Call.answer
  rely := Undisturbed
  admits c x w := LadderUpdates c x w ∧ NotSentAgain c x w
  guar _ _ := Climbs
  rely_refl := .refl
  rely_trans h h' := h.trans h'

/-! ### Commits -/

theorem climbs_of_undisturbed {w w' : World} (h : Undisturbed w w') : Climbs w w' := by
  intro m hm hdirection
  rw [h.db]
  exact Climbs.refl w m hm hdirection

theorem alone_climbing : Alone climbing where
  answer := rfl
  rely _ _ := Iff.rfl
  bystander _ hc x w _ := climbs_of_undisturbed (undisturbed_answer hc x w)

/-- Writes that update no message leave every message. -/
theorem mem_apply_of_marks {now : DateTime} {writes : List Write}
    (hwrites : ∀ write ∈ writes, write.Marks fun _ => False) {db db' : Db}
    (h : db.apply now writes = .ok db') {m : Message} (hm : m ∈ db.messages.rows) :
    m ∈ db'.messages.rows := by
  induction writes generalizing db with
  | nil => cases h; exact hm
  | cons write writes ih =>
    obtain ⟨db₁, h₁, h₂⟩ := Db.apply_cons.mp h
    refine ih (fun write hwrite => hwrites write (List.mem_cons_of_mem _ hwrite)) h₂ ?_
    rw [(Write.rows_apply h₁).2.2]
    have hwrite := hwrites write List.mem_cons_self
    cases write with
    | insertMessage message => exact List.mem_append_left _ hm
    | updateMessage loaded current => exact hwrite.1.elim
    | _ => exact hm

/-- A call that updates no message. -/
theorem climbs_of_marks {c : Call} (hc : c.Marks fun _ => False) (x : Choice) (w : World) :
    Climbs w (c.answer x w).2 := by
  intro m hm hdirection
  refine ⟨m, ?_, rfl, hdirection, .refl m.status⟩
  rcases c.writes_of_answer x w with h | h
  · rwa [h]
  · generalize (c.answer x w).2 = w' at h ⊢
    cases h with
    | commit writes now db hdb => exact mem_apply_of_marks hc hdb hm
    | _ => exact hm

/-- A commit that gives the row that was loaded a status that may come next. -/
theorem climbs_commit (loaded current : Message) (hid : current.id = loaded.id) (x : Choice) {w : World}
    (hloaded : w.db.message loaded.id = some loaded)
    (hfollows : loaded.direction = .outbound → Follows loaded.status current.status) :
    Climbs w ((Call.commit [.updateMessage loaded current]).answer x w).2 := by
  intro m hm hdirection
  rcases commit_cases [.updateMessage loaded current] x w with ⟨_, db, hdb, hw⟩ | ⟨_, hw, _⟩
  case inr =>
    rw [hw]
    exact Climbs.refl w m hm hdirection
  rw [hw]
  have hrows : db.messages.rows = w.db.messages.rows.map fun row =>
      if row.id = current.id then .patch loaded current row else row := (Db.rows_apply hdb).2.2
  rw [show ({ w with db := db } : World).db = db from rfl, hrows]
  refine ⟨_, List.mem_map_of_mem hm, ?_⟩
  split
  · next hsame =>
    -- the row is the one that was loaded
    have hrow := Db.message_of_mem hm
    rw [hsame, hid, hloaded] at hrow
    cases hrow
    refine ⟨rfl, hdirection, ?_⟩
    show Follows loaded.status (column loaded.status current.status loaded.status)
    rw [column_self]
    exact hfollows hdirection
  · exact ⟨rfl, hdirection, .refl m.status⟩

/-! ### The inbound half -/

/-- A program that updates no message. -/
theorem climbing_marks {α : Type} {p : Prog α} (hp : p.Calls (Call.Marks fun _ => False)) :
    climbing.Preserves (fun _ => True) p := fun _ _ =>
  wp_of_stable (fun _ _ _ h => h) (fun _ hc x w _ _ => ⟨climbs_of_marks hc x w, trivial⟩) hp trivial

/-- What an update on the ladder that is applied leads to. -/
theorem follows_of_advances {current update : String} (hupdate : update ∈ sentStatuses)
    (h : advances current update = true) : Follows current update := by
  have hne : update ≠ "failed" := by
    rintro rfl
    exact absurd hupdate (by decide)
  rw [advances, Bool.or_eq_true, beq_iff_eq, decide_eq_true_iff] at h
  exact ⟨fun _ _ => (h.resolve_left hne).le, fun _ => hupdate⟩

/-- A delivery update on the ladder. -/
theorem climbing_applyDeliveryStatus (orgId channelType : String) {update : DeliveryStatusUpdate}
    (hupdate : update.status ∈ sentStatuses) :
    climbing.Preserves (fun _ => True) (applyDeliveryStatus orgId channelType update) := by
  intro w _
  have hselect : (Call.selectByExternalId orgId channelType update.externalMessageId).Bystander :=
    trivial
  refine wp_bind (alone_climbing.perform fun x v hv hx =>
    ⟨alone_climbing.bystander _ hselect x v hx, ?_⟩)
  have hstep := undisturbed_answer hselect x v
  cases hr : ((Call.selectByExternalId orgId channelType update.externalMessageId).answer x v).1 with
  | error e => trivial
  | ok found =>
    have hrows := Core.Fate.eq_of_query hr
    generalize ((Call.selectByExternalId orgId channelType update.externalMessageId).answer x v).2 =
      u at hstep ⊢
    cases found with
    | none => trivial
    | some message =>
      have hmem := (List.mem_filter.mp (mem_of_scalarOneOrNone hrows)).1
      show climbing.wp (if advances message.status update.status then _ else _) u _
      split
      case isFalse => trivial
      next hadvances =>
      refine wp_bind (alone_climbing.perform fun x₁ u₁ h₁ _ => ⟨?_, ?_⟩)
      · refine climbs_commit message { message with status := update.status } rfl x₁ ?_ fun _ =>
          follows_of_advances hupdate hadvances
        rw [h₁.db, hstep.db]
        exact Db.message_of_mem hmem
      · cases ((Call.commit [.updateMessage message
          { message with status := update.status }]).answer x₁ u₁).1 with
        | error e => trivial
        | ok _ => exact climbing_marks (calls_marks_core _) _ trivial

variable {registry : Registry}

/-- One entry of the inbound queue, whose delivery updates are on the ladder. -/
theorem climbing_processInboundMessage (msg : QueueMessage) :
    climbing.Preserves (fun _ => True) (processInboundMessage registry msg) := by
  refine Preserves.ofExcept_bind fun orgId _ => Preserves.ofExcept_bind fun channelType _ => ?_
  refine Preserves.ofExcept_bind fun adapter _ => Preserves.ofExcept_bind fun rawPayload _ => ?_
  intro w _
  have hnormalize : (Call.normalizeInbound adapter rawPayload).Bystander := trivial
  refine wp_bind (alone_climbing.perform fun x v _ hx =>
    ⟨alone_climbing.bystander _ hnormalize x v hx, ?_⟩)
  cases ((Call.normalizeInbound adapter rawPayload).answer x v).1 with
  | error e => trivial
  | ok normalized =>
    refine Preserves.bind (Preserves.forEach (fun held item =>
      climbing_marks (calls_marks_processInboundItem orgId channelType held item)) normalized none)
      (fun _ => ?_) _ trivial
    refine Preserves.ofExcept_bind fun updates hupdates _ _ => ?_
    refine wp_forEach (fun rest _ _ => ∀ update ∈ rest, update.status ∈ sentStatuses)
      (fun _ _ _ => trivial) (fun update rest _ w' hrest => ?_) (hx.1 updates hupdates)
    refine wp_mono (fun r _ _ => ?_)
      (climbing_applyDeliveryStatus orgId channelType (hrest update List.mem_cons_self) w' trivial)
    cases r with
    | error e => trivial
    | ok _ => exact fun update' hupdate' => hrest update' (List.mem_cons_of_mem _ hupdate')

theorem climbing_processInboundBatch (maxMessages : ℕ) :
    climbing.Preserves (fun _ => True) (processInboundBatch registry maxMessages) := by
  have hreceive : (receive .inbound maxMessages).Calls (Call.Marks fun _ => False) :=
    Calls.bind (Calls.perform trivial) fun _ => Calls.perform trivial
  have hdelete : ∀ handle, (delete .inbound handle).Calls (Call.Marks fun _ => False) := fun _ =>
    Calls.bind (Calls.perform trivial) fun _ => Calls.perform trivial
  refine Preserves.bind (climbing_marks hreceive) fun messages => ?_
  refine Preserves.bind (Preserves.forEach (fun _ msg => ?_) _ _) fun _ => fun _ _ => trivial
  exact (climbing_processInboundMessage msg).bind fun _ => climbing_marks (hdelete _)

/-! ### The outbound half -/

/-- A message that the provider accepts again has not got further than `sent`. -/
theorem follows_sent {status : String} (h : status ≠ "delivered" ∧ status ≠ "read") :
    Follows status "sent" := by
  refine ⟨fun hstatus _ => ?_, fun _ => by decide⟩
  simp only [ladder, sentStatuses, List.mem_cons, List.not_mem_nil, or_false] at hstatus
  rcases hstatus with rfl | rfl | rfl | rfl
  · decide
  · decide
  · exact absurd rfl h.1
  · exact absurd rfl h.2

/-- A message that fails has not been sent. -/
theorem follows_failed {status : String} (h : status ∉ sentStatuses) : Follows status "failed" :=
  ⟨fun _ hfailed => absurd hfailed (by decide), fun hsent => absurd hsent h⟩

/-- The entry that was received is in the queue. -/
def Backed (queue : Queue QueueEntry) (msg : QueueMessage) : Prop :=
  ∃ e, queue[msg.receiptHandle]? = some e ∧ e.body.body = msg.body ∧ e.receives = msg.receiveCount

/-- What marks a message of an entry in the queue leaves it on the ladder. -/
theorem marks_climbing {msg : QueueMessage} {queues : QueueName → Queue QueueEntry}
    (hbacked : Backed (queues .outbound) msg) : Marks climbing msg queues where
  toAlone := alone_climbing
  mark loaded current hid hnames x w hqueues hloaded htried _ := by
    refine climbs_commit loaded current hid x hloaded fun hdirection => ?_
    have hmem := (Db.mem_of_message hloaded).1
    generalize current.status = status at htried ⊢
    cases htried with
    | accepted _ _ _ y v hv hy hfate =>
      rw [hv.db] at hmem
      exact follows_sent ((hy.2 loaded hmem rfl hdirection).1 hfate)
    | refused _ _ _ y v hv hy e hfate hcls hcount =>
      obtain ⟨entry, hentry, hbody, hreceives⟩ := hbacked
      rw [← hqueues, hv.queues] at hentry
      rw [hv.db] at hmem
      refine follows_failed ((hy.2 loaded hmem rfl hdirection).2 ⟨e, hfate, hcls⟩ ?_)
      exact ⟨entry, List.mem_of_getElem? hentry, hreceives ▸ hcount, hbody ▸ hnames⟩

/-- What the outbound worker receives is in the queue. -/
theorem climbing_receive (maxMessages : ℕ) (w : World) :
    climbing.wp (receive .outbound maxMessages) w fun r w' => ∀ messages, r = .ok messages →
      ∀ msg ∈ messages, Backed (w'.queues .outbound) msg := by
  refine alone_climbing.bind (Calls.perform trivial) (fun _ w₁ _ => ?_) fun _ _ => nofun
  have hreceive : Call.Marks (fun _ => False) (.receiveMessage .outbound maxMessages) := trivial
  refine alone_climbing.perform fun x v _ _ => ⟨climbs_of_marks hreceive x v, ?_⟩
  intro messages hmessages msg hmsg
  rcases receiveMessage_cases .outbound maxMessages x v with ⟨e, he⟩ | ⟨picks, hw, hreceived⟩
  · rw [he] at hmessages
    cases hmessages
  · rw [hreceived messages hmessages] at hmsg
    obtain ⟨d, hd, rfl⟩ := List.mem_map.mp hmsg
    rw [hw]
    exact ⟨_, (Queue.mem_receive hd).1, rfl, rfl⟩

theorem climbing_processOutboundBatch (maxMessages : ℕ) :
    climbing.Preserves (fun _ => True) (processOutboundBatch registry maxMessages) := by
  intro w _
  refine wp_bind (wp_mono (fun r w₁ h => ?_) (climbing_receive maxMessages w))
  cases r with
  | error e => trivial
  | ok messages =>
    refine wp_forEach (fun rest _ w' => ∀ msg ∈ rest, Backed (w'.queues .outbound) msg)
      (fun _ _ _ => trivial) (fun msg rest processed w₂ h₂ => ?_) (h messages rfl)
    refine wp_bind ((marks_climbing (h₂ msg List.mem_cons_self)).processOutboundMessage
      (fun id resolved w₃ _ hqueues _ => ?_) fun _ _ => trivial)
    have h₃ : ∀ msg ∈ rest, Backed (w₃.queues .outbound) msg := fun m hm => by
      rw [hqueues]
      exact h₂ m (List.mem_cons_of_mem _ hm)
    cases resolved with
    | false => exact h₃
    | true =>
      refine wp_bind (alone_climbing.bind (Calls.perform trivial) (fun _ w₄ h₄ => ?_)
        fun _ _ => trivial)
      have hdelete : Call.Marks (fun _ => False) (.deleteMessage .outbound msg.receiptHandle) :=
        trivial
      refine alone_climbing.perform fun x v hv _ => ⟨climbs_of_marks hdelete x v, ?_⟩
      cases hr : ((Call.deleteMessage .outbound msg.receiptHandle).answer x v).1 with
      | error e => trivial
      | ok _ =>
        intro m hm
        rcases deleteMessage_cases .outbound msg.receiptHandle x v with ⟨e, he⟩ | hw
        · rw [he] at hr
          cases hr
        · obtain ⟨e, he, hbody, hreceives⟩ := h₃ m hm
          rw [← (h₄.trans hv).queues] at he
          obtain ⟨e', he', hbody', hreceives'⟩ := Queue.exists_delete msg.receiptHandle he
          rw [hw]
          exact ⟨e', he', hbody' ▸ hbody, hreceives'.trans hreceives⟩

/-! ### Runs of the worker -/

theorem climbing_runIteration {batch : Prog ℕ} (hbatch : climbing.Preserves (fun _ => True) batch)
    (label : String) : climbing.Preserves (fun _ => True) (runIteration batch label) := by
  refine hbatch.handle fun _ => climbing_marks ?_
  exact Calls.bind (Calls.perform trivial) fun _ => trivial

theorem climbing_runForever (rounds : ℕ) (w : World) :
    climbing.wp (runForever registry rounds) w fun _ _ => True := by
  refine Preserves.forEach (J := fun _ => True) (fun _ _ => ?_) _ _ w trivial
  refine (climbing_runIteration (climbing_processInboundBatch 10) "inbound").bind fun _ => ?_
  exact (climbing_runIteration (climbing_processOutboundBatch 10) "outbound").bind fun _ _ _ => trivial

/-- **No message moves down the ladder**, and none that has been sent is marked failed, from one call to
the next and from the start of the run, in a run of the worker whose delivery updates are on the
ladder and in which no message that is delivered or read is sent again, and none that was sent is
refused at its last attempt. -/
theorem climbs_of_notSentAgain (registry : Registry) (rounds : ℕ) (w : World) (o : Oracle Choice)
    (hladder : Along Call.answer LadderUpdates (runForever registry rounds) o w)
    (hrun : Along Call.answer NotSentAgain (runForever registry rounds) o w) :
    Along Call.answer (fun c x v => Climbs v (c.answer x v).2 ∧ Climbs w (c.answer x v).2)
      (runForever registry rounds) o w := by
  have hsteps : Along Call.answer (fun c x v => Climbs v (c.answer x v).2)
      (runForever registry rounds) o w :=
    along_guar (climbing_runForever rounds w) (along_and hladder hrun)
  refine along_of_invariant (J := Climbs w) (along_mono (fun c x v hstep hv => ?_) hsteps) (.refl w)
  exact ⟨⟨hstep, hv.trans hstep⟩, hv.trans hstep⟩

/-! ### A message that is delivered and then sent again -/

/-- The calls of a run that all go through, but for those listed, which fail without effect. -/
def lostAt (ns : List ℕ) : Oracle Choice := fun i =>
  if i ∈ ns then
    some { Choice.calm ("c" ++ toString i) with
      fate := .lost ⟨.clientError "ServiceUnavailable", "Service is unavailable"⟩ }
  else calm i

/-- A status of a message, as WhatsApp's webhook delivers it. -/
def whatsappStatus (id status : String) : Json :=
  .obj [("entry", .arr [.obj [("changes", .arr [.obj [("value", .obj [
    ("statuses", .arr [.obj [("id", .str id), ("status", .str status)]])])]])]])]

/-- The deployment with a queued reply, and the webhook that will say that it was delivered. -/
def deliveredWorld : World :=
  { repliedWorld with
    queues := Function.update repliedWorld.queues .inbound
      ((repliedWorld.queues .inbound).send (inboundEntry "whatsapp" "org" "connection"
        (whatsappStatus "wamid.c12" "delivered"))) }

/-- The inbound queue is first read after the reply is sent. -/
theorem climbs_delivered :
    Along Call.answer (fun c x v => Climbs v (c.answer x v).2 ∧ Climbs deliveredWorld (c.answer x v).2)
      (runForever whatsappRegistry 2) (lostAt [1]) deliveredWorld :=
  climbs_of_notSentAgain whatsappRegistry 2 deliveredWorld (lostAt [1]) (by decide +kernel)
    (by decide +kernel)

/-- Where the entry is not deleted after the send, the message is sent again once it is delivered. -/
theorem not_climbs : ¬∀ (registry : Registry) (rounds : ℕ) (w : World) (o : Oracle Choice),
    Along Call.answer LadderUpdates (runForever registry rounds) o w →
      Along Call.answer (fun c x w => Climbs w (c.answer x w).2) (runForever registry rounds) o w := by
  intro h
  have hrun := h whatsappRegistry 2 deliveredWorld (lostAt [1, 17]) (by decide +kernel)
  revert hrun
  decide +kernel

end A2ZCore.Omnichannel
