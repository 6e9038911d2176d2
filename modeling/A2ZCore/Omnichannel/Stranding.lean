import A2ZCore.Omnichannel.Outbound

/-!
# Messages that stay queued

An entry of the outbound queue leaves it in two ways: the worker deletes it, or SQS redrives it to
the dead letters after `SQS_MAX_RECEIVE_COUNT` receives. The worker marks the message failed at its
last receive, but only where `send_outbound` raised a `ChannelAdapterError`; any other exception
aborts the batch, and a message without its context is deleted unmarked.

`not_stranded` says when no message is left behind as `queued`: when no iteration fails while an
entry at its last receive waits for its message to be marked, and the missing-context branch is
taken for no queued message.

## Main definitions

* `Waiting`, `LastChance` — an entry whose message is queued; one that will not be handed out again
* `Handled` — the two branches are not taken at the wrong time
* `drain` — the worker over the outbound queue

## Main results

* `not_stranded`
-/

namespace A2ZCore.Omnichannel

open Interaction Interaction.Proc Interaction.Contract Messaging Relational

/-- The message of an entry is queued. -/
def Waiting (db : Db) (body : List (String × Json)) : Prop :=
  ∃ id, Names body id ∧ db.statusOf id = some "queued"

/-- An entry that waits, and has been received as often as it will be. -/
def LastChance (w : World) (i : ℕ) (e : Entry QueueEntry) : Prop :=
  (w.queues .outbound)[i]? = some e ∧ e.place = .live ∧ sqsMaxReceiveCount ≤ e.receives ∧
    Waiting w.db e.body.body

/-- No entry is taken out of the outbound queue while its message is queued. -/
def NotStranded (w w' : World) : Prop :=
  ∀ i e, Queue.Leaves (w.queues .outbound) (w'.queues .outbound) i e → ¬Waiting w'.db e.body.body

/-- The missing-context branch is not taken for a queued message, and no iteration fails while an
entry at its last receive waits. -/
def Handled : Call → Choice → World → Prop
  | .logError event id, _, w =>
    event = "omnichannel.outbound.missing_context" → w.db.statusOf id ≠ some "queued"
  | .logException event, _, w =>
    event = "omnichannel.worker.outbound_iteration_failed" → ∀ i e, ¬LastChance w i e
  | _, _, _ => True

instance (db : Db) (body : List (String × Json)) : Decidable (Waiting db body) :=
  match h : getItem body "message_id" >>= primaryKey with
  | .error e => .isFalse fun ⟨id, hid, _⟩ => nomatch h.symm.trans hid
  | .ok id => decidable_of_iff (db.statusOf id = some "queued")
    ⟨fun hq => ⟨id, h, hq⟩, fun ⟨id', hid, hq⟩ => by
      rwa [Except.ok.inj (h.symm.trans hid)]⟩

instance (w : World) : Decidable (∀ i e, ¬LastChance w i e) :=
  decidable_of_iff (∀ i < (w.queues .outbound).length, ∀ e ∈ (w.queues .outbound)[i]?,
      ¬(e.place = .live ∧ sqsMaxReceiveCount ≤ e.receives ∧ Waiting w.db e.body.body))
    ⟨fun h i e hlast => h i (List.getElem?_eq_some_iff.mp hlast.1).1 e hlast.1 hlast.2,
      fun h i _ e he hrest => h i e ⟨he, hrest⟩⟩

instance (w w' : World) : Decidable (NotStranded w w') :=
  decidable_of_iff (∀ i < (w.queues .outbound).length, ∀ e ∈ (w.queues .outbound)[i]?,
      e.place = .live → (∀ e' ∈ (w'.queues .outbound)[i]?, e'.place ≠ .live) →
        ¬Waiting w'.db e.body.body)
    ⟨fun h i e hleaves => h i (List.getElem?_eq_some_iff.mp hleaves.1).1 e hleaves.1 hleaves.2.1
        hleaves.2.2,
      fun h i _ e he hlive hgone => h i e ⟨he, hlive, hgone⟩⟩

instance (c : Call) (x : Choice) (w : World) : Decidable (Handled c x w) := by
  apply Call.casesOn (motive := fun c => Decidable (Handled c x w)) c
  case logError => exact fun event id => inferInstanceAs (Decidable (_ → w.db.statusOf id ≠ _))
  case logException => exact fun event => inferInstanceAs (Decidable (_ → ∀ i e, ¬LastChance w i e))
  all_goals intros; exact .isTrue trivial

/-- The worker over the outbound queue, one iteration after another. -/
def drain (registry : Registry) (sizes : List ℕ) : Prog Unit :=
  Proc.forEach sizes () fun _ maxMessages => do
    let _ ← runIteration (processOutboundBatch registry maxMessages) "outbound"
    return ()

/-- The setting of the worker. -/
def draining : Contract Call Call.Resp PyErr Choice World where
  answer := Call.answer
  rely := Undisturbed
  admits := Handled
  guar _ _ := NotStranded
  rely_refl := .refl
  rely_trans h h' := h.trans h'

theorem notStranded_of_queues {w w' : World} (h : w'.queues = w.queues) : NotStranded w w' := by
  intro i e hleaves
  rw [h] at hleaves
  exact absurd hleaves Queue.not_leaves_self

theorem alone_draining : Alone draining where
  answer := rfl
  rely _ _ := Iff.rfl
  bystander _ hc x w _ := notStranded_of_queues (undisturbed_answer hc x w).queues

theorem marks_draining (msg : QueueMessage) (queues : QueueName → Queue QueueEntry) :
    Marks draining msg queues where
  toAlone := alone_draining
  mark _ _ _ _ x w _ _ _ _ := notStranded_of_queues (queues_commit _ x w)

/-- What is left of a batch: its entries, among them every entry that has its last chance. -/
structure Remaining (msgs : List QueueMessage) (w : World) : Prop where
  held : ∀ msg ∈ msgs, ∃ e, (w.queues .outbound)[msg.receiptHandle]? = some e ∧
    e.body.body = msg.body
  last : ∀ i e, LastChance w i e →
    ∃ msg ∈ msgs, msg.receiptHandle = i ∧ msg.receiveCount = e.receives

/-- Receiving, when no entry waits for the last time. -/
theorem receive_remaining {w w' : World} (hcalm : ∀ i e, ¬LastChance w i e) (picks : List ℕ)
    (hdb : w'.db = w.db) (hqueue : w'.queues .outbound =
      ((w.queues .outbound).receive sqsMaxReceiveCount picks).2) :
    NotStranded w w' ∧ Remaining
      (((w.queues .outbound).receive sqsMaxReceiveCount picks).1.map .ofDelivery) w' := by
  refine ⟨fun i e hleaves hwaiting => ?_, ⟨fun msg hmsg => ?_, fun i e hlast => ?_⟩⟩
  · rw [hqueue] at hleaves
    rw [hdb] at hwaiting
    exact hcalm i e ⟨hleaves.1, hleaves.2.1, Queue.leaves_receive hleaves, hwaiting⟩
  · obtain ⟨d, hd, rfl⟩ := List.mem_map.mp hmsg
    refine ⟨⟨d.body, d.receives, .live⟩, ?_, rfl⟩
    rw [hqueue]
    exact (Queue.mem_receive hd).1
  · obtain ⟨he, hlive, hcount, hwaiting⟩ := hlast
    rw [hqueue] at he
    rw [hdb] at hwaiting
    rcases Queue.receive_cases he hlive with hbefore | ⟨d, hd, hhandle, _, hreceives⟩
    · exact absurd ⟨hbefore, hlive, hcount, hwaiting⟩ (hcalm i e)
    · exact ⟨_, List.mem_map.mpr ⟨d, hd, rfl⟩, hhandle, hreceives⟩

/-- A message that is attempted does not wait afterwards, where it will not be tried again. -/
theorem not_waiting_of_attempt {id : String} {msg : QueueMessage} {db db' : Db} {resolved : Bool}
    (hid : Names msg.body id) (h : Attempt draining id msg.receiveCount db db' resolved)
    (hlast : resolved = true ∨ sqsMaxReceiveCount ≤ msg.receiveCount) :
    ¬Waiting db' msg.body := by
  rintro ⟨id', hid', hqueued⟩
  obtain rfl : id = id' := Except.ok.inj (hid.symm.trans hid')
  cases h with
  | missing hrow => rw [Db.statusOf, hrow] at hqueued; cases hqueued
  | noContext x v hv hlog =>
    rw [← hv] at hqueued
    exact hlog rfl hqueued
  | sent _ hstatus => rw [hstatus, if_pos rfl] at hqueued; exact absurd hqueued (by decide)
  | failed _ _ hstatus => rw [hstatus, if_pos rfl] at hqueued; exact absurd hqueued (by decide)
  | retry hcount =>
    rcases hlast with hresolved | hcount'
    · cases hresolved
    · omega

/-- No attempt puts a message back into the queued ones. -/
theorem waiting_of_attempt {id : String} {receiveCount : ℕ} {db db' : Db} {resolved : Bool}
    (h : Attempt draining id receiveCount db db' resolved) {body : List (String × Json)}
    (hwaiting : Waiting db' body) : Waiting db body := by
  obtain ⟨i, hi, hqueued⟩ := hwaiting
  cases h with
  | missing | noContext | retry => exact ⟨i, hi, hqueued⟩
  | sent _ hstatus | failed _ _ hstatus =>
    rw [hstatus] at hqueued
    split at hqueued
    · exact absurd hqueued (by decide)
    · exact ⟨i, hi, hqueued⟩

/-- One entry of a batch is attempted. -/
theorem remaining_of_attempt {msg : QueueMessage} {rest : List QueueMessage} {w w' : World}
    {id : String} {resolved : Bool} (h : Remaining (msg :: rest) w) (hid : Names msg.body id)
    (hqueues : w'.queues = w.queues)
    (hattempt : Attempt draining id msg.receiveCount w.db w'.db resolved) :
    Remaining rest w' := by
  constructor
  · intro m hm
    rw [hqueues]
    exact h.held m (List.mem_cons_of_mem _ hm)
  · rintro i e ⟨he, hlive, hcount, hwaiting⟩
    rw [hqueues] at he
    obtain ⟨m, hm, hhandle, hreceives⟩ :=
      h.last i e ⟨he, hlive, hcount, waiting_of_attempt hattempt hwaiting⟩
    rcases List.mem_cons.mp hm with rfl | hrest
    · obtain ⟨e', he', hbody⟩ := h.held m List.mem_cons_self
      rw [hhandle, he] at he'
      cases he'
      rw [hbody] at hwaiting
      exact absurd hwaiting (not_waiting_of_attempt hid hattempt (.inr (hreceives ▸ hcount)))
    · exact ⟨m, hrest, hhandle, hreceives⟩

/-- An entry whose message does not wait is deleted. -/
theorem remaining_of_delete {msg : QueueMessage} {rest : List QueueMessage} {w w' : World}
    (h : Remaining rest w) (hheld : ∃ e, (w.queues .outbound)[msg.receiptHandle]? = some e ∧
      e.body.body = msg.body) (hdone : ¬Waiting w.db msg.body) (hdb : w'.db = w.db)
    (hqueue : w'.queues .outbound = (w.queues .outbound).delete msg.receiptHandle) :
    NotStranded w w' ∧ Remaining rest w' := by
  refine ⟨fun i e hleaves => ?_, ⟨fun m hm => ?_, fun i e hlast => ?_⟩⟩
  · rw [hqueue] at hleaves
    obtain rfl := Queue.leaves_delete hleaves
    obtain ⟨e', he', hbody⟩ := hheld
    rw [hleaves.1] at he'
    cases he'
    rw [hdb, hbody]
    exact hdone
  · obtain ⟨e, he, hbody⟩ := h.held m hm
    rw [hqueue]
    obtain ⟨e', he', hbody', _⟩ := Queue.exists_delete msg.receiptHandle he
    exact ⟨e', he', hbody' ▸ hbody⟩
  · obtain ⟨he, hlive, hcount, hwaiting⟩ := hlast
    rw [hqueue] at he
    rw [hdb] at hwaiting
    exact h.last i e ⟨Queue.getElem?_of_delete he hlive, hlive, hcount, hwaiting⟩

variable {registry : Registry}

/-- Receiving a batch. -/
theorem wp_receive {w : World} (hcalm : ∀ i e, ¬LastChance w i e) (maxMessages : ℕ) :
    draining.wp (receive .outbound maxMessages) w fun r w' =>
      ∀ messages, r = .ok messages → Remaining messages w' := by
  refine alone_draining.bind (Calls.perform trivial) (fun _ w₁ h₁ => ?_) fun e _ _ h => nomatch h
  refine alone_draining.perform fun x w₂ h₂ _ => ?_
  have h := h₁.trans h₂
  have hcalm₂ : ∀ i e, ¬LastChance w₂ i e := fun i e => by
    rw [LastChance, h.queues, h.db]
    exact hcalm i e
  rcases receiveMessage_cases .outbound maxMessages x w₂ with ⟨err, herr⟩ | ⟨picks, hw, hmessages⟩
  · rw [herr]
    exact ⟨notStranded_of_queues rfl, fun messages hr => nomatch hr⟩
  · have hdb : ((Call.receiveMessage .outbound maxMessages).answer x w₂).2.db = w₂.db := by rw [hw]
    have hqueue : ((Call.receiveMessage .outbound maxMessages).answer x w₂).2.queues .outbound =
        ((w₂.queues .outbound).receive sqsMaxReceiveCount picks).2 := by simp [hw]
    obtain ⟨hguar, hremaining⟩ := receive_remaining hcalm₂ picks hdb hqueue
    refine ⟨hguar, fun messages hr => ?_⟩
    rw [hmessages messages hr]
    exact hremaining

/-- Deleting an entry whose message does not wait. -/
theorem wp_delete {msg : QueueMessage} {rest : List QueueMessage} {w : World}
    (h : Remaining rest w) (hheld : ∃ e, (w.queues .outbound)[msg.receiptHandle]? = some e ∧
      e.body.body = msg.body) (hdone : ¬Waiting w.db msg.body) :
    draining.wp (delete .outbound msg.receiptHandle) w fun r w' =>
      r = .ok () → Remaining rest w' := by
  refine alone_draining.bind (Calls.perform trivial) (fun _ w₁ h₁ => ?_) fun e _ h => nomatch h
  refine alone_draining.perform fun x w₂ h₂ _ => ?_
  have hsame := h₁.trans h₂
  have hremaining : Remaining rest w₂ := by
    constructor
    · rw [hsame.queues]
      exact h.held
    · intro i e hlast
      rw [LastChance, hsame.queues, hsame.db] at hlast
      exact h.last i e hlast
  rcases deleteMessage_cases .outbound msg.receiptHandle x w₂ with ⟨err, herr⟩ | hw
  · rw [herr]
    exact ⟨notStranded_of_queues rfl, fun hr => nomatch hr⟩
  · have hdb : ((Call.deleteMessage .outbound msg.receiptHandle).answer x w₂).2.db = w₂.db := by
      rw [hw]
    rw [← hsame.queues] at hheld
    rw [← hsame.db] at hdone
    have hqueue : ((Call.deleteMessage .outbound msg.receiptHandle).answer x w₂).2.queues .outbound =
        (w₂.queues .outbound).delete msg.receiptHandle := by simp [hw]
    obtain ⟨hguar, hafter⟩ := remaining_of_delete hremaining hheld hdone hdb hqueue
    exact ⟨hguar, fun _ => hafter⟩

/-- A batch, begun when no entry waits for the last time. -/
theorem wp_drainBatch {w : World} (hcalm : ∀ i e, ¬LastChance w i e) (maxMessages : ℕ) :
    draining.wp (processOutboundBatch registry maxMessages) w fun r w' =>
      ∀ k, r = .ok k → ∀ i e, ¬LastChance w' i e := by
  refine wp_bind (wp_mono (fun r w₁ hr => ?_) (wp_receive hcalm maxMessages))
  cases r with
  | error e => exact fun _ h => nomatch h
  | ok messages =>
    refine wp_forEach (fun rest _ w' => Remaining rest w') (fun k w' h _ _ i e hlast => ?_) ?_
      (hr messages rfl)
    · obtain ⟨m, hm, _⟩ := h.last i e hlast
      cases hm
    intro msg rest processed w₂ h₂
    refine wp_bind ((marks_draining msg w₂.queues).processOutboundMessage
      (fun id resolved w₃ hid hqueues hattempt => ?_) fun e _ _ h => nomatch h)
    have h₃ := remaining_of_attempt h₂ hid hqueues hattempt
    cases resolved with
    | false => exact h₃
    | true =>
      have hheld : ∃ e, (w₃.queues .outbound)[msg.receiptHandle]? = some e ∧
          e.body.body = msg.body := by
        rw [hqueues]
        exact h₂.held msg List.mem_cons_self
      refine wp_bind (wp_mono (fun r w₄ hr => ?_)
        (wp_delete h₃ hheld (not_waiting_of_attempt hid hattempt (.inl rfl))))
      cases r with
      | error e => exact fun _ h => nomatch h
      | ok _ => exact hr rfl

/-- An iteration, begun when no entry waits for the last time. -/
theorem wp_drainIteration {w : World} (hcalm : ∀ i e, ¬LastChance w i e) (maxMessages : ℕ) :
    draining.wp (runIteration (processOutboundBatch registry maxMessages) "outbound") w
      fun _ w' => ∀ i e, ¬LastChance w' i e := by
  refine wp_handle (wp_mono (fun r w₁ hr => ?_) (wp_drainBatch hcalm maxMessages))
  cases r with
  | ok k => exact hr k rfl
  | error e =>
    refine wp_bind (alone_draining.perform fun x w₂ h₂ hx => ⟨notStranded_of_queues rfl, ?_⟩)
    exact hx rfl

/-- **No message is left behind as queued** in a run of the worker in which the missing-context
branch is taken for no queued message, and no iteration fails while an entry at its last receive
waits. -/
theorem not_stranded (registry : Registry) (sizes : List ℕ) {w : World}
    (hstart : ∀ i e, ¬LastChance w i e) (o : Oracle Choice)
    (hrun : Along Call.answer Handled (drain registry sizes) o w) :
    Along Call.answer (fun c x w => NotStranded w (c.answer x w).2) (drain registry sizes) o w := by
  refine along_guar (K := draining) (Q := fun _ _ => True) ?_ hrun
  refine wp_forEach (fun _ _ w' => ∀ i e, ¬LastChance w' i e) (fun _ _ _ => trivial) ?_ hstart
  intro maxMessages rest _ w' hcalm
  refine wp_bind (wp_mono (fun r w₁ hr => ?_) (wp_drainIteration hcalm maxMessages))
  cases r with
  | error e => trivial
  | ok _ => exact hr

/-! ### A message without its secret -/

/-- A reply where every call goes through is sent, and its entry deleted. -/
theorem not_stranded_reply :
    Along Call.answer (fun c x w => NotStranded w (c.answer x w).2)
      (drain whatsappRegistry [10, 10]) calm repliedWorld :=
  not_stranded whatsappRegistry [10, 10] (by decide +kernel) calm (by decide +kernel)

/-- The deployment without the secret of its connection. -/
def secretlessWorld : World :=
  { inboxWorld with core := { inboxWorld.core with secrets := fun _ => none } }

/-- A message can be left behind as queued. -/
theorem not_not_stranded :
    ¬∀ (registry : Registry) (orgId conversationId userId bodyText : String)
      (clientDedupKey subject : Option String) (o : Oracle Choice) (w w' : World)
      (message : Message),
      w.queues .outbound = [] →
      exec Call.answer (sendReply orgId conversationId userId bodyText clientDedupKey subject) o w =
        (some (.ok (message, true)), w') →
      ∀ (sizes : List ℕ) (o' : Oracle Choice),
        Along Call.answer (fun c x w => NotStranded w (c.answer x w).2) (drain registry sizes) o'
          w' := by
  intro h
  have hrun := h whatsappRegistry "org" "conversation" "ada" "Hello" (some "key") none
    (fun n => some (.calm ("r" ++ toString n))) secretlessWorld _ queuedReply rfl
    (Prod.ext (by decide +kernel) rfl) [10, 10, 10, 10, 10, 10] calm
  revert hrun
  decide +kernel

end A2ZCore.Omnichannel
