import A2ZCore.Omnichannel.Inbound

/-!
# Entries that are received again

The inbound worker commits a message before it routes the conversation and reports the message. When
one of the later steps fails, SQS hands the entry out again; the message is then a duplicate, which
is skipped, and the entry is deleted. So what was owed at the failure stays owed.

`reported_of_handled` says when it does not come to that: when no iteration fails while something is
owed. Then nothing is owed at any delete.

## Main definitions

* `Reported` — every message that was stored since is reported, and every conversation assigned
* `ingest` — the worker over the inbound queue

## Main results

* `reported_of_handled`
-/

namespace A2ZCore.Omnichannel

open Interaction Interaction.Proc Interaction.Contract Messaging Relational

/-- Since `w₀`, every message that was stored has been reported, and every conversation that was
created is assigned to the user its org designates. -/
structure Reported (w₀ w : World) : Prop where
  published : ∀ m ∈ w.db.messages.rows, m.direction = .inbound → w₀.db.message m.id = none →
    receivedEvent m.orgId m.channelType m.conversationId m.id ∈ w.core.events
  assigned : ∀ c ∈ w.db.conversations.rows, w₀.db.conversation c.id = none →
    ∀ userId, designated w.core c.orgId = some userId → c.assignedUserId = some userId

/-- No iteration fails while something is owed. -/
def ReportedAtFailure (w₀ : World) : Call → Choice → World → Prop
  | .logException event, _, w =>
    event = "omnichannel.worker.inbound_iteration_failed" → Reported w₀ w
  | _, _, _ => True

/-- Nothing is owed when an entry of the inbound queue is deleted. -/
def ReportedAtDelete (w₀ : World) : Call → Choice → World → Prop
  | .deleteMessage .inbound _, _, w => Reported w₀ w
  | _, _, _ => True

/-- The worker over the inbound queue, one iteration after another. -/
def ingest (registry : Registry) (sizes : List ℕ) : Prog Unit :=
  Proc.forEach sizes () fun _ maxMessages => do
    let _ ← runIteration (processInboundBatch registry maxMessages) "inbound"
    return ()

/-- The setting of the worker. -/
def redelivering (w₀ : World) : Contract Call Call.Resp PyErr Choice World where
  answer := Call.answer
  rely := Calm
  admits := ReportedAtFailure w₀
  guar c x w _ := ReportedAtDelete w₀ c x w
  rely_refl := .refl
  rely_trans h h' := h.trans h'

section Worker

variable {w₀ : World}

theorem ingests_redelivering (orgId channelType : String) :
    Ingests (redelivering w₀) orgId channelType (fun _ _ => True) fun _ => True where
  answer := rfl
  rely _ _ := Iff.rfl
  generated _ _ _ := trivial
  reads c hc _ _ _ := by
    cases c with
    | deleteMessage => exact hc.elim
    | _ => trivial
  flush _ _ _ _ _ := trivial
  commit _ _ _ _ _ := trivial

theorem reported_of_calm {w w' : World} (h : Reported w₀ w) (hcalm : Calm w w') :
    Reported w₀ w' := by
  refine ⟨fun m hm hinbound hnew => ?_, fun c hc hnew userId hdesignated => ?_⟩
  · rw [hcalm.db] at hm
    exact hcalm.core.events _ (h.published m hm hinbound hnew)
  · rw [hcalm.db] at hc
    rw [designated_of_steady hcalm.core] at hdesignated
    exact h.assigned c hc hnew userId hdesignated

/-- A message that was processed is reported. -/
theorem reported_of_outcome {K : Contract Call Call.Resp PyErr Choice World}
    {orgId channelType : String} {fresh : String → Prop} {item : NormalizedInboundMessage}
    {w w' : World} {r : Option Conversation} (h : Reported w₀ w)
    (houtcome : Outcome K orgId channelType fresh item w w' r) : Reported w₀ w' := by
  cases houtcome with
  | duplicate _ _ _ _ _ _ _ hcalm => exact reported_of_calm h hcalm
  | stored routed hstored =>
    obtain ⟨⟨m, hrows, ⟨rfl, _, rfl, _⟩, hevent⟩, hconversations, _, hcore⟩ := hstored
    refine ⟨fun row hrow hinbound hnew => ?_, fun c hc hnew userId hdesignated => ?_⟩
    · rw [hrows] at hrow
      rcases List.mem_append.mp hrow with hold | hlast
      · exact hcore.events _ (h.published row hold hinbound hnew)
      · obtain rfl := List.mem_singleton.mp hlast
        exact hevent
    · rw [designated_of_steady hcore] at hdesignated
      rcases hconversations c hc with ⟨c₀, hc₀, hid, horg, hassigned⟩ | ⟨horg, hassigned⟩
      · rw [← hassigned]
        exact h.assigned c₀ hc₀ (hid ▸ hnew) userId (horg ▸ hdesignated)
      · rw [horg] at hdesignated
        exact hassigned userId hdesignated

/-- A delivery update changes no message that is reported, and no assignment. -/
theorem reported_of_delivered {w w' : World} (h : Reported w₀ w) (hdelivered : Delivered w w') :
    Reported w₀ w' := by
  rcases hdelivered with hcalm | ⟨message, status, now, happly, hcore⟩
  · exact reported_of_calm h hcalm
  obtain ⟨_, hconversations, hmessages⟩ := Db.rows_apply happly
  have hkept : w'.db.conversations.rows = w.db.conversations.rows := hconversations
  refine ⟨fun m hm hinbound hnew => ?_, fun c hc hnew userId hdesignated => ?_⟩
  · rw [hmessages] at hm
    obtain ⟨row, hrow, rfl⟩ := List.mem_map.mp hm
    split_ifs at hinbound hnew ⊢
    · exact hcore.events _ (h.published row hrow hinbound hnew)
    · exact hcore.events _ (h.published row hrow hinbound hnew)
  · rw [hkept] at hc
    rw [designated_of_steady hcore] at hdesignated
    exact h.assigned c hc hnew userId hdesignated

/-- A part of the worker that leaves the database alone and deletes nothing. -/
theorem redelivering_bind {α β : Type} {p : Prog α} {f : α → Prog β}
    {Q : Except PyErr β → World → Prop} {w : World}
    (hp : p.Calls fun c => c.Harmless ∧ ∀ h, c ≠ .deleteMessage .inbound h)
    (hf : ∀ a w', Calm w w' → (redelivering w₀).wp (f a) w' Q) (herror : ∀ e w', Q (.error e) w') :
    (redelivering w₀).wp (p.bind f) w Q := by
  refine wp_bind_of_calls (fun c hc x w' _ => ⟨?_, calm_answer hc.1 x w'⟩) hp p.returns_true
    (fun a w' h _ => hf a w' h) fun e w' _ => herror e w'
  cases c with
  | deleteMessage name h =>
    cases name with
    | inbound => exact absurd rfl (hc.2 h)
    | outbound => trivial
  | _ => trivial

/-- An entry, begun when nothing is owed. -/
theorem redelivering_message (registry : Registry) (msg : QueueMessage) {w : World}
    (h : Reported w₀ w) {Q : Except PyErr Unit → World → Prop}
    (hok : ∀ w', Reported w₀ w' → Q (.ok ()) w') (herror : ∀ e w', Q (.error e) w') :
    (redelivering w₀).wp (processInboundMessage registry msg) w Q := by
  cases horg : getItem msg.attributes "org_id" with
  | error e =>
    unfold processInboundMessage
    rw [horg]
    exact herror e w
  | ok orgId =>
    cases hchannel : getItem msg.attributes "channel_type" with
    | error e =>
      unfold processInboundMessage
      rw [horg, hchannel]
      exact herror e w
    | ok channelType =>
      exact (ingests_redelivering orgId channelType).processInboundMessage horg hchannel
        (J := fun _ w' => Reported w₀ w')
        (fun _ _ w' _ _ hcalm => ⟨fun _ _ => trivial, reported_of_calm h hcalm⟩)
        (fun _ _ _ _ _ h houtcome => reported_of_outcome h houtcome)
        (fun _ _ _ h hdelivered => reported_of_delivered h hdelivered)
        (fun _ _ w' _ _ h => hok w' h) herror

/-- A batch, begun when nothing is owed. -/
theorem redelivering_batch (registry : Registry) (maxMessages : ℕ) {w : World}
    (h : Reported w₀ w) :
    (redelivering w₀).wp (processInboundBatch registry maxMessages) w fun r w' =>
      ∀ k, r = .ok k → Reported w₀ w' := by
  refine redelivering_bind ((Calls.perform ⟨trivial, nofun⟩).bind fun _ =>
    Calls.perform ⟨trivial, nofun⟩) (fun messages w₁ h₁ => ?_) fun e w' => nofun
  refine wp_bind (wp_mono (fun r w₂ hr => ?_) (wp_forEach (Q := fun r w' =>
    ∀ u, r = .ok u → Reported w₀ w') (fun _ _ w' => Reported w₀ w') (fun _ _ h _ _ => h) ?_
      (reported_of_calm h h₁)))
  · cases r with
    | error e => exact nofun
    | ok u => exact fun _ _ => hr u rfl
  · intro msg rest _ w₂ h₂
    refine wp_bind (redelivering_message registry msg h₂ (fun w₃ h₃ => ?_) fun e w' => nofun)
    refine redelivering_bind (Calls.perform ⟨trivial, nofun⟩) (fun _ w₄ h₄ => ?_) fun e w' => nofun
    have hreported := reported_of_calm h₃ h₄
    refine wp_perform fun w₅ h₅ x _ => ?_
    have hbefore := reported_of_calm hreported h₅
    refine ⟨hbefore, ?_⟩
    have hharmless : (Call.deleteMessage .inbound msg.receiptHandle).Harmless := trivial
    have hafter := reported_of_calm hbefore (calm_answer hharmless x w₅)
    split
    · exact hafter
    · exact nofun

/-- An iteration, begun when nothing is owed. -/
theorem redelivering_iteration (registry : Registry) (maxMessages : ℕ) {w : World}
    (h : Reported w₀ w) :
    (redelivering w₀).wp (runIteration (processInboundBatch registry maxMessages) "inbound") w
      fun _ w' => Reported w₀ w' := by
  refine wp_handle (wp_mono (fun r w₁ hr => ?_) (redelivering_batch registry maxMessages h))
  cases r with
  | ok k => exact hr k rfl
  | error e =>
    have hharmless : (Call.logException "omnichannel.worker.inbound_iteration_failed").Harmless :=
      trivial
    refine wp_bind (wp_perform fun w₂ h₂ x hx => ⟨trivial, ?_⟩)
    exact reported_of_calm (hx rfl) (calm_answer hharmless x w₂)

/-- As long as nothing has been stored, nothing is owed. -/
theorem reported_of_rows {w₀ w : World} (hmessages : w.db.messages.rows = w₀.db.messages.rows)
    (hconversations : w.db.conversations.rows = w₀.db.conversations.rows) : Reported w₀ w := by
  refine ⟨fun m hm _ hnew => ?_, fun c hc hnew => ?_⟩
  · rw [Db.message_of_mem (hmessages ▸ hm)] at hnew
    cases hnew
  · rw [Db.conversation_of_mem (hconversations ▸ hc)] at hnew
    cases hnew

end Worker

/-- **Inbound effects happen at least once** in a run of the worker in which no iteration fails while
something is owed: whenever an entry is deleted, every message stored in the run has been reported
and every conversation created in it assigned. -/
theorem reported_of_handled (registry : Registry) (sizes : List ℕ) (w : World) (o : Oracle Choice)
    (hrun : Along Call.answer (ReportedAtFailure w) (ingest registry sizes) o w) :
    Along Call.answer (ReportedAtDelete w) (ingest registry sizes) o w := by
  refine along_guar (K := redelivering w) (Q := fun _ _ => True) ?_ hrun
  refine wp_forEach (fun _ _ w' => Reported w w') (fun _ _ _ => trivial) ?_ (reported_of_rows rfl rfl)
  intro maxMessages rest _ w' h
  refine wp_bind (wp_mono (fun r w₁ hr => ?_) (redelivering_iteration registry maxMessages h))
  cases r with
  | error e => trivial
  | ok _ => exact hr

/-! ### An event that is not published -/

/-- The deployment with one entry in its inbound queue: the first message of a new customer. -/
def greetedWorld : World :=
  { inboxWorld with
    queues := Function.update inboxWorld.queues .inbound ((inboxWorld.queues .inbound).send
      (inboundEntry "whatsapp" "org" "connection" (whatsappText "4916" "wamid.1" "Hi"))) }

/-- When a failure is reported, nothing has been stored. -/
def UnstoredAtFailure : Call → World → Prop
  | .logException _, w => w.db.messages.rows = greetedWorld.db.messages.rows ∧
      w.db.conversations.rows = greetedWorld.db.conversations.rows
  | _, _ => True

instance (c : Call) (w : World) : Decidable (UnstoredAtFailure c w) := by
  apply Call.casesOn (motive := fun c => Decidable (UnstoredAtFailure c w)) c
  case logException => exact fun _ => instDecidableAnd
  all_goals intros; exact .isTrue trivial

/-- The database is gone when the message is to be committed. -/
def lostCommit : Oracle Choice :=
  calmBut 12 ⟨.exception "OperationalError", "server closed the connection unexpectedly"⟩

/-- The commit fails, and the entry is received again: then nothing is owed at the delete, and the message
is stored. -/
theorem reported_greeting :
    Along Call.answer (ReportedAtDelete greetedWorld) (ingest whatsappRegistry [10, 10]) lostCommit
        greetedWorld ∧
      (exec Call.answer (ingest whatsappRegistry [10, 10]) lostCommit
        greetedWorld).2.db.messages.rows ≠ [] := by
  refine ⟨reported_of_handled whatsappRegistry [10, 10] greetedWorld _ ?_, by decide +kernel⟩
  have hunstored : Along Call.answer (fun c _ w => UnstoredAtFailure c w)
      (ingest whatsappRegistry [10, 10]) lostCommit greetedWorld := by decide +kernel
  refine along_mono (fun c x w hc => ?_) hunstored
  cases c with
  | logException => exact fun _ => reported_of_rows hc.1 hc.2
  | _ => trivial

/-- When an entry is deleted, there is an event where there is an inbound message. -/
def EventAtDelete : Call → World → Prop
  | .deleteMessage .inbound _, w =>
    (∀ m ∈ w.db.messages.rows, m.direction ≠ .inbound) ∨ w.core.events.length ≠ 0
  | _, _ => True

instance (c : Call) (w : World) : Decidable (EventAtDelete c w) := by
  apply Call.casesOn (motive := fun c => Decidable (EventAtDelete c w)) c
  case deleteMessage =>
    intro name receiptHandle
    exact match name with
      | .inbound =>
        inferInstanceAs (Decidable ((∀ m ∈ w.db.messages.rows, m.direction ≠ .inbound) ∨ _))
      | .outbound => .isTrue trivial
  all_goals intros; exact .isTrue trivial

theorem eventAtDelete_of_reported {c : Call} {x : Choice} {w : World}
    (h : ReportedAtDelete greetedWorld c x w) : EventAtDelete c w := by
  cases c with
  | deleteMessage name _ =>
    cases name with
    | inbound =>
      by_cases hnone : ∀ m ∈ w.db.messages.rows, m.direction ≠ .inbound
      · exact .inl hnone
      · push Not at hnone
        obtain ⟨m, hm, hinbound⟩ := hnone
        exact .inr (List.length_pos_of_mem (h.published m hm hinbound rfl)).ne'
    | outbound => trivial
  | _ => trivial

/-- A message can be stored and never reported: its event is not published, and when the entry is
received again the message is a duplicate. -/
theorem not_reported_at_delete :
    ¬∀ (registry : Registry) (sizes : List ℕ) (w : World) (o : Oracle Choice),
      Along Call.answer (ReportedAtDelete w) (ingest registry sizes) o w := by
  intro h
  have hrun := along_mono (fun _ _ _ => eventAtDelete_of_reported) (h whatsappRegistry [10, 10]
    greetedWorld (calmBut 14 ⟨.clientError "ThrottlingException", "Rate exceeded"⟩))
  revert hrun
  decide +kernel

end A2ZCore.Omnichannel
