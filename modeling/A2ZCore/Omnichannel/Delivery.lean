import A2ZCore.Lib.Once
import A2ZCore.Omnichannel.Effects

/-!
# How often a reply is delivered

`process_outbound_batch` hands a message to its provider, and then commits the status `sent`, publishes
an event and an update, and deletes the queue entry. An entry that a batch has received is sent,
whatever the row says: the status is never looked at. So a message is delivered once as long as no
receive hands out an entry that names it after the provider has accepted it, which happens where the
commit, a publish or the delete behind the acceptance failed, and none does between another batch's
receive and that one's send.

## Main definitions

* `Accepts` — the provider accepts a message
* `sendRights` — an entry that is handed out gives the right to send the message it names
* `batches` — batches that drain the outbound queue

## Main results

* `within_processOutboundBatch` — a batch sends a message once for each entry it receives that names it
* `delivered_once_of_undisputed`
-/

namespace A2ZCore.Omnichannel

open Interaction Interaction.Proc Interaction.Contract Relational

/-- The provider accepts a message. -/
def Accepts (messageId : String) : Call → Choice → World → Bool
  | .sendOutbound id _ _ _ _, x, _ => id == messageId && match x.fate with
    | .lost _ => false
    | _ => true
  | _, _, _ => false

/-- How many entries of a message there are in one. -/
def entriesOf (messageId : String) (msg : QueueMessage) : ℕ :=
  if Names msg.body messageId then 1 else 0

/-- How many entries that name the message are handed out. -/
def handsOut (messageId : String) : (c : Call) → Except PyErr c.Resp → ℕ
  | .receiveMessage .outbound _, .ok messages => (messages.map (entriesOf messageId)).sum
  | _, _ => 0

/-- The message is handed to its provider. -/
def handsOver (messageId : String) : Call → Bool
  | .sendOutbound id _ _ _ _ => id == messageId
  | _ => false

/-- The message that is loaded has the id that was asked for. -/
def loadsAsked : (c : Call) → Except PyErr c.Resp → Prop
  | .getMessage id, .ok (some message) => message.id = id
  | _, _ => True

/-- An entry that is handed out gives the right to send the message it names. -/
def sendRights (messageId : String) : Rights Call Call.Resp PyErr where
  possible := loadsAsked
  grants := handsOut messageId
  spends := handsOver messageId
  grants_of_spends c r h := by
    unfold handsOver at h
    split at h
    · rfl
    · cases h

/-- The call neither receives entries of the outbound queue nor sends. -/
def Call.Aside : Call → Prop
  | .receiveMessage .outbound _ => False
  | .sendOutbound _ _ _ _ _ => False
  | _ => True

theorem aside_sendRights (messageId : String) {c : Call} (hc : c.Aside) :
    (sendRights messageId).Barren c ∧ (sendRights messageId).spends c = false := by
  cases c with
  | receiveMessage name _ =>
    cases name with
    | inbound => exact ⟨fun _ _ => rfl, rfl⟩
    | outbound => exact hc.elim
  | sendOutbound => exact hc.elim
  | _ => exact ⟨fun _ _ => rfl, rfl⟩

theorem loadsAsked_answer (c : Call) (x : Choice) (w : World) : loadsAsked c (c.answer x w).1 := by
  unfold loadsAsked
  split
  · next id message hr =>
    have hfound : w.db.message id = some message := Except.ok.inj (Core.Fate.eq_of_query hr)
    exact (Db.mem_of_message hfound).2
  · trivial

/-! ### One batch -/

section Batches

variable {registry : Registry} {messageId : String} {n : ℕ}

/-- A part of a batch that neither receives nor sends. -/
theorem uses_of_aside {α : Type} {p : Prog α} (hp : p.Calls Call.Aside) :
    (sendRights messageId).Uses n p :=
  Rights.uses_of_calls (hp.mono fun _ hc => aside_sendRights messageId hc) n

theorem calls_aside_resolveCredentials (adapter : ChannelAdapter) (message : Message)
    (connection : ChannelConnection) :
    (resolveCredentials adapter message connection).Calls Call.Aside := by
  unfold resolveCredentials
  split
  · exact (calls_core _ fun _ => trivial).bind fun _ => Calls.ofExcept _
  · trivial

theorem calls_aside_customerIdentity (conversation : Option Conversation) :
    (customerIdentity conversation).Calls Call.Aside := by
  cases conversation with
  | none => trivial
  | some conversation => exact Calls.perform trivial

theorem calls_aside_sendFailed (message : Message) (receiveCount : ℕ) (exc : PyErr) :
    (sendFailed message receiveCount exc).Calls Call.Aside := by
  unfold sendFailed
  split
  · refine (Calls.perform trivial).bind fun _ => Calls.bind (?_ : (markFailed _ _).Calls Call.Aside)
      fun _ => trivial
    by_cases hcount : sqsMaxReceiveCount ≤ receiveCount
    · rw [markFailed_of_le hcount]
      exact Calls.perform trivial
    · rw [markFailed_of_lt (Nat.lt_of_not_le hcount)]
      trivial
  · trivial

/-- The attempt to send uses up one right to the message it is for. -/
theorem uses_trySend (message : Message) (identity : ChannelIdentity)
    (credentials : List (String × Json)) (receiveCount : ℕ) :
    (sendRights messageId).Uses (if message.id = messageId then 1 else 0)
      (trySend message identity credentials receiveCount) := by
  refine Rights.uses_handle (m := if message.id = messageId then 1 else 0) (n := 0) ?_ fun exc =>
    uses_of_aside (calls_aside_sendFailed message receiveCount exc)
  refine Rights.uses_bind (n := 0) (Rights.uses_perform (fun _ _ => rfl) fun hspends => ?_)
    fun _ => trivial
  have hid : message.id = messageId := by simpa [sendRights, handsOver] using hspends
  exact Nat.one_pos.trans_eq (if_pos hid).symm

theorem uses_sendQueued (message : Message) (identity : ChannelIdentity)
    (connection : ChannelConnection) (receiveCount : ℕ) :
    (sendRights messageId).Uses (if message.id = messageId then 1 else 0)
      (sendQueued registry message identity connection receiveCount) := by
  refine Rights.uses_bind_zero (Rights.uses_ofExcept _ 0) fun adapter => ?_
  refine Rights.uses_bind_zero (uses_of_aside (calls_aside_resolveCredentials _ _ _))
    fun credentials => ?_
  refine Rights.uses_bind (n := 0) (uses_trySend message identity credentials receiveCount)
    fun sent => ?_
  cases sent with
  | none => trivial
  | some externalId =>
    exact uses_of_aside ((Calls.perform trivial).bind fun _ =>
      (calls_core _ fun _ => trivial).bind fun _ => trivial)

/-- An entry is for one send, of the message it names. -/
theorem uses_processOutboundMessage (msg : QueueMessage) :
    (sendRights messageId).Uses (entriesOf messageId msg) (processOutboundMessage registry msg) := by
  cases hnames : getItem msg.body "message_id" >>= primaryKey with
  | error e =>
    unfold processOutboundMessage
    rw [hnames]
    trivial
  | ok id =>
    have hentries : entriesOf messageId msg = if id = messageId then 1 else 0 := by
      simp only [entriesOf, Names, hnames, Except.ok.injEq]
    unfold processOutboundMessage
    rw [hnames, hentries]
    refine Rights.uses_perform_bind (fun _ _ => rfl) rfl fun found hfound => ?_
    cases found with
    | none => exact uses_of_aside ((Calls.perform trivial).bind fun _ => trivial)
    | some message =>
      refine Rights.uses_bind_zero (uses_of_aside (Calls.perform trivial)) fun conversation => ?_
      refine Rights.uses_bind_zero (uses_of_aside (calls_aside_customerIdentity conversation))
        fun identity => ?_
      refine Rights.uses_bind_zero (uses_of_aside ((Calls.perform trivial).bind fun _ => trivial))
        fun connection => ?_
      have hmissing : (sendRights messageId).Uses (if id = messageId then 1 else 0)
          ((run (.logError "omnichannel.outbound.missing_context" id)).bind fun _ =>
            (.ret true : Prog Bool)) := uses_of_aside ((Calls.perform trivial).bind fun _ => trivial)
      cases identity with
      | none => exact hmissing
      | some identity =>
        cases connection with
        | none => exact hmissing
        | some connection =>
          have hid : message.id = id := hfound
          rw [← hid]
          exact uses_sendQueued message identity connection msg.receiveCount

/-- A batch sends a message once for each entry it receives that names it. -/
theorem within_processOutboundBatch (maxMessages : ℕ) :
    (sendRights messageId).Within 0 (processOutboundBatch registry maxMessages) := by
  refine (congrArg ((sendRights messageId).Within 0) (Proc.bind_assoc _ _ _)).mpr ?_
  refine Rights.within_bind_zero (uses_of_aside (Calls.perform trivial)) fun _ => ?_
  refine Rights.within_perform_bind rfl fun messages _ => ?_
  have hgrants : (sendRights messageId).grants (.receiveMessage .outbound maxMessages)
      (.ok messages) = (messages.map (entriesOf messageId)).sum := rfl
  have hleft : (messages.map (entriesOf messageId)).sum ≤
      (sendRights messageId).left 0 (.receiveMessage .outbound maxMessages) (.ok messages) := by
    rw [Rights.left, hgrants]
    split <;> omega
  refine Rights.within_mono hleft (Rights.within_forEach (fun processed msg => ?_) messages 0)
  refine Rights.uses_bind (n := 0) (uses_processOutboundMessage msg) fun resolved => ?_
  cases resolved with
  | false => trivial
  | true =>
    exact uses_of_aside (((Calls.perform trivial).bind fun _ => Calls.perform trivial).bind
      fun _ => trivial)

end Batches

/-! ### Any number of batches -/

/-- Batches that drain the outbound queue, by how many entries each receives, none of which has
begun. -/
def batches (registry : Registry) (sizes : List ℕ) (w : World) :
    Pool Call Call.Resp PyErr ℕ World where
  procs := sizes.map (processOutboundBatch registry)
  world := w

/-- **A message is delivered at most once** in every run in which a receive that hands out an entry of
the message hands out one, does so before the provider has accepted it, and does not come between the
time another batch has received one and the time that one's send is accepted. -/
theorem delivered_once_of_undisputed (registry : Registry) (sizes : List ℕ) (w : World)
    (messageId : String) (schedule : List (ℕ × Choice))
    (h : Pool.Undisputed Call.answer (sendRights messageId) (Accepts messageId) none false
      (batches registry sizes w) schedule) :
    (batches registry sizes w).count Call.answer (Accepts messageId) schedule ≤ 1 := by
  refine Pool.count_le_one (K := sendRights messageId) loadsAsked_answer (fun c x w hc => ?_) ?_ h
  · unfold Accepts at hc
    split at hc
    · exact (Bool.and_eq_true_iff.mp hc).1
    · cases hc
  · intro p hp
    obtain ⟨maxMessages, _, rfl⟩ := List.mem_map.mp hp
    exact within_processOutboundBatch maxMessages

/-- The provider refuses the first send; the entry is received again, and then the send goes through. A
third batch finds nothing. -/
def sendRefused : List (ℕ × Choice) :=
  failAt 9 ⟨.channelAdapterError, "502"⟩ <|
    calmly (List.replicate 11 0 ++ List.replicate 13 1 ++ List.replicate 2 2)

theorem delivered_once_sendRefused :
    (batches whatsappRegistry [10, 10, 10] repliedWorld).count Call.answer (Accepts "r6")
      sendRefused = 1 := by
  have hle := delivered_once_of_undisputed whatsappRegistry [10, 10, 10] repliedWorld "r6" sendRefused
    (by decide +kernel)
  have hpos : 0 < (batches whatsappRegistry [10, 10, 10] repliedWorld).count Call.answer
      (Accepts "r6") sendRefused := by decide +kernel
  exact Nat.le_antisymm hle hpos

/-- The row commits as sent, but the `message.sent` event is not published; the entry is received
again. -/
def publishFails : List (ℕ × Choice) :=
  failAt 11 ⟨.clientError "ThrottlingException", "Rate exceeded"⟩ <|
    calmly (List.replicate 12 0 ++ List.replicate 14 1)

theorem count_publishFails :
    (batches whatsappRegistry [10, 10] repliedWorld).count Call.answer (Accepts "r6")
      publishFails = 2 := by
  decide +kernel

/-- A reply can be delivered twice. -/
theorem not_delivered_once :
    ¬∀ (registry : Registry) (orgId conversationId userId bodyText : String)
      (clientDedupKey subject : Option String) (o : Oracle Choice) (w w' : World)
      (message : Message),
      exec Call.answer (sendReply orgId conversationId userId bodyText clientDedupKey subject) o w =
        (some (.ok (message, true)), w') →
      ∀ (sizes : List ℕ) (schedule : List (ℕ × Choice)),
        (batches registry sizes w').count Call.answer (Accepts message.id) schedule ≤ 1 := by
  intro h
  have hle := h whatsappRegistry _ _ _ _ _ _ _ _ _ _ reply_eq [10, 10] publishFails
  rw [show (queuedReply.id : String) = "r6" from rfl, count_publishFails] at hle
  omega

end A2ZCore.Omnichannel
