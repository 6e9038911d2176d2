import A2ZCore.Lib.Batch
import A2ZCore.Omnichannel.Effects

/-!
# Entries that fail in a batch

Both halves of the worker take the entries of a batch up one after another, and an exception of one
ends the batch: `_run_iteration` catches it outside of the loop. The entries after it have been received
all the same, so that each failure takes one of their receives.

`batches_isolate_iff` says for every batch when all the entries that do not raise are processed.

## Main definitions

* `takeInbound`, `takeOutbound` — what is done with an entry of a batch

## Main results

* `processInboundBatch_eq`, `processOutboundBatch_eq` — a batch is a loop over what was received
* `batches_isolate_iff`
-/

namespace A2ZCore.Omnichannel

open Interaction Interaction.Proc Messaging

/-- What is done with an entry of an inbound batch. -/
def takeInbound (registry : Registry) (_ : Unit) (msg : QueueMessage) : Prog Unit := do
  processInboundMessage registry msg
  delete .inbound msg.receiptHandle

/-- What is done with an entry of an outbound batch, and how many were deleted. -/
def takeOutbound (registry : Registry) (processed : ℕ) (msg : QueueMessage) : Prog ℕ := do
  if ← processOutboundMessage registry msg then
    delete .outbound msg.receiptHandle
    return processed + 1
  else return processed

theorem processInboundBatch_eq (registry : Registry) (maxMessages : ℕ) :
    processInboundBatch registry maxMessages = (receive .inbound maxMessages).bind fun messages =>
      (forEach messages () (takeInbound registry)).bind fun _ => .ret messages.length :=
  rfl

theorem processOutboundBatch_eq (registry : Registry) (maxMessages : ℕ) :
    processOutboundBatch registry maxMessages = (receive .outbound maxMessages).bind fun messages =>
      forEach messages 0 (takeOutbound registry) :=
  rfl

/-- **All the entries of a batch that do not raise are processed**, and deleted where they resolve,
exactly when none that raises comes before one of them. -/
theorem batches_isolate_iff (registry : Registry) (messages : List QueueMessage) (o : Oracle Choice)
    (w : World) :
    (Isolates Call.answer (takeInbound registry) messages () o w ↔
        FailuresLast Call.answer (takeInbound registry) messages () o w) ∧
      (Isolates Call.answer (takeOutbound registry) messages 0 o w ↔
        FailuresLast Call.answer (takeOutbound registry) messages 0 o w) :=
  ⟨isolates_iff, isolates_iff⟩

/-! ### A malformed entry and a greeting -/

/-- An inbound queue with a payload whose message has no sender, and one with a greeting. -/
def mixedQueue : Queue QueueEntry :=
  (Queue.send [] (inboundEntry "whatsapp" "org" "connection" (.obj [("entry", .arr [.obj [("changes",
      .arr [.obj [("value", .obj [("messages", .arr [.obj [("id", .str "wamid.1")]])])]])]])]))).send
    (inboundEntry "whatsapp" "org" "connection" (whatsappText "4915" "wamid.2" "Hi"))

/-- One receive of both. -/
def mixedReceive : List (Delivery QueueEntry) × Queue QueueEntry :=
  mixedQueue.receive sqsMaxReceiveCount [0, 1]

/-- The deployment once both have been received. -/
def mixedWorld : World :=
  { inboxWorld with queues := Function.update inboxWorld.queues .inbound mixedReceive.2 }

/-- The greeting is sound, and is not taken up. -/
theorem not_batches_isolate : ¬∀ (registry : Registry) (messages : List QueueMessage)
    (o : Oracle Choice) (w : World),
    Isolates Call.answer (takeInbound registry) messages () o w ∧
      Isolates Call.answer (takeOutbound registry) messages 0 o w := by
  intro h
  have hpassed := (h whatsappRegistry (mixedReceive.1.map .ofDelivery) calm mixedWorld).1 1
    (by decide +kernel)
  revert hpassed
  decide +kernel

end A2ZCore.Omnichannel
