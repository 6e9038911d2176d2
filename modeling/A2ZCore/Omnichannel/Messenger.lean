import A2ZCore.Omnichannel.WhatsApp

/-!
# The Messenger adapter

What `adapters/messenger.py` makes of a webhook payload, for Messenger and for Instagram. Messages,
receipts and echoes come in one list of events: one walk takes the customers' messages from it, the other
the delivery receipts.

## Main definitions

* `messengerNormalizeEvent` — `_normalize_event`
* `messengerNormalizeInbound`, `messengerInterpretDeliveryWebhook`
* `messengerAdapter`
-/

namespace A2ZCore.Omnichannel

/-- The loop over the events of each entry of a payload. -/
def forEachEvent {α : Type} (rawPayload : Json) (body : Json → Except PyErr (List α)) :
    Except PyErr (List α) := do
  let entries ← (← rawPayload.getD "entry" (.arr [])).iterate
  let collected ← entries.mapM fun entry => do
    let events ← (← entry.getD "messaging" (.arr [])).iterate
    events.mapM body
  return collected.flatten.flatten

/-- The text of a message, or what stands for its attachment. -/
def messengerBodyText (message : Json) : Except PyErr Json := do
  let text ← message.getD "text" .null
  return if text.truthy then text else .str "[unsupported message type: attachment]"

/-- What `_normalize_event` makes of a message that is no echo. -/
def messengerNormalizeMessage (event message : Json) :
    Except PyErr (Option NormalizedInboundMessage) := do
  let sender ← event.getD "sender" (.obj [])
  let externalId ← sender.getD "id" .null
  let externalMessageId ← message.getD "mid" .null
  if !externalId.truthy || !externalMessageId.truthy then return none
  else
    let bodyText ← messengerBodyText message
    return some {
      externalId := ← externalId.asStr "external_id"
      externalMessageId := ← externalMessageId.asStr "external_message_id"
      displayName := none
      bodyText := ← bodyText.asOptionalStr "body_text"
      contentType := "text/plain"
      attachments := [] }

/-- `_normalize_event`. -/
def messengerNormalizeEvent (event : Json) : Except PyErr (Option NormalizedInboundMessage) := do
  let message ← event.getD "message" .null
  if !message.truthy then return none
  else
    let isEcho ← message.getD "is_echo" .null
    if isEcho.truthy then return none
    else messengerNormalizeMessage event message

/-- `MessengerPlatformAdapter.normalize_inbound`. -/
def messengerNormalizeInbound (rawPayload : Json) :
    Except PyErr (List NormalizedInboundMessage) :=
  forEachEvent rawPayload fun event => do return (← messengerNormalizeEvent event).toList

/-- The updates of one event. -/
def messengerDelivered (event : Json) : Except PyErr (List DeliveryStatusUpdate) := do
  let delivery ← event.getD "delivery" .null
  if !delivery.truthy then return []
  else
    (← (← delivery.getD "mids" (.arr [])).iterate).mapM fun mid => do
      return { externalMessageId := ← mid.asStr "external_message_id", status := "delivered" }

/-- `MessengerPlatformAdapter.interpret_delivery_webhook`. -/
def messengerInterpretDeliveryWebhook (rawPayload : Json) :
    Except PyErr (List DeliveryStatusUpdate) :=
  forEachEvent rawPayload messengerDelivered

/-- `messenger.MessengerAdapter` and `instagram.InstagramAdapter`. -/
def messengerAdapter : ChannelAdapter where
  requiresCredentials := true
  normalizeInbound _ := messengerNormalizeInbound
  interpretDeliveryWebhook := messengerInterpretDeliveryWebhook

end A2ZCore.Omnichannel
