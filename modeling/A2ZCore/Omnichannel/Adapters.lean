import A2ZCore.Core.World

/-!
# Channel adapters

The shapes of `adapters/types.py` and the part of the `ChannelAdapter` contract that the message
flow relies on. The worker never asks which channel it is on: it is a program over an arbitrary
registry, and what an adapter makes of a payload is a function of the payload and, for email that
SES has put into S3, of what is stored there. Sending is not part of the structure: it is a call,
and the provider's answer is the environment's.

## Main definitions

* `NormalizedInboundMessage`, `DeliveryStatusUpdate`, `OutboundContent` — the shapes
* `ChannelAdapter`, `Registry`, `getAdapter`
-/

namespace A2ZCore.Omnichannel

/-- `types.InboundAttachment`. -/
structure InboundAttachment where
  filename : String
  contentType : String
  content : Bytes
  deriving DecidableEq, Repr

/-- `types.NormalizedInboundMessage`. -/
structure NormalizedInboundMessage where
  externalId : String
  externalMessageId : String
  displayName : Option String
  bodyText : Option String
  contentType : String
  attachments : List InboundAttachment
  deriving DecidableEq, Repr

/-- `types.DeliveryStatusUpdate`, without the error text, which nothing reads. -/
structure DeliveryStatusUpdate where
  externalMessageId : String
  status : String
  deriving DecidableEq, Repr

/-- `types.OutboundContent`, as far as the worker fills it in. -/
structure OutboundContent where
  subject : Option String
  bodyText : Option String
  deriving DecidableEq, Repr

/-- `base.ChannelAdapter`. -/
structure ChannelAdapter where
  /-- `supported_features.requires_credentials` -/
  requiresCredentials : Bool
  normalizeInbound : Core.World → Json → Except PyErr (List NormalizedInboundMessage)
  interpretDeliveryWebhook : Json → Except PyErr (List DeliveryStatusUpdate)

/-- `registry._REGISTRY`. -/
abbrev Registry := String → Option ChannelAdapter

/-- `registry.get_adapter`. -/
def getAdapter (registry : Registry) (channelType : String) : Except PyErr ChannelAdapter :=
  match registry channelType with
  | some adapter => .ok adapter
  | none =>
    .error ⟨.channelAdapterError, "No adapter registered for channel_type=" ++ pyRepr channelType⟩

end A2ZCore.Omnichannel
