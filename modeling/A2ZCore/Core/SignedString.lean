import A2ZCore.Core.SesNotifications
import A2ZCore.Lib.Framing
import Mathlib

/-!
# The signed string

`_canonical_string` puts the signed fields of a notification on lines, one after the other, as SNS does
before it signs them. Nothing escapes a line feed in a value, so payloads with different messages can
have one signature: a message may end in what reads like the fields after it. And which fields are signed
depends on the payload's `Token`: without one, a `SubscribeURL` is not among them.

## Main definitions

* `signedFields`, `signed` — what is signed
* `Plain` — up to a field, no line of a signed value is the name of a later field
* `Bound` — payloads with one signature have the same type, message and subscription URL, as far as
  these are signed and plain

## Main results

* `bound_of_canonicalString_eq` — payloads with one signed string are so
-/

namespace A2ZCore.Core

open Framing

/-- The fields of either kind, in their order. -/
def snsFields : List String :=
  ["Message", "MessageId", "Subject", "SubscribeURL", "Timestamp", "Token", "TopicArn", "Type"]

/-- The fields that are signed if they are there. -/
def signedFields (payload : List (String × Json)) : List String :=
  if (present payload "Token").isSome then subscriptionFields else notificationFields

theorem signedFields_pairwise (payload : List (String × Json)) :
    (signedFields payload).Pairwise (· < ·) := by
  unfold signedFields
  split <;> decide

theorem mem_snsFields {payload : List (String × Json)} {field : String}
    (h : field ∈ signedFields payload) : field ∈ snsFields := by
  unfold signedFields at h
  split at h <;> revert field <;> decide

theorem message_mem (payload : List (String × Json)) : "Message" ∈ signedFields payload := by
  unfold signedFields
  split <;> decide

theorem type_mem (payload : List (String × Json)) : "Type" ∈ signedFields payload := by
  unfold signedFields
  split <;> decide

theorem subscribeURL_mem {payload : List (String × Json)} (h : (present payload "Token").isSome) :
    "SubscribeURL" ∈ signedFields payload := by
  rw [signedFields, if_pos h]
  decide

theorem exists_signedFields_eq (payload : List (String × Json)) :
    ∃ fields, signedFields payload = fields ++ ["Type"] := by
  unfold signedFields
  split
  · exact ⟨["Message", "MessageId", "SubscribeURL", "Timestamp", "Token", "TopicArn"], rfl⟩
  · exact ⟨["Message", "MessageId", "Subject", "Timestamp", "TopicArn"], rfl⟩

section Signed

variable (pyStr : Json → String)

/-- The text of a field. -/
def text (payload : List (String × Json)) (field : String) : Option String :=
  (payload.lookup field).map pyStr

/-- The signed fields and their texts. -/
def signed (payload : List (String × Json)) : List (String × List Char) :=
  (signedFields payload).filterMap fun field =>
    (text pyStr payload field).map fun t => (field, t.toList)

/-- Up to a field, no line of a signed value is the name of a field that comes after that value's own. -/
def Plain (payload : List (String × Json)) (field : String) : Prop :=
  PlainUpTo String.toList '\n' snsFields field (signed pyStr payload)

/-- A field that is there, with a text of one line. -/
def OneLine (payload : List (String × Json)) (field : String) : Prop :=
  ∃ t, text pyStr payload field = some t ∧ '\n' ∉ t.toList

/-- Two payloads have the same type, message and subscription URL, as far as these are signed in both
and plain. A type need not be plain, if both have one of one line. -/
structure Bound (P Q : List (String × Json)) : Prop where
  message : Plain pyStr P "Message" → Plain pyStr Q "Message" →
    text pyStr P "Message" = text pyStr Q "Message"
  type : Plain pyStr P "Type" → Plain pyStr Q "Type" → text pyStr P "Type" = text pyStr Q "Type"
  type_of_oneLine : OneLine pyStr P "Type" → OneLine pyStr Q "Type" →
    text pyStr P "Type" = text pyStr Q "Type"
  subscribeURL : (present P "Token").isSome → (present Q "Token").isSome →
    Plain pyStr P "SubscribeURL" → Plain pyStr Q "SubscribeURL" →
    text pyStr P "SubscribeURL" = text pyStr Q "SubscribeURL"

variable {pyStr}

theorem mem_signed {payload : List (String × Json)} {field t : String} :
    (field, t.toList) ∈ signed pyStr payload ↔
      field ∈ signedFields payload ∧ text pyStr payload field = some t := by
  simp only [signed, List.mem_filterMap, Option.map_eq_some_iff, Prod.mk.injEq]
  constructor
  · rintro ⟨f, hf, t', ht', rfl, h⟩
    exact ⟨hf, String.toList_inj.mp h ▸ ht'⟩
  · rintro ⟨hf, ht⟩
    exact ⟨field, hf, t, ht, rfl, rfl⟩

theorem ordered_signed (payload : List (String × Json)) :
    Ordered snsFields (signed pyStr payload) := by
  constructor
  · refine List.Pairwise.filterMap _ ?_ (signedFields_pairwise payload)
    simp only [Option.map_eq_some_iff]
    rintro f f' hlt _ ⟨t, -, rfl⟩ _ ⟨t', -, rfl⟩
    exact hlt
  · intro e he
    simp only [signed, List.mem_filterMap, Option.map_eq_some_iff] at he
    obtain ⟨f, hf, t, -, rfl⟩ := he
    exact mem_snsFields hf

/-- `_canonical_string` writes the signed fields down. -/
theorem toList_canonicalString (payload : List (String × Json)) :
    (canonicalString pyStr payload).toList = frame String.toList '\n' (signed pyStr payload) := by
  show (String.join ((signedFields payload).map _)).toList = _
  unfold signed
  induction signedFields payload with
  | nil => rfl
  | cons field fields ih =>
    rw [List.map_cons, String.join_cons, String.toList_append, ih, List.filterMap_cons, text]
    cases payload.lookup field with
    | none => simp
    | some value => simp

/-- Payloads with one signed string have the same signed lines. -/
theorem lines_signed_eq {P Q : List (String × Json)}
    (h : canonicalString pyStr P = canonicalString pyStr Q) :
    lines String.toList '\n' (signed pyStr P) = lines String.toList '\n' (signed pyStr Q) := by
  have hframe := congrArg String.toList h
  rw [toList_canonicalString, toList_canonicalString] at hframe
  have hname : ∀ payload, ∀ e ∈ signed pyStr payload, '\n' ∉ e.1.toList := by
    intro payload e he
    have hmem := (ordered_signed payload).named e he
    revert hmem
    generalize e.1 = field
    revert field
    decide
  exact lines_eq_of_frame_eq (hname P) (hname Q) hframe

/-- A field that is signed in both payloads is the same in both, if it is plain. -/
theorem text_eq_of_plain {P Q : List (String × Json)} {field : String}
    (h : canonicalString pyStr P = canonicalString pyStr Q) (hP : field ∈ signedFields P)
    (hQ : field ∈ signedFields Q) (hplainP : Plain pyStr P field) (hplainQ : Plain pyStr Q field) :
    text pyStr P field = text pyStr Q field := by
  have hlines := lines_signed_eq h
  have hinj : Function.Injective String.toList := fun _ _ => String.toList_inj.mp
  have hmem : ∀ t : String, (field, t.toList) ∈ signed pyStr P ↔ (field, t.toList) ∈ signed pyStr Q :=
    fun t => ⟨mem_of_lines_eq hinj (ordered_signed P) (ordered_signed Q) hplainP hplainQ hlines,
      mem_of_lines_eq hinj (ordered_signed Q) (ordered_signed P) hplainQ hplainP hlines.symm⟩
  refine Option.ext fun t => ?_
  have ht := hmem t
  rw [mem_signed, mem_signed] at ht
  simpa [hP, hQ] using ht

/-- The type comes last. -/
theorem exists_signed_eq {payload : List (String × Json)} {t : String}
    (h : text pyStr payload "Type" = some t) :
    ∃ rest, signed pyStr payload = rest ++ [("Type", t.toList)] := by
  obtain ⟨fields, hfields⟩ := exists_signedFields_eq payload
  refine ⟨fields.filterMap fun field => (text pyStr payload field).map fun t => (field, t.toList), ?_⟩
  unfold signed
  rw [hfields, List.filterMap_append, List.filterMap_cons, h]
  rfl

/-- Payloads with one signed string have the same type, message and subscription URL, as far as these are
signed and no line of a value up to them is the name of a later field. -/
theorem bound_of_canonicalString_eq {P Q : List (String × Json)}
    (h : canonicalString pyStr P = canonicalString pyStr Q) : Bound pyStr P Q where
  message := text_eq_of_plain h (message_mem P) (message_mem Q)
  type := text_eq_of_plain h (type_mem P) (type_mem Q)
  type_of_oneLine := by
    rintro ⟨s, hs, hline⟩ ⟨t, ht, hline'⟩
    obtain ⟨restP, hP⟩ := exists_signed_eq hs
    obtain ⟨restQ, hQ⟩ := exists_signed_eq ht
    have hlines := lines_signed_eq h
    rw [hP, hQ] at hlines
    rw [hs, ht, String.toList_inj.mp (eq_of_lines_eq_of_last hlines hline hline')]
  subscribeURL hP hQ := by
    refine text_eq_of_plain h ?_ ?_
    · exact subscribeURL_mem hP
    · exact subscribeURL_mem hQ

/-- Without a token, any subscription URL has the signature of the payload. -/
theorem canonicalString_cons_subscribeURL {P : List (String × Json)} (url : Json)
    (h : (present P "Token").isSome = false) :
    canonicalString pyStr (("SubscribeURL", url) :: P) = canonicalString pyStr P := by
  have hlookup : ∀ field, field ≠ "SubscribeURL" →
      (("SubscribeURL", url) :: P).lookup field = P.lookup field := by
    intro field hne
    rw [List.lookup_cons, beq_false_of_ne hne]
  have htoken : present (("SubscribeURL", url) :: P) "Token" = present P "Token" := by
    rw [present, hlookup _ (by decide), present]
  unfold canonicalString
  rw [htoken, if_neg (by simp [h])]
  refine congrArg String.join (List.map_congr_left fun field hfield => ?_)
  rw [hlookup field (by rintro rfl; exact absurd hfield (by decide))]

end Signed

/-- `foreignPayload`, with another signature. -/
def resignedPayload : List (String × Json) := ("Signature", .str "AA==") :: foreignPayload

/-- Payloads that differ in what is not signed have the same message. -/
theorem bound_of_canonicalString_eq_foreign :
    text strOfStr foreignPayload "Message" = text strOfStr resignedPayload "Message" := by
  have hplain : Plain strOfStr foreignPayload "Message" ∧ Plain strOfStr resignedPayload "Message" := by
    unfold Plain PlainUpTo
    decide +kernel
  exact (bound_of_canonicalString_eq (by decide +kernel)).message hplain.1 hplain.2

/-- A notification whose message reads like its identifier, and one with that identifier. -/
def splicedPayload : List (String × Json) :=
  [("Message", .str "bounce of m1\nMessageId\nn1"), ("TopicArn", .str "arn:aws:sns:us-east-1:2:other"),
    ("Type", .str "Notification")]

@[inherit_doc splicedPayload]
def identifiedPayload : List (String × Json) :=
  [("Message", .str "bounce of m1"), ("MessageId", .str "n1"),
    ("TopicArn", .str "arn:aws:sns:us-east-1:2:other"), ("Type", .str "Notification")]

/-- The two have one signed string and different messages. -/
theorem not_bound : ¬∀ (pyStr : Json → String), (∀ s, pyStr (.str s) = s) →
    ∀ P Q : List (String × Json), canonicalString pyStr P = canonicalString pyStr Q →
      P.lookup "Type" = Q.lookup "Type" ∧ P.lookup "Message" = Q.lookup "Message" ∧
      (P.lookup "Type" = some (.str "SubscriptionConfirmation") →
        P.lookup "SubscribeURL" = Q.lookup "SubscribeURL") := by
  intro h
  obtain ⟨-, hmessage, -⟩ :=
    h strOfStr (fun _ => rfl) splicedPayload identifiedPayload (by decide +kernel)
  exact absurd (Json.str.inj (Option.some.inj hmessage)) (by decide)

end A2ZCore.Core
