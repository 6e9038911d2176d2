import A2ZCore.Invoicing.Concurrency
import A2ZCore.Lib.Once

/-!
# How often an invoice is mailed

`send_invoice` checks that the invoice is a draft, hands the mail to SES, and only then commits the
new status. Between the check and the commit lie the upload, the sending, and two writes that can
fail after SES has accepted. An attempt that has passed the check mails the invoice, whatever has
happened meanwhile. So an invoice is mailed once as long as no attempt passes the check after another's
mail was accepted, which it does where that one failed or stopped before its commit took effect, and no
attempt passes it between another's check and that one's mail.

## Main definitions

* `Accepts` — SES accepts a mail
* `mailRights` — an attempt that loads the invoice as a draft has the right to mail it
* `attempts` — attempts to send one invoice

## Main results

* `within_send` — an attempt hands a mail to SES once for each time it loads the invoice as a draft
* `mailed_once_of_undisputed`
-/

namespace A2ZCore.Invoicing

open Interaction Interaction.Proc Interaction.Contract Relational

/-- SES accepts a mail. -/
def Accepts : Call → Choice → World → Bool
  | .core (.sesSend _), x, _ => match x.fate with
    | .lost _ => false
    | _ => true
  | _, _, _ => false

/-- The attempt loads the invoice as a draft. -/
def readsDraft : (c : Call) → Except PyErr c.Resp → ℕ
  | .selectInvoice _ _, .ok (some loaded) => if loaded.status = .draft then 1 else 0
  | _, _ => 0

/-- The attempt hands a mail to SES. -/
def handsMail : Call → Bool
  | .core (.sesSend _) => true
  | _ => false

/-- An attempt that has loaded the invoice as a draft mails it. -/
def mailRights : Rights Call Call.Resp PyErr where
  possible _ _ := True
  grants := readsDraft
  spends := handsMail
  grants_of_spends c r h := by
    unfold handsMail at h
    split at h
    · rfl
    · cases h

/-- The call neither loads the invoice nor hands a mail to SES. -/
def Call.Aside : Call → Prop
  | .core c => c.NotSend
  | .selectInvoice _ _ => False
  | _ => True

theorem aside_mailRights {c : Call} (hc : c.Aside) :
    mailRights.Barren c ∧ mailRights.spends c = false := by
  cases c with
  | core c => cases c <;> first | exact ⟨fun _ _ => rfl, rfl⟩ | exact hc.elim
  | selectInvoice => exact hc.elim
  | _ => exact ⟨fun _ _ => rfl, rfl⟩

/-- A part of an attempt that neither loads the invoice nor hands a mail to SES. -/
theorem uses_of_aside {α : Type} {p : Prog α} (hp : p.Calls Call.Aside) : mailRights.Uses 0 p :=
  Rights.uses_of_calls (hp.mono fun _ hc => aside_mailRights hc) 0

section Attempts

variable {orgId invoiceId userId recipientEmail : String}

/-- A program of Core that does not hand a mail to SES. -/
theorem uses_core {α : Type} {p : Core.Prog α} (hp : p.Calls Core.Call.NotSend) :
    mailRights.Uses 0 (core p) :=
  uses_of_aside (Calls.embed hp)

theorem core_sesSend (mail : Core.Mail) :
    core (Core.sesSend mail) =
      Proc.handle (run (.core (.sesSend mail))) fun exc => core (Core.refused exc) := by
  rw [← core_run]
  exact core_handle (Core.run (.sesSend mail)) Core.refused

/-- Sending the email hands one mail to SES. -/
theorem uses_sendEmail (serviceType recipient subject bodyHtml : String) (bodyText : Option String)
    (attachments : List Core.Attachment) (replyTo : Option String) (metadata : Json) :
    mailRights.Uses 1 (core (Core.sendEmail orgId serviceType recipient subject bodyHtml bodyText
      attachments replyTo metadata)) := by
  unfold Core.sendEmail
  rw [bind_eq, core_bind]
  refine Rights.uses_bind_zero (uses_core (Core.calls_notSend_prepareMail _ _ _ _ _ _ _ _))
    fun mail => ?_
  rw [bind_eq, core_bind, core_sesSend]
  have hrefused : ∀ exc, mailRights.Uses 0 (core (Core.refused exc)) := by
    intro exc
    unfold Core.refused
    split <;> trivial
  refine Rights.uses_bind (m := 1) (n := 0) ?_ fun messageId =>
    uses_core (Core.calls_notSend_recordSent _ _ _ _ _ _)
  exact Rights.uses_handle (m := 1) (n := 0)
    (Rights.uses_perform (fun _ _ => rfl) fun _ => Nat.one_pos) hrefused

/-- Loading the invoice: what is loaded as a draft can be mailed. -/
theorem within_load {β : Type} {f : Invoice → Prog β}
    (hdraft : ∀ loaded, loaded.status = .draft → mailRights.Within 1 (f loaded))
    (hother : ∀ loaded, loaded.status ≠ .draft → mailRights.Within 0 (f loaded)) :
    mailRights.Within 0 ((loadInvoice orgId invoiceId).bind f) := by
  unfold loadInvoice
  rw [bind_eq, Proc.bind_assoc]
  refine Rights.within_perform_bind rfl fun found _ => ?_
  cases found with
  | none => trivial
  | some loaded =>
    have hgrants : mailRights.grants (.selectInvoice orgId invoiceId) (.ok (some loaded)) =
        if loaded.status = .draft then 1 else 0 := rfl
    by_cases hstatus : loaded.status = .draft
    · rw [Rights.left, hgrants, if_pos hstatus]
      exact hdraft loaded hstatus
    · rw [Rights.left, hgrants, if_neg hstatus]
      exact hother loaded hstatus

/-- An attempt hands a mail to SES once for each time it loads the invoice as a draft. -/
theorem within_send : mailRights.Within 0 (Op.send orgId invoiceId userId recipientEmail).prog := by
  refine Rights.within_bind_ret ?_ _
  refine Rights.within_bind_zero (uses_of_aside (calls_requireMutationRole trivial)) fun _ => ?_
  refine within_load (fun loaded hstatus => ?_) fun loaded hstatus => ?_
  · rw [assertCanSend, if_neg (not_not.mpr hstatus)]
    have hone : ∀ c : Call, c.Aside → mailRights.Uses 0 (run c) := fun c hc =>
      uses_of_aside (Calls.perform hc)
    refine Rights.within_bind_zero (Rights.uses_ofExcept _ 0) fun _ => ?_
    refine Rights.within_bind_zero (hone (.selectLineItems orgId invoiceId) trivial) fun items => ?_
    refine Rights.within_bind_zero (uses_core (Core.calls_notSend_getOrgSettings _))
      fun orgSettings => ?_
    refine Rights.within_bind_zero (hone _ trivial) fun pdfBytes => ?_
    refine Rights.within_bind_zero (uses_core (Core.calls_notSend_uploadFile _ _ _ _ _ _))
      fun stored => ?_
    refine Rights.within_bind (m := 1) (n := 0) (uses_sendEmail _ _ _ _ _ _ _ _) fun emailResult => ?_
    refine Rights.within_bind_zero (hone _ trivial) fun _ => ?_
    refine Rights.within_bind_zero (hone _ trivial) fun invoice => ?_
    exact Rights.within_bind_zero (uses_core (Core.reports_notSend.calls_logAudit _ _ _ _ _ _))
      fun _ => trivial
  · rw [assertCanSend, if_pos hstatus]
    trivial

end Attempts

/-! ### Any number of attempts -/

/-- Attempts to send one invoice, by whom and to which address, none of which has begun. -/
def attempts (orgId invoiceId : String) (requests : List (String × String)) (w : World) :
    Pool Call Call.Resp PyErr Unit World :=
  operations (requests.map fun r => .send orgId invoiceId r.1 r.2) w

/-- **An invoice is mailed at most once** in every run in which no attempt loads it as a draft after a
mail of it was accepted, and none does between the time another has loaded it and the time that one's
mail is accepted. -/
theorem mailed_once_of_undisputed (orgId invoiceId : String) (requests : List (String × String))
    (w : World) (schedule : List (ℕ × Choice))
    (h : Pool.Undisputed Call.answer mailRights Accepts none false
      (attempts orgId invoiceId requests w) schedule) :
    (attempts orgId invoiceId requests w).count Call.answer Accepts schedule ≤ 1 := by
  refine Pool.count_le_one (K := mailRights) (fun _ _ _ => trivial) (fun c x w hc => ?_) ?_ h
  · unfold Accepts at hc
    split at hc
    · rfl
    · cases hc
  · intro p hp
    obtain ⟨op, hop, rfl⟩ := List.mem_map.mp hp
    obtain ⟨r, _, rfl⟩ := List.mem_map.mp hop
    exact within_send

/-- Attempts to send the invoice over 100 cents. -/
def adaAttempts (n : ℕ) : Pool Call Call.Resp PyErr Unit World :=
  attempts "org" "c4" (List.replicate n ("ada", "ada@example.com")) ⟨.initial, draftDb⟩

/-- The first attempt fails where the PDF is stored; the second goes through; the third finds the invoice
sent. -/
def uploadFails : List (ℕ × Choice) :=
  failAt 6 ⟨.clientError "SlowDown", "Reduce your request rate"⟩ <|
    calmly (List.replicate 8 0 ++ List.replicate 40 1 ++ List.replicate 8 2)

theorem mailed_once_uploadFails : (adaAttempts 3).count Call.answer Accepts uploadFails = 1 := by
  have hle := mailed_once_of_undisputed "org" "c4" (List.replicate 3 ("ada", "ada@example.com"))
    ⟨.initial, draftDb⟩ uploadFails (by decide +kernel)
  have hpos : 0 < (adaAttempts 3).count Call.answer Accepts uploadFails := by decide +kernel
  exact Nat.le_antisymm hle hpos

/-- The first attempt's `email_events` item is throttled; the second attempt goes through. -/
def eventFails : List (ℕ × Choice) :=
  failAt 22 ⟨.clientError "ProvisionedThroughputExceededException", "throttled"⟩ <|
    calmly (List.replicate 23 0 ++ List.replicate 21 1)

theorem count_eventFails : (adaAttempts 2).count Call.answer Accepts eventFails = 2 := by
  decide +kernel

/-- An invoice can be mailed twice. -/
theorem not_mailed_once :
    ¬∀ (orgId invoiceId : String) (requests : List (String × String)) (w : World)
      (schedule : List (ℕ × Choice)),
      (attempts orgId invoiceId requests w).count Call.answer Accepts schedule ≤ 1 := by
  intro h
  have hle : (adaAttempts 2).count Call.answer Accepts eventFails ≤ 1 := h _ _ _ _ _
  rw [count_eventFails] at hle
  omega

end A2ZCore.Invoicing
