import A2ZCore.Core.Email
import A2ZCore.Core.SesNotifications

/-!
# Bounces of messages that are being sent

`email.send_email` and the endpoint of the SES notifications, side by side. The row that tells which org
has sent a message is written after SES has accepted it, and a notification that finds no row is
acknowledged and dropped.

## Main definitions

* `MailTask`, `mailroom` — sends and notifications that run side by side
* `Ledger` — the state, with what SES has accepted for whom
* `NotifiesOf` — a request is the notification of a bounce or a complaint
* `NoBounceLost` — an acknowledged notification has suppressed its recipients
* `RowWritten` — the row is there when the endpoint looks for it

## Main results

* `noBounceLost_of_rowWritten` — no bounce is lost in a run in which each row is there in time
-/

namespace A2ZCore.Core

open Interaction Interaction.Proc Interaction.Contract

/-! ### Sends and notifications -/

/-- A message that is sent, or a request to the endpoint. -/
inductive MailTask where
  | send (orgId serviceType recipient subject bodyHtml : String) (bodyText : Option String)
    (attachments : List Attachment) (replyTo : Option String) (metadata : Json)
  | notify (rawBody : Bytes)

/-- A call, and the task that makes it. -/
structure TaskCall where
  task : MailTask
  call : SesCall

/-- What a call replies. -/
def TaskCall.Resp (c : TaskCall) : Type := c.call.Resp

/-- The state, with the messages that SES has accepted and the tasks that sent them. -/
structure Ledger where
  world : SesWorld
  accepted : List (MailTask × String)

/-- The messages that are accepted at a call: SES names the message, and the reply may be lost. -/
def TaskCall.acceptedAfter (c : TaskCall) (x : Choice) (accepted : List (MailTask × String)) :
    List (MailTask × String) :=
  match c.call, x.fate with
  | .core (.sesSend _), .lost _ => accepted
  | .core (.sesSend _), _ => (c.task, x.token) :: accepted
  | _, _ => accepted

/-- The reply to a call and the state it leaves. -/
def TaskCall.answer (c : TaskCall) (x : Choice) (l : Ledger) : Except PyErr c.Resp × Ledger :=
  ((c.call.answer x l.world).1, ⟨(c.call.answer x l.world).2, c.acceptedAfter x l.accepted⟩)

/-- A program, run as a task. -/
def byTask {α : Type} (task : MailTask) (p : SesProg α) : Proc TaskCall TaskCall.Resp PyErr α :=
  p.embed (TaskCall.mk task) fun _ r => r

section Endpoint

-- `json.loads` of a body, `json.loads` of a string, `str(v)`, `httpx.URL(url).host`,
-- `load_pem_x509_certificate`, `base64.b64decode`, and `s.encode("utf-8")`
variable (loads : Bytes → Except PyErr Json) (loadsStr : String → Except PyErr Json)
  (pyStr : Json → String) (host : String → Except PyErr String)
  (loadCertificate : String → Except PyErr Certificate) (b64decode : String → Except PyErr Bytes)
  (encode : String → Except PyErr Bytes)

/-- The program of a task. -/
def MailTask.program : MailTask → SesProg Unit
  | send orgId serviceType recipient subject bodyHtml bodyText attachments replyTo metadata => do
    let _ ← fromCore (sendEmail orgId serviceType recipient subject bodyHtml bodyText attachments
      replyTo metadata)
    return ()
  | notify rawBody => sesNotifications loads loadsStr pyStr host loadCertificate b64decode encode rawBody

/-- The tasks side by side, before SES has accepted anything. -/
def mailroom (tasks : List MailTask) (w : SesWorld) :
    Pool TaskCall TaskCall.Resp PyErr Unit Ledger :=
  ⟨tasks.map fun task => byTask task
    (task.program loads loadsStr pyStr host loadCertificate b64decode encode), ⟨w, []⟩⟩

/-- The request is a notification of a bounce or a complaint about the message, and the address is among
its recipients. -/
def NotifiesOf (rawBody : Bytes) (messageId address : String) : Prop :=
  ∃ payload notification read report recipients recipient, loads rawBody = .ok (.obj payload) ∧
    payload.lookup "Type" = some (.str "Notification") ∧
      readMessage loadsStr payload = .ok notification ∧ readNotification notification = .ok read ∧
        read.messageId = some (.str messageId) ∧
          readReport read.fields messageId read.type = .ok (some (report, recipients)) ∧
            recipient ∈ recipients ∧ emailAddress recipient = .ok (.str address)

/-- Where SES has accepted a message, and the endpoint has acknowledged a notification that it bounced, the
recipient is suppressed for the org that sent it. -/
def NoBounceLost (tasks : List MailTask) (s : Pool TaskCall TaskCall.Resp PyErr Unit Ledger) : Prop :=
  ∀ j rawBody messageId orgId serviceType recipient subject bodyHtml bodyText attachments replyTo
    metadata, tasks[j]? = some (.notify rawBody) → s.returned j = some () →
      (.send orgId serviceType recipient subject bodyHtml bodyText attachments replyTo metadata,
        messageId) ∈ s.world.accepted →
        NotifiesOf loads loadsStr rawBody messageId recipient →
          (orgId, recipient) ∈ s.world.world.core.suppression

end Endpoint

/-- SES gives each message a name of its own. -/
def FreshName (c : TaskCall) (x : Choice) (l : Ledger) : Prop :=
  match c.call with
  | .core (.sesSend _) => (∀ sent ∈ l.accepted, sent.2 ≠ x.token) ∧
      ∀ event ∈ l.world.core.emailEvents, event.messageId ≠ x.token
  | _ => True

/-- When the endpoint looks for the row of a message, it is there. -/
def RowWritten (c : TaskCall) (_ : Choice) (l : Ledger) : Prop :=
  match c.call with
  | .getEventItem messageId => (l.world.event messageId).any (fun event => event.orgId != "") = true
  | _ => True

instance (c : TaskCall) (x : Choice) (l : Ledger) : Decidable (FreshName c x l) :=
  match c with
  | ⟨_, .core (.sesSend _)⟩ => inferInstanceAs (Decidable (_ ∧ _))
  | ⟨_, .core _⟩ | ⟨_, _⟩ => by unfold FreshName; split <;> infer_instance

instance (c : TaskCall) (x : Choice) (l : Ledger) : Decidable (RowWritten c x l) := by
  unfold RowWritten
  split <;> infer_instance

/-! ### What a call does to the ledger -/

/-- The org that a task sends for. -/
def MailTask.org : MailTask → Option String
  | send orgId _ _ _ _ _ _ _ _ => some orgId
  | notify _ => none

/-- The row of a message that SES has accepted is that of the org that sent it, and a message has one
sender. -/
def Attributed (l : Ledger) : Prop :=
  (∀ task messageId, (task, messageId) ∈ l.accepted → ∀ event ∈ l.world.core.emailEvents,
    event.messageId = messageId → task.org = some event.orgId) ∧
  ∀ task task' messageId, (task, messageId) ∈ l.accepted → (task', messageId) ∈ l.accepted →
    task = task'

/-- What is accepted, suppressed and recorded stays so. -/
structure Progress (l l' : Ledger) : Prop where
  accepted : ∀ sent ∈ l.accepted, sent ∈ l'.accepted
  suppression : ∀ key ∈ l.world.core.suppression, key ∈ l'.world.core.suppression
  events : ∀ event ∈ l.world.core.emailEvents, ∃ event' ∈ l'.world.core.emailEvents,
    event'.messageId = event.messageId ∧ event'.orgId = event.orgId
  attributed : Attributed l → Attributed l'

theorem Progress.refl (l : Ledger) : Progress l l :=
  ⟨fun _ h => h, fun _ h => h, fun event h => ⟨event, h, rfl, rfl⟩, id⟩

theorem Progress.trans {l l' l'' : Ledger} (h : Progress l l') (h' : Progress l' l'') :
    Progress l l'' where
  accepted sent hsent := h'.accepted sent (h.accepted sent hsent)
  suppression key hkey := h'.suppression key (h.suppression key hkey)
  events event hevent := by
    obtain ⟨event', hevent', hid', horg'⟩ := h.events event hevent
    obtain ⟨event'', hevent'', hid'', horg''⟩ := h'.events event' hevent'
    exact ⟨event'', hevent'', hid''.trans hid', horg''.trans horg'⟩
  attributed hl := h'.attributed (h.attributed hl)

/-- The call neither hands a message to SES nor records one. -/
def SesCall.Unmailed : SesCall → Prop
  | .core c => c.Preparing
  | _ => True

theorem acceptedAfter_of_unmailed {task : MailTask} {c : SesCall} (hc : c.Unmailed) (x : Choice)
    (accepted : List (MailTask × String)) :
    (TaskCall.mk task c).acceptedAfter x accepted = accepted := by
  cases c with
  | core c =>
    cases c with
    | sesSend => exact hc.elim
    | _ => rfl
  | _ => rfl

/-- The events of two states, message by message. -/
def SameRows (w w' : SesWorld) : Prop :=
  (∀ event ∈ w'.core.emailEvents, ∃ event' ∈ w.core.emailEvents,
    event'.messageId = event.messageId ∧ event'.orgId = event.orgId) ∧
  ∀ event ∈ w.core.emailEvents, ∃ event' ∈ w'.core.emailEvents,
    event'.messageId = event.messageId ∧ event'.orgId = event.orgId

theorem sameRows_of_eq {w w' : SesWorld} (h : w'.core.emailEvents = w.core.emailEvents) :
    SameRows w w' := by
  refine ⟨fun event hevent => ⟨event, ?_, rfl, rfl⟩, fun event hevent => ⟨event, ?_, rfl, rfl⟩⟩
  · rwa [← h]
  · rwa [h]

theorem sameRows_withStatus (w : SesWorld) (messageId status : String) :
    SameRows w (w.withStatus messageId status) := by
  constructor
  · intro event hevent
    obtain ⟨event', hevent', rfl⟩ := List.mem_map.mp hevent
    refine ⟨event', hevent', ?_⟩
    split <;> exact ⟨rfl, rfl⟩
  · intro event hevent
    refine ⟨_, List.mem_map_of_mem hevent, ?_⟩
    split <;> exact ⟨rfl, rfl⟩

/-- Where nothing is accepted and the rows are the same, what is attributed stays so. -/
theorem progress_of_sameRows {l l' : Ledger} (haccepted : l'.accepted = l.accepted)
    (hsuppression : ∀ key ∈ l.world.core.suppression, key ∈ l'.world.core.suppression)
    (hrows : SameRows l.world l'.world) : Progress l l' where
  accepted sent h := by rwa [haccepted]
  suppression := hsuppression
  events := hrows.2
  attributed hl := by
    refine ⟨fun task messageId hsent event hevent hid => ?_, fun task task' messageId h h' => ?_⟩
    · rw [haccepted] at hsent
      obtain ⟨event', hevent', hid', horg'⟩ := hrows.1 event hevent
      rw [hl.1 task messageId hsent event' hevent' (hid'.trans hid), horg']
    · rw [haccepted] at h h'
      exact hl.2 task task' messageId h h'

theorem sameRows_answer {c : SesCall} (hc : c.Unmailed) (x : Choice) (w : SesWorld) :
    SameRows w (c.answer x w).2 ∧
      ∀ key ∈ w.core.suppression, key ∈ (c.answer x w).2.core.suppression := by
  by_cases hquiet : c.Quiet
  · obtain ⟨_, hsuppression, hevents⟩ := untouched_answer hquiet x w
    exact ⟨sameRows_of_eq hevents, fun key hkey => by rwa [hsuppression]⟩
  cases c with
  | core c =>
    show SameRows w { w with core := (c.answer x w.core).2 } ∧
      ∀ key ∈ w.core.suppression, key ∈ (c.answer x w.core).2.suppression
    rcases c.writes_of_answer x w.core with hsame | hwrites
    · rw [hsame]
      exact ⟨sameRows_of_eq rfl, fun _ h => h⟩
    · generalize (c.answer x w.core).2 = core at hwrites ⊢
      cases hwrites with
      | emailEvents => exact hc.elim
      | mails => exact hc.elim
      | _ => exact ⟨sameRows_of_eq rfl, fun _ h => h⟩
  | putSuppressionItem item =>
    rw [SesCall.answer]
    split
    · rw [Fate.settle_error]
      exact ⟨sameRows_of_eq rfl, fun _ h => h⟩
    · cases x.fate with
      | lost e => exact ⟨sameRows_of_eq rfl, fun _ h => h⟩
      | ok | late e => exact ⟨sameRows_of_eq rfl, fun _ h => List.mem_insert_of_mem h⟩
  | updateEventStatus messageId status =>
    rw [SesCall.answer]
    cases w.event messageId with
    | none =>
      dsimp only
      rw [Fate.settle_error]
      exact ⟨sameRows_of_eq rfl, fun _ h => h⟩
    | some event =>
      cases x.fate with
      | lost e => exact ⟨sameRows_of_eq rfl, fun _ h => h⟩
      | ok | late e => exact ⟨sameRows_withStatus w messageId status, fun _ h => h⟩
  | certCacheGet | certCacheSet | httpGet | getEventItem => exact absurd trivial hquiet

/-- A call that is not about a message that is sent. -/
theorem progress_of_unmailed {task : MailTask} {c : SesCall} (hc : c.Unmailed) (x : Choice)
    (l : Ledger) : Progress l ((TaskCall.mk task c).answer x l).2 :=
  progress_of_sameRows (acceptedAfter_of_unmailed hc x l.accepted) (sameRows_answer hc x l.world).2
    (sameRows_answer hc x l.world).1

/-- The setting of a task: SES names each message afresh, and each row is there in time. -/
def mailing : Contract TaskCall TaskCall.Resp PyErr Choice Ledger where
  answer := TaskCall.answer
  rely := Progress
  admits c x l := FreshName c x l ∧ RowWritten c x l
  guar _ _ l l' := Progress l l'
  rely_refl := .refl
  rely_trans h h' := h.trans h'

/-- The setting of the calls to the endpoint's services of one task. -/
def mailingOf (task : MailTask) : Contract SesCall SesCall.Resp PyErr Choice Ledger :=
  mailing.comap (TaskCall.mk task) fun _ r => r

/-- The setting of Core's calls of one task. -/
def mailingCore (task : MailTask) : Contract Call Call.Resp PyErr Choice Ledger :=
  (mailingOf task).comap SesCall.core fun _ r => r

variable {task : MailTask}

theorem answer_mailingOf (c : SesCall) (x : Choice) (l : Ledger) :
    ((mailingOf task).answer c x l).1 = (c.answer x l.world).1 := by
  show ((c.answer x l.world).1.map fun r => r) = _
  cases (c.answer x l.world).1 <;> rfl

theorem answer_mailingCore (c : Call) (x : Choice) (l : Ledger) :
    ((mailingCore task).answer c x l).1 = (c.answer x l.world.core).1 := by
  show (((c.answer x l.world.core).1.map fun r => r).map fun r => r) = _
  cases (c.answer x l.world.core).1 <;> rfl

theorem harmless_core {c : Call} (hc : c.Preparing) (x : Choice) (l : Ledger) :
    (mailingCore task).guar c x l ((mailingCore task).answer c x l).2 ∧
      (mailingCore task).rely l ((mailingCore task).answer c x l).2 :=
  have hc' : (SesCall.core c).Unmailed := hc
  have h : Progress l ((TaskCall.mk task (.core c)).answer x l).2 := progress_of_unmailed hc' x l
  ⟨h, h⟩

theorem harmless_ses {c : SesCall} (hc : c.Unmailed) (x : Choice) (l : Ledger) :
    (mailingOf task).guar c x l ((mailingOf task).answer c x l).2 ∧
      (mailingOf task).rely l ((mailingOf task).answer c x l).2 :=
  have h : Progress l ((TaskCall.mk task c).answer x l).2 := progress_of_unmailed hc x l
  ⟨h, h⟩

theorem reports_preparing : Reports Call.Preparing where
  utcnow := trivial
  uuid4 := trivial
  putAuditItem _ := trivial
  putEvents _ := trivial

/-! ### A send -/

/-- A message that SES accepts under a new name. -/
theorem progress_sesSend {mail : Mail} {x : Choice} {l : Ledger}
    (hfresh : FreshName ⟨task, .core (.sesSend mail)⟩ x l) :
    Progress l ((TaskCall.mk task (.core (.sesSend mail))).answer x l).2 := by
  have hevents : ((TaskCall.mk task (.core (.sesSend mail))).answer x l).2.world.core.emailEvents =
      l.world.core.emailEvents := by
    show ((Call.sesSend mail).answer x l.world.core).2.emailEvents = _
    rw [Call.answer]
    cases x.fate <;> rfl
  have hsuppression : ((TaskCall.mk task (.core (.sesSend mail))).answer x
      l).2.world.core.suppression = l.world.core.suppression := by
    show ((Call.sesSend mail).answer x l.world.core).2.suppression = _
    rw [Call.answer]
    cases x.fate <;> rfl
  have haccepted : ((TaskCall.mk task (.core (.sesSend mail))).answer x l).2.accepted = l.accepted ∨
      ((TaskCall.mk task (.core (.sesSend mail))).answer x l).2.accepted =
        (task, x.token) :: l.accepted := by
    show TaskCall.acceptedAfter _ x l.accepted = _ ∨ TaskCall.acceptedAfter _ x l.accepted = _
    unfold TaskCall.acceptedAfter
    cases x.fate with
    | lost e => exact .inl rfl
    | ok | late e => exact .inr rfl
  rcases haccepted with haccepted | haccepted
  · exact progress_of_sameRows haccepted (fun key hkey => by rwa [hsuppression]) (sameRows_of_eq hevents)
  · refine ⟨fun sent h => ?_, fun key hkey => by rwa [hsuppression],
      fun event hevent => ⟨event, by rwa [hevents], rfl, rfl⟩, fun hl => ⟨?_, ?_⟩⟩
    · rw [haccepted]
      exact List.mem_cons_of_mem _ h
    · intro task' messageId hsent event hevent hid
      rw [haccepted] at hsent
      rw [hevents] at hevent
      rcases List.mem_cons.mp hsent with hnew | hold
      · cases hnew
        exact absurd hid (hfresh.2 event hevent)
      · exact hl.1 task' messageId hold event hevent hid
    · intro task₁ task₂ messageId h₁ h₂
      rw [haccepted] at h₁ h₂
      rcases List.mem_cons.mp h₁ with hnew₁ | hold₁ <;> rcases List.mem_cons.mp h₂ with hnew₂ | hold₂
      · cases hnew₁
        cases hnew₂
        rfl
      · cases hnew₁
        exact absurd rfl (hfresh.1 _ hold₂)
      · cases hnew₂
        exact absurd rfl (hfresh.1 _ hold₁)
      · exact hl.2 task₁ task₂ messageId hold₁ hold₂

/-- The row of a message, written by the task that sent it. -/
theorem progress_putEmailEvent {item : EmailEvent} {x : Choice} {l : Ledger}
    (hsent : (task, item.messageId) ∈ l.accepted) (horg : task.org = some item.orgId) :
    Progress l ((TaskCall.mk task (.core (.putEmailEvent item))).answer x l).2 := by
  have hsuppression : ((TaskCall.mk task (.core (.putEmailEvent item))).answer x
      l).2.world.core.suppression = l.world.core.suppression := by
    show ((Call.putEmailEvent item).answer x l.world.core).2.suppression = _
    rw [Call.answer]
    cases x.fate <;> rfl
  have hevents : ((TaskCall.mk task (.core (.putEmailEvent item))).answer x
      l).2.world.core.emailEvents = l.world.core.emailEvents ∨
      ((TaskCall.mk task (.core (.putEmailEvent item))).answer x l).2.world.core.emailEvents =
        l.world.core.emailEvents ++ [item] := by
    show ((Call.putEmailEvent item).answer x l.world.core).2.emailEvents = _ ∨
      ((Call.putEmailEvent item).answer x l.world.core).2.emailEvents = _
    rw [Call.answer]
    cases x.fate with
    | lost e => exact .inl rfl
    | ok | late e => exact .inr rfl
  rcases hevents with hsame | hwritten
  · exact progress_of_sameRows rfl (fun key hkey => by rwa [hsuppression]) (sameRows_of_eq hsame)
  · refine ⟨fun _ h => h, fun key hkey => by rwa [hsuppression], fun event hevent => ⟨event, ?_, rfl, rfl⟩,
      fun hl => ⟨?_, hl.2⟩⟩
    · rw [hwritten]
      exact List.mem_append_left _ hevent
    · intro task' messageId hsent' event hevent hid
      rw [hwritten] at hevent
      rcases List.mem_append.mp hevent with hold | hnew
      · exact hl.1 task' messageId hsent' event hold hid
      · obtain rfl := List.mem_singleton.mp hnew
        subst hid
        rw [hl.2 task' task _ hsent' hsent, horg]

/-- The two writes that follow the acceptance, by the task that sent the message. -/
theorem wp_recordSent {orgId serviceType recipient subject messageId : String} {metadata : Json}
    (horg : task.org = some orgId) {l : Ledger} (hsent : (task, messageId) ∈ l.accepted) :
    (mailingCore task).wp (recordSent orgId serviceType recipient subject messageId metadata) l
      fun _ _ => True := by
  have hpreparing : ∀ {α : Type} {p : Prog α} {l : Ledger}, p.Calls Call.Preparing →
      (mailingCore task).wp p l fun _ _ => True := fun hp =>
    wp_of_calls (fun _ hc x l _ => harmless_core hc x l) hp (returns_true _) (fun _ _ _ _ => trivial)
      fun _ _ _ => trivial
  refine wp_bind_of_calls (P := Call.Preparing) (fun _ hc x l _ => harmless_core hc x l)
    (Calls.perform trivial) (returns_true _) (fun now l₁ h₁ _ => ?_) fun _ _ _ => trivial
  refine wp_bind (wp_perform fun l₂ h₂ x₂ _ => ⟨?_, ?_⟩)
  · exact progress_putEmailEvent (h₂.accepted _ (h₁.accepted _ hsent)) horg
  · cases ((mailingCore task).answer _ x₂ l₂).1 with
    | error e => trivial
    | ok _ =>
      exact hpreparing ((reports_preparing.calls_logAudit _ _ _ _ _ _).bind fun _ => trivial)

/-- A send keeps the ledger's rows with their senders. -/
theorem wp_sendEmail {orgId serviceType recipient subject bodyHtml : String} {bodyText : Option String}
    {attachments : List Attachment} {replyTo : Option String} {metadata : Json}
    (horg : task.org = some orgId) (l : Ledger) :
    (mailingCore task).wp (sendEmail orgId serviceType recipient subject bodyHtml bodyText attachments
      replyTo metadata) l fun _ _ => True := by
  refine wp_bind_of_calls (fun _ hc x l _ => harmless_core hc x l) (preparing_prepareMail _ _ _ _ _ _ _ _)
    (returns_true _) (fun mail l₁ h₁ _ => ?_) fun _ _ _ => trivial
  refine wp_bind (wp_handle (wp_perform fun l₂ h₂ x ha => ⟨progress_sesSend ha.1, ?_⟩))
  cases hreply : ((mailingCore task).answer (.sesSend mail) x l₂).1 with
  | error e =>
    show (mailingCore task).wp (refused e) _ _
    unfold refused
    split <;> trivial
  | ok messageId =>
    refine wp_recordSent horg ?_
    have hfate : x.fate = .ok ∧ messageId = x.token := by
      rw [answer_mailingCore, Call.answer] at hreply
      cases hfate : x.fate <;> rw [hfate] at hreply <;> cases hreply
      exact ⟨rfl, rfl⟩
    show (task, messageId) ∈ (TaskCall.mk task (.core (.sesSend mail))).acceptedAfter x l₂.accepted
    unfold TaskCall.acceptedAfter
    rw [hfate.1, hfate.2]
    exact List.mem_cons_self

/-! ### A notification -/

section Endpoint

variable (loads : Bytes → Except PyErr Json) (loadsStr : String → Except PyErr Json)
  (pyStr : Json → String) (host : String → Except PyErr String)
  (loadCertificate : String → Except PyErr Certificate) (b64decode : String → Except PyErr Bytes)
  (encode : String → Except PyErr Bytes)

/-- The addresses that the request reports are suppressed for the org of the message's row. -/
def Answered (rawBody : Bytes) (l : Ledger) : Prop :=
  ∀ messageId address, NotifiesOf loads loadsStr rawBody messageId address →
    ∃ event ∈ l.world.core.emailEvents, event.messageId = messageId ∧
      (event.orgId, address) ∈ l.world.core.suppression

variable {loads loadsStr}

theorem Answered.mono {rawBody : Bytes} {l l' : Ledger} (h : Answered loads loadsStr rawBody l)
    (hprogress : Progress l l') : Answered loads loadsStr rawBody l' := by
  intro messageId address hnotifies
  obtain ⟨event, hevent, hid, hsuppressed⟩ := h messageId address hnotifies
  obtain ⟨event', hevent', hid', horg'⟩ := hprogress.events event hevent
  refine ⟨event', hevent', hid'.trans hid, ?_⟩
  rw [horg']
  exact hprogress.suppression _ hsuppressed

/-- A call of the endpoint's services, in the setting of its task. -/
theorem wp_unmailed {α : Type} {p : SesProg α} (hp : p.Calls SesCall.Unmailed) {l : Ledger}
    {Q : Except PyErr α → Ledger → Prop} (h : ∀ r l', Progress l l' → Q r l') :
    (mailingOf task).wp p l Q :=
  wp_of_calls (fun _ hc x l _ => harmless_ses hc x l) hp (returns_true _) (fun a l' hl _ => h (.ok a) l' hl)
    fun e l' hl => h (.error e) l' hl

theorem unmailed_fromCore {α : Type} {p : Prog α} (hp : p.Calls Call.Preparing) :
    (fromCore p).Calls SesCall.Unmailed :=
  Calls.embed (hp.mono fun _ hc => hc)

theorem unmailed_setEventStatus (messageId status : String) :
    (setEventStatus messageId status).Calls SesCall.Unmailed := by
  refine Calls.handle (Calls.perform trivial) fun exc => ?_
  split <;> trivial

/-- An address that is suppressed is in the table. -/
theorem wp_suppress (orgId : String) (email : Json) (reason : String) (bounceType : Option Json)
    (l : Ledger) : (mailingOf task).wp (suppress orgId email reason bounceType) l fun r l' =>
      r = .ok () → ∀ address, email = .str address →
        (orgId, address) ∈ l'.world.core.suppression := by
  have hnow : (Core.run .utcnow).Calls Call.Preparing := Calls.perform trivial
  refine wp_bind (wp_unmailed (unmailed_fromCore hnow) fun now l₁ _ => ?_)
  cases now with
  | error e => rintro ⟨⟩
  | ok now =>
    refine wp_bind (wp_ofExcept.mpr ?_)
    cases hemail : toValue email with
    | error e => rintro ⟨⟩
    | ok value =>
      obtain rfl : email = value := by
        unfold toValue at hemail
        split at hemail <;> cases hemail
        rfl
      refine wp_bind (wp_ofExcept.mpr ?_)
      cases bounceTypeValue bounceType with
      | error e => rintro ⟨⟩
      | ok bounceType =>
        cases email with
        | str address =>
          refine wp_perform fun l₂ _ x _ => ⟨(harmless_ses (c := .putSuppressionItem _) trivial x l₂).1, ?_⟩
          intro hreply address' hsame
          cases hsame
          rw [answer_mailingOf] at hreply
          show _ ∈ (SesCall.answer (.putSuppressionItem _) x l₂.world).2.core.suppression
          rw [SesCall.answer] at hreply ⊢
          split at hreply
          · rw [Fate.settle_error] at hreply
            cases hreply
          · next hne =>
            rw [if_neg hne]
            cases hfate : x.fate <;> rw [hfate] at hreply <;> cases hreply
            exact List.mem_insert_self
        | _ => rintro ⟨⟩

/-- A report that returns has suppressed its address. -/
theorem wp_handleReport (report : Report) (orgId messageId : String) (email : Json) (l : Ledger) :
    (mailingOf task).wp (handleReport report orgId messageId email) l fun r l' =>
      r = .ok () → ∀ address, email = .str address →
        (orgId, address) ∈ l'.world.core.suppression := by
  refine wp_bind (wp_mono (fun r l₁ hsuppressed => ?_) (wp_suppress orgId email _ _ l))
  cases r with
  | error e => exact nofun
  | ok _ =>
    refine wp_unmailed ?_ fun r l₂ h₂ _ address haddress =>
      h₂.suppression _ (hsuppressed rfl address haddress)
    refine Calls.bind (unmailed_setEventStatus _ _) fun _ => ?_
    refine Calls.bind (unmailed_fromCore (reports_preparing.calls_logAudit _ _ _ _ _ _)) fun _ => ?_
    exact Calls.bind (unmailed_fromCore (reports_preparing.calls_publishEvent _ _ _ _)) fun _ => trivial

/-- The loop suppresses every address that it has passed. -/
theorem wp_handleRecipients (report : Report) (orgId messageId : String) (recipients : List Json)
    (l : Ledger) : (mailingOf task).wp (handleRecipients report orgId messageId recipients) l fun r l' =>
      r = .ok () → ∀ recipient ∈ recipients, ∀ address, emailAddress recipient = .ok (.str address) →
        (orgId, address) ∈ l'.world.core.suppression := by
  -- what is left of the list is a suffix; what is before it is suppressed
  refine wp_forEach (fun rest _ l => ∃ before, recipients = before ++ rest ∧ ∀ recipient ∈ before,
    ∀ address, emailAddress recipient = .ok (.str address) →
      (orgId, address) ∈ l.world.core.suppression) ?_ ?_ ⟨[], rfl, nofun⟩
  · rintro _ l' ⟨before, hbefore, hsuppressed⟩ -
    rw [hbefore, List.append_nil]
    exact hsuppressed
  · rintro recipient rest _ l' ⟨before, hbefore, hsuppressed⟩
    refine wp_bind (wp_ofExcept.mpr ?_)
    cases hemail : emailAddress recipient with
    | error e => exact nofun
    | ok email =>
      refine wp_mono ?_ (wp_and_rely (fun _ _ _ _ h => h) (wp_handleReport report orgId messageId email l'))
      rintro r l'' ⟨hthis, hprogress⟩
      cases r with
      | error e => exact nofun
      | ok _ =>
        refine ⟨before ++ [recipient], by rw [hbefore, List.append_assoc]; rfl, ?_⟩
        intro recipient' hmem address haddress
        rcases List.mem_append.mp hmem with hold | hnew
        · exact hprogress.suppression _ (hsuppressed recipient' hold address haddress)
        · obtain rfl := List.mem_singleton.mp hnew
          rw [hemail] at haddress
          exact hthis rfl address (Except.ok.inj haddress)

/-- A notification that is processed has suppressed what it reports, where the row of its message is there
in time. -/
theorem wp_processNotification_suppressed (notification : Json) (l : Ledger) :
    (mailingOf task).wp (processNotification notification) l fun r l' => r = .ok () →
      ∀ read messageId report recipients, readNotification notification = .ok read →
        read.messageId = some (.str messageId) →
          readReport read.fields messageId read.type = .ok (some (report, recipients)) →
            ∃ event ∈ l'.world.core.emailEvents, event.messageId = messageId ∧
              ∀ recipient ∈ recipients, ∀ address, emailAddress recipient = .ok (.str address) →
                (event.orgId, address) ∈ l'.world.core.suppression := by
  refine wp_bind (wp_ofExcept.mpr ?_)
  cases hread : readNotification notification with
  | error e => rintro ⟨⟩
  | ok read =>
    obtain ⟨fields, type, messageId⟩ := read
    cases messageId with
    | none =>
      rintro - read messageId report recipients h hmessage -
      cases h
      cases hmessage
    | some messageId =>
      cases messageId with
      | str messageId =>
        refine wp_bind (wp_perform fun l₁ _ x ha =>
          ⟨(harmless_ses (c := .getEventItem messageId) trivial x l₁).1, ?_⟩)
        obtain ⟨event, hevent, hany⟩ := (Option.any_eq_true _ _).mp (show (l₁.world.event messageId).any
          (fun event => event.orgId != "") = true from ha.2)
        have horg : event.orgId ≠ "" := bne_iff_ne.mp hany
        have hkept : Progress l₁ ((TaskCall.mk task (.getEventItem messageId)).answer x l₁).2 :=
          progress_of_unmailed (c := .getEventItem messageId) trivial x l₁
        have hreply : ∀ found, ((mailingOf task).answer (.getEventItem messageId) x l₁).1 = .ok found →
            found = some event := by
          intro found hfound
          rw [answer_mailingOf, SesCall.answer, hevent] at hfound
          cases hfate : x.fate <;> rw [hfate] at hfound <;> cases hfound
          rfl
        change Progress l₁ ((mailingOf task).answer (.getEventItem messageId) x l₁).2 at hkept
        generalize ((mailingOf task).answer (.getEventItem messageId) x l₁).2 = l₂ at hkept ⊢
        cases hfound : ((mailingOf task).answer (.getEventItem messageId) x l₁).1 with
        | error e => rintro ⟨⟩
        | ok found =>
          obtain rfl := hreply found hfound
          show (mailingOf task).wp (if event.orgId = "" then _ else _) l₂ _
          rw [if_neg horg]
          refine wp_bind (wp_ofExcept.mpr ?_)
          cases hreport : readReport fields messageId type with
          | error e => rintro ⟨⟩
          | ok found =>
            cases found with
            | none =>
              rintro - read messageId' report recipients h hmessage hreported
              cases h
              cases hmessage
              rw [hreport] at hreported
              cases hreported
            | some found =>
              obtain ⟨report, recipients⟩ := found
              refine wp_mono ?_ (wp_and_rely (fun _ _ _ _ h => h)
                (wp_handleRecipients report event.orgId messageId recipients l₂))
              rintro r l₃ ⟨hsuppressed, hprogress⟩ hok read messageId' report' recipients' h hmessage
                hreported
              cases h
              cases hmessage
              rw [hreport] at hreported
              cases hreported
              have hthere : event ∈ l₁.world.core.emailEvents := List.mem_of_find?_eq_some hevent
              obtain ⟨event', hevent', hid', horg'⟩ := (hkept.trans hprogress).events event hthere
              refine ⟨event', hevent', hid'.trans ?_, ?_⟩
              · exact beq_iff_eq.mp (List.find?_some (p := fun e : EmailEvent => e.messageId == messageId) hevent)
              · rw [horg']
                exact hsuppressed hok
      | _ => rintro ⟨⟩

theorem unmailed_readCertificate (url : String) : (readCertificate url).Calls SesCall.Unmailed := by
  refine Calls.bind (Calls.perform trivial) fun found => ?_
  cases found with
  | some pem => trivial
  | none =>
    refine Calls.bind (Calls.handle (Calls.perform trivial) fun exc => ?_) fun pem => ?_
    · split <;> trivial
    · exact Calls.bind (Calls.perform trivial) fun _ => trivial

theorem unmailed_verifySignature (payload : List (String × Json)) :
    (verifySignature pyStr host loadCertificate b64decode encode payload).Calls SesCall.Unmailed := by
  unfold verifySignature
  split
  · split
    · refine Calls.bind (Calls.bind (Calls.ofExcept _) fun trusted => ?_) fun cert => Calls.ofExcept _
      cases trusted with
      | false => trivial
      | true => exact Calls.bind (unmailed_readCertificate _) fun pem => Calls.ofExcept _
    · trivial
  · trivial

theorem unmailed_confirmSubscription (payload : List (String × Json)) :
    (confirmSubscription host payload).Calls SesCall.Unmailed := by
  unfold confirmSubscription
  split
  · trivial
  · refine Calls.bind (Calls.ofExcept _) fun trusted => ?_
    cases trusted with
    | false => trivial
    | true => exact Calls.bind (Calls.perform trivial) fun _ => trivial
  · trivial

/-- A request that is acknowledged has suppressed what it reports. -/
theorem wp_notify (rawBody : Bytes) (l : Ledger) : (mailingOf task).wp
    (sesNotifications loads loadsStr pyStr host loadCertificate b64decode encode rawBody) l fun r l' =>
      r = .ok () → Answered loads loadsStr rawBody l' := by
  refine wp_bind (wp_ofExcept.mpr ?_)
  cases hloads : loads rawBody with
  | error e => exact nofun
  | ok body =>
    cases body with
    | obj payload =>
      -- what the request would have to be, to report an address
      have hpayload : ∀ {l' : Ledger}, (∀ notification messageId read report recipients recipient address,
          payload.lookup "Type" = some (.str "Notification") →
          readMessage loadsStr payload = .ok notification → readNotification notification = .ok read →
          read.messageId = some (.str messageId) →
          readReport read.fields messageId read.type = .ok (some (report, recipients)) →
          recipient ∈ recipients → emailAddress recipient = .ok (.str address) →
            ∃ event ∈ l'.world.core.emailEvents, event.messageId = messageId ∧
              (event.orgId, address) ∈ l'.world.core.suppression) →
          Answered loads loadsStr rawBody l' := by
        rintro l' h messageId address ⟨payload', notification, read, report, recipients, recipient, hbody,
          htype, hmessage, hread, hid, hreport, hmem, haddress⟩
        rw [hloads] at hbody
        cases hbody
        exact h notification messageId read report recipients recipient address htype hmessage hread hid
          hreport hmem haddress
      refine wp_bind (wp_unmailed (Calls.handle
        (unmailed_verifySignature pyStr host loadCertificate b64decode encode payload) fun exc => ?_)
        fun r l₁ _ => ?_)
      · unfold refuse
        split <;> trivial
      cases r with
      | error e => exact nofun
      | ok _ =>
        show (mailingOf task).wp (dispatch loadsStr host payload) l₁ _
        unfold dispatch
        split
        · next htype =>
          refine wp_unmailed (Calls.handle (unmailed_confirmSubscription host payload) fun exc => ?_)
            fun r l' _ _ => hpayload fun _ _ _ _ _ _ _ h => ?_
          · unfold refuse
            split <;> trivial
          · rw [htype] at h
            exact absurd (Json.str.inj (Option.some.inj h)) (by decide)
        · split
          · next e hmessage =>
            split
            · exact fun _ => hpayload fun _ _ _ _ _ _ _ _ h => by rw [hmessage] at h; cases h
            · exact nofun
          · next notification hmessage =>
            refine wp_mono (fun r l' h hok => hpayload ?_) (wp_processNotification_suppressed notification l₁)
            intro notification' messageId read report recipients recipient address _ hsame hread hid
              hreport hmem haddress
            rw [hmessage] at hsame
            cases hsame
            obtain ⟨event, hevent, hid', hsuppressed⟩ :=
              h hok read messageId report recipients hread hid hreport
            exact ⟨event, hevent, hid', hsuppressed recipient hmem address haddress⟩
        · next hother =>
          exact fun _ => hpayload fun _ _ _ _ _ _ _ h => absurd h hother
    | _ => exact nofun

end Endpoint

/-! ### No bounce is lost -/

section Endpoint

variable {loads : Bytes → Except PyErr Json} {loadsStr : String → Except PyErr Json}
  {pyStr : Json → String} {host : String → Except PyErr String}
  {loadCertificate : String → Except PyErr Certificate} {b64decode : String → Except PyErr Bytes}
  {encode : String → Except PyErr Bytes}

/-- What a task has done once it has returned. -/
theorem wp_program (task : MailTask) (l : Ledger) : mailing.wp
    (byTask task (task.program loads loadsStr pyStr host loadCertificate b64decode encode)) l fun r l' =>
      ∀ rawBody, task = .notify rawBody → r = .ok () → Answered loads loadsStr rawBody l' := by
  cases task with
  | send orgId serviceType recipient subject bodyHtml bodyText attachments replyTo metadata =>
    refine wp_comap (wp_bind (wp_comap (wp_mono ?_ (wp_sendEmail rfl l))))
    intro r l' _
    cases r <;> exact nofun
  | notify rawBody =>
    refine wp_comap (wp_mono (fun r l' h rawBody' hsame hok => ?_) (wp_notify pyStr host loadCertificate
      b64decode encode rawBody l))
    cases hsame
    exact h hok

/-- In a run in which SES names each message afresh, and each row is there when the endpoint looks for it,
no bounce is lost. -/
theorem noBounceLost_of_rowWritten {tasks : List MailTask} {w : SesWorld} {schedule : List (ℕ × Choice)}
    (hfresh : Pool.Along TaskCall.answer FreshName
      (mailroom loads loadsStr pyStr host loadCertificate b64decode encode tasks w) schedule)
    (hwritten : Pool.Along TaskCall.answer RowWritten
      (mailroom loads loadsStr pyStr host loadCertificate b64decode encode tasks w) schedule) :
    NoBounceLost loads loadsStr tasks ((mailroom loads loadsStr pyStr host loadCertificate b64decode encode
      tasks w).run TaskCall.answer schedule) := by
  have hstart : ∀ (i : ℕ) p, (mailroom loads loadsStr pyStr host loadCertificate b64decode encode tasks
      w).procs[i]? = some p → mailing.wp p ⟨w, []⟩ fun r l' => ∀ rawBody,
        tasks[i]? = some (.notify rawBody) → r = .ok () → Answered loads loadsStr rawBody l' := by
    intro i p hp
    rw [mailroom, List.getElem?_map] at hp
    obtain ⟨task, htask, rfl⟩ := Option.map_eq_some_iff.mp hp
    refine wp_mono (fun r l' h rawBody hsame => h rawBody ?_) (wp_program task _)
    rw [htask] at hsame
    exact Option.some.inj hsame
  obtain ⟨hguar, hend⟩ := Pool.run_wp_at (K := mailing) (fun _ _ _ _ h => h)
    (fun i r l l' hl h rawBody hnotify hok => (h rawBody hnotify hok).mono hl) hstart
    (hfresh.and hwritten)
  have hattributed : Attributed ((mailroom loads loadsStr pyStr host loadCertificate b64decode encode tasks
      w).run TaskCall.answer schedule).world :=
    Pool.run_invariant (J := Attributed) (hguar.mono fun _ _ _ h => h.attributed) ⟨nofun, nofun⟩
  intro j rawBody messageId orgId serviceType recipient subject bodyHtml bodyText attachments replyTo
    metadata hnotify hreturned haccepted hnotifies
  obtain ⟨event, hevent, hid, hsuppressed⟩ :=
    hend j _ (Pool.getElem?_of_returned hreturned) rawBody hnotify rfl messageId recipient hnotifies
  have horg : some orgId = some event.orgId := hattributed.1 _ _ haccepted event hevent hid
  rw [Option.some.inj horg]
  exact hsuppressed

end Endpoint

/-- The org has sent nothing yet. -/
def quietWorld : SesWorld :=
  { notifiedWorld with core := { notifiedWorld.core with emailEvents := [] } }

/-- A message to kim. -/
def kimsMail : MailTask :=
  .send "org" "invoicing" "kim@example.com" "Invoice" "<p>Hello</p>" none [] none (.obj [])

/-- The org mails kim, and the endpoint is told that the message bounced. -/
def mailsKim : List MailTask := [kimsMail, .notify []]

/-- The message's name, and calls that all go through. -/
def named (turns : List ℕ) : List (ℕ × Choice) := turns.map fun i => (i, .calm "m1")

/-- `httpx.URL(url).host`, of a URL without a port. -/
def hostOf (url : String) : Except PyErr String :=
  .ok (String.ofList ((url.toList.drop 8).takeWhile (· != '/')))

/-- The tasks, where the notification is about the message. -/
def kimsMailroom : Pool TaskCall TaskCall.Resp PyErr Unit Ledger :=
  mailroom (fun _ => .ok (.obj foreignPayload)) (fun _ => .ok foreignBounce) strOfStr hostOf
    (fun _ => .ok snsCertificate) (fun _ => .ok [1]) strictUtf8 mailsKim quietWorld

/-- The notification comes once the row is written. -/
theorem noBounceLost_kim : NoBounceLost (fun _ => .ok (.obj foreignPayload)) (fun _ => .ok foreignBounce)
    mailsKim (kimsMailroom.run TaskCall.answer
      (named (List.replicate 16 0 ++ List.replicate 12 1))) :=
  noBounceLost_of_rowWritten (by decide +kernel) (by decide +kernel)

/-- The notification comes between the acceptance and the row, and is acknowledged. -/
theorem not_noBounceLost : ¬∀ (loads : Bytes → Except PyErr Json) (loadsStr : String → Except PyErr Json)
    (pyStr : Json → String) (host : String → Except PyErr String)
    (loadCertificate : String → Except PyErr Certificate) (b64decode : String → Except PyErr Bytes)
    (encode : String → Except PyErr Bytes) (tasks : List MailTask) (w : SesWorld) (schedule : List (ℕ × Choice)),
    Pool.Along TaskCall.answer FreshName
        (mailroom loads loadsStr pyStr host loadCertificate b64decode encode tasks w) schedule →
      NoBounceLost loads loadsStr tasks ((mailroom loads loadsStr pyStr host loadCertificate b64decode encode
        tasks w).run TaskCall.answer schedule) := by
  intro h
  have hfresh : Pool.Along TaskCall.answer FreshName kimsMailroom
      (named (List.replicate 10 0 ++ List.replicate 5 1 ++ List.replicate 6 0)) := by decide +kernel
  have hkept := h _ _ _ _ _ _ _ mailsKim quietWorld _ hfresh
  have hnotifies : NotifiesOf (fun _ => .ok (.obj foreignPayload)) (fun _ => .ok foreignBounce) []
      "m1" "kim@example.com" :=
    ⟨foreignPayload, foreignBounce, _, _, _, _, rfl, rfl, rfl, rfl, rfl, rfl, List.mem_singleton_self _,
      rfl⟩
  have hreturned : (kimsMailroom.run TaskCall.answer (named (List.replicate 10 0 ++ List.replicate 5 1 ++
      List.replicate 6 0))).returned 1 = some () := by decide +kernel
  have haccepted : (kimsMail, "m1") ∈ (kimsMailroom.run TaskCall.answer (named (List.replicate 10 0 ++
      List.replicate 5 1 ++ List.replicate 6 0))).world.accepted := by
    have hone : (kimsMailroom.run TaskCall.answer (named (List.replicate 10 0 ++ List.replicate 5 1 ++
      List.replicate 6 0))).world.accepted = [(kimsMail, "m1")] := rfl
    rw [hone]
    exact List.mem_singleton_self _
  have hsuppressed := hkept 1 [] "m1" "org" "invoicing" "kim@example.com" "Invoice" "<p>Hello</p>" none []
    none (.obj []) rfl hreturned haccepted hnotifies
  exact absurd hsuppressed (by decide +kernel)

end A2ZCore.Core
