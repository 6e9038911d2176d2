import A2ZCore.Core.Numbers
import A2ZCore.Core.Values
import A2ZCore.Lib.Proc
import Mathlib

/-!
# What Core talks to

The calls that the modules of `app.core` make, and what each of them does: one constructor for
each AWS operation with the parameters Core passes, one for each critical section of the
process-local state (the rate limiter's windows, the caches, the broker), and one for each clock
or generator that is read.

Every remote call has a `Fate`. It may succeed, it may fail without effect, and it may take effect
and still be reported as failed, which is what a lost response looks like to the caller.

## Main definitions

* `Fate`, `Choice` — what the environment decides at a call
* `World` — the state of the remote services, and of the process
* `Call`, `Call.Resp`, `Call.answer` — the calls and their effect

## Main results

* `Call.writes_of_answer` — a call changes nothing but the one thing it is about
-/

namespace A2ZCore.Core

open Interaction

/-! ### The environment's decisions -/

/-- How a remote call ends. -/
inductive Fate where
  /-- It takes effect and the reply arrives. -/
  | ok
  /-- It has no effect and fails with `e`. -/
  | lost (e : PyErr)
  /-- It takes effect, but the caller sees `e`. -/
  | late (e : PyErr)
  deriving DecidableEq, Repr

/-- What a call with the given effect returns to the caller, and the state it leaves. -/
def Fate.settle {α W : Type} (fate : Fate) (effect : Except PyErr (α × W)) (w : W) :
    Except PyErr α × W :=
  match fate, effect with
  | .lost e, _ => (.error e, w)
  | .ok, .error e => (.error e, w)
  | .ok, .ok (a, w') => (.ok a, w')
  | .late e, .error _ => (.error e, w)
  | .late e, .ok (_, w') => (.error e, w')

/-- The error that a call is reported with which would fail by itself. -/
def Fate.reported (fate : Fate) (e : PyErr) : PyErr :=
  match fate with
  | .ok => e
  | .lost e' | .late e' => e'

section Settle

variable {α β W : Type} (fate : Fate) (effect : Except PyErr (α × W)) (w : W)

@[simp] theorem Fate.settle_error (e : PyErr) :
    fate.settle (.error e : Except PyErr (α × W)) w = (.error (fate.reported e), w) := by
  cases fate <;> rfl

/-- A remote call has no effect and fails, or takes effect, reported or not. -/
theorem Fate.settle_cases :
    (∃ e, fate.settle effect w = (.error e, w)) ∨
      ∃ a w', effect = .ok (a, w') ∧
        (fate.settle effect w = (.ok a, w') ∨ ∃ e, fate.settle effect w = (.error e, w')) := by
  cases fate with
  | lost e => exact .inl ⟨e, rfl⟩
  | ok =>
    cases effect with
    | error e => exact .inl ⟨e, rfl⟩
    | ok r => exact .inr ⟨r.1, r.2, rfl, .inl rfl⟩
  | late e =>
    cases effect with
    | error _ => exact .inl ⟨e, rfl⟩
    | ok r => exact .inr ⟨r.1, r.2, rfl, .inr ⟨e, rfl⟩⟩

/-- What the effect leaves alone, the call leaves alone. -/
theorem Fate.settle_frame (f : W → β) (h : ∀ a w', effect = .ok (a, w') → f w' = f w) :
    f (fate.settle effect w).2 = f w := by
  rcases fate.settle_cases effect w with ⟨e, he⟩ | ⟨a, w', heff, he | ⟨e, he⟩⟩
  · rw [he]
  · rw [he]; exact h a w' heff
  · rw [he]; exact h a w' heff

end Settle

/-- What the environment decides at one call: its fate, and the values the call may read from
outside the program. -/
structure Choice where
  fate : Fate
  /-- A freshly generated identifier. -/
  token : String
  now : DateTime
  /-- `time.monotonic()`, in seconds. -/
  monotonic : ℚ
  /-- EventBridge's `ErrorCode` and `ErrorMessage`, when it rejects an entry. -/
  rejected : Option (String × String)

/-! ### The state -/

/-- `membership.Role`. -/
inductive Role where
  | owner
  | admin
  | member
  | guest
  deriving DecidableEq, Repr

/-- `membership.Membership`. -/
structure Membership where
  userId : String
  orgId : String
  role : Role
  joinedAt : DateTime
  deriving DecidableEq, Repr

/-- `audit.AuditEvent`, as the item that is written. -/
structure AuditEvent where
  eventId : String
  orgId : String
  timestamp : String
  actorId : String
  action : String
  resourceType : String
  resourceId : String
  metadata : Json

/-- An entry on the EventBridge bus. -/
structure Event where
  source : String
  detailType : String
  detail : Json

/-- An item of the `files` table. -/
structure FileItem where
  orgId : String
  key : String
  filename : String
  sizeBytes : ℕ
  mimeType : String
  uploadedAt : String
  uploadedBy : String
  serviceType : String
  isDeleted : Bool
  deriving DecidableEq, Repr

/-- An S3 object. -/
structure S3Object where
  key : String
  body : Bytes
  contentType : String
  deriving DecidableEq, Repr

/-- An attachment of an email. -/
structure Attachment where
  content : Bytes
  filename : String
  mimeType : String
  deriving DecidableEq, Repr

/-- A message handed to SES. With attachments it goes out as one raw MIME message, whose
`Reply-To` is a header; without, as its parts. -/
structure Mail where
  source : String
  /-- `to` -/
  recipient : String
  subject : String
  bodyHtml : String
  bodyText : String
  replyTo : String
  configSet : String
  attachments : List Attachment
  deriving DecidableEq, Repr

/-- An item of the `email_events` table. -/
structure EmailEvent where
  messageId : String
  orgId : String
  timestamp : String
  /-- `to` -/
  recipient : String
  serviceType : String
  status : String
  subject : String
  metadata : Json

/-- The parts of `config.Settings` that Core reads. -/
structure AppConfig where
  isProd : Bool
  sesNotificationsTopicArn : Option String
  deriving DecidableEq, Repr

/-- The remote services' state and the process's own. -/
structure World where
  config : AppConfig
  /-- Membership items by user and org. -/
  memberships : String → String → Option Membership
  /-- Settings items by org, without the key attribute. -/
  settings : String → Option (List (String × Json))
  audit : List AuditEvent
  files : List FileItem
  emailEvents : List EmailEvent
  /-- Suppressed addresses by org. -/
  suppression : List (String × String)
  objects : List S3Object
  events : List Event
  configurationSets : List String
  /-- Configuration sets with the bounce and complaint destination, and its topic. -/
  eventDestinations : List (String × String)
  /-- The messages SES has accepted. -/
  mails : List Mail
  /-- Secrets Manager, by secret name. -/
  secrets : String → Option Json
  /-- `rate_limit._windows`. -/
  windows : String × String → List ℚ
  /-- `email._config_sets_confirmed`. -/
  configSetsConfirmed : List String
  /-- `secrets._cache`: expiry and value. -/
  secretCache : String → Option (ℚ × Json)
  /-- Everything handed to the realtime broker: channel key and message. -/
  updates : List (String × Json)

/-! ### The calls -/

/-- The calls of `app.core`. -/
inductive Call where
  | utcnow
  | uuid4
  | appSettings
  -- DynamoDB
  | getMembershipItem (userId orgId : String)
  | getSettingsItem (orgId : String)
  | addInvoiceNumber (orgId : String)
  | putAuditItem (event : AuditEvent)
  | putFileItem (item : FileItem)
  | getSuppressionItem (orgId email : String)
  | putEmailEvent (item : EmailEvent)
  -- S3, EventBridge, SES, Secrets Manager
  | putObject (object : S3Object)
  | generatePresignedUrl (key : String) (expiresIn : ℕ)
  | putEvents (entry : Event)
  | createConfigurationSet (name : String)
  | createEventDestination (name topicArn : String)
  | verifyDomainIdentity (domain : String)
  | sesSend (mail : Mail)
  | getSecretValue (name : String)
  -- the process
  | slideWindow (key : String × String) (limit windowSeconds : ℕ)
  | isConfigSetConfirmed (name : String)
  | confirmConfigSet (name : String)
  | secretCacheGet (key : String)
  | secretCacheSet (key : String) (value : Json) (ttlSeconds : ℕ)
  | brokerPublish (key : String) (message : Json)

/-- What a call replies. -/
def Call.Resp : Call → Type
  | utcnow => DateTime
  | uuid4 => String
  | appSettings => AppConfig
  | getMembershipItem _ _ => Option Membership
  | getSettingsItem _ => Option (List (String × Json))
  | addInvoiceNumber _ => Json
  | putAuditItem _ => Unit
  | putFileItem _ => Unit
  | getSuppressionItem _ _ => Bool
  | putEmailEvent _ => Unit
  | putObject _ => Unit
  | generatePresignedUrl _ _ => String
  | putEvents _ => Except (String × String) String
  | createConfigurationSet _ => Unit
  | createEventDestination _ _ => Unit
  | verifyDomainIdentity _ => Unit
  | sesSend _ => String
  | getSecretValue _ => Json
  | slideWindow _ _ _ => Option ℤ
  | isConfigSetConfirmed _ => Bool
  | confirmConfigSet _ => Unit
  | secretCacheGet _ => Option Json
  | secretCacheSet _ _ _ => Unit
  | brokerPublish _ _ => Unit

/-- DynamoDB's `ADD next_invoice_number :one`: the new value, and the item with it. -/
def addOne (item : List (String × Json)) : Except PyErr (Json × List (String × Json)) :=
  match item.lookup "next_invoice_number" with
  | none => .ok (.int 1, Json.set "next_invoice_number" (.int 1) item)
  | some value => (plusOne value).map fun sum => (sum, Json.set "next_invoice_number" sum item)

/-- The critical section of `rate_limit.check_and_increment`: the seconds to wait when the limit
is reached, and the timestamps that are kept. -/
def slideWindow (limit windowSeconds : ℕ) (now : ℚ) (dq : List ℚ) :
    Except PyErr (Option ℤ × List ℚ) :=
  let kept := dq.dropWhile fun t => t ≤ now - windowSeconds
  if limit ≤ kept.length then
    match kept with
    | [] => .error ⟨.exception "IndexError", "deque index out of range"⟩
    | t :: _ => .ok (some (max 1 (t + windowSeconds - now).ceil), kept)
  else .ok (none, kept ++ [now])

/-- The reply to a call and the state it leaves. The process's own state cannot fail. -/
def Call.answer (c : Call) (x : Choice) (w : World) : Except PyErr c.Resp × World :=
  match c with
  | .utcnow => (.ok x.now, w)
  | .uuid4 => (.ok x.token, w)
  | .appSettings => (.ok w.config, w)
  | .getMembershipItem userId orgId => x.fate.settle (.ok (w.memberships userId orgId, w)) w
  | .getSettingsItem orgId => x.fate.settle (.ok (w.settings orgId, w)) w
  | .addInvoiceNumber orgId =>
    x.fate.settle ((addOne ((w.settings orgId).getD [])).map fun r =>
      (r.1, { w with settings := Function.update w.settings orgId (some r.2) })) w
  | .putAuditItem event => x.fate.settle (.ok ((), { w with audit := w.audit ++ [event] })) w
  | .putFileItem item => x.fate.settle (.ok ((), { w with files := w.files ++ [item] })) w
  | .getSuppressionItem orgId email =>
    x.fate.settle (.ok (w.suppression.contains (orgId, email), w)) w
  | .putEmailEvent item =>
    x.fate.settle (.ok ((), { w with emailEvents := w.emailEvents ++ [item] })) w
  | .putObject object =>
    x.fate.settle (.ok ((), { w with objects := w.objects ++ [object] })) w
  | .generatePresignedUrl _ _ => (.ok x.token, w)
  | .putEvents entry =>
    match x.rejected with
    | some rejection => x.fate.settle (.ok (.error rejection, w)) w
    | none => x.fate.settle (.ok (.ok x.token, { w with events := w.events ++ [entry] })) w
  | .createConfigurationSet name =>
    x.fate.settle (if name ∈ w.configurationSets then
        .error ⟨.clientError "ConfigurationSetAlreadyExists", "Configuration set exists"⟩
      else .ok ((), { w with configurationSets := w.configurationSets ++ [name] })) w
  | .createEventDestination name topicArn =>
    x.fate.settle (if name ∉ w.configurationSets then
        .error ⟨.clientError "ConfigurationSetDoesNotExist", "Configuration set is missing"⟩
      else if name ∈ w.eventDestinations.map Prod.fst then
        .error ⟨.clientError "EventDestinationAlreadyExists", "Event destination exists"⟩
      else .ok ((), { w with eventDestinations := w.eventDestinations ++ [(name, topicArn)] })) w
  | .verifyDomainIdentity _ => x.fate.settle (.ok ((), w)) w
  | .sesSend mail => x.fate.settle (.ok (x.token, { w with mails := w.mails ++ [mail] })) w
  | .getSecretValue name =>
    x.fate.settle (match w.secrets name with
      | some value => .ok (value, w)
      | none => .error ⟨.clientError "ResourceNotFoundException", "Secret is missing"⟩) w
  | .slideWindow key limit windowSeconds =>
    match A2ZCore.Core.slideWindow limit windowSeconds x.monotonic (w.windows key) with
    | .ok (retry, dq) => (.ok retry, { w with windows := Function.update w.windows key dq })
    | .error e => (.error e, w)
  | .isConfigSetConfirmed name => (.ok (w.configSetsConfirmed.contains name), w)
  | .confirmConfigSet name =>
    (.ok (), { w with configSetsConfirmed := w.configSetsConfirmed.insert name })
  | .secretCacheGet key =>
    match w.secretCache key with
    | none => (.ok none, w)
    | some (expiresAt, value) =>
      if expiresAt ≤ x.monotonic then
        (.ok none, { w with secretCache := Function.update w.secretCache key none })
      else (.ok (some value), w)
  | .secretCacheSet key value ttlSeconds =>
    (.ok (), { w with
      secretCache := Function.update w.secretCache key (some (x.monotonic + ttlSeconds, value)) })
  | .brokerPublish key message => (.ok (), { w with updates := w.updates ++ [(key, message)] })

/-- What a call that changes the state changes. -/
inductive Call.Writes (w : World) : Call → World → Prop where
  | settings (orgId : String) (item : Option (List (String × Json))) :
    Writes w (.addInvoiceNumber orgId)
      { w with settings := Function.update w.settings orgId item }
  | audit (event : AuditEvent) :
    Writes w (.putAuditItem event) { w with audit := w.audit ++ [event] }
  | files (item : FileItem) : Writes w (.putFileItem item) { w with files := w.files ++ [item] }
  | emailEvents (item : EmailEvent) :
    Writes w (.putEmailEvent item) { w with emailEvents := w.emailEvents ++ [item] }
  | objects (object : S3Object) :
    Writes w (.putObject object) { w with objects := w.objects ++ [object] }
  | events (entry : Event) : Writes w (.putEvents entry) { w with events := w.events ++ [entry] }
  | configurationSets (name : String) :
    Writes w (.createConfigurationSet name)
      { w with configurationSets := w.configurationSets ++ [name] }
  | eventDestinations (name topicArn : String) :
    Writes w (.createEventDestination name topicArn)
      { w with eventDestinations := w.eventDestinations ++ [(name, topicArn)] }
  | mails (mail : Mail) : Writes w (.sesSend mail) { w with mails := w.mails ++ [mail] }
  | windows (key : String × String) (limit windowSeconds : ℕ) (dq : List ℚ) :
    Writes w (.slideWindow key limit windowSeconds)
      { w with windows := Function.update w.windows key dq }
  | configSetsConfirmed (name : String) :
    Writes w (.confirmConfigSet name)
      { w with configSetsConfirmed := w.configSetsConfirmed.insert name }
  | secretCacheGet (key : String) :
    Writes w (.secretCacheGet key)
      { w with secretCache := Function.update w.secretCache key none }
  | secretCacheSet (key : String) (value : Json) (ttlSeconds : ℕ) (entry : ℚ × Json) :
    Writes w (.secretCacheSet key value ttlSeconds)
      { w with secretCache := Function.update w.secretCache key (some entry) }
  | updates (key : String) (message : Json) :
    Writes w (.brokerPublish key message) { w with updates := w.updates ++ [(key, message)] }

/-- A call leaves the state as it was, or changes the one thing it is about. -/
theorem Call.writes_of_answer (c : Call) (x : Choice) (w : World) :
    (c.answer x w).2 = w ∨ c.Writes w (c.answer x w).2 := by
  have hsettle : ∀ {α : Type} (effect : Except PyErr (α × World)),
      (∀ a w', effect = .ok (a, w') → w' = w ∨ c.Writes w w') →
        (x.fate.settle effect w).2 = w ∨ c.Writes w (x.fate.settle effect w).2 := by
    intro α effect h
    rcases x.fate.settle_cases effect w with ⟨e, he⟩ | ⟨a, w', heff, he | ⟨e, he⟩⟩
    · exact .inl (congrArg Prod.snd he)
    · rw [he]; exact h a w' heff
    · rw [he]; exact h a w' heff
  cases c with
  | utcnow | uuid4 | appSettings | generatePresignedUrl | isConfigSetConfirmed => exact .inl rfl
  | confirmConfigSet | secretCacheSet | brokerPublish => exact .inr (by constructor)
  | secretCacheGet key =>
    simp only [answer]
    split
    · exact .inl rfl
    · split
      · exact .inr (.secretCacheGet key)
      · exact .inl rfl
  | slideWindow key limit windowSeconds =>
    simp only [answer]
    split
    · exact .inr (.windows key limit windowSeconds _)
    · exact .inl rfl
  | putEvents entry =>
    simp only [answer]
    split
    · exact hsettle _ fun a w' h => by cases h; exact .inl rfl
    · exact hsettle _ fun a w' h => by cases h; exact .inr (.events entry)
  | addInvoiceNumber orgId =>
    refine hsettle _ fun a w' h => ?_
    cases hadd : addOne ((w.settings orgId).getD []) with
    | error e => rw [hadd] at h; cases h
    | ok r => rw [hadd] at h; cases h; exact .inr (.settings orgId _)
  | createConfigurationSet name | createEventDestination name topicArn =>
    refine hsettle _ fun a w' h => .inr ?_
    split_ifs at h
    cases h
    constructor
  | getSecretValue name =>
    refine hsettle _ fun a w' h => ?_
    split at h <;> cases h
    exact .inl rfl
  | getMembershipItem | getSettingsItem | getSuppressionItem | verifyDomainIdentity =>
    exact hsettle _ fun a w' h => by cases h; exact .inl rfl
  | putAuditItem | putFileItem | putEmailEvent | putObject | sesSend =>
    exact hsettle _ fun a w' h => by cases h; exact .inr (by constructor)

/-- No call changes a membership. -/
theorem memberships_answer (c : Call) (x : Choice) (w : World) :
    (c.answer x w).2.memberships = w.memberships := by
  rcases c.writes_of_answer x w with h | h
  · rw [h]
  · generalize (c.answer x w).2 = w' at h ⊢
    cases h <;> rfl

/-! ### A deployment in working order -/

/-- Remote services that hold nothing but memberships: every user owns every org. -/
def World.initial : World where
  config := ⟨true, none⟩
  memberships userId orgId := some ⟨userId, orgId, .owner, ⟨⟨2026, 1, 1⟩, 0, 0, 0, 0⟩⟩
  settings _ := none
  audit := []
  files := []
  emailEvents := []
  suppression := []
  objects := []
  events := []
  configurationSets := []
  eventDestinations := []
  mails := []
  secrets _ := none
  windows _ := []
  configSetsConfirmed := []
  secretCache _ := none
  updates := []

/-- A call that goes through. -/
def Choice.calm (token : String) : Choice where
  fate := .ok
  token := token
  now := ⟨⟨2026, 1, 1⟩, 0, 0, 0, 0⟩
  monotonic := 0
  rejected := none

end A2ZCore.Core
