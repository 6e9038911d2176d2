import A2ZCore.Omnichannel.Publishing

/-!
# Channel connections

`connections.create_connection`: an admin registers a channel of the org, with credentials that are
written to Secrets Manager, with a secret that is there already, or, for email, with a domain whose
verification is started. What is written is whatever was submitted: nothing reads it before a webhook
does.

## Main definitions

* `ConnectionCall`, `ConnectionCall.answer` — the calls of connections and webhooks
* `WebhookAdapter`, `webhookAdapters` — what an adapter says about credentials and signatures
* `putSecret`, `startDomainVerification`, `createConnection`

## Main results

* `isActive_of_createConnection` — a connection that is created is active, on a channel with an adapter
* `stored_of_createConnection` — credentials that are submitted are stored, whatever they are
-/

namespace A2ZCore.Omnichannel

open Interaction Interaction.Proc Interaction.Contract A2ZCore.Core

/-! ### The calls -/

/-- The calls of connections and webhooks, beyond those of the rest of the system. -/
inductive ConnectionCall where
  | system (c : SystemCall)
  -- Secrets Manager, and the cache in front of it
  | putSecretValue (name : String) (value : Json)
  | createSecret (name : String) (value : Json)
  | secretCacheDelete (key : String)
  -- SES
  | verifyDomainIdentity (domain : String)
  | verifyDomainDkim (domain : String)
  -- the session
  | selectConnection (id : String)
  | insertConnection (connection : ChannelConnection)
  | commitStatus (id status : String)
  | selectOrg (channelType providerAccountId : String)

/-- What a call replies. -/
def ConnectionCall.Resp : ConnectionCall → Type
  | system c => c.Resp
  | putSecretValue _ _ => Unit
  | createSecret _ _ => Unit
  | secretCacheDelete _ => Unit
  | verifyDomainIdentity _ => String
  | verifyDomainDkim _ => List String
  | selectConnection _ => Option ChannelConnection
  | insertConnection _ => Unit
  | commitStatus _ _ => Unit
  | selectOrg _ _ => Option String

/-- What the environment decides at a call: beyond the rest, SES's DKIM tokens. -/
structure ConnectionChoice extends toService : Choice where
  dkimTokens : List String

/-- The state with another secret. -/
def World.withSecret (w : World) (name : String) (value : Json) : World :=
  { w with core := { w.core with secrets := Function.update w.core.secrets name (some value) } }

/-- The connection with an id. -/
def Db.connection (db : Db) (id : String) : Option ChannelConnection :=
  db.connections.rows.find? fun c => c.id == id

/-- The reply to a call and the state it leaves. -/
def ConnectionCall.answer (c : ConnectionCall) (x : ConnectionChoice) (w : World) :
    Except PyErr c.Resp × World :=
  match c with
  | .system c => c.answer x.toService w
  | .putSecretValue name value =>
    x.fate.settle (match w.core.secrets name with
      | some _ => .ok ((), w.withSecret name value)
      | none => .error ⟨.clientError "ResourceNotFoundException", "Secret is missing"⟩) w
  | .createSecret name value =>
    x.fate.settle (match w.core.secrets name with
      | some _ => .error ⟨.clientError "ResourceExistsException", "Secret exists"⟩
      | none => .ok ((), w.withSecret name value)) w
  | .secretCacheDelete key =>
    (.ok (), { w with core := { w.core with
      secretCache := Function.update w.core.secretCache key none } })
  | .verifyDomainIdentity _ => x.fate.settle (.ok (x.token, w)) w
  | .verifyDomainDkim _ => x.fate.settle (.ok (x.dkimTokens, w)) w
  | .selectConnection id => x.fate.query (.ok (w.db.connection id)) w
  | .insertConnection connection =>
    x.fate.transact (w.db.connections.insert { connection with createdAt := x.now })
      (fun t => { w with db := { w.db with connections := t } }) w
  | .commitStatus id status =>
    x.fate.transact (w.db.connections.modify fun row => if row.id = id then { row with status } else row)
      (fun t => { w with db := { w.db with connections := t } }) w
  | .selectOrg channelType providerAccountId =>
    x.fate.query (scalarOneOrNone ((w.db.connections.rows.filter fun c =>
      c.channelType == channelType && c.providerAccountId == providerAccountId).map (·.orgId))) w

/-- A program of connections and webhooks. -/
abbrev ConnectionProg := Proc ConnectionCall ConnectionCall.Resp PyErr

/-- One call. -/
def connectionRun (c : ConnectionCall) : ConnectionProg c.Resp := Proc.perform c

/-- A program of the rest of the system. -/
def elsewhere {α : Type} (p : SystemProg α) : ConnectionProg α :=
  p.embed ConnectionCall.system fun _ r => r

/-- A call of Core, among the calls of connections and webhooks. -/
def answerCore (c : Core.Call) (x : ConnectionChoice) (w : World) : Except PyErr c.Resp × World :=
  ((c.answer x.toChoice w.core).1, { w with core := (c.answer x.toChoice w.core).2 })

/-- A call of the service, among the calls of connections and webhooks. -/
def answerService (c : Call) (x : ConnectionChoice) (w : World) : Except PyErr c.Resp × World :=
  c.answer x.toService w

theorem map_id' {β : Type} (r : Except PyErr β) : r.map (fun b => b) = r := by
  cases r <;> rfl

/-- A program of the service runs as it does alone. -/
theorem exec_service {α : Type} (p : Prog α) (o : Oracle ConnectionChoice) (w : World) :
    exec ConnectionCall.answer (elsewhere (service p)) o w = exec answerService p o w := by
  have hsystem : ∀ (c : SystemCall) x w, c.answer (ConnectionChoice.toService x) w =
      ((ConnectionCall.answer (.system c) x w).1.map (fun r => r),
        (ConnectionCall.answer (.system c) x w).2) := fun c x w => by rw [map_id']; rfl
  have hservice : ∀ (c : Call) x w, answerService c x w =
      ((SystemCall.answer (.service c) x.toService w).1.map (fun r => r),
        (SystemCall.answer (.service c) x.toService w).2) := fun c x w => by rw [map_id']; rfl
  exact (exec_embed hsystem _ o w).trans (exec_embed hservice p o w)

/-- A program of Core's runs on Core's part of the state. -/
theorem exec_core {α : Type} (p : Core.Prog α) (o : Oracle ConnectionChoice) (w : World) :
    exec ConnectionCall.answer (elsewhere (service (core p))) o w = exec answerCore p o w := by
  have hcore : ∀ (c : Core.Call) x w, answerCore c x w =
      ((answerService (.core c) x w).1.map (fun r => r), (answerService (.core c) x w).2) :=
    fun c x w => by rw [map_id']; rfl
  exact (exec_service _ o w).trans (exec_embed hcore p o w)

/-! ### What an adapter says about signatures -/

/-- `base.ChannelAdapter`, as far as connections and webhooks use it. -/
structure WebhookAdapter where
  /-- `supported_features.requires_credentials` -/
  requiresCredentials : Bool
  signingSecretKey : String
  verifyInboundSignature : Bytes → List (String × String) → Json → Except PyErr Bool

/-- `_get_header`. -/
def getHeader (headers : List (String × String)) (name : String) : Option String :=
  (headers.find? fun h => h.1.toLower == name.toLower).map Prod.snd

/-- `mac.hexdigest()`. -/
def hexdigest (digest : Bytes) : String :=
  String.ofList (digest.flatMap fun b =>
    [Nat.digitChar (b.toNat / 16), Nat.digitChar (b.toNat % 16)])

/-- The characters are ASCII. -/
def isAscii (s : String) : Bool := s.toList.all fun c => c.toNat < 128

/-- `hmac.compare_digest` of two strings. -/
def compareDigest (a b : String) : Except PyErr Bool :=
  if isAscii a && isAscii b then .ok (a == b)
  else .error ⟨.typeError, "comparing strings with non-ASCII characters is not supported"⟩

/-- `s.encode("utf-8")`. -/
def encodeUtf8 (s : String) : Bytes := s.toUTF8.data.toList

section Adapters

-- `hmac.new(key.encode("utf-8"), msg, hashlib.sha256).digest()`, of a key without lone surrogates
variable (hmacSha256 : String → Bytes → Except PyErr Bytes)

/-- What `_compute_signature` makes of a secret that is a string. -/
def signature (rawBody : Bytes) (secret : String) : Except PyErr String :=
  (hmacSha256 secret rawBody).map fun digest => "sha256=" ++ hexdigest digest

/-- `_compute_signature`. -/
def computeSignature (rawBody : Bytes) : Json → Except PyErr String
  | .str secret => signature hmacSha256 rawBody secret
  | _ => .error ⟨.attributeError, "object has no attribute 'encode'"⟩

/-- `MetaGraphAdapter.verify_inbound_signature`. -/
def verifyMetaSignature (rawBody : Bytes) (headers : List (String × String)) (secret : Json) :
    Except PyErr Bool :=
  match getHeader headers "X-Hub-Signature-256" with
  | none | some "" => .ok false
  | some received => do compareDigest received (← computeSignature hmacSha256 rawBody secret)

/-- `MetaGraphAdapter`, and its leaves. -/
def metaGraphAdapter : WebhookAdapter := ⟨true, "app_secret", verifyMetaSignature hmacSha256⟩

/-- `EmailAdapter`. -/
def emailAdapter : WebhookAdapter := ⟨false, "", fun _ _ _ => .ok true⟩

/-- `registry._REGISTRY`. -/
def webhookAdapters (channelType : String) : Option WebhookAdapter :=
  if channelType = "email" then some emailAdapter
  else if channelType ∈ ["whatsapp", "messenger", "instagram"] then some (metaGraphAdapter hmacSha256)
  else none

/-- `get_adapter`. -/
def getWebhookAdapter (channelType : String) : Except PyErr WebhookAdapter :=
  match webhookAdapters hmacSha256 channelType with
  | some adapter => .ok adapter
  | none =>
    .error ⟨.channelAdapterError, "No adapter registered for channel_type=" ++ pyRepr channelType⟩

end Adapters

/-! ### `secrets.put_secret` -/

/-- The writes of `put_secret`: an update, or a creation where there is nothing to update. -/
def writeSecret (name : String) (value : Json) : ConnectionProg Unit := do
  try connectionRun (.putSecretValue name value)
  catch exc => match exc.cls with
    | .clientError "ResourceNotFoundException" =>
      try connectionRun (.createSecret name value)
      catch createExc => match createExc.cls with
        | .clientError _ => .raise ⟨.exception "SecretsError",
            "Failed to create secret at " ++ name ++ ": " ++ createExc.text⟩
        | _ => throw createExc
    | .clientError _ => .raise ⟨.exception "SecretsError",
        "Failed to write secret at " ++ name ++ ": " ++ exc.text⟩
    | _ => throw exc

/-- `put_secret`. -/
def putSecret (orgId serviceType key : String) (value : Json) : ConnectionProg Unit := do
  writeSecret (secretName orgId serviceType key) value
  connectionRun (.secretCacheDelete (secretCacheKey orgId serviceType key))

/-! ### `email.start_domain_verification` -/

/-- `[a-zA-Z0-9]`. -/
def isAlphanumeric (c : Char) : Bool := c.isAlphanum

/-- One label of a domain, as `_DOMAIN_RE` has it. -/
def isLabel (cs : List Char) : Bool :=
  cs.length ≤ 63 && cs.head?.any isAlphanumeric && cs.getLast?.any isAlphanumeric &&
    cs.all fun c => isAlphanumeric c || c == '-'

/-- The labels of a domain. -/
def isDomain (cs : List Char) : Bool :=
  let labels := cs.splitOn '.'
  2 ≤ labels.length && labels.all isLabel

/-- `_DOMAIN_RE.match(domain)`: the pattern's `$` also matches before a final line feed. -/
def matchesDomain (domain : String) : Bool :=
  let cs := domain.toList
  isDomain cs || (cs.getLast? == some '\n' && isDomain cs.dropLast)

/-- `DkimRecord`. -/
structure DkimRecord where
  name : String
  value : String
  deriving DecidableEq, Repr

/-- `DomainVerificationRecords`. -/
structure DomainVerificationRecords where
  domain : String
  verificationTxtName : String
  verificationTxtValue : String
  dkimCnameRecords : List DkimRecord
  deriving DecidableEq, Repr

/-- The calls of `start_domain_verification` to SES: the verification token, and the DKIM tokens. -/
def verifyDomain (domain : String) : ConnectionProg (String × List String) := do
  let token : String ← connectionRun (.verifyDomainIdentity domain)
  let dkimTokens : List String ← connectionRun (.verifyDomainDkim domain)
  return (token, dkimTokens)

/-- `start_domain_verification`. -/
def startDomainVerification (orgId domain changedBy : String) :
    ConnectionProg DomainVerificationRecords := do
  if !matchesDomain domain then
    .raise ⟨.invalidAddressError, "Invalid domain: " ++ pyRepr domain⟩
  else
    let tokens ← try verifyDomain domain
      catch exc => match exc.cls with
        | .clientError _ => .raise ⟨.emailError, "Failed to start domain verification for " ++
            pyRepr domain ++ ": " ++ exc.text⟩
        | _ => throw exc
    let _ ← elsewhere (admin (setOrgSettings orgId [("domain", .str domain)] changedBy))
    return {
      domain
      verificationTxtName := "_amazonses." ++ domain
      verificationTxtValue := tokens.1
      dkimCnameRecords := tokens.2.map fun token =>
        ⟨token ++ "._domainkey." ++ domain, token ++ ".dkim.amazonses.com"⟩ }

/-! ### `create_connection` -/

/-- `s.rsplit("@", 1)[1]`, of a string with an at sign. -/
def afterLastAt (s : String) : String :=
  String.ofList (s.toList.reverse.takeWhile (· ≠ '@')).reverse

/-- A request to `create_connection`. -/
structure ConnectionRequest where
  channelType : String
  displayName : String
  providerAccountId : String
  credentials : Option (List (String × Json))
  credentialsSecretKey : Option String

/-- `ConnectionValidationError`. -/
def connectionInvalid (text : String) : PyErr := ⟨.exception "ConnectionValidationError", text⟩

/-- The key under which a new connection's secret is found, and an email domain's DNS records. -/
def provision (adapter : WebhookAdapter) (orgId actorUserId connectionId : String)
    (request : ConnectionRequest) : ConnectionProg (String × Option DomainVerificationRecords) :=
  if adapter.requiresCredentials then
    match request.credentials, request.credentialsSecretKey with
    | some credentials, _ => do
      putSecret orgId "omnichannel" connectionId (.obj credentials)
      return (connectionId, none)
    | none, some secretKey => do
      let _ ← elsewhere (service (core (getSecret orgId "omnichannel" secretKey)))
      return (secretKey, none)
    | none, none =>
      .raise (connectionInvalid ("channel_type=" ++ pyRepr request.channelType ++
        " requires credentials (pass credentials or credentials_secret_key)"))
  else if request.channelType = "email" then
    if ¬request.providerAccountId.toList.contains '@' then
      .raise (connectionInvalid
        "email connections require provider_account_id to be an address (user@domain)")
    else do
      let dnsRecords ←
        startDomainVerification orgId (afterLastAt request.providerAccountId) actorUserId
      return ("", some dnsRecords)
  else return ("", none)

/-- The row of a new connection. Its time is set when it is flushed. -/
def newConnection (orgId connectionId secretKey : String) (request : ConnectionRequest) :
    ChannelConnection :=
  { id := connectionId, orgId, channelType := request.channelType,
    displayName := request.displayName, providerAccountId := request.providerAccountId,
    credentialsSecretKey := secretKey, status := "active",
    createdAt := ⟨⟨1, 1, 1⟩, 0, 0, 0, 0⟩ }

/-- What `create_connection` reports. -/
def announceConnection (connection : ChannelConnection) (actorUserId : String) :
    Core.Prog Unit := do
  let _ ← logAudit connection.orgId actorUserId "connection.created" "channel_connection"
    connection.id (.obj [("channel_type", .str connection.channelType),
      ("display_name", .str connection.displayName)])
  let _ ← publishEvent connection.orgId "connection.created"
    [("connection_id", .str connection.id), ("channel_type", .str connection.channelType)]
    "a2z.omnichannel"
  return ()

/-- `create_connection`. -/
def createConnection (hmacSha256 : String → Bytes → Except PyErr Bytes) (orgId actorUserId : String)
    (request : ConnectionRequest) :
    ConnectionProg (ChannelConnection × Option DomainVerificationRecords) := do
  let _ ← elsewhere (service (requireRole actorUserId orgId adminRoles
    "Only Owner/Admin can manage channel connections"))
  match getWebhookAdapter hmacSha256 request.channelType with
  | .error exc => .raise (connectionInvalid exc.text)
  | .ok adapter =>
    if request.credentials.isSome ∧ request.credentialsSecretKey.isSome then
      .raise (connectionInvalid "Pass either credentials or credentials_secret_key, not both")
    else
      let connectionId ← elsewhere (service (core (Core.run .uuid4)))
      let provisioned ← provision adapter orgId actorUserId connectionId request
      let connection := newConnection orgId connectionId provisioned.1 request
      connectionRun (.insertConnection connection)
      elsewhere (service (core (announceConnection connection actorUserId)))
      return (connection, provisioned.2)

/-- A connection that is created is active, and its channel has an adapter. -/
theorem isActive_of_createConnection (hmacSha256 : String → Bytes → Except PyErr Bytes) (orgId actorUserId : String)
    (request : ConnectionRequest) :
    (createConnection hmacSha256 orgId actorUserId request).Returns fun r =>
      r.1.status = "active" ∧ (webhookAdapters hmacSha256 r.1.channelType).isSome := by
  refine Returns.bind (returns_true _) fun _ _ => ?_
  cases hadapter : webhookAdapters hmacSha256 request.channelType with
  | none =>
    rw [getWebhookAdapter, hadapter]
    trivial
  | some adapter =>
    rw [getWebhookAdapter, hadapter]
    dsimp only
    split
    · trivial
    · refine Returns.bind (returns_true _) fun connectionId _ => ?_
      refine Returns.bind (returns_true _) fun provisioned _ => ?_
      refine Returns.bind (returns_true _) fun _ _ => Returns.bind (returns_true _) fun _ _ => ?_
      refine ⟨rfl, ?_⟩
      show (webhookAdapters hmacSha256 request.channelType).isSome
      rw [hadapter]
      rfl

/-! ### What is stored for a connection -/

/-- A write that succeeds is stored. -/
theorem secrets_of_settle {x : ConnectionChoice} {name : String} {value : Json} {w w' : World}
    {effect : Except PyErr (Unit × World)} (heffect : ∀ r, effect = .ok r → r.2 = w.withSecret name value)
    (h : x.fate.settle effect w = (.ok (), w')) : w'.core.secrets name = some value := by
  cases effect with
  | error e =>
    rw [Fate.settle_error] at h
    cases h
  | ok r =>
    have hstate := heffect r rfl
    cases hfate : x.fate <;> rw [hfate] at h <;> cases h
    rw [hstate]
    exact Function.update_self _ _ _

theorem wp_writeSecret (name : String) (value : Json) (w : World) :
    (solo ConnectionCall.answer).wp (writeSecret name value) w fun r w' =>
      r = .ok () → w'.core.secrets name = some value := by
  refine wp_handle (wp_solo_perform fun x => ?_)
  cases hput : (ConnectionCall.answer (.putSecretValue name value) x w).1 with
  | ok _ =>
    refine fun _ => secrets_of_settle (x := x) (fun r hr => ?_) (Prod.ext hput rfl)
    split at hr <;> cases hr
    rfl
  | error exc =>
    generalize (ConnectionCall.answer (.putSecretValue name value) x w).2 = w₁
    show (solo ConnectionCall.answer).wp _ w₁ _
    dsimp only
    split
    · refine wp_handle (wp_solo_perform fun x => ?_)
      cases hcreate : (ConnectionCall.answer (.createSecret name value) x w₁).1 with
      | ok _ =>
        refine fun _ => secrets_of_settle (x := x) (fun r hr => ?_) (Prod.ext hcreate rfl)
        split at hr <;> cases hr
        rfl
      | error createExc =>
        show (solo ConnectionCall.answer).wp _ _ _
        dsimp only
        split <;> exact nofun
    · exact nofun
    · exact nofun

/-- `put_secret` stores the secret, and drops what the cache has of it. -/
theorem wp_putSecret (orgId serviceType key : String) (value : Json) (w : World) :
    (solo ConnectionCall.answer).wp (putSecret orgId serviceType key value) w fun r w' => r = .ok () →
      w'.core.secrets (secretName orgId serviceType key) = some value ∧
        w'.core.secretCache (secretCacheKey orgId serviceType key) = none := by
  refine wp_bind (wp_mono (fun r w₁ hstored => ?_) (wp_writeSecret _ value w))
  cases r with
  | error e => exact nofun
  | ok _ => exact wp_solo_perform fun x _ => ⟨hstored rfl, Function.update_self _ _ _⟩

/-- The same secrets, stored and cached. -/
def SameSecrets (w w' : World) : Prop :=
  w'.core.secrets = w.core.secrets ∧ w'.core.secretCache = w.core.secretCache

theorem SameSecrets.trans {u v w : World} (h : SameSecrets u v) (h' : SameSecrets v w) :
    SameSecrets u w :=
  ⟨h'.1.trans h.1, h'.2.trans h.2⟩

theorem reports_sameSecrets :
    Reports fun c => ∀ x w, SameSecrets w (answerCore c x w).2 where
  utcnow _ _ := ⟨rfl, rfl⟩
  uuid4 _ _ := ⟨rfl, rfl⟩
  putAuditItem event x w := by
    rw [answerCore, Core.Call.answer]
    cases x.fate <;> exact ⟨rfl, rfl⟩
  putEvents entry x w := by
    rw [answerCore, Core.Call.answer]
    dsimp only
    split <;> cases x.fate <;> exact ⟨rfl, rfl⟩

/-- The calls after the secret is written leave the secrets. -/
theorem sameSecrets_announceConnection {connection : ChannelConnection} {actorUserId : String}
    {o : Oracle ConnectionChoice} {w w' : World} {r : Option (Except PyErr Unit)}
    (h : exec ConnectionCall.answer
      (elsewhere (service (core (announceConnection connection actorUserId)))) o w = (r, w')) :
    SameSecrets w w' := by
  have hcalls : (announceConnection connection actorUserId).Calls fun c =>
      ∀ x w, SameSecrets w (answerCore c x w).2 := by
    refine Calls.bind (reports_sameSecrets.calls_logAudit _ _ _ _ _ _) fun _ => ?_
    exact Calls.bind (reports_sameSecrets.calls_publishEvent _ _ _ _) fun _ => trivial
  have hsame := exec_rel_of_calls (S := SameSecrets) (fun _ => ⟨rfl, rfl⟩)
    (fun _ _ _ h h' => h.trans h') (fun c hc x w => hc x w) hcalls o w
  rw [exec_core] at h
  rwa [h] at hsame

theorem sameSecrets_insertConnection {connection : ChannelConnection} {x : ConnectionChoice}
    {w w' : World}
    (h : ConnectionCall.answer (.insertConnection connection) x w = (.ok (), w')) :
    SameSecrets w w' := by
  have hstate : (x.fate.transact (w.db.connections.insert { connection with createdAt := x.now })
      (fun t => { w with db := { w.db with connections := t } }) w).2 = w' := congrArg Prod.snd h
  rcases x.fate.transact_cases (w.db.connections.insert { connection with createdAt := x.now })
      (fun t => { w with db := { w.db with connections := t } }) w with ⟨_, t, _, ht⟩ | ⟨_, ht, _⟩
  · rw [← hstate, ht]
    exact ⟨rfl, rfl⟩
  · rw [← hstate, ht]
    exact ⟨rfl, rfl⟩

/-- Credentials that are submitted are stored, whatever they are. -/
theorem stored_of_createConnection {hmacSha256 : String → Bytes → Except PyErr Bytes} {orgId actorUserId : String}
    {request : ConnectionRequest} {credentials : List (String × Json)}
    (hcredentials : request.credentials = some credentials) (hother : request.channelType ≠ "email")
    {o : Oracle ConnectionChoice} {w w' : World} {connection : ChannelConnection}
    {dnsRecords : Option DomainVerificationRecords}
    (hcreate : exec ConnectionCall.answer (createConnection hmacSha256 orgId actorUserId request) o w =
      (some (.ok (connection, dnsRecords)), w')) :
    w'.core.secrets (secretName connection.orgId "omnichannel" connection.credentialsSecretKey) =
        some (.obj credentials) ∧
      w'.core.secretCache (secretCacheKey connection.orgId "omnichannel"
        connection.credentialsSecretKey) = none := by
  obtain ⟨_, w₁, k₁, _, hchecked⟩ := exec_bind_inv hcreate
  cases hadapter : webhookAdapters hmacSha256 request.channelType with
  | none =>
    rw [getWebhookAdapter, hadapter] at hchecked
    cases hchecked
  | some adapter =>
    rw [getWebhookAdapter, hadapter] at hchecked
    dsimp only at hchecked
    split at hchecked
    · cases hchecked
    obtain ⟨connectionId, w₂, k₂, _, hnamed⟩ := exec_bind_inv hchecked
    obtain ⟨provisioned, w₃, k₃, hprovision, hinserting⟩ := exec_bind_inv hnamed
    obtain ⟨_, w₄, k₄, hinsert, hannouncing⟩ := exec_bind_inv hinserting
    obtain ⟨_, w₅, k₅, hannounce, hreturn⟩ := exec_bind_inv hannouncing
    cases hreturn
    obtain ⟨x, _, hinsert⟩ := exec_perform_inv hinsert
    have hsame : SameSecrets w₃ w' :=
      (sameSecrets_insertConnection hinsert).trans (sameSecrets_announceConnection hannounce)
    have hrequires : adapter.requiresCredentials = true := by
      rw [webhookAdapters, if_neg hother] at hadapter
      split at hadapter <;> cases hadapter
      rfl
    unfold provision at hprovision
    rw [if_pos hrequires, hcredentials] at hprovision
    obtain ⟨_, w₆, k₆, hput, hkey⟩ := exec_bind_inv hprovision
    cases hkey
    obtain ⟨hstored, huncached⟩ := exec_solo (wp_putSecret _ _ _ _ _) hput rfl
    exact ⟨(congrFun hsame.1 _).trans hstored, (congrFun hsame.2 _).trans huncached⟩

end A2ZCore.Omnichannel
