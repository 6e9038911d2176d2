import A2ZCore.Omnichannel.Connections
import Mathlib

/-!
# Webhooks

`webhooks.handle_webhook`: a request is verified with the signing secret of its connection, and its body
is put on the inbound queue. A signing secret that the connection's bundle does not hold is read as the
empty string, under which anybody can sign; and email's adapter verifies nothing.

## Main definitions

* `openWebhook`, `checkWebhook`, `handleWebhook`
* `Signed`, `OnlySigned` — the header is a signature under a secret that is not empty, and nothing else
  reaches the queue
* `Bundle` — the secret bundles that a request to a connection can find
* `Forgeable` — what goes through without such a secret

## Main results

* `onlySigned_iff` — a request to a connection that was created, in any later state
-/

namespace A2ZCore.Omnichannel

open Interaction Interaction.Proc Interaction.Contract A2ZCore.Core Messaging

/-! ### The handler -/

/-- `_resolve_connection`, with `_load_connection`. -/
def resolveConnection (channelType connectionId : String) : ConnectionProg ChannelConnection := do
  match ← connectionRun (.selectConnection connectionId) with
  | none => .raise ⟨.connectionNotFoundError, "No channel connection " ++ pyRepr connectionId⟩
  | some connection =>
    if ChannelConnection.status connection ≠ "active" then
      .raise ⟨.connectionNotFoundError,
        "Channel connection " ++ pyRepr connectionId ++ " is not active"⟩
    else if connection.channelType ≠ channelType then
      .raise ⟨.connectionNotFoundError, "Connection " ++ pyRepr connectionId ++ " is not a " ++
        pyRepr channelType ++ " connection"⟩
    else return connection

/-- A webhook's connection and its adapter, with the secret bundle as it has been read. -/
structure OpenedWebhook where
  connection : ChannelConnection
  adapter : WebhookAdapter
  secretBundle : Json

section Webhooks

-- `hmac.new(key.encode("utf-8"), msg, hashlib.sha256).digest()`, and `json.loads(raw_body.decode("utf-8"))`
variable (hmacSha256 : String → Bytes → Except PyErr Bytes) (loads : Bytes → Except PyErr Json)

/-- The first part of `handle_webhook`: what the request is checked with. -/
def openWebhook (channelType connectionId : String) : ConnectionProg OpenedWebhook := do
  let connection ← resolveConnection channelType connectionId
  let adapter ← Proc.ofExcept (getWebhookAdapter hmacSha256 channelType)
  let secretBundle ← elsewhere (service (core
    (getSecret connection.orgId "omnichannel" connection.credentialsSecretKey)))
  return ⟨connection, adapter, secretBundle⟩

/-- The check of a request, and the payload of one that passes. -/
def checkWebhook (connectionId : String) (opened : OpenedWebhook) (rawBody : Bytes)
    (headers : List (String × String)) : Except PyErr Json := do
  let signingSecret := (← opened.secretBundle.get? opened.adapter.signingSecretKey).getD (.str "")
  if ← opened.adapter.verifyInboundSignature rawBody headers signingSecret then loads rawBody
  else .error ⟨.webhookSignatureError,
    "Signature verification failed for connection " ++ pyRepr connectionId⟩

/-- `handle_webhook`. -/
def handleWebhook (channelType connectionId : String) (rawBody : Bytes)
    (headers : List (String × String)) : ConnectionProg Unit := do
  let opened ← openWebhook hmacSha256 channelType connectionId
  let rawPayload ← Proc.ofExcept (checkWebhook loads connectionId opened rawBody headers)
  let _ ← elsewhere (service (enqueueInbound channelType opened.connection.orgId
    opened.connection.id rawPayload))
  return ()

/-! ### Authenticity -/

/-- The header is the body's signature under a secret. -/
def SignedUnder (rawBody : Bytes) (headers : List (String × String)) (secret : String) : Prop :=
  ∃ expected, signature hmacSha256 rawBody secret = .ok expected ∧
    getHeader headers "X-Hub-Signature-256" = some expected

/-- The bundle holds a signing secret that is not empty, and the header is the body's signature under
it. -/
def Signed (adapter : WebhookAdapter) (bundle : Json) (rawBody : Bytes)
    (headers : List (String × String)) : Prop :=
  ∃ secret, secret ≠ "" ∧ bundle.get? adapter.signingSecretKey = .ok (some (.str secret)) ∧
    SignedUnder hmacSha256 rawBody headers secret

/-- However its calls turn out, the request is put on the inbound queue only if it is signed, under the
bundle that was read for it. -/
def OnlySigned (channelType connectionId : String) (rawBody : Bytes) (headers : List (String × String))
    (w : World) : Prop :=
  ∀ o, (exec ConnectionCall.answer
      (handleWebhook hmacSha256 loads channelType connectionId rawBody headers) o w).2.queues .inbound ≠
        w.queues .inbound →
    ∃ opened, (exec ConnectionCall.answer (openWebhook hmacSha256 channelType connectionId) o w).1 =
        some (.ok opened) ∧ Signed hmacSha256 opened.adapter opened.secretBundle rawBody headers

/-- A bundle that a request to the connection can read: in the cache, or in Secrets Manager. -/
def Bundle (w : World) (connection : ChannelConnection) (bundle : Json) : Prop :=
  (∃ expiresAt, w.core.secretCache (secretCacheKey connection.orgId "omnichannel"
      connection.credentialsSecretKey) = some (expiresAt, bundle)) ∨
    w.core.secrets (secretName connection.orgId "omnichannel" connection.credentialsSecretKey) =
      some bundle

/-- The request goes through although nobody who made it need know a secret: the body is JSON, and the
channel is email, which verifies nothing, or the bundle has no signing secret, or an empty one, and the
header is the body's signature under the empty key. -/
def Forgeable (channelType : String) (bundle : Json) (rawBody : Bytes)
    (headers : List (String × String)) : Prop :=
  (∃ payload, loads rawBody = .ok payload) ∧ ∃ fields, bundle = .obj fields ∧
    if channelType = "email" then ¬Signed hmacSha256 emailAdapter bundle rawBody headers
    else (fields.lookup "app_secret" = none ∨ fields.lookup "app_secret" = some (.str "")) ∧
      SignedUnder hmacSha256 rawBody headers ""

/-! ### What passes the check -/

theorem isAscii_hexdigest (digest : Bytes) : isAscii (hexdigest digest) = true := by
  have hdigit : ∀ n < 16, (Nat.digitChar n).toNat < 128 := by decide
  rw [isAscii, hexdigest, String.toList_ofList, List.all_eq_true]
  intro c hc
  obtain ⟨b, _, hb⟩ := List.mem_flatMap.mp hc
  have hbyte : b.toNat < 256 := b.toNat_lt
  have hhigh : b.toNat / 16 < 16 := by omega
  have hlow : b.toNat % 16 < 16 := by omega
  rcases List.mem_pair.mp hb with rfl | rfl
  · exact decide_eq_true (hdigit _ hhigh)
  · exact decide_eq_true (hdigit _ hlow)

section Signature

variable {hmacSha256} {rawBody : Bytes} {secret expected : String}
  (h : signature hmacSha256 rawBody secret = .ok expected)

include h

theorem signature_eq_ok : ∃ digest, expected = "sha256=" ++ hexdigest digest := by
  unfold signature at h
  cases hdigest : hmacSha256 secret rawBody with
  | error e =>
    rw [hdigest] at h
    cases h
  | ok digest =>
    rw [hdigest] at h
    exact ⟨digest, (Except.ok.inj h).symm⟩

theorem isAscii_signature : isAscii expected = true := by
  obtain ⟨digest, rfl⟩ := signature_eq_ok h
  have hdigest := isAscii_hexdigest digest
  rw [isAscii] at hdigest ⊢
  rw [String.toList_append, List.all_append, hdigest]
  decide

theorem signature_ne_empty : expected ≠ "" := by
  rintro rfl
  obtain ⟨digest, hdigest⟩ := signature_eq_ok h
  have hlength := congrArg String.toList hdigest
  simp at hlength

end Signature

/-- Meta's check passes exactly for the signature under a secret that is a string. -/
theorem verifyMetaSignature_eq_true (rawBody : Bytes) (headers : List (String × String))
    (secret : Json) : verifyMetaSignature hmacSha256 rawBody headers secret = .ok true ↔
      ∃ s, secret = .str s ∧ SignedUnder hmacSha256 rawBody headers s := by
  unfold verifyMetaSignature
  constructor
  · intro h
    split at h
    · cases h
    · cases h
    · next received _ hreceived =>
      cases secret with
      | str s =>
        obtain ⟨expected, hexpected, hcompare⟩ := bind_eq_ok.mp h
        refine ⟨s, rfl, expected, hexpected, ?_⟩
        unfold compareDigest at hcompare
        split at hcompare
        · have hsame : received = expected := by simpa using hcompare
          rw [hreceived, hsame]
        · cases hcompare
      | _ => cases h
  · rintro ⟨s, rfl, expected, hexpected, hheader⟩
    rw [hheader]
    split
    · next h => cases h
    · next h => exact absurd (Option.some.inj h) (signature_ne_empty hexpected)
    · next received _ h =>
      rw [← Option.some.inj h]
      show (signature hmacSha256 rawBody s >>= fun x => compareDigest expected x) = .ok true
      rw [hexpected]
      show compareDigest expected expected = .ok true
      rw [compareDigest, isAscii_signature hexpected]
      simp

theorem webhookAdapters_cases {channelType : String} {adapter : WebhookAdapter}
    (h : webhookAdapters hmacSha256 channelType = some adapter) :
    channelType = "email" ∧ adapter = emailAdapter ∨
      channelType ≠ "email" ∧ adapter = metaGraphAdapter hmacSha256 := by
  unfold webhookAdapters at h
  split at h
  · next hemail => exact .inl ⟨hemail, (Option.some.inj h).symm⟩
  · next hother =>
    split at h
    · exact .inr ⟨hother, (Option.some.inj h).symm⟩
    · cases h

theorem get?_error (key : String) {bundle : Json} (h : ∀ fields, bundle ≠ .obj fields) :
    ∃ e, bundle.get? key = .error e := by
  cases bundle with
  | obj fields => exact absurd rfl (h fields)
  | _ => exact ⟨_, rfl⟩

/-- The check, of a bundle that is a dict. -/
theorem checkWebhook_obj {opened : OpenedWebhook} {fields : List (String × Json)}
    (hbundle : opened.secretBundle = .obj fields) (connectionId : String) (rawBody : Bytes)
    (headers : List (String × String)) :
    (∃ payload, checkWebhook loads connectionId opened rawBody headers = .ok payload) ↔
      opened.adapter.verifyInboundSignature rawBody headers
        ((fields.lookup opened.adapter.signingSecretKey).getD (.str "")) = .ok true ∧
      ∃ payload, loads rawBody = .ok payload := by
  have hget : opened.secretBundle.get? opened.adapter.signingSecretKey =
      .ok (fields.lookup opened.adapter.signingSecretKey) := by rw [hbundle]; rfl
  have hcheck : checkWebhook loads connectionId opened rawBody headers =
      (opened.adapter.verifyInboundSignature rawBody headers
        ((fields.lookup opened.adapter.signingSecretKey).getD (.str "")) >>= fun verified =>
          if verified then loads rawBody else .error ⟨.webhookSignatureError,
            "Signature verification failed for connection " ++ pyRepr connectionId⟩) := by
    rw [checkWebhook, hget]
    rfl
  rw [hcheck]
  cases hverify : opened.adapter.verifyInboundSignature rawBody headers
      ((fields.lookup opened.adapter.signingSecretKey).getD (.str "")) with
  | error e => exact ⟨fun ⟨_, h⟩ => (nomatch h), fun h => (nomatch h.1)⟩
  | ok verified =>
    cases verified with
    | false => exact ⟨fun ⟨_, h⟩ => (nomatch h), fun h => (nomatch h.1)⟩
    | true => exact ⟨fun h => ⟨rfl, h⟩, fun h => h.2⟩

/-- What passes the check and is not signed is what anybody can make. -/
theorem checkWebhook_iff {channelType : String} {opened : OpenedWebhook}
    (hadapter : webhookAdapters hmacSha256 channelType = some opened.adapter) (connectionId : String)
    (rawBody : Bytes) (headers : List (String × String)) :
    (∃ payload, checkWebhook loads connectionId opened rawBody headers = .ok payload) ∧
        ¬Signed hmacSha256 opened.adapter opened.secretBundle rawBody headers ↔
      Forgeable hmacSha256 loads channelType opened.secretBundle rawBody headers := by
  by_cases hobj : ∃ fields, opened.secretBundle = .obj fields
  · obtain ⟨fields, hbundle⟩ := hobj
    rw [checkWebhook_obj loads hbundle]
    have hforgeable : Forgeable hmacSha256 loads channelType opened.secretBundle rawBody headers ↔
        (∃ payload, loads rawBody = .ok payload) ∧
          if channelType = "email" then ¬Signed hmacSha256 emailAdapter opened.secretBundle rawBody headers
          else (fields.lookup "app_secret" = none ∨ fields.lookup "app_secret" = some (.str "")) ∧
            SignedUnder hmacSha256 rawBody headers "" := by
      rw [Forgeable, hbundle]
      refine and_congr_right fun _ => ⟨?_, fun h => ⟨fields, rfl, h⟩⟩
      rintro ⟨fields', hsame, h⟩
      cases hsame
      exact h
    rw [hforgeable]
    rcases webhookAdapters_cases hmacSha256 hadapter with ⟨hemail, hsame⟩ | ⟨hother, hsame⟩
    · rw [hsame, if_pos hemail]
      exact ⟨fun h => ⟨h.1.2, h.2⟩, fun h => ⟨⟨rfl, h.1⟩, h.2⟩⟩
    · rw [hsame, if_neg hother]
      have hkey : (metaGraphAdapter hmacSha256).signingSecretKey = "app_secret" := rfl
      have hverify : ∀ secret, (metaGraphAdapter hmacSha256).verifyInboundSignature rawBody headers
          secret = .ok true ↔ ∃ s, secret = .str s ∧ SignedUnder hmacSha256 rawBody headers s :=
        verifyMetaSignature_eq_true hmacSha256 rawBody headers
      have hsigned : Signed hmacSha256 (metaGraphAdapter hmacSha256) opened.secretBundle rawBody headers ↔
          ∃ s, s ≠ "" ∧ fields.lookup "app_secret" = some (.str s) ∧
            SignedUnder hmacSha256 rawBody headers s := by
        have hget : ∀ r, opened.secretBundle.get? "app_secret" = .ok r ↔
            fields.lookup "app_secret" = r := by
          intro r
          rw [hbundle]
          exact ⟨fun h => Except.ok.inj h, fun h => congrArg _ h⟩
        simp only [Signed, hkey, hget]
      rw [hkey, hverify, hsigned]
      constructor
      · rintro ⟨⟨⟨s, hs, hheader⟩, hloads⟩, hunsigned⟩
        cases hlookup : fields.lookup "app_secret" with
        | none =>
          rw [hlookup] at hs
          cases hs
          exact ⟨hloads, .inl rfl, hheader⟩
        | some secret =>
          rw [hlookup] at hs
          cases hs
          have hempty : s = "" := by
            by_contra hne
            exact hunsigned ⟨s, hne, hlookup, hheader⟩
          subst hempty
          exact ⟨hloads, .inr rfl, hheader⟩
      · rintro ⟨hloads, hlookup, hheader⟩
        refine ⟨⟨⟨"", ?_, hheader⟩, hloads⟩, ?_⟩
        · rcases hlookup with h | h <;> rw [h] <;> rfl
        · rintro ⟨s, hne, hsome, _⟩
          rcases hlookup with h | h
          · rw [h] at hsome
            cases hsome
          · rw [h] at hsome
            cases hsome
            exact hne rfl
  · push Not at hobj
    constructor
    · rintro ⟨⟨payload, hcheck⟩, _⟩
      obtain ⟨e, he⟩ := get?_error opened.adapter.signingSecretKey hobj
      rw [checkWebhook, he] at hcheck
      cases hcheck
    · rintro ⟨_, fields, hbundle, _⟩
      exact absurd hbundle (hobj fields)

/-! ### What a request is checked with -/

/-- The bundle that is read is the one in the cache, or in Secrets Manager. -/
theorem wp_getSecret (connection : ChannelConnection) (w : World) :
    (solo answerCore).wp (getSecret connection.orgId "omnichannel" connection.credentialsSecretKey) w
      fun r _ => ∀ bundle, r = .ok bundle → Bundle w connection bundle := by
  set cacheKey := secretCacheKey connection.orgId "omnichannel" connection.credentialsSecretKey
    with hcacheKey
  refine wp_bind (wp_solo_perform fun x => ?_)
  have hreply : ∀ found, (answerCore (.secretCacheGet cacheKey) x w).1 = .ok found →
      ∀ bundle, found = some bundle → Bundle w connection bundle := by
    intro found hfound bundle hbundle
    subst hbundle
    unfold answerCore Core.Call.answer at hfound
    dsimp only at hfound
    cases hcached : w.core.secretCache cacheKey with
    | none => rw [hcached] at hfound; cases hfound
    | some entry =>
      rw [hcached] at hfound
      dsimp only at hfound
      split at hfound
      · cases hfound
      · cases hfound
        exact .inl ⟨_, hcached⟩
  have hsecrets : (answerCore (.secretCacheGet cacheKey) x w).2.core.secrets = w.core.secrets := by
    unfold answerCore Core.Call.answer
    dsimp only
    split
    · rfl
    · split <;> rfl
  show (solo answerCore).next _ _ (answerCore (.secretCacheGet cacheKey) x w).1
    (answerCore (.secretCacheGet cacheKey) x w).2
  generalize (answerCore (.secretCacheGet cacheKey) x w).2 = w₁ at hsecrets ⊢
  cases hr : (answerCore (.secretCacheGet cacheKey) x w).1 with
  | error e => exact nofun
  | ok found =>
    cases found with
    | some bundle =>
      intro bundle' hbundle'
      cases hbundle'
      exact hreply _ hr _ rfl
    | none =>
      refine wp_bind (wp_handle (wp_solo_perform fun x₁ => ?_))
      set name := secretName connection.orgId "omnichannel" connection.credentialsSecretKey
        with hname
      show (solo answerCore).caught _ _ (answerCore (.getSecretValue name) x₁ w₁).1
        (answerCore (.getSecretValue name) x₁ w₁).2
      cases hvalue : (answerCore (.getSecretValue name) x₁ w₁).1 with
      | error e =>
        show (solo answerCore).wp _ _ _
        dsimp only
        split <;> exact nofun
      | ok bundle =>
        have hstored : w.core.secrets name = some bundle := by
          rw [← hsecrets]
          unfold answerCore Core.Call.answer at hvalue
          dsimp only at hvalue
          cases hsecret : w₁.core.secrets name with
          | none =>
            rw [hsecret, Core.Fate.settle_error] at hvalue
            cases hvalue
          | some value =>
            rw [hsecret] at hvalue
            cases hfate : x₁.fate <;> rw [hfate] at hvalue <;> cases hvalue
            rfl
        refine wp_bind (wp_solo_perform fun x₂ bundle' hbundle' => ?_)
        cases hbundle'
        exact .inr hstored

/-- What the connection of a request is. -/
theorem exec_resolveConnection {channelType connectionId : String} {o : Oracle ConnectionChoice}
    {w w' : World} {connection : ChannelConnection}
    (h : exec ConnectionCall.answer (resolveConnection channelType connectionId) o w =
      (some (.ok connection), w')) : w' = w ∧ w.db.connection connectionId = some connection ∧
        connection.status = "active" ∧ connection.channelType = channelType := by
  obtain ⟨found, w₁, k, hselect, hrest⟩ := exec_bind_inv h
  obtain ⟨x, _, hanswer⟩ := exec_perform_inv hselect
  have hquery : x.fate.query (.ok (w.db.connection connectionId)) w = (.ok found, w₁) := hanswer
  have hfound : w.db.connection connectionId = found :=
    Except.ok.inj (Fate.eq_of_query (congrArg Prod.fst hquery))
  have hsame : w₁ = w := (congrArg Prod.snd hquery).symm.trans (Fate.snd_query _ _ _)
  subst hsame
  cases found with
  | none => cases hrest
  | some row =>
    replace hrest : exec ConnectionCall.answer (if row.status ≠ "active" then _ else
      if row.channelType ≠ channelType then _ else .ret row : ConnectionProg ChannelConnection)
        (fun n => o (n + k)) w₁ = (some (.ok connection), w') := hrest
    split at hrest
    · cases hrest
    · next hactive =>
      split at hrest
      · cases hrest
      · next htype =>
        cases hrest
        exact ⟨rfl, hfound, not_not.mp hactive, not_not.mp htype⟩

/-- What a request is checked with. -/
theorem exec_openWebhook {channelType connectionId : String} {o : Oracle ConnectionChoice}
    {w w' : World} {opened : OpenedWebhook}
    (h : exec ConnectionCall.answer (openWebhook hmacSha256 channelType connectionId) o w =
      (some (.ok opened), w')) : w.db.connection connectionId = some opened.connection ∧
        opened.connection.status = "active" ∧ opened.connection.channelType = channelType ∧
        webhookAdapters hmacSha256 channelType = some opened.adapter ∧
        Bundle w opened.connection opened.secretBundle := by
  obtain ⟨connection, w₁, k, hresolve, hthen⟩ := exec_bind_inv h
  obtain ⟨rfl, hrow, hactive, htype⟩ := exec_resolveConnection hresolve
  obtain ⟨adapter, w₂, k₂, hadapter, hread⟩ := exec_bind_inv hthen
  have hregistered : webhookAdapters hmacSha256 channelType = some adapter ∧ w₂ = w₁ := by
    unfold getWebhookAdapter at hadapter
    split at hadapter
    · next found hfound =>
      cases hadapter
      exact ⟨hfound, rfl⟩
    · cases hadapter
  obtain ⟨hregistered, rfl⟩ := hregistered
  obtain ⟨bundle, w₃, k₃, hbundle, hreturn⟩ := exec_bind_inv hread
  cases hreturn
  rw [exec_core] at hbundle
  have hfound := exec_solo (wp_getSecret connection w₂) hbundle bundle rfl
  exact ⟨hrow, hactive, htype, hregistered, hfound⟩

/-- A call that leaves the queues. -/
def ConnectionCall.LeavesQueues (c : ConnectionCall) : Prop :=
  ∀ x w, (c.answer x w).2.queues = w.queues

theorem leavesQueues_core {α : Type} (p : Core.Prog α) :
    (elsewhere (service (core p))).Calls ConnectionCall.LeavesQueues := by
  refine Calls.embed (Calls.embed (Calls.embed (p.calls_true.mono fun c _ => ?_)))
  exact fun x w => rfl

theorem leavesQueues_openWebhook (channelType connectionId : String) :
    (openWebhook hmacSha256 channelType connectionId).Calls ConnectionCall.LeavesQueues := by
  have hselect : (ConnectionCall.selectConnection connectionId).LeavesQueues := by
    intro x w
    unfold ConnectionCall.answer
    dsimp only
    rw [Fate.snd_query]
  refine Calls.bind (Calls.bind (Calls.perform hselect) fun found => ?_) fun connection => ?_
  · cases found with
    | none => trivial
    | some row =>
      show Calls _ (if row.status ≠ "active" then _ else if row.channelType ≠ channelType then _ else _)
      split
      · trivial
      split <;> trivial
  · exact Calls.bind (Calls.ofExcept _) fun adapter =>
      Calls.bind (leavesQueues_core _) fun _ => trivial

theorem queues_openWebhook (channelType connectionId : String) (o : Oracle ConnectionChoice)
    (w : World) : (exec ConnectionCall.answer (openWebhook hmacSha256 channelType connectionId)
      o w).2.queues = w.queues :=
  exec_rel_of_calls (S := fun w w' : World => w'.queues = w.queues) (fun _ => rfl)
    (fun u v w (h : v.queues = u.queues) (h' : w.queues = v.queues) => h'.trans h)
    (fun _ hc x w => hc x w) (leavesQueues_openWebhook hmacSha256 channelType connectionId) o w

/-- What reaches the queue has passed the check. -/
theorem exists_opened_of_enqueued {channelType connectionId : String} {rawBody : Bytes}
    {headers : List (String × String)} {o : Oracle ConnectionChoice} {w : World}
    (h : (exec ConnectionCall.answer (handleWebhook hmacSha256 loads channelType connectionId rawBody
      headers) o w).2.queues .inbound ≠ w.queues .inbound) :
    ∃ opened w₁, exec ConnectionCall.answer (openWebhook hmacSha256 channelType connectionId) o w =
      (some (.ok opened), w₁) ∧
        ∃ payload, checkWebhook loads connectionId opened rawBody headers = .ok payload := by
  have hkeeps := queues_openWebhook hmacSha256 channelType connectionId o w
  by_cases hopened : ∃ opened, (exec ConnectionCall.answer
      (openWebhook hmacSha256 channelType connectionId) o w).1 = some (.ok opened)
  · obtain ⟨opened, hopened⟩ := hopened
    have hfirst : exec ConnectionCall.answer (openWebhook hmacSha256 channelType connectionId) o w =
        (some (.ok opened), _) := Prod.ext hopened rfl
    refine ⟨opened, _, hfirst, ?_⟩
    obtain ⟨k, hk⟩ := exec_bind_of_ok hfirst fun opened =>
      (Proc.ofExcept (checkWebhook loads connectionId opened rawBody headers)).bind fun rawPayload =>
        (elsewhere (service (enqueueInbound channelType opened.connection.orgId
          opened.connection.id rawPayload))).bind fun _ => (.ret () : ConnectionProg Unit)
    cases hcheck : checkWebhook loads connectionId opened rawBody headers with
    | ok payload => exact ⟨payload, rfl⟩
    | error e =>
      rw [hcheck] at hk
      have hend : exec ConnectionCall.answer (handleWebhook hmacSha256 loads channelType connectionId
          rawBody headers) o w = (some (.error e), _) := hk
      rw [hend] at h
      exact absurd (congrFun hkeeps .inbound) h
  · push Not at hopened
    have hend := (exec_bind_of_not_ok hopened fun opened =>
      (Proc.ofExcept (checkWebhook loads connectionId opened rawBody headers)).bind fun rawPayload =>
        (elsewhere (service (enqueueInbound channelType opened.connection.orgId
          opened.connection.id rawPayload))).bind fun _ => (.ret () : ConnectionProg Unit)).1
    have hsame : (exec ConnectionCall.answer (handleWebhook hmacSha256 loads channelType connectionId
        rawBody headers) o w).2 = _ := hend
    rw [hsame] at h
    exact absurd (congrFun hkeeps .inbound) h

/-! ### A request that goes through -/

/-- Every call goes through, at one time. -/
def smooth (monotonic : ℚ) : ConnectionChoice :=
  { Choice.calm "" with monotonic, dkimTokens := [] }

/-- The cache, of an entry that has not expired. -/
theorem answerCore_cached {key : String} {x : ConnectionChoice} {w : World} {expiresAt : ℚ}
    {bundle : Json} (hcached : w.core.secretCache key = some (expiresAt, bundle))
    (hlive : x.monotonic < expiresAt) :
    answerCore (.secretCacheGet key) x w = (.ok (some bundle), w) := by
  have hcore : (Core.Call.secretCacheGet key).answer x.toChoice w.core =
      (.ok (some bundle), w.core) := by
    rw [Core.Call.answer, hcached]
    exact if_neg (not_le.mpr hlive)
  rw [answerCore, hcore]

/-- The cache, of an entry that has expired or was never made. -/
theorem answerCore_uncached {key : String} {x : ConnectionChoice} {w : World}
    (h : ∀ expiresAt bundle, w.core.secretCache key = some (expiresAt, bundle) →
      expiresAt ≤ x.monotonic) :
    ∃ w', answerCore (.secretCacheGet key) x w = (.ok none, w') ∧
      w'.core.secrets = w.core.secrets := by
  have hcore : ∃ core, (Core.Call.secretCacheGet key).answer x.toChoice w.core = (.ok none, core) ∧
      core.secrets = w.core.secrets := by
    rw [Core.Call.answer]
    cases hcached : w.core.secretCache key with
    | none => exact ⟨_, rfl, rfl⟩
    | some entry => exact ⟨_, if_pos (h entry.1 entry.2 hcached), rfl⟩
  obtain ⟨core, hcore, hsecrets⟩ := hcore
  refine ⟨{ w with core }, ?_, hsecrets⟩
  rw [answerCore, hcore]

/-- A bundle that can be read is read at some time. -/
theorem exists_exec_getSecret {connection : ChannelConnection} {w : World} {bundle : Json}
    (h : Bundle w connection bundle) : ∃ t w', exec answerCore
      (getSecret connection.orgId "omnichannel" connection.credentialsSecretKey)
        (fun _ => some (smooth t)) w = (some (.ok bundle), w') := by
  rcases h with ⟨expiresAt, hcached⟩ | hstored
  · -- before the entry expires
    have hfirst := exec_perform_of_ok (o := fun _ => some (smooth (expiresAt - 1))) rfl
      (answerCore_cached hcached (sub_lt_self expiresAt one_pos))
    exact ⟨expiresAt - 1, w, exec_bind_const hfirst _⟩
  · -- once the entry, if there is one, has expired
    have hexpired : ∃ t, ∀ expiresAt value, w.core.secretCache (secretCacheKey connection.orgId
        "omnichannel" connection.credentialsSecretKey) = some (expiresAt, value) → expiresAt ≤ t := by
      cases hcached : w.core.secretCache (secretCacheKey connection.orgId "omnichannel"
          connection.credentialsSecretKey) with
      | none => exact ⟨0, nofun⟩
      | some entry => exact ⟨entry.1, fun _ _ h => (congrArg Prod.fst (Option.some.inj h)).ge⟩
    obtain ⟨t, ht⟩ := hexpired
    obtain ⟨w₁, hmiss, hsecrets⟩ := answerCore_uncached (x := smooth t) ht
    have hfirst := exec_perform_of_ok (o := fun _ => some (smooth t)) rfl hmiss
    have hvalue : answerCore (.getSecretValue (secretName connection.orgId "omnichannel"
        connection.credentialsSecretKey)) (smooth t) w₁ = (.ok bundle, w₁) := by
      rw [answerCore, Core.Call.answer, hsecrets, hstored]
      rfl
    have hread : exec answerCore (Core.run (.getSecretValue (secretName connection.orgId "omnichannel"
        connection.credentialsSecretKey))) (fun _ => some (smooth t)) w₁ = (some (.ok bundle), w₁) :=
      exec_perform_of_ok rfl hvalue
    obtain ⟨w₂, hwrite⟩ : ∃ w₂, answerCore (.secretCacheSet (secretCacheKey connection.orgId
        "omnichannel" connection.credentialsSecretKey) bundle 300) (smooth t) w₁ = (.ok (), w₂) :=
      ⟨_, rfl⟩
    have hset := exec_perform_of_ok (o := fun _ => some (smooth t)) rfl hwrite
    refine ⟨t, w₂, (exec_bind_const hfirst _).trans ?_⟩
    exact (exec_bind_const (exec_handle_of_ok hread _) _).trans (exec_bind_const hset _)

/-- The row of an active connection is the connection of a request. -/
theorem exec_resolveConnection_of_row {connectionId : String} {connection : ChannelConnection}
    {w : World} (hrow : w.db.connection connectionId = some connection)
    (hactive : connection.status = "active") (t : ℚ) : exec ConnectionCall.answer
      (resolveConnection connection.channelType connectionId) (fun _ => some (smooth t)) w =
        (some (.ok connection), w) := by
  have hselect : ConnectionCall.answer (.selectConnection connectionId) (smooth t) w =
      (.ok (some connection), w) := by
    rw [ConnectionCall.answer, hrow]
    rfl
  have hfirst := exec_perform_of_ok (o := fun _ => some (smooth t)) rfl hselect
  refine (exec_bind_const hfirst _).trans ?_
  show exec ConnectionCall.answer (if connection.status ≠ "active" then _ else
    if connection.channelType ≠ connection.channelType then _ else _) _ w = _
  rw [if_neg (not_not.mpr hactive), if_neg (not_not.mpr rfl)]
  rfl

/-- What a request can be checked with. -/
theorem exists_exec_openWebhook {connectionId : String} {connection : ChannelConnection}
    {adapter : WebhookAdapter} {bundle : Json} {w : World}
    (hrow : w.db.connection connectionId = some connection) (hactive : connection.status = "active")
    (hadapter : webhookAdapters hmacSha256 connection.channelType = some adapter)
    (hbundle : Bundle w connection bundle) : ∃ t w', exec ConnectionCall.answer
      (openWebhook hmacSha256 connection.channelType connectionId) (fun _ => some (smooth t)) w =
        (some (.ok ⟨connection, adapter, bundle⟩), w') := by
  obtain ⟨t, w', hread⟩ := exists_exec_getSecret hbundle
  rw [← exec_core] at hread
  refine ⟨t, w', (exec_bind_const (exec_resolveConnection_of_row hrow hactive t) _).trans ?_⟩
  have hregistered : getWebhookAdapter hmacSha256 connection.channelType = .ok adapter := by
    rw [getWebhookAdapter, hadapter]
  rw [hregistered]
  exact exec_bind_const hread _

/-- Where every call goes through, an entry is put on the queue. -/
theorem exec_enqueueInbound (channelType orgId connectionId : String) (rawPayload : Json) (t : ℚ)
    (w : World) : (exec ConnectionCall.answer (elsewhere (service (enqueueInbound channelType orgId
      connectionId rawPayload))) (fun _ => some (smooth t)) w).2.queues .inbound =
        (w.queues .inbound).send (inboundEntry channelType orgId connectionId rawPayload) := by
  rw [exec_service]
  have hurl : ∃ w', answerService (.queueUrl .inbound) (smooth t) w = (.ok (), w') ∧
      w'.queues = w.queues := by
    rw [answerService, Call.answer]
    split
    · exact ⟨_, rfl, rfl⟩
    · exact ⟨_, rfl, rfl⟩
  obtain ⟨w', hurl, hqueues⟩ := hurl
  have hfirst := exec_perform_of_ok (o := fun _ => some (smooth t)) rfl hurl
  have hsend : exec answerService (enqueueInbound channelType orgId connectionId rawPayload)
      (fun _ => some (smooth t)) w = (some (.ok ""), { w' with
        queues := Function.update w'.queues .inbound ((w'.queues .inbound).send
          (inboundEntry channelType orgId connectionId rawPayload)) }) :=
    exec_bind_const hfirst _
  rw [hsend, hqueues]
  exact Function.update_self QueueName.inbound _ w.queues

/-- What passes the check can reach the queue. -/
theorem enqueued_of_check {channelType connectionId : String} {rawBody : Bytes}
    {headers : List (String × String)} {opened : OpenedWebhook} {payload : Json} {t : ℚ} {w w' : World}
    (hopen : exec ConnectionCall.answer (openWebhook hmacSha256 channelType connectionId)
      (fun _ => some (smooth t)) w = (some (.ok opened), w'))
    (hcheck : checkWebhook loads connectionId opened rawBody headers = .ok payload) :
    (exec ConnectionCall.answer (handleWebhook hmacSha256 loads channelType connectionId rawBody
      headers) (fun _ => some (smooth t)) w).2.queues .inbound ≠ w.queues .inbound := by
  have hsame : w'.queues = w.queues :=
    (congrArg (fun r => r.2.queues) hopen).symm.trans (queues_openWebhook hmacSha256 _ _ _ w)
  have hrun : (exec ConnectionCall.answer (handleWebhook hmacSha256 loads channelType connectionId
      rawBody headers) (fun _ => some (smooth t)) w).2 = (exec ConnectionCall.answer
        (elsewhere (service (enqueueInbound channelType opened.connection.orgId opened.connection.id
          payload))) (fun _ => some (smooth t)) w').2 := by
    refine (congrArg Prod.snd (exec_bind_const hopen _)).trans ?_
    rw [hcheck]
    exact exec_bind_ret _ () _ _
  rw [hrun, exec_enqueueInbound, hsame]
  intro h
  have hlength := congrArg List.length h
  simp [Queue.send] at hlength

/-! ### When only signed requests reach the queue -/

/-- A request to a connection, in terms of its row. -/
theorem onlySigned_iff_row (channelType connectionId : String) (rawBody : Bytes)
    (headers : List (String × String)) (w : World) :
    OnlySigned hmacSha256 loads channelType connectionId rawBody headers w ↔
      ∀ connection, w.db.connection connectionId = some connection → connection.status = "active" →
        connection.channelType = channelType → (webhookAdapters hmacSha256 channelType).isSome →
          ∀ bundle, Bundle w connection bundle →
            ¬Forgeable hmacSha256 loads channelType bundle rawBody headers := by
  constructor
  · rintro honly connection hrow hactive rfl hregistered bundle hbundle hforgeable
    obtain ⟨adapter, hadapter⟩ := Option.isSome_iff_exists.mp hregistered
    obtain ⟨t, w', hopen⟩ := exists_exec_openWebhook hmacSha256 hrow hactive hadapter hbundle
    have hfree : (∃ payload, checkWebhook loads connectionId ⟨connection, adapter, bundle⟩ rawBody
        headers = .ok payload) ∧ ¬Signed hmacSha256 adapter bundle rawBody headers :=
      (checkWebhook_iff hmacSha256 loads hadapter connectionId rawBody headers).mpr hforgeable
    obtain ⟨⟨payload, hcheck⟩, hunsigned⟩ := hfree
    obtain ⟨opened, hopened, hsigned⟩ :=
      honly _ (enqueued_of_check hmacSha256 loads hopen hcheck)
    have hsame : (⟨connection, adapter, bundle⟩ : OpenedWebhook) = opened :=
      Except.ok.inj (Option.some.inj ((congrArg Prod.fst hopen).symm.trans hopened))
    subst hsame
    exact hunsigned hsigned
  · intro h o henqueued
    obtain ⟨opened, w₁, hopen, payload, hcheck⟩ :=
      exists_opened_of_enqueued hmacSha256 loads henqueued
    obtain ⟨hrow, hactive, htype, hadapter, hbundle⟩ := exec_openWebhook hmacSha256 hopen
    refine ⟨opened, congrArg Prod.fst hopen, ?_⟩
    by_contra hunsigned
    have hregistered : (webhookAdapters hmacSha256 channelType).isSome := by
      rw [hadapter]
      rfl
    exact h opened.connection hrow hactive htype hregistered opened.secretBundle hbundle
      ((checkWebhook_iff hmacSha256 loads hadapter connectionId rawBody headers).mp
        ⟨⟨payload, hcheck⟩, hunsigned⟩)

/-- Only signed requests to a connection that was created are put on the inbound queue, exactly where
no bundle that can be read for it lets the request through without a signing secret. -/
theorem onlySigned_iff {orgId actorUserId : String} {request : ConnectionRequest}
    {o : Oracle ConnectionChoice} {w₀ w₁ w : World} {connection : ChannelConnection}
    {dnsRecords : Option DomainVerificationRecords} {createdAt : DateTime}
    (hcreate : exec ConnectionCall.answer (createConnection hmacSha256 orgId actorUserId request) o w₀ =
      (some (.ok (connection, dnsRecords)), w₁))
    (hrow : w.db.connection connection.id = some { connection with createdAt }) (channelType : String)
    (rawBody : Bytes) (headers : List (String × String)) :
    OnlySigned hmacSha256 loads channelType connection.id rawBody headers w ↔
      (channelType = connection.channelType → ∀ bundle, Bundle w connection bundle →
        ¬Forgeable hmacSha256 loads channelType bundle rawBody headers) := by
  obtain ⟨hactive, hregistered⟩ : connection.status = "active" ∧
      (webhookAdapters hmacSha256 connection.channelType).isSome :=
    (isActive_of_createConnection hmacSha256 orgId actorUserId request).of_exec hcreate
  rw [onlySigned_iff_row, hrow]
  constructor
  · rintro h rfl bundle hbundle
    exact h _ rfl hactive rfl hregistered bundle hbundle
  · rintro h _ hsame - htype - bundle hbundle
    cases hsame
    exact h htype.symm bundle hbundle

end Webhooks

/-- `hmac.new(key.encode("utf-8"), msg, hashlib.sha256).digest()`, at the empty key and the message
`{}`. -/
def emptyKeyHmac (key : String) (msg : Bytes) : Except PyErr Bytes :=
  .ok <| if key = "" ∧ msg = encodeUtf8 "{}" then
    [0x22, 0xf8, 0xee, 0xa9, 0x09, 0x40, 0x0a, 0xf9, 0x8a, 0xdf, 0x36, 0x81, 0xa9, 0xf3, 0x19, 0x23,
      0xef, 0x6b, 0x7f, 0xcb, 0xa4, 0xab, 0xb5, 0x53, 0xd9, 0x28, 0x23, 0xa3, 0xe9, 0xd5, 0xc2, 0x5e]
  else []

/-- `json.loads`, of the body `{}`. -/
def emptyLoads (rawBody : Bytes) : Except PyErr Json :=
  if rawBody = encodeUtf8 "{}" then .ok (.obj []) else .error ⟨.exception "JSONDecodeError", "Expecting value"⟩

/-- A WhatsApp connection with the given credentials. -/
def registration (credentials : List (String × Json)) : ConnectionRequest :=
  ⟨"whatsapp", "Support", "1556", some credentials, none⟩

theorem registration_ne_email {credentials : List (String × Json)} :
    (registration credentials).channelType ≠ "email" := by
  show "whatsapp" ≠ "email"
  decide

/-- ada registers it, and every call goes through. -/
def registered (credentials : List (String × Json)) :
    Option (Except PyErr (ChannelConnection × Option DomainVerificationRecords)) × World :=
  exec ConnectionCall.answer (createConnection emptyKeyHmac "org" "ada" (registration credentials))
    (fun n => some { Choice.calm ("c" ++ toString n) with dkimTokens := [] }) inboxWorld

/-- The connection that is registered. -/
def support : ChannelConnection := newConnection "org" "c1" "c1" (registration [])

theorem registered_eq (credentials : List (String × Json)) :
    registered credentials = (some (.ok (support, none)), (registered credentials).2) :=
  Prod.ext (by rfl) rfl

theorem row_registered (credentials : List (String × Json)) :
    (registered credentials).2.db.connection support.id =
      some { support with createdAt := ⟨⟨2026, 1, 1⟩, 0, 0, 0, 0⟩ } := by
  rfl

/-- The credentials are what is stored. -/
theorem stored_registered (credentials : List (String × Json)) :
    (registered credentials).2.core.secrets
          (secretName support.orgId "omnichannel" support.credentialsSecretKey) =
        some (.obj credentials) ∧
      (registered credentials).2.core.secretCache
        (secretCacheKey support.orgId "omnichannel" support.credentialsSecretKey) = none := by
  have hsubmitted : (registration credentials).credentials = some credentials := rfl
  exact stored_of_createConnection hsubmitted registration_ne_email (registered_eq credentials)

theorem bundle_registered {credentials : List (String × Json)} {bundle : Json}
    (h : Bundle (registered credentials).2 support bundle) : bundle = .obj credentials := by
  obtain ⟨hstored, huncached⟩ := stored_registered credentials
  rcases h with ⟨expiresAt, hcached⟩ | hfound
  · rw [huncached] at hcached
    cases hcached
  · exact Option.some.inj (hfound.symm.trans hstored)

/-- A header that takes no secret to make: the signature of `{}` under the empty key. -/
def forgedHeaders : List (String × String) :=
  [("x-hub-signature-256",
    "sha256=22f8eea909400af98adf3681a9f31923ef6b7fcba4abb553d92823a3e9d5c25e")]

theorem getHeader_singleton {key value name : String} (h : key.toLower = name.toLower) :
    getHeader [(key, value)] name = some value := by
  simp [getHeader, h]

theorem signedUnder_forgedHeaders :
    SignedUnder emptyKeyHmac (encodeUtf8 "{}") forgedHeaders "" := by
  have hname : "x-hub-signature-256".toLower = "X-Hub-Signature-256".toLower := by
    refine String.toList_inj.mp ?_
    rw [String.toLower, String.toLower, String.toList_map, String.toList_map]
    decide +kernel
  refine ⟨_, ?_, getHeader_singleton hname⟩
  rw [signature, emptyKeyHmac, if_pos ⟨rfl, rfl⟩]
  refine congrArg Except.ok (String.toList_inj.mp ?_)
  rw [String.toList_append, hexdigest, String.toList_ofList]
  decide +kernel

/-- Credentials with a signing secret keep the header out. -/
theorem onlySigned_registered : OnlySigned emptyKeyHmac emptyLoads "whatsapp" support.id
    (encodeUtf8 "{}") forgedHeaders
    (registered [("access_token", .str "token"), ("app_secret", .str "secret")]).2 := by
  refine (onlySigned_iff emptyKeyHmac emptyLoads (registered_eq
    [("access_token", .str "token"), ("app_secret", .str "secret")]) (row_registered _) "whatsapp"
    (encodeUtf8 "{}") forgedHeaders).mpr fun _ bundle hbundle hforgeable => ?_
  obtain ⟨_, fields, hfields, hforged⟩ := hforgeable
  rw [bundle_registered hbundle] at hfields
  cases hfields
  rw [if_neg (by decide)] at hforged
  rcases hforged.1 with h | h
  · cases h
  · have hsecret : "secret" = "" := Json.str.inj (Option.some.inj h)
    exact absurd hsecret (by decide)

/-- Credentials without one let it through. -/
theorem not_onlySigned : ¬∀ (hmacSha256 : String → Bytes → Except PyErr Bytes) (loads : Bytes → Except PyErr Json)
    (orgId actorUserId : String) (request : ConnectionRequest) (o : Oracle ConnectionChoice)
    (w₀ w₁ : World) (connection : ChannelConnection) (dnsRecords : Option DomainVerificationRecords),
    exec ConnectionCall.answer (createConnection hmacSha256 orgId actorUserId request) o w₀ =
        (some (.ok (connection, dnsRecords)), w₁) →
      ∀ channelType rawBody headers,
        OnlySigned hmacSha256 loads channelType connection.id rawBody headers w₁ := by
  intro h
  have hsigned := h emptyKeyHmac emptyLoads "org" "ada" (registration [("access_token", .str "token")])
    _ _ _ _ _ (registered_eq _) "whatsapp" (encodeUtf8 "{}") forgedHeaders
  rw [onlySigned_iff_row] at hsigned
  refine hsigned _ (row_registered _) rfl rfl rfl (.obj [("access_token", .str "token")]) (.inr ?_) ?_
  · exact (stored_registered _).1
  · refine ⟨⟨.obj [], if_pos rfl⟩, _, rfl, ?_⟩
    rw [if_neg (by decide)]
    exact ⟨.inl rfl, signedUnder_forgedHeaders⟩

end A2ZCore.Omnichannel
