import A2ZCore.Core.Auth
import Mathlib

/-!
# Who a token is for

In production `validate_jwt` takes the tokens that the user pool has issued: signed with RS256 by the key
of the pool that they name, in its name, and not expired. It takes no others, whatever their headers
say. But a pool issues tokens to each of its app clients, and to which of them a token was issued is not
looked at: `jose` is told not to verify the audience, as the app client is said to be checked separately,
and nothing reads the setting that names it. So a token is good for any client of the pool.

What a token carries, whether a key verifies it and which claims are valid at a time are the library's
business, and taken as they are.

## Main definitions

* `Jose.Decodes` — what `jose.jwt.decode` checks
* `Issued` — the pool has issued the token, and it has not expired
* `ForClient` — the claims name an app client
* `Intended` — the claims with which a token should be accepted

## Main results

* `validateJwt_eq_ok_iff` — which tokens are accepted in production
* `intended_iff` — when those are the intended ones
-/

namespace A2ZCore.Core

/-! ### Claims -/

/-- `int(claims["exp"])`. -/
def expiry? : Json → Option ℤ
  | .bool b => some b.toInt
  | .int n => some n
  | .float mantissa scale => some (mantissa.tdiv (10 ^ scale))
  | .str text => (parseInt text).toOption
  | _ => none

/-- The second in which the token expires is not over. -/
def Unexpired (clock : ℚ) (claims : List (String × Json)) : Prop :=
  ∀ value exp, claims.lookup "exp" = some value → expiry? value = some exp → clock < exp + 1

/-- The token is issued for the app client: an ID token has it as its audience, an access token as its
`client_id`. -/
def ForClient (appClientId : String) (claims : List (String × Json)) : Prop :=
  claims.lookup "aud" = some (.str appClientId) ∨
    (∃ items, claims.lookup "aud" = some (.arr items) ∧ .str appClientId ∈ items) ∨
    claims.lookup "client_id" = some (.str appClientId)

/-! ### The library -/

/-- What is known of a token: whether a key verifies its signature under an algorithm, the claims that
it carries, and which claims are valid at a time. -/
structure Signatures where
  Verifies : String → Json → String → Prop
  payload : String → Option (List (String × Json))
  Valid : ℚ → List (String × Json) → Prop
  unexpired : ∀ clock claims, Valid clock claims → Unexpired clock claims

/-- `jose.jwt.decode`, the audience not verified: the claims that a token carries, where the algorithm
of its header is one of those given, the key verifies it, and the claims are valid and the issuer's. -/
def Jose.Decodes (jose : Jose) (signatures : Signatures) : Prop :=
  ∀ clock token key algorithms issuer claims,
    jose.decode clock token key algorithms issuer = .ok claims ↔
      (∃ header alg, jose.unverifiedHeader token = some header ∧
        header.lookup "alg" = some (.str alg) ∧ alg ∈ algorithms ∧
        signatures.Verifies token key alg) ∧
      signatures.payload token = some claims ∧ signatures.Valid clock claims ∧
      ∀ iss, issuer = some iss → claims.lookup "iss" = some (.str iss)

/-! ### Tokens -/

/-- The key that a `kid` names: of the keys at hand, or of those fetched since it is not one of them. -/
def NamedKey (x : AuthChoice) (s : AuthState) (kid : String) (key : Json) : Prop :=
  kid ≠ "" ∧ ∃ keys, (fetchJwks x.first s).1 = .ok keys ∧
    (keys.lookup kid = some key ∨
      keys.lookup kid = none ∧ ∃ keys', x.second.reply = .ok keys' ∧ keys'.lookup kid = some key)

section Tokens

variable (signatures : Signatures) (jose : Jose) (config : AuthConfig) (x : AuthChoice)
  (s : AuthState) (token : String) (claims : List (String × Json))

/-- The token is signed with RS256 by the key that it names. -/
def SignedByPool : Prop :=
  ∃ header kid key, jose.unverifiedHeader token = some header ∧
    header.lookup "alg" = some (.str "RS256") ∧ header.lookup "kid" = some (.str kid) ∧
    NamedKey x s kid key ∧ signatures.Verifies token key "RS256"

/-- The pool has issued the token with these claims, which are valid. -/
structure Issued : Prop where
  nonempty : token ≠ ""
  signed : SignedByPool signatures jose x s token
  payload : signatures.payload token = some claims
  valid : signatures.Valid x.clock claims
  issuer : claims.lookup "iss" = some (.str config.cognitoIssuer)

/-- The token is signed by the pool, not expired, issued in the name of the pool, and issued for the
app client. -/
structure Intended (appClientId : String) : Prop where
  signed : SignedByPool signatures jose x s token
  unexpired : Unexpired x.clock claims
  issuer : claims.lookup "iss" = some (.str config.cognitoIssuer)
  client : ForClient appClientId claims

end Tokens

/-! ### The key of a token -/

theorem lookupKid_str (keys : Jwks) {kid : String} (h : kid ≠ "") :
    lookupKid keys (some (.str kid)) = .ok (keys.lookup kid) := by
  rw [lookupKid, if_neg h]

/-- Only a text names a key. -/
theorem exists_of_lookupKid {keys : Jwks} {kid : Option Json} {key : Json}
    (h : lookupKid keys kid = .ok (some key)) :
    ∃ text, kid = some (.str text) ∧ text ≠ "" ∧ keys.lookup text = some key := by
  unfold lookupKid at h
  split at h
  · next text =>
    by_cases hempty : text = ""
    · simp [hempty] at h
    · exact ⟨text, rfl, hempty, by simpa [hempty] using h⟩
  · cases h
  · cases h
  · cases h

/-- The key that is found is the one that the token names. -/
theorem namedKey_of_signingKey {kid : Option Json} {x : AuthChoice} {s : AuthState} {key : Json}
    (h : (signingKey kid x s).1 = .ok key) :
    ∃ text, kid = some (.str text) ∧ NamedKey x s text key := by
  unfold signingKey at h
  rcases hfirst : fetchJwks x.first s with ⟨e | keys, s₁⟩ <;> rw [hfirst] at h
  · cases h
  rcases hkid : lookupKid keys kid with e | (_ | found) <;> simp only [hkid] at h
  · cases h
  · -- the key is not at hand
    split at h
    · rw [fetchJwks_of_none rfl] at h
      cases hreply : x.second.reply with
      | error e =>
        rw [hreply] at h
        cases h
      | ok keys' =>
        rw [hreply] at h
        rcases hkid' : lookupKid keys' kid with e | (_ | found) <;> simp only [hkid'] at h
        · cases h
        · cases h
        · cases h
          obtain ⟨text, rfl, hempty, hlookup⟩ := exists_of_lookupKid hkid'
          rw [lookupKid_str keys hempty, Except.ok.injEq] at hkid
          exact ⟨text, rfl, hempty, keys, by rw [hfirst], .inr ⟨hkid, keys', hreply, hlookup⟩⟩
    · cases h
  · cases h
    obtain ⟨text, rfl, hempty, hlookup⟩ := exists_of_lookupKid hkid
    exact ⟨text, rfl, hempty, keys, by rw [hfirst], .inl hlookup⟩

/-- The key that a token names is found. -/
theorem NamedKey.signingKey {x : AuthChoice} {s : AuthState} {kid : String} {key : Json}
    (h : NamedKey x s kid key) : (signingKey (some (.str kid)) x s).1 = .ok key := by
  obtain ⟨hempty, keys, hkeys, h⟩ := h
  unfold Core.signingKey
  rcases hfirst : fetchJwks x.first s with ⟨e | keys₁, s₁⟩ <;> rw [hfirst] at hkeys <;> cases hkeys
  dsimp only
  rw [lookupKid_str keys hempty]
  rcases h with hlookup | ⟨hnone, keys', hreply, hlookup⟩
  · rw [hlookup]
  · rw [hnone]
    dsimp only
    rw [if_pos (by simpa [Json.truthy] using hempty), fetchJwks_of_none rfl, hreply]
    dsimp only
    rw [lookupKid_str keys' hempty, hlookup]

/-! ### What is accepted -/

/-- The handlers turn errors into errors. -/
theorem decoded_eq_ok_iff {r : Except PyErr (List (String × Json))} {claims : List (String × Json)} :
    decoded r = .ok claims ↔ r = .ok claims := by
  cases r with
  | ok claims' => exact Iff.rfl
  | error exc =>
    refine ⟨fun h => ?_, fun h => by cases h⟩
    rw [decoded] at h
    split at h
    · cases h
    · split at h <;> cases h

section Accepted

variable {signatures : Signatures} {jose : Jose} {config : AuthConfig} {x : AuthChoice}
  {s : AuthState} {token : String} {claims : List (String × Json)}

theorem validateCognito_eq_ok_iff (hjose : jose.Decodes signatures) :
    (validateCognito jose config token x s).1 = .ok claims ↔
      SignedByPool signatures jose x s token ∧ signatures.payload token = some claims ∧
        signatures.Valid x.clock claims ∧
        claims.lookup "iss" = some (.str config.cognitoIssuer) := by
  unfold validateCognito
  constructor
  · intro h
    cases hheader : jose.unverifiedHeader token with
    | none =>
      rw [hheader] at h
      cases h
    | some header =>
      rw [hheader] at h
      dsimp only at h
      rcases hkey : signingKey (header.lookup "kid") x s with ⟨e | key, s₁⟩ <;> rw [hkey] at h
      · cases h
      · obtain ⟨kid, hkid, hnamed⟩ := namedKey_of_signingKey (by rw [hkey])
        obtain ⟨⟨header', alg, hheader', halg, hmem, hverifies⟩, hpayload, hvalid, hissuer⟩ :=
          (hjose ..).mp (decoded_eq_ok_iff.mp h)
        rw [hheader, Option.some.injEq] at hheader'
        rw [List.mem_singleton] at hmem
        subst hheader' hmem
        exact ⟨⟨header, kid, key, hheader, halg, hkid, hnamed, hverifies⟩, hpayload, hvalid,
          hissuer _ rfl⟩
  · rintro ⟨⟨header, kid, key, hheader, halg, hkid, hnamed, hverifies⟩, hpayload, hvalid, hissuer⟩
    rw [hheader]
    dsimp only
    rw [hkid]
    have hkey := hnamed.signingKey
    rcases hfound : signingKey (some (.str kid)) x s with ⟨e | key', s₁⟩ <;> rw [hfound] at hkey <;>
      cases hkey
    refine decoded_eq_ok_iff.mpr ((hjose ..).mpr ⟨⟨header, "RS256", hheader, halg,
      List.mem_singleton_self _, hverifies⟩, hpayload, hvalid, ?_⟩)
    intro iss hiss
    cases hiss
    exact hissuer

/-- In production the tokens that the pool has issued are accepted, and no others. -/
theorem validateJwt_eq_ok_iff (hjose : jose.Decodes signatures) (hprod : config.isProd = true) :
    (validateJwt jose config token x s).1 = .ok claims ↔
      Issued signatures jose config x s token claims := by
  have hiff : Issued signatures jose config x s token claims ↔ token ≠ "" ∧
      (validateCognito jose config token x s).1 = .ok claims := by
    rw [validateCognito_eq_ok_iff hjose]
    constructor
    · exact fun h => ⟨h.nonempty, h.signed, h.payload, h.valid, h.issuer⟩
    · rintro ⟨hempty, hsigned, hpayload, hvalid, hissuer⟩
      exact ⟨hempty, hsigned, hpayload, hvalid, hissuer⟩
  rw [hiff]
  unfold validateJwt
  by_cases hempty : token = ""
  · simp [hempty]
  · rw [if_neg hempty]
    cases hheader : jose.unverifiedHeader token with
    | none => simp [validateCognito, hheader]
    | some header =>
      dsimp only
      by_cases htest : isTestAlg (header.lookup "alg") = true
      · -- a test token is refused, and has not been signed with RS256
        rw [if_pos htest, validateTestToken, if_pos hprod]
        refine ⟨fun h => (by cases h), fun h => ?_⟩
        obtain ⟨⟨header', _, _, hheader', halg, _⟩, _⟩ := (validateCognito_eq_ok_iff hjose).mp h.2
        rw [hheader, Option.some.injEq] at hheader'
        rw [hheader', halg] at htest
        exact absurd htest (by decide)
      · rw [if_neg htest]
        exact ⟨fun h => ⟨hempty, h⟩, And.right⟩

/-- **The tokens that are accepted.** In production a token is accepted only with claims that it should
be accepted with, exactly when it is not a token that the pool has issued for some other client. One
that is not signed with RS256 is not accepted. -/
theorem intended_iff (hjose : jose.Decodes signatures) (hprod : config.isProd = true)
    (appClientId : String) :
    ((∀ claims, (validateJwt jose config token x s).1 = .ok claims →
        Intended signatures jose config x s token claims appClientId) ↔
      ∀ claims, Issued signatures jose config x s token claims → ForClient appClientId claims) ∧
    ∀ header, jose.unverifiedHeader token = some header →
      header.lookup "alg" ≠ some (.str "RS256") →
      ∀ claims, (validateJwt jose config token x s).1 ≠ .ok claims := by
  refine ⟨⟨fun h claims hissued => ?_, fun h claims haccepted => ?_⟩, ?_⟩
  · exact (h claims ((validateJwt_eq_ok_iff hjose hprod).mpr hissued)).client
  · have hissued := (validateJwt_eq_ok_iff hjose hprod).mp haccepted
    exact ⟨hissued.signed, signatures.unexpired _ _ hissued.valid, hissued.issuer,
      h claims hissued⟩
  · intro header hheader halg claims haccepted
    obtain ⟨header', kid, key, hheader', halg', _⟩ :=
      ((validateJwt_eq_ok_iff hjose hprod).mp haccepted).signed
    rw [hheader, Option.some.injEq] at hheader'
    exact halg (hheader' ▸ halg')

end Accepted

/-! ### Two clients of a pool -/

/-- The claims of an access token that the pool issued for a client. -/
def accessClaims (client : String) : List (String × Json) :=
  [("iss", .str prodConfig.cognitoIssuer), ("client_id", .str client)]

/-- The token of the configured client. -/
def ourToken : String :=
  "eyJhbGciOiJSUzI1NiIsImtpZCI6ImsxIn0." ++
  "eyJpc3MiOiJodHRwczovL2NvZ25pdG8taWRwLnVzLWVhc3QtMS5hbWF6b25hd3MuY29tL3Bvb2wi" ++
  "LCJjbGllbnRfaWQiOiJvdXJzIn0.AQ"

/-- The token of another one. -/
def theirToken : String :=
  "eyJhbGciOiJSUzI1NiIsImtpZCI6ImsxIn0." ++
  "eyJpc3MiOiJodHRwczovL2NvZ25pdG8taWRwLnVzLWVhc3QtMS5hbWF6b25hd3MuY29tL3Bvb2wi" ++
  "LCJjbGllbnRfaWQiOiJ0aGVpcnMifQ.AQ"

/-- The client that a token was issued for. -/
def clientOf (token : String) : Option String :=
  if token = ourToken then some "ours" else if token = theirToken then some "theirs" else none

/-- The pool has signed the two tokens. -/
def clientSignatures : Signatures where
  Verifies token key alg := (clientOf token).isSome ∧ key = .str "K1" ∧ alg = "RS256"
  payload token := (clientOf token).map accessClaims
  Valid := Unexpired
  unexpired _ _ h := h

/-- A library that knows the tokens of two clients. -/
def clientJose : Jose where
  unverifiedHeader token :=
    if (clientOf token).isSome then some [("alg", .str "RS256"), ("kid", .str "k1")] else none
  decode _ token key algorithms issuer :=
    match clientOf token, key with
    | some client, .str k =>
      if k = "K1" ∧ "RS256" ∈ algorithms ∧
          (issuer = none ∨ issuer = some prodConfig.cognitoIssuer) then .ok (accessClaims client)
      else .error ⟨.exception "JWTError", "Signature verification failed."⟩
    | _, _ => .error ⟨.exception "JWTError", "Signature verification failed."⟩

/-- No claim of these tokens is about time. -/
theorem unexpired_accessClaims (clock : ℚ) (client : String) :
    Unexpired clock (accessClaims client) := by
  intro value exp hvalue
  cases hvalue

theorem clientJose_decodes : clientJose.Decodes clientSignatures := by
  intro clock token key algorithms issuer claims
  constructor
  · intro h
    rw [clientJose] at h
    dsimp only at h
    split at h
    · next client k hclient =>
      split at h
      · next hmatch =>
        obtain ⟨rfl, halg, hissuer⟩ := hmatch
        cases h
        have htoken : (clientOf token).isSome = true := by rw [hclient, Option.isSome_some]
        refine ⟨⟨_, "RS256", if_pos htoken, rfl, halg, htoken, rfl, rfl⟩,
          congrArg (Option.map accessClaims) hclient, unexpired_accessClaims _ _, ?_⟩
        rintro iss rfl
        rcases hissuer with hissuer | hissuer
        · cases hissuer
        · cases hissuer
          rfl
      · cases h
    · cases h
  · rintro ⟨⟨header, alg, hheader, halg, hmem, htoken, rfl, rfl⟩, hpayload, hvalid, hissuer⟩
    obtain ⟨client, hclient⟩ := Option.isSome_iff_exists.mp htoken
    simp only [clientSignatures, hclient, Option.map_some, Option.some.injEq] at hpayload
    subst hpayload
    rw [clientJose]
    dsimp only
    rw [hclient]
    refine if_pos ⟨rfl, hmem, ?_⟩
    cases issuer with
    | none => exact .inl rfl
    | some iss =>
      have hiss := hissuer iss rfl
      cases hiss
      exact .inr rfl

/-- The keys are fetched for the token. -/
def fetchedKeys : AuthChoice := ⟨⟨0, .ok [("k1", .str "K1")]⟩, unreachable 0, 0⟩

theorem clientOf_ourToken : clientOf ourToken = some "ours" := if_pos rfl

theorem clientOf_theirToken : clientOf theirToken = some "theirs" := by decide +kernel

theorem validateJwt_client {token client : String} (h : clientOf token = some client) :
    (validateJwt clientJose prodConfig token fetchedKeys AuthState.initial).1 =
      .ok (accessClaims client) := by
  have htoken : (clientOf token).isSome = true := by rw [h, Option.isSome_some]
  refine (validateJwt_eq_ok_iff clientJose_decodes rfl).mpr
    ⟨?_, ⟨_, "k1", .str "K1", if_pos htoken, rfl, rfl, ?_, htoken, rfl, rfl⟩,
      congrArg (Option.map accessClaims) h, unexpired_accessClaims _ _, rfl⟩
  swap
  · exact ⟨by decide, _, rfl, .inl rfl⟩
  rintro rfl
  have hempty : clientOf "" = none := by decide +kernel
  rw [hempty] at h
  cases h

/-- The token of the configured client is accepted, as intended. -/
theorem intended_iff_ours :
    (validateJwt clientJose prodConfig ourToken fetchedKeys AuthState.initial).1 =
      .ok (accessClaims "ours") ∧
    ∀ claims, (validateJwt clientJose prodConfig ourToken fetchedKeys AuthState.initial).1 =
      .ok claims → Intended clientSignatures clientJose prodConfig fetchedKeys AuthState.initial
        ourToken claims "ours" := by
  refine ⟨validateJwt_client clientOf_ourToken, (intended_iff clientJose_decodes rfl "ours").1.mpr ?_⟩
  intro claims hissued
  have hpayload : some (accessClaims "ours") = some claims :=
    (congrArg (Option.map accessClaims) clientOf_ourToken).symm.trans hissued.payload
  cases hpayload
  exact .inr (.inr rfl)

/-- Another client's token is accepted. -/
theorem not_intended : ¬∀ (signatures : Signatures) (jose : Jose) (config : AuthConfig),
    jose.Decodes signatures → config.isProd = true →
      ∀ (x : AuthChoice) (s : AuthState) (token : String) (claims : List (String × Json))
        (appClientId : String), (validateJwt jose config token x s).1 = .ok claims →
          Intended signatures jose config x s token claims appClientId := by
  intro h
  have hclient := (h clientSignatures clientJose prodConfig clientJose_decodes rfl fetchedKeys
    AuthState.initial theirToken (accessClaims "theirs") "ours"
    (validateJwt_client clientOf_theirToken)).client
  rcases hclient with haud | ⟨items, haud, -⟩ | hid
  · cases haud
  · cases haud
  · have htheirs : "theirs" = "ours" := Json.str.inj (Option.some.inj hid)
    exact absurd htheirs (by decide)

end A2ZCore.Core
