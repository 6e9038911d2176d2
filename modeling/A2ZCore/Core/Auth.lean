import A2ZCore.Core.Values
import Mathlib

/-!
# Token validation

`validate_jwt`, and the keys it validates with. Cognito's keys are fetched once a day. A token that
names a key which is not among them may have been signed after a rotation, so the keys are fetched
again; before that they are dropped. Whoever can present such a token while the endpoint is down takes
the keys away from everybody, and a token that names no key does so without a fetch.

`jose` is a parameter, as far as it is used: what a header says, and whether a token is valid under a
key.

## Main definitions

* `AuthState`, `fetchJwks` — the kept keys, and `_fetch_jwks`
* `signingKey`, `validateCognito`, `validateJwt` — the parts of `validate_jwt`
* `Harmless` — a call that leaves keys behind

## Main results

* `validateJwt_of_harmless` — when a valid token is accepted
-/

namespace A2ZCore.Core

/-! ### Keys -/

/-- Keys by `kid`. -/
abbrev Jwks := List (String × Json)

/-- `_JWKS_TTL_SECONDS`. -/
def jwksTtlSeconds : ℚ := 24 * 3600

/-- `_jwks_cache`. What has been fetched, latest first, is kept for the statements: nothing reads it. -/
structure AuthState where
  jwksCache : Option (ℚ × Jwks)
  fetched : List (ℚ × Jwks)

/-- What the environment decides at a call of `_fetch_jwks`: the time, and the endpoint's answer in
case it is asked. -/
structure Fetching where
  now : ℚ
  reply : Except PyErr Jwks

/-- `_fetch_jwks`. -/
def fetchJwks (x : Fetching) (s : AuthState) : Except PyErr Jwks × AuthState :=
  match s.jwksCache.filter fun c => x.now - c.1 < jwksTtlSeconds with
  | some (_, keys) => (.ok keys, s)
  | none =>
    match x.reply with
    | .error e => (.error e, s)
    | .ok keys => (.ok keys, ⟨some (x.now, keys), (x.now, keys) :: s.fetched⟩)

/-- `_jwks_cache = None`. -/
def AuthState.drop (s : AuthState) : AuthState := { s with jwksCache := none }

/-- `keys.get(kid) if kid else None`. A list or an object is no key of a dict. -/
def lookupKid (keys : Jwks) : Option Json → Except PyErr (Option Json)
  | some (.str kid) => .ok (if kid = "" then none else keys.lookup kid)
  | some (.arr (_ :: _)) => .error ⟨.typeError, "unhashable type: 'list'"⟩
  | some (.obj (_ :: _)) => .error ⟨.typeError, "unhashable type: 'dict'"⟩
  | _ => .ok none

/-! ### Validation -/

/-- `InvalidTokenError`. -/
def invalidToken (text : String) : PyErr := ⟨.exception "InvalidTokenError", text⟩

/-- `jose.jwt`. The header of a token is not there where reading it is a `JWTError`; `decode` is given
the time, the token, the key, the algorithms and the issuer. -/
structure Jose where
  unverifiedHeader : String → Option (List (String × Json))
  decode : ℚ → String → Json → List String → Option String → Except PyErr (List (String × Json))

/-- The settings that are read. -/
structure AuthConfig where
  isProd : Bool
  testJwtSecret : String
  cognitoIssuer : String

/-- What the environment decides at a call of `validate_jwt`: at the two fetches it may make, and the
time of the validation. -/
structure AuthChoice where
  first : Fetching
  second : Fetching
  clock : ℚ

/-- The key of a token, in `_validate_cognito`. -/
def signingKey (kid : Option Json) (x : AuthChoice) (s : AuthState) : Except PyErr Json × AuthState :=
  match fetchJwks x.first s with
  | (.error e, s) => (.error e, s)
  | (.ok keys, s) =>
    match lookupKid keys kid with
    | .error e => (.error e, s)
    | .ok (some key) => (.ok key, s)
    | .ok none =>
      -- the keys are dropped whether or not they are fetched again
      if kid.any Json.truthy then
        match fetchJwks x.second s.drop with
        | (.error e, s) => (.error e, s)
        | (.ok keys, s) =>
          match lookupKid keys kid with
          | .error e => (.error e, s)
          | .ok (some key) => (.ok key, s)
          | .ok none => (.error (invalidToken "Signing key not found for token"), s)
      else (.error (invalidToken "Signing key not found for token"), s.drop)

/-- The handlers around `jwt.decode`. -/
def decoded : Except PyErr (List (String × Json)) → Except PyErr (List (String × Json))
  | .ok claims => .ok claims
  | .error exc =>
    if exc.cls = .exception "ExpiredSignatureError" then .error (invalidToken "Token expired")
    else if exc.cls ∈ [.exception "JWTError", .exception "JWTClaimsError"] then
      .error (invalidToken "Token validation failed")
    else .error exc

section Validation

variable (jose : Jose) (config : AuthConfig)

/-- `_validate_cognito`. -/
def validateCognito (token : String) (x : AuthChoice) (s : AuthState) :
    Except PyErr (List (String × Json)) × AuthState :=
  match jose.unverifiedHeader token with
  | none => (.error (invalidToken "Malformed token header"), s)
  | some header =>
    match signingKey (header.lookup "kid") x s with
    | (.error e, s) => (.error e, s)
    | (.ok key, s) =>
      (decoded (jose.decode x.clock token key ["RS256"] (some config.cognitoIssuer)), s)

/-- `_validate_test_token`. -/
def validateTestToken (token : String) (x : AuthChoice) : Except PyErr (List (String × Json)) :=
  if config.isProd then .error (invalidToken "Test tokens are not accepted in production")
  else decoded (jose.decode x.clock token (.str config.testJwtSecret) ["HS256"] none)

/-- `alg in _TEST_ALGS`. -/
def isTestAlg : Option Json → Bool
  | some (.str alg) => alg == "HS256"
  | _ => false

/-- `validate_jwt`. -/
def validateJwt (token : String) (x : AuthChoice) (s : AuthState) :
    Except PyErr (List (String × Json)) × AuthState :=
  if token = "" then (.error ⟨.exception "MissingTokenError", "No token provided"⟩, s)
  else match jose.unverifiedHeader token with
    | none => (.error (invalidToken "Malformed token header"), s)
    | some header =>
      if isTestAlg (header.lookup "alg") then (validateTestToken jose config token x, s)
      else validateCognito jose config token x s

/-! ### Calls -/

/-- A call of `validate_jwt`. -/
structure TokenCall where
  token : String
  choice : AuthChoice

/-- Before the first call. -/
def AuthState.initial : AuthState := ⟨none, []⟩

/-- The state after a sequence of calls. -/
def afterTokens : List TokenCall → AuthState → AuthState
  | [], s => s
  | c :: cs, s => afterTokens cs (validateJwt jose config c.token c.choice s).2

/-- The token is Cognito's, names one of the keys, and is valid under it. -/
structure ValidToken (keys : Jwks) (clock : ℚ) (token : String) (claims : List (String × Json)) :
    Prop where
  nonempty : token ≠ ""
  header : ∃ header kid key, jose.unverifiedHeader token = some header ∧
    isTestAlg (header.lookup "alg") = false ∧ header.lookup "kid" = some (.str kid) ∧ kid ≠ "" ∧
    keys.lookup kid = some key ∧
    jose.decode clock token key ["RS256"] (some config.cognitoIssuer) = .ok claims

/-- A token that names none of the keys at hand names some key, and the fetch for its sake succeeds. -/
def Harmless (c : TokenCall) (s : AuthState) : Prop :=
  c.token ≠ "" → ∀ header, jose.unverifiedHeader c.token = some header →
    isTestAlg (header.lookup "alg") = false → ∀ keys, (fetchJwks c.choice.first s).1 = .ok keys →
      lookupKid keys (header.lookup "kid") = .ok none →
        (header.lookup "kid").any Json.truthy = true ∧ ∃ keys', c.choice.second.reply = .ok keys'

/-- Each call of a sequence is harmless. -/
def AllHarmless : List TokenCall → AuthState → Prop
  | [], _ => True
  | c :: cs, s => Harmless jose c s ∧ AllHarmless cs (validateJwt jose config c.token c.choice s).2

end Validation

/-! ### What is kept -/

/-- The keys that were fetched last are kept. -/
def Kept (s : AuthState) : Prop :=
  ∀ r, s.fetched.head? = some r → s.jwksCache = some r

theorem kept_initial : Kept AuthState.initial := by
  intro r hr
  cases hr

theorem fetchJwks_of_cached {x : Fetching} {s : AuthState} {f : ℚ} {keys : Jwks}
    (hcache : s.jwksCache = some (f, keys)) (hfresh : x.now - f < jwksTtlSeconds) :
    fetchJwks x s = (.ok keys, s) := by
  have hfilter : (s.jwksCache.filter fun c => x.now - c.1 < jwksTtlSeconds) = some (f, keys) := by
    rw [hcache]
    exact if_pos (by simpa using hfresh)
  rw [fetchJwks, hfilter]

theorem fetchJwks_of_none {x : Fetching} {s : AuthState} (hcache : s.jwksCache = none) :
    fetchJwks x s = match x.reply with
      | .error e => (.error e, s)
      | .ok keys => (.ok keys, ⟨some (x.now, keys), (x.now, keys) :: s.fetched⟩) := by
  simp [fetchJwks, hcache]

/-- A fetch keeps what it fetches, and one that fails leaves what is kept. -/
theorem Kept.fetchJwks {s : AuthState} (h : Kept s) (x : Fetching) : Kept (fetchJwks x s).2 := by
  unfold Core.fetchJwks
  split
  · exact h
  · split
    · exact h
    · intro r hr
      simpa using hr

/-- Keys that are dropped and fetched again. -/
theorem kept_fetchJwks_drop {s : AuthState} {x : Fetching} {keys : Jwks} (h : x.reply = .ok keys) :
    Kept (fetchJwks x s.drop).2 := by
  intro r hr
  rw [fetchJwks_of_none rfl, h] at hr ⊢
  simpa using hr

/-- The key of a token is looked for, and keys are left behind. -/
theorem Kept.signingKey {s : AuthState} (h : Kept s) {kid : Option Json} {x : AuthChoice}
    (hharmless : ∀ keys, (Core.fetchJwks x.first s).1 = .ok keys → lookupKid keys kid = .ok none →
      kid.any Json.truthy = true ∧ ∃ keys', x.second.reply = .ok keys') :
    Kept (signingKey kid x s).2 := by
  have hfirst := h.fetchJwks x.first
  unfold Core.signingKey
  rcases hfetch : Core.fetchJwks x.first s with ⟨e | keys, s₁⟩
  · simpa [hfetch] using hfirst
  · rw [hfetch] at hfirst
    dsimp only
    cases hkid : lookupKid keys kid with
    | error e => exact hfirst
    | ok found =>
      cases found with
      | some key => exact hfirst
      | none =>
        obtain ⟨htruthy, keys', hreply⟩ := hharmless keys (by rw [hfetch]) hkid
        have hsecond := kept_fetchJwks_drop (s := s₁) hreply
        dsimp only
        rw [if_pos htruthy]
        rcases hrefetch : Core.fetchJwks x.second s₁.drop with ⟨e | keys'', s₂⟩
        · simpa [hrefetch] using hsecond
        · rw [hrefetch] at hsecond
          dsimp only
          rcases lookupKid keys'' kid with e | (_ | key) <;> exact hsecond

/-- Keys that are dropped for a token and not fetched again are gone. -/
theorem jwksCache_signingKey {s : AuthState} {kid : Option Json} {x : AuthChoice} {keys : Jwks}
    (hfetch : (fetchJwks x.first s).1 = .ok keys) (hkid : lookupKid keys kid = .ok none)
    (hlost : ¬(kid.any Json.truthy = true ∧ ∃ keys', x.second.reply = .ok keys')) :
    (signingKey kid x s).2.jwksCache = none := by
  unfold signingKey
  rcases hfirst : fetchJwks x.first s with ⟨e | keys₁, s₁⟩
  · rw [hfirst] at hfetch
    cases hfetch
  · rw [hfirst] at hfetch
    cases hfetch
    dsimp only
    rw [hkid]
    dsimp only
    by_cases htruthy : kid.any Json.truthy = true
    · rw [if_pos htruthy, fetchJwks_of_none rfl]
      cases hreply : x.second.reply with
      | error e => rfl
      | ok keys' => exact absurd ⟨htruthy, keys', hreply⟩ hlost
    · rw [if_neg htruthy]
      rfl

section Calls

variable {jose : Jose} {config : AuthConfig}

/-- One call. -/
theorem Kept.validateJwt {s : AuthState} (h : Kept s) {c : TokenCall} (hc : Harmless jose c s) :
    Kept (validateJwt jose config c.token c.choice s).2 := by
  unfold Core.validateJwt
  by_cases hempty : c.token = ""
  · rwa [if_pos hempty]
  · rw [if_neg hempty]
    cases hheader : jose.unverifiedHeader c.token with
    | none => exact h
    | some header =>
      dsimp only
      by_cases halg : isTestAlg (header.lookup "alg") = true
      · rwa [if_pos halg]
      · rw [if_neg halg]
        have hkept := h.signingKey
          (hc hempty header hheader (Bool.eq_false_of_not_eq_true halg))
        unfold validateCognito
        rw [hheader]
        dsimp only
        rcases hkey : Core.signingKey (header.lookup "kid") c.choice s with ⟨e | key, s₁⟩
        · simpa [hkey] using hkept
        · simpa [hkey] using hkept

/-- A sequence of calls. -/
theorem Kept.afterTokens {cs : List TokenCall} {s : AuthState} (h : Kept s)
    (hcs : AllHarmless jose config cs s) : Kept (afterTokens jose config cs s) := by
  induction cs generalizing s with
  | nil => exact h
  | cons c cs ih => exact ih (h.validateJwt hcs.1) hcs.2

/-- A call that is not harmless leaves no keys. -/
theorem jwksCache_of_not_harmless {s : AuthState} {c : TokenCall} (hc : ¬Harmless jose c s) :
    (validateJwt jose config c.token c.choice s).2.jwksCache = none := by
  simp only [Harmless, Classical.not_imp, not_forall] at hc
  obtain ⟨hempty, header, hheader, halg, keys, hfetch, hkid, hlost⟩ := hc
  have hdropped := jwksCache_signingKey hfetch hkid hlost
  unfold validateJwt validateCognito
  rw [if_neg hempty, hheader]
  dsimp only
  rw [if_neg (by rw [halg]; exact Bool.false_ne_true)]
  rcases hkey : signingKey (header.lookup "kid") c.choice s with ⟨e | key, s₁⟩
  · simpa [hkey] using hdropped
  · simpa [hkey] using hdropped

/-- A valid token is accepted where the keys are kept. -/
theorem validateJwt_of_cached {s : AuthState} {f : ℚ} {keys : Jwks} {token : String}
    {x : AuthChoice} {claims : List (String × Json)} (hcache : s.jwksCache = some (f, keys))
    (hfresh : x.first.now - f < jwksTtlSeconds)
    (hvalid : ValidToken jose config keys x.clock token claims) :
    (validateJwt jose config token x s).1 = .ok claims := by
  obtain ⟨hempty, header, kid, key, hheader, halg, hkid, hkid', hlookup, hdecode⟩ := hvalid
  have hfetch := fetchJwks_of_cached hcache hfresh
  have hkey : signingKey (header.lookup "kid") x s = (.ok key, s) := by
    simp [signingKey, hfetch, hkid, lookupKid, hkid', hlookup]
  simp [validateJwt, validateCognito, hempty, hheader, halg, hkey, hdecode, decoded]

/-- Where there are no keys, a valid token is as good as the endpoint. -/
theorem validateJwt_of_none {s : AuthState} {keys : Jwks} {token : String} {x : AuthChoice}
    {claims : List (String × Json)} {e : PyErr} (hcache : s.jwksCache = none)
    (hreply : x.first.reply = .error e)
    (hvalid : ValidToken jose config keys x.clock token claims) :
    (validateJwt jose config token x s).1 = .error e := by
  obtain ⟨hempty, header, kid, key, hheader, halg, hkid, hkid', hlookup, hdecode⟩ := hvalid
  have hfetch : fetchJwks x.first s = (.error e, s) := by
    rw [fetchJwks_of_none hcache, hreply]
  have hkey : signingKey (header.lookup "kid") x s = (.error e, s) := by
    simp [signingKey, hfetch]
  simp [validateJwt, validateCognito, hempty, hheader, halg, hkey]

end Calls

/-- **When a valid token is accepted.** In a run in which every presented token that names none of the
keys at hand names some key, and causes a fetch that succeeds, the keys that were fetched last are
there for a day, whatever else is presented and whenever else the endpoint fails. A single call that is
not of this kind leaves no keys, and until the endpoint answers again every valid token is refused. -/
theorem validateJwt_of_harmless (jose : Jose) (config : AuthConfig) :
    (∀ cs, AllHarmless jose config cs AuthState.initial → ∀ f keys,
      (afterTokens jose config cs AuthState.initial).fetched.head? = some (f, keys) →
      ∀ token x claims, ValidToken jose config keys x.clock token claims →
        x.first.now - f < jwksTtlSeconds →
        (validateJwt jose config token x (afterTokens jose config cs AuthState.initial)).1 =
          .ok claims) ∧
    ∀ s c, ¬Harmless jose c s → ∀ keys token x claims,
      ValidToken jose config keys x.clock token claims → ∀ e, x.first.reply = .error e →
        (validateJwt jose config token x (validateJwt jose config c.token c.choice s).2).1 =
          .error e := by
  constructor
  · intro cs hcs f keys hfetched token x claims hvalid hfresh
    have hkept := kept_initial.afterTokens hcs
    exact validateJwt_of_cached (hkept _ hfetched) hfresh hvalid
  · intro s c hc keys token x claims hvalid e hreply
    exact validateJwt_of_none (jwksCache_of_not_harmless hc) hreply hvalid

/-! ### A forged token while the endpoint is down -/

/-- A library that knows two tokens, one of which is valid under the key `K1`. -/
def sampleJose : Jose where
  unverifiedHeader token :=
    if token = "good" then some [("alg", .str "RS256"), ("kid", .str "k1")]
    else if token = "forged" then some [("alg", .str "RS256"), ("kid", .str "k2")]
    else none
  decode _ token key _ _ :=
    match key with
    | .str k => if token = "good" ∧ k = "K1" then .ok [("sub", .str "ada")]
      else .error ⟨.exception "JWTError", "Signature verification failed."⟩
    | _ => .error ⟨.exception "JWTError", "Signature verification failed."⟩

/-- The production settings. -/
def prodConfig : AuthConfig := ⟨true, "", "https://cognito-idp.us-east-1.amazonaws.com/pool"⟩

/-- The endpoint cannot be reached. -/
def unreachable (now : ℚ) : Fetching := ⟨now, .error ⟨.exception "URLError", "timed out"⟩⟩

/-- A choice at a time at which the endpoint cannot be reached. -/
def isolated (now : ℚ) : AuthChoice := ⟨unreachable now, unreachable now, now⟩

/-- A valid token is presented, for which the keys are fetched. -/
def firstToken : TokenCall := ⟨"good", ⟨⟨0, .ok [("k1", .str "K1")]⟩, unreachable 0, 0⟩⟩

theorem validToken_good (now : ℚ) : ValidToken sampleJose prodConfig
    [("k1", .str "K1")] now "good" [("sub", .str "ada")] :=
  ⟨by decide, _, "k1", .str "K1", rfl, rfl, rfl, by decide, rfl, rfl⟩

/-- With a malformed token in between, a valid one is accepted while the endpoint is down. -/
theorem validateJwt_of_harmless_malformed :
    (validateJwt sampleJose prodConfig "good" (isolated 3600) (afterTokens sampleJose prodConfig
      [firstToken, ⟨"malformed", isolated 60⟩] AuthState.initial)).1 = .ok [("sub", .str "ada")] := by
  have hfirst : Harmless sampleJose firstToken AuthState.initial := by
    intro _ header hheader _ keys hkeys hkid
    cases hheader
    cases hkeys
    cases hkid
  have hsecond : ∀ s, Harmless sampleJose ⟨"malformed", isolated 60⟩ s := by
    intro s _ header hheader
    cases hheader
  have hfresh : (isolated 3600).first.now - 0 < jwksTtlSeconds := by
    decide +kernel
  exact (validateJwt_of_harmless sampleJose prodConfig).1
    [firstToken, ⟨"malformed", isolated 60⟩] ⟨hfirst, hsecond _, trivial⟩ 0 [("k1", .str "K1")] rfl
    "good" (isolated 3600) [("sub", .str "ada")] (validToken_good 3600) hfresh

/-- A forged token that names another key takes the keys away. -/
theorem not_validateJwt : ¬∀ (jose : Jose) (config : AuthConfig) (cs : List TokenCall) (f : ℚ)
    (keys : Jwks), (afterTokens jose config cs AuthState.initial).fetched.head? = some (f, keys) →
    ∀ token x claims, ValidToken jose config keys x.clock token claims →
      x.first.now - f < jwksTtlSeconds →
      (validateJwt jose config token x (afterTokens jose config cs AuthState.initial)).1 =
        .ok claims := by
  intro h
  have hfresh : (isolated 3600).first.now - 0 < jwksTtlSeconds := by
    decide +kernel
  have hforged : afterTokens sampleJose prodConfig [firstToken, ⟨"forged", isolated 60⟩]
      AuthState.initial = ⟨none, [(0, [("k1", .str "K1")])]⟩ := by
    have hcached : fetchJwks (isolated 60).first
        ⟨some (0, [("k1", .str "K1")]), [(0, [("k1", .str "K1")])]⟩ =
          (.ok [("k1", .str "K1")], ⟨some (0, [("k1", .str "K1")]), [(0, [("k1", .str "K1")])]⟩) :=
      fetchJwks_of_cached rfl (by decide +kernel)
    show (validateJwt sampleJose prodConfig "forged" (isolated 60)
      ⟨some (0, [("k1", .str "K1")]), [(0, [("k1", .str "K1")])]⟩).2 = _
    rw [validateJwt, validateCognito, if_neg (by decide)]
    simp only [sampleJose, signingKey, hcached]
    rfl
  have haccepted := h sampleJose prodConfig [firstToken, ⟨"forged", isolated 60⟩] 0
    [("k1", .str "K1")] (by rw [hforged]; rfl) "good" (isolated 3600) [("sub", .str "ada")]
    (validToken_good 3600) hfresh
  have hrefused : (validateJwt sampleJose prodConfig "good" (isolated 3600)
      ⟨none, [(0, [("k1", .str "K1")])]⟩).1 = .error ⟨.exception "URLError", "timed out"⟩ := rfl
  rw [hforged, hrefused] at haccepted
  cases haccepted

end A2ZCore.Core
