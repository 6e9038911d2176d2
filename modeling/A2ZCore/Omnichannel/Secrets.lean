import A2ZCore.Core.Orgs
import A2ZCore.Omnichannel.Connections

/-!
# Secrets and their cache

`get_secret` keeps what it reads for five minutes, and `put_secret` drops what is kept of the secret it
has written. With every call done before the next one begins, nobody can tell: what is read is what
was written last. This rests on two things. A name and a cache key belong to one secret only, since
an org's id and a service type hold no separator. And where a write fails, it has had no effect, so
that what is kept is still true.

## Main definitions

* `Secret`, `SecretCall` — a secret, and a call of `get_secret` or `put_secret`
* `latestPut` — what the last successful `put_secret` of a secret has written
* `Reflects` — Secrets Manager holds what was put, and the cache nothing else

## Main results

* `getSecret_eq_latestPut` — what is read is what was put last
-/

namespace A2ZCore.Omnichannel

open Interaction Interaction.Proc Interaction.Contract A2ZCore.Core

/-! ### Calls -/

/-- What a secret is filed under. -/
structure Secret where
  orgId : String
  serviceType : String
  key : String
  deriving DecidableEq, Repr

namespace Secret

/-- `_secret_name`. -/
def name (s : Secret) : String := secretName s.orgId s.serviceType s.key

/-- `_cache_key`. -/
def cacheKey (s : Secret) : String := secretCacheKey s.orgId s.serviceType s.key

/-- The org is one that `create_org` can make, and the service type holds no separator. -/
structure Filed (s : Secret) : Prop where
  org : IsOrgId s.orgId
  colon : ':' ∉ s.serviceType.toList
  slash : '/' ∉ s.serviceType.toList

end Secret

/-- A call of `get_secret`, or of `put_secret` with a JSON object. -/
inductive SecretCall where
  | get (s : Secret)
  | put (s : Secret) (value : List (String × Json))

namespace SecretCall

/-- The secret a call is about. -/
def secret : SecretCall → Secret
  | get s => s
  | put s _ => s

/-- The run of a call. `put_secret` returns `None`. -/
def exec (c : SecretCall) (o : Oracle ConnectionChoice) (w : World) :
    Option (Except PyErr Json) × World :=
  match c with
  | get s => Proc.exec ConnectionCall.answer
      (elsewhere (service (core (getSecret s.orgId s.serviceType s.key)))) o w
  | put s value =>
    let r := Proc.exec ConnectionCall.answer
      (putSecret s.orgId s.serviceType s.key (.obj value)) o w
    (r.1.map fun result => result.map fun _ => .null, r.2)

/-- The call returns. -/
def succeeds (c : SecretCall) (o : Oracle ConnectionChoice) (w : World) : Bool :=
  match (c.exec o w).1 with
  | some (.ok _) => true
  | _ => false

end SecretCall

/-- What is known to be stored, by secret. -/
abbrev Known := Secret → Option Json

/-- What is known after a call: a `put_secret` that succeeds stores its value. -/
def SecretCall.learn (c : SecretCall) (o : Oracle ConnectionChoice) (w : World) (known : Known) :
    Known :=
  match c with
  | get _ => known
  | put s value => if c.succeeds o w then Function.update known s (some (.obj value)) else known

/-- A sequence of calls, each with what the environment decides at it. -/
abbrev SecretCalls := List (SecretCall × Oracle ConnectionChoice)

/-- The state after a sequence of calls. -/
def afterSecrets : SecretCalls → World → World
  | [], w => w
  | (c, o) :: cs, w => afterSecrets cs (c.exec o w).2

/-- What the last successful `put_secret` of each secret has written. -/
def latestPut : SecretCalls → World → Known → Known
  | [], _, known => known
  | (c, o) :: cs, w, known => latestPut cs (c.exec o w).2 (c.learn o w known)

/-- No call is stopped, and a remote call either takes effect or fails without effect. -/
def Settled (o : Oracle ConnectionChoice) : Prop :=
  ∀ n, ∃ x, o n = some x ∧ ∀ e, x.fate ≠ .late e

/-- What `get_secret` answers, where it is not hindered. -/
def expected (s : Secret) : Option Json → Except PyErr Json
  | some value => .ok value
  | none => .error ⟨.secretNotFoundError, "No secret at " ++ s.name⟩

/-! ### Names -/

/-- Three parts with a separator between them, which the first two do not hold. -/
theorem joined_injective (pfx sep : String) {d : Char} (hsep : sep.toList = [d]) {s t : Secret}
    (hs : d ∉ s.orgId.toList ∧ d ∉ s.serviceType.toList)
    (ht : d ∉ t.orgId.toList ∧ d ∉ t.serviceType.toList)
    (h : pfx ++ s.orgId ++ sep ++ s.serviceType ++ sep ++ s.key =
      pfx ++ t.orgId ++ sep ++ t.serviceType ++ sep ++ t.key) : s = t := by
  have hchars := congrArg String.toList h
  simp only [String.toList_append, hsep, List.append_assoc, List.singleton_append] at hchars
  obtain ⟨horg, hrest⟩ := append_cons_inj_of_not_mem hs.1 ht.1 (List.append_cancel_left hchars)
  obtain ⟨hservice, hkey⟩ := append_cons_inj_of_not_mem hs.2 ht.2 hrest
  obtain ⟨orgId, serviceType, key⟩ := s
  obtain rfl := String.toList_inj.mp horg
  obtain rfl := String.toList_inj.mp hservice
  obtain rfl := String.toList_inj.mp hkey
  rfl

theorem Secret.Filed.name_inj {s t : Secret} (hs : s.Filed) (ht : t.Filed) (h : s.name = t.name) :
    s = t :=
  joined_injective _ "/" rfl ⟨hs.org.not_mem rfl (by decide), hs.slash⟩
    ⟨ht.org.not_mem rfl (by decide), ht.slash⟩ h

theorem Secret.Filed.cacheKey_inj {s t : Secret} (hs : s.Filed) (ht : t.Filed)
    (h : s.cacheKey = t.cacheKey) : s = t :=
  joined_injective _ ":" rfl ⟨hs.org.not_mem rfl (by decide), hs.colon⟩
    ⟨ht.org.not_mem rfl (by decide), ht.colon⟩ h

/-! ### What is stored, and what is kept -/

/-- Secrets Manager holds what is known, and what the cache holds is known too. -/
def Reflects (known : Known) (w : World) : Prop :=
  ∀ s : Secret, s.Filed → w.core.secrets s.name = known s ∧
    ∀ expiresAt value, w.core.secretCache s.cacheKey = some (expiresAt, value) →
      known s = some value

section Steps

variable {known : Known} {w w' : World} {s : Secret}

/-- The cache may lose entries. -/
theorem Reflects.forget (h : Reflects known w) (hsecrets : w'.core.secrets = w.core.secrets)
    (hcache : ∀ key entry, w'.core.secretCache key = some entry → w.core.secretCache key = some entry) :
    Reflects known w' := by
  intro t ht
  refine ⟨hsecrets ▸ (h t ht).1, fun expiresAt value hentry => ?_⟩
  exact (h t ht).2 expiresAt value (hcache _ _ hentry)

/-- The cache is asked for a key. -/
theorem answer_secretCacheGet (key : String) (x : ConnectionChoice) (w : World) :
    (∃ expiresAt value, w.core.secretCache key = some (expiresAt, value) ∧
      answerCore (.secretCacheGet key) x w = (.ok (some value), w)) ∨
    ∃ w', answerCore (.secretCacheGet key) x w = (.ok none, w') ∧
      w'.core.secrets = w.core.secrets ∧
      ∀ k entry, w'.core.secretCache k = some entry → w.core.secretCache k = some entry := by
  unfold answerCore Core.Call.answer
  dsimp only
  cases hentry : w.core.secretCache key with
  | none => exact .inr ⟨_, rfl, rfl, fun _ _ h => h⟩
  | some entry =>
    obtain ⟨expiresAt, value⟩ := entry
    by_cases hexpired : expiresAt ≤ x.monotonic
    · simp only [if_pos hexpired]
      refine .inr ⟨_, rfl, rfl, fun k entry hk => ?_⟩
      by_cases hkey : k = key
      · simp [hkey] at hk
      · simpa [hkey] using hk
    · simp only [if_neg hexpired]
      exact .inl ⟨expiresAt, value, rfl, rfl⟩

/-- Secrets Manager is asked for a secret. -/
theorem answer_getSecretValue (name : String) {x : ConnectionChoice} (hx : ∀ e, x.fate ≠ .late e)
    (w : World) : answerCore (.getSecretValue name) x w = (match w.core.secrets name with
        | some value => .ok value
        | none => .error ⟨.clientError "ResourceNotFoundException", "Secret is missing"⟩, w) ∨
      x.fate ≠ .ok ∧ ∃ e, answerCore (.getSecretValue name) x w = (.error e, w) := by
  unfold answerCore Core.Call.answer
  dsimp only
  cases hfate : x.fate with
  | ok =>
    refine .inl ?_
    cases w.core.secrets name <;> rfl
  | lost e =>
    refine .inr ⟨by simp, ?_⟩
    cases w.core.secrets name with
    | none => exact ⟨_, rfl⟩
    | some value => exact ⟨e, rfl⟩
  | late e => exact absurd hfate (hx e)

variable {A : ConnectionChoice → Prop}

/-- **A read**: it answers what is known, or fails because Secrets Manager fails. -/
theorem wp_getSecret_known (hA : ∀ x, A x → ∀ e, x.fate ≠ .late e) (hs : s.Filed)
    (hw : Reflects known w) :
    (alone answerCore A).wp (getSecret s.orgId s.serviceType s.key) w fun r w' =>
      Reflects known w' ∧ (r = expected s (known s) ∨
        (∃ e, r = .error e) ∧ ∃ x, A x ∧ x.fate ≠ .ok) := by
  refine wp_bind (wp_alone_perform fun x _ => ?_)
  rcases answer_secretCacheGet s.cacheKey x w with
    ⟨expiresAt, value, hentry, hanswer⟩ | ⟨w₁, hanswer, hsecrets, hcache⟩
  · have hanswer' : answerCore (.secretCacheGet (secretCacheKey s.orgId s.serviceType s.key)) x w =
        (.ok (some value), w) := hanswer
    rw [hanswer']
    refine ⟨hw, .inl ?_⟩
    rw [(hw s hs).2 expiresAt value hentry]
    rfl
  · have hanswer' : answerCore (.secretCacheGet (secretCacheKey s.orgId s.serviceType s.key)) x w =
        (.ok none, w₁) := hanswer
    rw [hanswer']
    have hw₁ : Reflects known w₁ := hw.forget hsecrets hcache
    refine wp_bind (wp_handle (wp_alone_perform fun x₁ hx₁ => ?_))
    have hname : secretName s.orgId s.serviceType s.key = s.name := rfl
    rw [hname]
    rcases answer_getSecretValue s.name (hA x₁ hx₁) w₁ with hreply | ⟨hfate, e, hreply⟩
    · rw [hreply, (hw₁ s hs).1]
      cases hknown : known s with
      | none => exact ⟨hw₁, .inl rfl⟩
      | some value =>
        refine wp_bind (wp_alone_perform fun x₂ _ => ⟨fun t ht => ?_, .inl rfl⟩)
        refine ⟨(hw₁ t ht).1, fun expiresAt value' hentry => ?_⟩
        have hentry' : Function.update w₁.core.secretCache s.cacheKey
            (some (x₂.monotonic + ((300 : ℕ) : ℚ), value)) t.cacheKey =
              some (expiresAt, value') := hentry
        by_cases hkey : t.cacheKey = s.cacheKey
        · obtain rfl := ht.cacheKey_inj hs hkey
          rw [Function.update_self] at hentry'
          cases hentry'
          exact hknown
        · rw [Function.update_of_ne hkey] at hentry'
          exact (hw₁ t ht).2 expiresAt value' hentry'
    · rw [hreply]
      show (alone answerCore A).wp _ w₁ _
      dsimp only
      split <;> exact ⟨hw₁, .inr ⟨⟨_, rfl⟩, x₁, hx₁, hfate⟩⟩

/-- Secrets Manager is told to write a secret. -/
theorem settle_withSecret {x : ConnectionChoice} (hx : ∀ e, x.fate ≠ .late e) {name : String}
    {value : Json} {effect : Except PyErr (Unit × World)}
    (heffect : ∀ r, effect = .ok r → r = ((), w.withSecret name value)) :
    x.fate.settle effect w = (.ok (), w.withSecret name value) ∨
      ∃ e, x.fate.settle effect w = (.error e, w) := by
  cases effect with
  | error e =>
    rw [Fate.settle_error]
    exact .inr ⟨_, rfl⟩
  | ok r =>
    obtain rfl := heffect r rfl
    cases hfate : x.fate with
    | ok => exact .inl rfl
    | lost e => exact .inr ⟨e, rfl⟩
    | late e => exact absurd hfate (hx e)

theorem answer_putSecretValue (name : String) (value : Json) {x : ConnectionChoice}
    (hx : ∀ e, x.fate ≠ .late e) (w : World) :
    ConnectionCall.answer (.putSecretValue name value) x w = (.ok (), w.withSecret name value) ∨
      ∃ e, ConnectionCall.answer (.putSecretValue name value) x w = (.error e, w) := by
  refine settle_withSecret hx fun r hr => ?_
  split at hr <;> cases hr
  rfl

theorem answer_createSecret (name : String) (value : Json) {x : ConnectionChoice}
    (hx : ∀ e, x.fate ≠ .late e) (w : World) :
    ConnectionCall.answer (.createSecret name value) x w = (.ok (), w.withSecret name value) ∨
      ∃ e, ConnectionCall.answer (.createSecret name value) x w = (.error e, w) := by
  refine settle_withSecret hx fun r hr => ?_
  split at hr <;> cases hr
  rfl

/-- The secret is written, or the call fails and has written nothing. -/
theorem wp_writeSecret_settled (hA : ∀ x, A x → ∀ e, x.fate ≠ .late e) (name : String)
    (value : Json) (w : World) :
    (alone ConnectionCall.answer A).wp (writeSecret name value) w fun r w' =>
      (r = .ok () ∧ w' = w.withSecret name value) ∨ ((∃ e, r = .error e) ∧ w' = w) := by
  refine wp_handle (wp_alone_perform fun x hx => ?_)
  rcases answer_putSecretValue name value (hA x hx) w with hput | ⟨exc, hput⟩
  · rw [hput]
    exact .inl ⟨rfl, rfl⟩
  · rw [hput]
    show (alone ConnectionCall.answer A).wp _ w _
    dsimp only
    split
    · refine wp_handle (wp_alone_perform fun x₁ hx₁ => ?_)
      rcases answer_createSecret name value (hA x₁ hx₁) w with hcreate | ⟨createExc, hcreate⟩
      · rw [hcreate]
        exact .inl ⟨rfl, rfl⟩
      · rw [hcreate]
        show (alone ConnectionCall.answer A).wp _ w _
        dsimp only
        split <;> exact .inr ⟨⟨_, rfl⟩, rfl⟩
    · exact .inr ⟨⟨_, rfl⟩, rfl⟩
    · exact .inr ⟨⟨_, rfl⟩, rfl⟩

/-- A secret that is written, and no longer kept. -/
theorem Reflects.put (hs : s.Filed) (hw : Reflects known w) {value : Json}
    (hsecrets : w'.core.secrets = Function.update w.core.secrets s.name (some value))
    (hcache : w'.core.secretCache = Function.update w.core.secretCache s.cacheKey none) :
    Reflects (Function.update known s (some value)) w' := by
  intro t ht
  rw [hsecrets, hcache]
  by_cases hts : t = s
  · subst hts
    refine ⟨by rw [Function.update_self, Function.update_self], fun expiresAt value' hentry => ?_⟩
    rw [Function.update_self] at hentry
    cases hentry
  · have hname : t.name ≠ s.name := fun h => hts (ht.name_inj hs h)
    have hkey : t.cacheKey ≠ s.cacheKey := fun h => hts (ht.cacheKey_inj hs h)
    rw [Function.update_of_ne hname, Function.update_of_ne hkey, Function.update_of_ne hts]
    exact hw t ht

/-- **A write**: what is known is the value, or what it was. -/
theorem wp_putSecret_known (hA : ∀ x, A x → ∀ e, x.fate ≠ .late e) (hs : s.Filed)
    (hw : Reflects known w) (value : Json) :
    (alone ConnectionCall.answer A).wp (putSecret s.orgId s.serviceType s.key value) w fun r w' =>
      (r = .ok () ∧ Reflects (Function.update known s (some value)) w') ∨
        ((∃ e, r = .error e) ∧ Reflects known w') := by
  refine wp_bind (wp_mono (fun r w₁ hwritten => ?_) (wp_writeSecret_settled hA _ value w))
  rcases hwritten with ⟨rfl, rfl⟩ | ⟨⟨e, rfl⟩, rfl⟩
  · refine wp_alone_perform fun x _ => .inl ⟨rfl, hw.put hs rfl rfl⟩
  · exact .inr ⟨⟨e, rfl⟩, hw⟩

end Steps

/-! ### Sequences of calls -/

/-- A run that is not stopped ends. -/
theorem Settled.isSome {o : Oracle ConnectionChoice} (ho : Settled o) (n : ℕ) : (o n).isSome := by
  obtain ⟨x, hx, _⟩ := ho n
  rw [hx]
  rfl

/-- What a settled environment decides. -/
theorem Settled.not_late {o : Oracle ConnectionChoice} (ho : Settled o) :
    ∀ x, (∃ n, o n = some x) → ∀ e, x.fate ≠ .late e := by
  rintro x ⟨n, hn⟩
  obtain ⟨y, hy, hlate⟩ := ho n
  cases hn.symm.trans hy
  exact hlate

section Runs

variable {known : Known} {o : Oracle ConnectionChoice} {w : World}

/-- The outcome of a read, and what it leaves. -/
theorem exec_get (ho : Settled o) {s : Secret} (hs : s.Filed) (hw : Reflects known w) :
    Reflects known ((SecretCall.get s).exec o w).2 ∧
      (((SecretCall.get s).exec o w).1 = some (expected s (known s)) ∨
        (∃ e, ((SecretCall.get s).exec o w).1 = some (.error e)) ∧
          ∃ n x, o n = some x ∧ x.fate ≠ .ok) := by
  have hends : ∃ r w', Proc.exec answerCore (getSecret s.orgId s.serviceType s.key) o w =
      (some r, w') := exists_exec_eq_some _ ho.isSome w
  obtain ⟨r, w', hrun⟩ := hends
  have hexec : (SecretCall.get s).exec o w = (some r, w') := (exec_core _ o w).trans hrun
  rw [hexec]
  obtain ⟨hreflects, hr⟩ := exec_alone (wp_getSecret_known ho.not_late hs hw) (fun n x hx => ⟨n, hx⟩)
    hrun
  refine ⟨hreflects, ?_⟩
  rcases hr with rfl | ⟨⟨e, rfl⟩, x, ⟨n, hn⟩, hfate⟩
  · exact .inl rfl
  · exact .inr ⟨⟨e, rfl⟩, n, x, hn, hfate⟩

/-- One call. -/
theorem reflects_exec (ho : Settled o) {c : SecretCall} (hs : c.secret.Filed)
    (hw : Reflects known w) : Reflects (c.learn o w known) (c.exec o w).2 := by
  cases c with
  | get s => exact (exec_get ho hs hw).1
  | put s value =>
    have hends : ∃ r w', Proc.exec ConnectionCall.answer
        (putSecret s.orgId s.serviceType s.key (.obj value)) o w = (some r, w') :=
      exists_exec_eq_some _ ho.isSome w
    obtain ⟨r, w', hrun⟩ := hends
    have hexec : (SecretCall.put s value).exec o w = (some (r.map fun _ => .null), w') := by
      rw [SecretCall.exec, hrun]
      rfl
    rw [SecretCall.learn, SecretCall.succeeds, hexec]
    rcases exec_alone (wp_putSecret_known ho.not_late hs hw (.obj value)) (fun n x hx => ⟨n, hx⟩)
      hrun with ⟨rfl, hreflects⟩ | ⟨⟨e, rfl⟩, hreflects⟩
    · exact hreflects
    · exact hreflects

/-- A sequence of calls. -/
theorem reflects_afterSecrets {cs : SecretCalls}
    (hcalls : ∀ r ∈ cs, r.1.secret.Filed ∧ Settled r.2) (hw : Reflects known w) :
    Reflects (latestPut cs w known) (afterSecrets cs w) := by
  induction cs generalizing w known with
  | nil => exact hw
  | cons r cs ih =>
    obtain ⟨hs, ho⟩ := hcalls r List.mem_cons_self
    exact ih (fun r' hr' => hcalls r' (List.mem_cons_of_mem r hr')) (reflects_exec ho hs hw)

end Runs

/-- **The cache is invisible.** In every sequence of calls, each done before the next begins, at
whatever times, a `get_secret` answers with what the last successful `put_secret` of that secret has
written, and with `SecretNotFoundError` where there was none; unless Secrets Manager fails during the
call, which then fails. -/
theorem getSecret_eq_latestPut {cs : SecretCalls}
    (hcalls : ∀ r ∈ cs, r.1.secret.Filed ∧ Settled r.2) {w : World}
    (hsecrets : ∀ name, w.core.secrets name = none) (hcache : ∀ key, w.core.secretCache key = none) :
    ∀ earlier s o later, cs = earlier ++ (.get s, o) :: later →
      ((SecretCall.get s).exec o (afterSecrets earlier w)).1 =
          some (expected s (latestPut earlier w (fun _ => none) s)) ∨
        (∃ e, ((SecretCall.get s).exec o (afterSecrets earlier w)).1 = some (.error e)) ∧
          ∃ n x, o n = some x ∧ x.fate ≠ .ok := by
  rintro earlier s o later rfl
  obtain ⟨hs, ho⟩ := hcalls (.get s, o) (by simp)
  have hstart : Reflects (fun _ => none) w := by
    intro t _
    refine ⟨hsecrets _, fun expiresAt value hentry => ?_⟩
    rw [hcache] at hentry
    cases hentry
  have hbefore := reflects_afterSecrets
    (fun r hr => hcalls r (List.mem_append_left _ hr)) hstart
  exact (exec_get ho hs hbefore).2

/-- The credentials of a WhatsApp connection. -/
def whatsappSecret : Secret := ⟨"acme-1a2b3c4d", "omnichannel", "whatsapp"⟩

/-- A deployment without secrets. -/
def noSecrets : World := { inboxWorld with core := Core.World.initial }

/-- Everything works. -/
def unhindered : Oracle ConnectionChoice := fun _ => some { Choice.calm "" with dkimTokens := [] }

/-- What is written is read from Secrets Manager, and then from the cache. -/
theorem getSecret_eq_latestPut_cached :
    ((SecretCall.get whatsappSecret).exec unhindered (afterSecrets
      [(.put whatsappSecret [("access_token", .str "token")], unhindered),
        (.get whatsappSecret, unhindered)] noSecrets)).1 =
      some (.ok (.obj [("access_token", .str "token")])) := by
  have hfiled : whatsappSecret.Filed :=
    ⟨⟨"acme", "1a2b3c4d", List.all_eq_true.mp (by decide), by decide +kernel⟩, by decide, by decide⟩
  have hsettled : Settled unhindered := by
    intro n
    refine ⟨_, rfl, fun e h => ?_⟩
    cases h
  have hcalls : ∀ r ∈ ([(.put whatsappSecret [("access_token", .str "token")], unhindered),
      (.get whatsappSecret, unhindered), (.get whatsappSecret, unhindered)] : SecretCalls),
      r.1.secret.Filed ∧ Settled r.2 := by
    intro r hr
    simp only [List.mem_cons, List.not_mem_nil, or_false] at hr
    rcases hr with rfl | rfl | rfl <;> exact ⟨hfiled, hsettled⟩
  rcases getSecret_eq_latestPut hcalls (w := noSecrets) (fun _ => rfl) (fun _ => rfl)
    [(.put whatsappSecret [("access_token", .str "token")], unhindered),
      (.get whatsappSecret, unhindered)] whatsappSecret unhindered [] rfl with h | ⟨_, n, x, hx, hfate⟩
  · exact h
  · cases hx
    exact absurd rfl hfate

end A2ZCore.Omnichannel
