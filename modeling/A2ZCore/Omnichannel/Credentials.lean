import A2ZCore.Omnichannel.Secrets
import Mathlib

/-!
# The credentials of a send

A send reads the secret of its connection, from the process's cache if it is kept there, and merges it
over the id of the org. While secrets are only read, what the cache keeps of a secret stays what
Secrets Manager holds, since a cache key belongs to one secret.

## Main definitions

* `World.Coherent` — the cache keeps of a secret what Secrets Manager holds
* `World.Credits` — the credentials of a send over a connection

## Main results

* `coherent_answer`, `coherent_cacheSet` — what a call does to the cache
* `credits_of_update` — the secret of a connection, merged over the id of its org
-/

/-! ### Core -/

namespace A2ZCore.Core

open Interaction Interaction.Proc

/-- The call puts no secret into the cache. -/
def Call.KeepsNone : Call → Prop
  | .secretCacheSet _ _ _ => False
  | _ => True

/-- A call of Core leaves the secrets as they are. -/
theorem secrets_answer (c : Call) (x : Choice) (w : World) :
    (c.answer x w).2.secrets = w.secrets := by
  rcases c.writes_of_answer x w with h | h
  · rw [h]
  · generalize (c.answer x w).2 = w' at h ⊢
    cases h <;> rfl

/-- The cache may lose entries, and gets none but by a call that puts one there. -/
theorem cache_answer {c : Call} (hc : c.KeepsNone) (x : Choice) (w : World)
    (key : String) (entry : ℚ × Json) (h : (c.answer x w).2.secretCache key = some entry) :
    w.secretCache key = some entry := by
  rcases c.writes_of_answer x w with hsame | hwrites
  · rwa [hsame] at h
  · generalize (c.answer x w).2 = w' at hwrites h
    cases hwrites with
    | secretCacheSet => exact hc.elim
    | secretCacheGet forgotten =>
      have hupdate : Function.update w.secretCache forgotten none key = some entry := h
      by_cases hkey : key = forgotten
      · rw [hkey, Function.update_self] at hupdate
        cases hupdate
      · rwa [Function.update_of_ne hkey] at hupdate
    | _ => exact h

theorem reports_keepsNone : Reports Call.KeepsNone where
  utcnow := trivial
  uuid4 := trivial
  putAuditItem _ := trivial
  putEvents _ := trivial

theorem keepsNone_getOrgSettings (orgId : String) :
    (getOrgSettings orgId).Calls Call.KeepsNone :=
  (Calls.perform trivial).bind fun _ => Calls.ofExcept _

theorem keepsNone_uploadFile (orgId serviceType filename : String) (content : Bytes)
    (mimeType uploadedBy : String) :
    (uploadFile orgId serviceType filename content mimeType uploadedBy).Calls
      Call.KeepsNone := by
  unfold uploadFile
  split
  · trivial
  refine (Calls.perform trivial).bind fun now => ?_
  refine ((Calls.perform trivial).handle fun exc => ?_).bind fun _ => ?_
  · split <;> trivial
  refine (Calls.perform trivial).bind fun _ => ?_
  exact (reports_keepsNone.calls_logAudit _ _ _ _ _ _).bind fun _ =>
    (Calls.perform trivial).bind fun _ => trivial

end A2ZCore.Core

namespace A2ZCore.Omnichannel

open Interaction Interaction.Proc

/-! ### The cache -/

/-- Neither the id of the org nor the service type holds the separator of a cache key. -/
structure Secret.Separate (s : Secret) : Prop where
  org : ':' ∉ s.orgId.toList
  service : ':' ∉ s.serviceType.toList

theorem Secret.Separate.cacheKey_inj {s t : Secret} (hs : s.Separate) (ht : t.Separate)
    (h : s.cacheKey = t.cacheKey) : s = t :=
  joined_injective _ ":" rfl ⟨hs.org, hs.service⟩ ⟨ht.org, ht.service⟩ h

/-- What the cache keeps of a secret is what Secrets Manager holds. -/
def World.Coherent (w : World) : Prop :=
  ∀ s : Secret, s.Separate → ∀ expiresAt value,
    w.core.secretCache s.cacheKey = some (expiresAt, value) → w.core.secrets s.name = some value

section Answer

variable {w : World} (x : Choice)

theorem secrets_answer (c : Call) (w : World) : (c.answer x w).2.core.secrets = w.core.secrets := by
  rcases c.writes_of_answer x w with h | h
  · rw [h]
  · generalize (c.answer x w).2 = w' at h ⊢
    cases h with
    | core c x => exact Core.secrets_answer c x w.core
    | _ => rfl

/-- The call puts no secret into the cache. -/
def Call.KeepsNone : Call → Prop
  | .core c => c.KeepsNone
  | _ => True

theorem coherent_answer {c : Call} (hc : c.KeepsNone) (hw : w.Coherent) :
    (c.answer x w).2.Coherent := by
  intro s hs expiresAt value hentry
  rw [secrets_answer]
  refine hw s hs expiresAt value ?_
  rcases c.writes_of_answer x w with h | h
  · rwa [h] at hentry
  · generalize (c.answer x w).2 = w' at h hentry
    cases h with
    | core c x => exact Core.cache_answer hc x w.core _ _ hentry
    | _ => exact hentry

/-- What is found in the cache was kept there. -/
theorem cached_of_cacheGet {key : String} {value : Json}
    (h : ((Call.core (.secretCacheGet key)).answer x w).1 = .ok (some value)) :
    ∃ expiresAt, w.core.secretCache key = some (expiresAt, value) := by
  unfold Call.answer Core.Call.answer at h
  dsimp only at h
  cases hentry : w.core.secretCache key with
  | none =>
    rw [hentry] at h
    cases h
  | some entry =>
    obtain ⟨expiresAt, value'⟩ := entry
    rw [hentry] at h
    dsimp only at h
    split at h <;> cases h
    exact ⟨expiresAt, rfl⟩

/-- What Secrets Manager answers is what it holds. -/
theorem stored_of_getSecretValue {name : String} {value : Json}
    (h : ((Call.core (.getSecretValue name)).answer x w).1 = .ok value) :
    w.core.secrets name = some value := by
  unfold Call.answer Core.Call.answer at h
  dsimp only at h
  cases hstored : w.core.secrets name with
  | none =>
    rw [hstored, Core.Fate.settle_error] at h
    cases h
  | some value' =>
    rw [hstored] at h
    cases hfate : x.fate <;> rw [hfate] at h <;> cases h
    rfl

/-- What has been read of a secret is put into the cache. -/
theorem coherent_cacheSet {s : Secret} (hs : s.Separate) {value : Json}
    (hvalue : w.core.secrets s.name = some value) (ttlSeconds : ℕ) (hw : w.Coherent) :
    ((Call.core (.secretCacheSet s.cacheKey value ttlSeconds)).answer x w).2.Coherent := by
  intro t ht expiresAt value' hentry
  rw [secrets_answer]
  have hcache : Function.update w.core.secretCache s.cacheKey
      (some (x.monotonic + ttlSeconds, value)) t.cacheKey = some (expiresAt, value') := hentry
  by_cases hkey : t.cacheKey = s.cacheKey
  · obtain rfl := ht.cacheKey_inj hs hkey
    rw [Function.update_self] at hcache
    cases hcache
    exact hvalue
  · rw [Function.update_of_ne hkey] at hcache
    exact hw t ht expiresAt value' hcache

end Answer

/-! ### Credentials -/

/-- The secret of a connection. -/
def ChannelConnection.secret (c : ChannelConnection) : Secret :=
  ⟨c.orgId, "omnichannel", c.credentialsSecretKey⟩

/-- The credentials of a send over a connection: where the adapter needs any, what is stored for the
connection, merged over the id of its org, which stays where the secret has none of its own. -/
def World.Credits (registry : Registry) (w : World) (connection : ChannelConnection)
    (credentials : List (String × Json)) : Prop :=
  ∃ adapter, getAdapter registry connection.channelType = .ok adapter ∧
    if adapter.requiresCredentials then
      ∃ fields, w.core.secrets connection.secret.name = some (.obj fields) ∧
        updateCredentials [("org_id", .str connection.orgId)] (.obj fields) = .ok credentials ∧
        ("org_id" ∉ fields.map Prod.fst →
          credentials.lookup "org_id" = some (.str connection.orgId))
    else credentials = [("org_id", .str connection.orgId)]

/-- What is merged over a dict keeps the keys that it does not have. -/
theorem lookup_updateCredentials {d credentials : List (String × Json)} {fields : List (String × Json)}
    {key : String} (h : updateCredentials d (.obj fields) = .ok credentials)
    (hkey : key ∉ fields.map Prod.fst) : credentials.lookup key = d.lookup key := by
  cases h
  induction fields generalizing d with
  | nil => rfl
  | cons field fields ih =>
    rw [List.map_cons, List.mem_cons, not_or] at hkey
    rw [List.foldl_cons, ih hkey.2, Json.lookup_set, if_neg hkey.1]

/-- The secret of a connection is merged over the id of its org. -/
theorem credits_of_update {registry : Registry} {w : World} {connection : ChannelConnection}
    {adapter : ChannelAdapter} (hadapter : getAdapter registry connection.channelType = .ok adapter)
    (hrequires : adapter.requiresCredentials = true) {value : Json} {credentials : List (String × Json)}
    (hvalue : w.core.secrets connection.secret.name = some value)
    (h : updateCredentials [("org_id", .str connection.orgId)] value = .ok credentials) :
    w.Credits registry connection credentials := by
  refine ⟨adapter, hadapter, ?_⟩
  rw [if_pos hrequires]
  cases value with
  | obj fields => exact ⟨fields, hvalue, h, lookup_updateCredentials h⟩
  | _ => cases h

end A2ZCore.Omnichannel
