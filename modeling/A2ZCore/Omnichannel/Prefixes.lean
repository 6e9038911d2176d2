import A2ZCore.Core.MembershipTable
import A2ZCore.Core.Storage
import A2ZCore.Omnichannel.Media
import A2ZCore.Omnichannel.Secrets
import Mathlib

/-!
# What keeps tenants apart by name

Objects, secrets and what is cached of them are kept for all orgs in one place, under names that begin
with the org's id. An id that `create_org` has made holds none of the separators, so that the first one
ends it, whatever the other parts of a name are: a service type, a filename and a secret's key may be
anything.

## Main definitions

* `Created` — the ids of orgs that have been created

## Main results

* `key_of_one_org` — a file's key passes the checks of its org, and those of no other
* `secrets_of_one_org` — no two orgs share the name of a secret, or its place in the cache
* `isolates_created` — both, for any two orgs that have been created
-/

namespace A2ZCore.Omnichannel

open Interaction Interaction.Proc A2ZCore.Core A2ZCore.Core.MembershipTable

/-! ### The ids -/

/-- The text of a UUID: hexadecimal digits and hyphens. -/
def IsUuid (s : String) : Prop := ∀ c ∈ s.toList, isHexDigit c = true ∨ c = '-'

instance (s : String) : Decidable (IsUuid s) :=
  inferInstanceAs (Decidable (∀ c ∈ s.toList, isHexDigit c = true ∨ c = '-'))

/-- The id of an org that `create_org` has created, of whatever name. -/
def Created (orgId : String) : Prop :=
  ∃ (size : MemberItem → ℕ) (lower : String → String) (orgName ownerId : String) (o : Oracle Core.Choice)
    (w w' : MemberWorld) (org : Org), (∀ n x, o n = some x → IsUuid x.token) ∧
      exec (MemberCall.answer size) (createOrg lower orgName ownerId) o w = (some (.ok org), w') ∧
      org.orgId = orgId

theorem isHexDigit_of_mem_hex8 {uuid : String} (h : IsUuid uuid) : ∀ c ∈ (hex8 uuid).toList,
    isHexDigit c = true := by
  intro c hc
  rw [hex8, String.toList_ofList] at hc
  obtain ⟨hmem, hne⟩ := List.mem_filter.mp (List.mem_of_mem_take hc)
  rcases h c hmem with hdigit | rfl
  · exact hdigit
  · simp at hne

/-- What is returned once the time and the identifier are known. -/
theorem returns_createOrg {orgName ownerId orgId : String} (now : DateTime) :
    (Proc.bind (Proc.handle (memberRun (.transactPut
      [orgItem orgId orgName ownerId now, membershipItem orgId ownerId .owner now]))
        fun exc => match exc.cls with
          | .clientError _ => .raise ⟨.exception "MembershipError", "Failed to create org: " ++ exc.text⟩
          | _ => throw exc) fun _ =>
      Proc.bind (fromCore (logAudit orgId ownerId "org.created" "org" orgId
        (.obj [("name", .str orgName)]))) fun _ =>
          (.ret ⟨orgId, orgName, ownerId, now⟩ : MemberProg Org)).Returns fun org =>
      org.orgId = orgId :=
  (returns_true _).bind fun _ _ => (returns_true _).bind fun _ _ => rfl

theorem Created.isOrgId {orgId : String} (h : Created orgId) : IsOrgId orgId := by
  obtain ⟨size, lower, orgName, ownerId, o, w, w', org, huuid, hexec, rfl⟩ := h
  replace hexec : exec (MemberCall.answer size) (.call (.core .utcnow) _) o w = _ := hexec
  rw [exec] at hexec
  cases hx : o 0 with
  | none =>
    rw [hx] at hexec
    cases hexec
  | some x =>
    rw [hx] at hexec
    replace hexec : exec (MemberCall.answer size) (.call (.core .uuid4) _) o.tail w = _ := hexec
    rw [exec] at hexec
    cases hy : o.tail 0 with
    | none =>
      rw [hy] at hexec
      cases hexec
    | some y =>
      rw [hy] at hexec
      have horg := (returns_createOrg x.now).of_exec hexec
      exact ⟨lower orgName, hex8 y.token, isHexDigit_of_mem_hex8 (huuid 1 y hy), horg⟩

/-! ### Files -/

/-- An org's id ends where the first separator is. -/
theorem not_prefix_of_ne {a b rest : String} (ha : '/' ∉ a.toList) (hb : '/' ∉ b.toList) (hne : a ≠ b) :
    ¬(b ++ "/").toList <+: (a ++ "/" ++ rest).toList := by
  rintro ⟨tail, htail⟩
  simp only [String.toList_append, List.append_assoc] at htail
  have hsame := (append_cons_inj_of_not_mem hb ha htail).1
  exact hne (String.toList_inj.mp hsame).symm

/-- The key of a file passes the checks of the org, and fails those of the other. -/
structure OwnKey (a b key : String) : Prop where
  scope : assertOrgScope a key = .ok ()
  otherScope : assertOrgScope b key = .error ⟨.storageError, "File does not belong to this org"⟩
  signed : ∀ (sign : String → ℕ → ℚ → String) (now : ℚ) (cache : Media.UrlCache),
    ∃ url cache', Media.signedUrlForAttachment sign a key now cache = (.ok url, cache')
  otherSigned : ∀ (sign : String → ℕ → ℚ → String) (now : ℚ) (cache : Media.UrlCache),
    Media.signedUrlForAttachment sign b key now cache =
      (.error ⟨.storageError, "File does not belong to this org"⟩, cache)

theorem ownKey_uploadKey {a b : String} (ha : IsOrgId a) (hb : IsOrgId b) (hne : a ≠ b)
    (serviceType filename : String) (now : DateTime) :
    OwnKey a b (uploadKey a serviceType filename now) := by
  have hkey : uploadKey a serviceType filename now =
      a ++ "/" ++ (serviceType ++ "/" ++ DateTime.stamp now ++ "_" ++ filename) := by
    simp only [uploadKey, String.append_assoc]
  have hown : (a ++ "/").toList.isPrefixOf (uploadKey a serviceType filename now).toList = true := by
    rw [List.isPrefixOf_iff_prefix, hkey, String.toList_append (s := a ++ "/")]
    exact List.prefix_append _ _
  have hother : (b ++ "/").toList.isPrefixOf (uploadKey a serviceType filename now).toList = false := by
    rw [Bool.eq_false_iff, ne_eq, List.isPrefixOf_iff_prefix, hkey]
    exact not_prefix_of_ne (ha.not_mem rfl (by decide)) (hb.not_mem rfl (by decide)) hne
  refine ⟨?_, ?_, fun sign t cache => ?_, fun sign t cache => ?_⟩
  · rw [assertOrgScope, if_pos hown]
  · rw [assertOrgScope, hother]
    rfl
  · rw [Media.signedUrlForAttachment, if_pos hown]
    split
    · exact ⟨_, _, rfl⟩
    · exact ⟨_, _, rfl⟩
  · rw [Media.signedUrlForAttachment, hother]
    rfl

theorem ownKey_of_upload {a b : String} (ha : IsOrgId a) (hb : IsOrgId b) (hne : a ≠ b)
    {serviceType filename : String} {content : Bytes} {mimeType uploadedBy : String}
    {o : Oracle Core.Choice} {w w' : Core.World} {stored : StoredFile}
    (h : exec Core.Call.answer
      (uploadFile a serviceType filename content mimeType uploadedBy) o w = (some (.ok stored), w')) :
    OwnKey a b stored.key := by
  obtain ⟨now, hkey⟩ := (returns_uploadFile a serviceType filename content mimeType uploadedBy).of_exec h
  rw [hkey]
  exact ownKey_uploadKey ha hb hne serviceType filename now

/-- **A file's key is one org's.** Whatever an org's service types and filenames hold, the key that
`upload_file` builds passes the checks for that org, and those for no other. -/
theorem key_of_one_org {a b : String} (ha : Created a) (hb : Created b) (hne : a ≠ b)
    {serviceType filename : String} {content : Bytes} {mimeType uploadedBy : String}
    {o : Oracle Core.Choice} {w w' : Core.World} {stored : StoredFile}
    (h : exec Core.Call.answer
      (uploadFile a serviceType filename content mimeType uploadedBy) o w = (some (.ok stored), w')) :
    OwnKey a b stored.key :=
  ownKey_of_upload ha.isOrgId hb.isOrgId hne h

/-! ### Secrets -/

/-- What stands between the prefix and the first separator is the org's id. -/
theorem ne_of_first_part (pfx sep restA restB : String) {a b : String} {d : Char} (hsep : sep.toList = [d])
    (ha : d ∉ a.toList) (hb : d ∉ b.toList) (hne : a ≠ b) :
    pfx ++ a ++ sep ++ restA ≠ pfx ++ b ++ sep ++ restB := by
  intro h
  have hchars := congrArg String.toList h
  simp only [String.toList_append, hsep, List.append_assoc, List.singleton_append] at hchars
  exact hne (String.toList_inj.mp
    (append_cons_inj_of_not_mem ha hb (List.append_cancel_left hchars)).1)

/-- The names of two orgs' secrets differ, and their places in the cache. -/
structure SecretsApart (a b serviceA keyA serviceB keyB : String) : Prop where
  name : secretName a serviceA keyA ≠ secretName b serviceB keyB
  cacheKey : secretCacheKey a serviceA keyA ≠ secretCacheKey b serviceB keyB

theorem secretsApart {a b : String} (ha : IsOrgId a) (hb : IsOrgId b) (hne : a ≠ b)
    (serviceA keyA serviceB keyB : String) : SecretsApart a b serviceA keyA serviceB keyB := by
  have hname := ne_of_first_part "a2z/" "/" (serviceA ++ "/" ++ keyA) (serviceB ++ "/" ++ keyB) rfl
    (ha.not_mem rfl (by decide)) (hb.not_mem rfl (by decide)) hne
  have hcache := ne_of_first_part "secret:" ":" (serviceA ++ ":" ++ keyA) (serviceB ++ ":" ++ keyB) rfl
    (ha.not_mem rfl (by decide)) (hb.not_mem rfl (by decide)) hne
  simp only [← String.append_assoc] at hname hcache
  exact ⟨hname, hcache⟩

/-- **A secret's names are one org's**, whatever service types and keys the orgs choose. -/
theorem secrets_of_one_org {a b : String} (ha : Created a) (hb : Created b) (hne : a ≠ b)
    (serviceA keyA serviceB keyB : String) :
    secretName a serviceA keyA ≠ secretName b serviceB keyB ∧
      secretCacheKey a serviceA keyA ≠ secretCacheKey b serviceB keyB :=
  ⟨(secretsApart ha.isOrgId hb.isOrgId hne serviceA keyA serviceB keyB).name,
    (secretsApart ha.isOrgId hb.isOrgId hne serviceA keyA serviceB keyB).cacheKey⟩

/-! ### Tenants -/

/-- What one org has stored is out of reach of the other. -/
structure Isolates (a b : String) : Prop where
  files : ∀ (serviceType filename : String) (content : Bytes) (mimeType uploadedBy : String)
    (o : Oracle Core.Choice) (w w' : Core.World) (stored : StoredFile),
    exec Core.Call.answer (uploadFile a serviceType filename content mimeType uploadedBy) o w =
      (some (.ok stored), w') → OwnKey a b stored.key
  secrets : ∀ serviceA keyA serviceB keyB, SecretsApart a b serviceA keyA serviceB keyB

/-- **Prefixes isolate tenants.** For any two orgs that have been created, of whatever names, the keys of
the files of either pass the checks of that org and fail those of the other, and no secrets of the two
have a name or a place in the cache in common. -/
theorem isolates_created {a b : String} (ha : Created a) (hb : Created b) (hne : a ≠ b) :
    Isolates a b ∧ Isolates b a :=
  ⟨⟨fun _ _ _ _ _ _ _ _ _ h => ownKey_of_upload ha.isOrgId hb.isOrgId hne h,
      secretsApart ha.isOrgId hb.isOrgId hne⟩,
    ⟨fun _ _ _ _ _ _ _ _ _ h => ownKey_of_upload hb.isOrgId ha.isOrgId hne.symm h,
      secretsApart hb.isOrgId ha.isOrgId hne.symm⟩⟩

/-! ### Two orgs of one name -/

/-- An org has been created by Ada, under the identifier. -/
theorem created_ada (uuid : String) (h : IsUuid uuid) : Created (newOrgId "ada's shop" (hex8 uuid)) :=
  ⟨fun _ => 200, fun s => s, "ada's shop", "ada", fun _ => some (.calm uuid), ⟨World.initial, []⟩, _, _,
    fun _ _ hx => by cases hx; exact h, rfl, rfl⟩

theorem created_first : Created "ada-s-shop-01234567" :=
  created_ada "01234567-89ab" (by simp [IsUuid, isHexDigit])

theorem created_second : Created "ada-s-shop-76543210" :=
  created_ada "76543210-89ab" (by simp [IsUuid, isHexDigit])

/-- A file whose service type and name would lead to the other org's files. -/
theorem exists_upload : ∃ stored w', exec Core.Call.answer (uploadFile "ada-s-shop-01234567"
    "../ada-s-shop-76543210" "../../june.pdf" [] "application/pdf" "ada")
      (fun _ => some (.calm "id")) World.initial = (some (.ok stored), w') :=
  ⟨_, _, rfl⟩

theorem key_of_one_org_dots : ∃ stored w', exec Core.Call.answer (uploadFile "ada-s-shop-01234567"
      "../ada-s-shop-76543210" "../../june.pdf" [] "application/pdf" "ada")
        (fun _ => some (.calm "id")) World.initial = (some (.ok stored), w') ∧
    OwnKey "ada-s-shop-01234567" "ada-s-shop-76543210" stored.key := by
  obtain ⟨stored, w', hupload⟩ := exists_upload
  exact ⟨stored, w', hupload, key_of_one_org created_first created_second (by decide) hupload⟩

theorem secrets_of_one_org_slash :
    secretName "ada-s-shop-01234567" "a/b" "c" ≠ secretName "ada-s-shop-76543210" "a" "b/c" ∧
      secretCacheKey "ada-s-shop-01234567" "a/b" "c" ≠ secretCacheKey "ada-s-shop-76543210" "a" "b/c" :=
  secrets_of_one_org created_first created_second (by decide) _ _ _ _

theorem isolates_created_ada : Isolates "ada-s-shop-01234567" "ada-s-shop-76543210" ∧
    Isolates "ada-s-shop-76543210" "ada-s-shop-01234567" :=
  isolates_created created_first created_second (by decide)

end A2ZCore.Omnichannel
