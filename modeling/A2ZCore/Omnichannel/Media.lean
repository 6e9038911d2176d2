import A2ZCore.Core.IsoFormat
import A2ZCore.Core.Services
import A2ZCore.Lib.Expiring
import A2ZCore.Omnichannel.Inbox
import Mathlib

/-!
# What the inbox shows of an attachment

Its name, which is read off the key that `upload_file` built, and a signed URL, which `media.py` keeps
for an hour so that a browser does not fetch the same bytes again.

The name goes into the key as it came with the message. What is shown is what follows the last slash
of the key, so a name with a slash is cut.

## Main definitions

* `UrlCall`, `afterUrls` — calls of `signed_url_for_attachment`, and the cache after them

## Main results

* `filenameFromKey_iff` — which names are shown as they are
* `signedUrl_valid` — whose URL is given, and how long it is valid
-/

namespace A2ZCore.Omnichannel

open Interaction

/-! ### The name -/

/-- The key that `upload_file` builds. -/
def uploadKey (orgId serviceType filename : String) (now : DateTime) : String :=
  orgId ++ "/" ++ serviceType ++ "/" ++ DateTime.stamp now ++ "_" ++ filename

theorem returns_uploadFile (orgId serviceType filename : String) (content : Bytes)
    (mimeType uploadedBy : String) :
    (Core.uploadFile orgId serviceType filename content mimeType uploadedBy).Returns fun stored =>
      ∃ now, stored.key = uploadKey orgId serviceType filename now := by
  unfold Core.uploadFile
  split
  · exact trivial
  · refine (Proc.returns_true _).bind fun now _ => ?_
    refine (Proc.returns_true _).bind fun _ _ => ?_
    refine (Proc.returns_true _).bind fun _ _ => ?_
    refine (Proc.returns_true _).bind fun _ _ => ?_
    exact (Proc.returns_true _).bind fun _ _ => ⟨now, rfl⟩

/-- The time in a key holds neither of the separators. -/
theorem not_mem_stamp {now : DateTime} {c : Char} (hdigit : c.isDigit = false) (hc : c ≠ '-') :
    c ∉ now.stamp.toList := by
  have hpad : ∀ width n, c ∉ (zeroPad width n).toList := by
    intro width n hmem
    rw [isDigit_of_mem_zeroPad hmem] at hdigit
    cases hdigit
  simp only [DateTime.stamp, String.toList_append, List.mem_append, not_or]
  simp [hpad, hc]

/-- What follows the last slash. -/
theorem takeWhile_reverse_append {α : Type} {p : α → Bool} {pre post : List α} {a : α}
    (ha : p a = false) (hpost : ∀ b ∈ post, p b = true) :
    ((pre ++ a :: post).reverse.takeWhile p).reverse = post := by
  have hall : ∀ b ∈ post.reverse, p b = true := fun b hb => hpost b (List.mem_reverse.mp hb)
  rw [List.reverse_append, List.reverse_cons, List.append_assoc, List.takeWhile_append_of_pos hall]
  simp [ha]

/-- What is shown has no slash. -/
theorem slash_not_mem_filenameFromKey (s3Key : String) :
    '/' ∉ (filenameFromKey s3Key).toList := by
  have hbase : '/' ∉ (s3Key.toList.reverse.takeWhile (· ≠ '/')).reverse := by
    intro h
    have htrue := List.mem_takeWhile_imp (List.mem_reverse.mp h)
    simp at htrue
  unfold filenameFromKey
  dsimp only
  split
  next c tail htail =>
    intro h
    rw [String.toList_ofList] at h
    refine hbase ((List.dropWhile_sublist (· ≠ '_')).subset ?_)
    rw [htail]
    exact List.mem_cons_of_mem _ h
  next => rwa [String.toList_ofList]

/-- A name without a slash is read off its key. -/
theorem filenameFromKey_uploadKey {orgId serviceType filename : String} (hname : filename ≠ "")
    (hslash : '/' ∉ filename.toList) (now : DateTime) :
    filenameFromKey (uploadKey orgId serviceType filename now) = filename := by
  have hkey : (uploadKey orgId serviceType filename now).toList =
      (orgId.toList ++ '/' :: serviceType.toList) ++ '/' ::
        (now.stamp.toList ++ '_' :: filename.toList) := by
    simp [uploadKey, String.toList_append]
  have hbase : ((uploadKey orgId serviceType filename now).toList.reverse.takeWhile
      (· ≠ '/')).reverse = now.stamp.toList ++ '_' :: filename.toList := by
    rw [hkey]
    refine takeWhile_reverse_append (by simp) fun b hb => ?_
    have hstamp : '/' ∉ now.stamp.toList := not_mem_stamp rfl (by decide)
    rcases List.mem_append.mp hb with hb | hb
    · simpa using fun h : b = '/' => hstamp (h ▸ hb)
    · rcases List.mem_cons.mp hb with rfl | hb
      · decide
      · simpa using fun h : b = '/' => hslash (h ▸ hb)
  have hdrop : (now.stamp.toList ++ '_' :: filename.toList).dropWhile (· ≠ '_') =
      '_' :: filename.toList := by
    have hstamp : '_' ∉ now.stamp.toList := not_mem_stamp rfl (by decide)
    rw [List.dropWhile_append_of_pos]
    · rfl
    · intro b hb
      simpa using fun h : b = '_' => hstamp (h ▸ hb)
  have hne : filename.toList ≠ [] := by simpa using hname
  obtain ⟨c, tail, hchars⟩ := List.exists_cons_of_ne_nil hne
  have hshown : filenameFromKey (uploadKey orgId serviceType filename now) =
      String.ofList (c :: tail) := by
    unfold filenameFromKey
    rw [hbase]
    dsimp only
    rw [hdrop, hchars]
  rw [hshown, ← hchars, String.ofList_toList]

/-- **Which names are shown as they are**: those without a slash. -/
theorem filenameFromKey_iff {orgId filename : String} (hname : filename ≠ "") {content : Bytes}
    {mimeType uploadedBy : String} {o : Proc.Oracle Core.Choice} {w w' : Core.World}
    {stored : Core.StoredFile}
    (hupload : Proc.exec Core.Call.answer
      (Core.uploadFile orgId "omnichannel" filename content mimeType uploadedBy) o w =
        (some (.ok stored), w')) :
    filenameFromKey stored.key = filename ↔ '/' ∉ filename.toList := by
  obtain ⟨now, hkey⟩ := (returns_uploadFile _ _ _ _ _ _).of_exec hupload
  rw [hkey]
  constructor
  · intro h
    rw [← h]
    exact slash_not_mem_filenameFromKey _
  · intro hslash
    exact filenameFromKey_uploadKey hname hslash now

/-- A file that is uploaded while everything works. -/
theorem exec_uploadFile (orgId filename : String) :
    ∃ stored w', stored.key = uploadKey orgId "omnichannel" filename (Core.Choice.calm "id").now ∧
      Proc.exec Core.Call.answer
        (Core.uploadFile orgId "omnichannel" filename [] "application/pdf" "system")
        (fun _ => some (Core.Choice.calm "id")) Core.World.initial = (some (.ok stored), w') :=
  ⟨_, _, rfl, rfl⟩

/-- A name with an underscore is shown as it is. -/
theorem filenameFromKey_iff_underscore :
    filenameFromKey (uploadKey "acme-1a2b3c4d" "omnichannel" "june_2026.pdf"
      (Core.Choice.calm "id").now) = "june_2026.pdf" ↔ '/' ∉ "june_2026.pdf".toList := by
  obtain ⟨stored, w', hkey, hupload⟩ := exec_uploadFile "acme-1a2b3c4d" "june_2026.pdf"
  rw [← hkey]
  exact filenameFromKey_iff (by decide) hupload

/-- A name with a slash is cut. -/
theorem not_filenameFromKey : ¬∀ (orgId filename : String) (content : Bytes)
    (mimeType uploadedBy : String) (o : Proc.Oracle Core.Choice) (w w' : Core.World)
    (stored : Core.StoredFile), filename ≠ "" →
    Proc.exec Core.Call.answer
      (Core.uploadFile orgId "omnichannel" filename content mimeType uploadedBy) o w =
        (some (.ok stored), w') →
    filenameFromKey stored.key = filename := by
  intro h
  obtain ⟨stored, w', hkey, hupload⟩ := exec_uploadFile "acme-1a2b3c4d" "reports/june.pdf"
  have hname := h _ _ _ _ _ _ _ _ stored (by decide) hupload
  have hslash := slash_not_mem_filenameFromKey stored.key
  rw [hname] at hslash
  exact hslash (by decide)

/-! ### The signed URL -/

namespace Media

/-- `_SIGN_EXPIRY_SECONDS`. -/
def signExpirySeconds : ℕ := 2 * 3600

/-- `_CACHE_TTL_SECONDS`. -/
def cacheTtlSeconds : ℕ := 3600

/-- `_cache_key`. -/
def cacheKey (s3Key : String) : String := "mediaurl:" ++ s3Key

theorem cacheKey_injective : Function.Injective cacheKey := by
  intro s3Key s3Key' h
  have hchars := congrArg String.toList h
  rw [cacheKey, cacheKey, String.toList_append, String.toList_append] at hchars
  exact String.toList_inj.mp (List.append_cancel_left hchars)

/-- The module's `_cache`. -/
abbrev UrlCache := Expiring.Cache String ℚ String

section Calls

-- `generate_presigned_url` of a key, for so many seconds, at a time
variable (sign : String → ℕ → ℚ → String)

/-- `signed_url_for_attachment`, at the time `now`. -/
def signedUrlForAttachment (orgId s3Key : String) (now : ℚ) (cache : UrlCache) :
    Except PyErr String × UrlCache :=
  if (orgId ++ "/").toList.isPrefixOf s3Key.toList then
    match Expiring.get (cacheKey s3Key) now cache with
    | (some url, cache) => (.ok url, cache)
    | (none, cache) =>
      let url := sign s3Key signExpirySeconds now
      (.ok url, Expiring.set (cacheKey s3Key) url (cacheTtlSeconds : ℚ) now cache)
  else (.error ⟨.storageError, "File does not belong to this org"⟩, cache)

/-- A call of `signed_url_for_attachment`, and when it is made. -/
structure UrlCall where
  orgId : String
  s3Key : String
  now : ℚ

/-- What a call returns or raises, and the cache it leaves. -/
def UrlCall.exec (call : UrlCall) (cache : UrlCache) : Except PyErr String × UrlCache :=
  signedUrlForAttachment sign call.orgId call.s3Key call.now cache

/-- The cache after a sequence of calls. -/
def afterUrls : List UrlCall → UrlCache → UrlCache
  | [], cache => cache
  | call :: calls, cache => afterUrls calls (call.exec sign cache).2

/-- The cache holds URLs that were signed for two hours at a time, each for an hour from then on. -/
abbrev Signed (now : ℚ) (cache : UrlCache) : Prop :=
  Expiring.Made cacheKey (fun s3Key t => sign s3Key signExpirySeconds t) (cacheTtlSeconds : ℚ) now
    cache

variable {sign}

/-- One call. -/
theorem Signed.exec {t₀ : ℚ} {cache : UrlCache} (h : Signed sign t₀ cache) {call : UrlCall}
    (ht : t₀ ≤ call.now) :
    (∀ url, (call.exec sign cache).1 = .ok url →
      (call.orgId ++ "/").toList.isPrefixOf call.s3Key.toList = true ∧
        ∃ t, t ≤ call.now ∧ call.now < t + cacheTtlSeconds ∧
          url = sign call.s3Key signExpirySeconds t) ∧
      Signed sign call.now (call.exec sign cache).2 := by
  by_cases horg : (call.orgId ++ "/").toList.isPrefixOf call.s3Key.toList = true
  · have hfresh : call.now < call.now + (cacheTtlSeconds : ℚ) := by
      norm_num [cacheTtlSeconds]
    obtain ⟨⟨t, hle, hlt, hfetch⟩, hsigned⟩ :=
      h.fetch cacheKey_injective ht hfresh call.s3Key
    have hexec : call.exec sign cache =
        (.ok (Expiring.fetch (cacheKey call.s3Key) (fun t => sign call.s3Key signExpirySeconds t)
            (cacheTtlSeconds : ℚ) call.now cache).1,
          (Expiring.fetch (cacheKey call.s3Key) (fun t => sign call.s3Key signExpirySeconds t)
            (cacheTtlSeconds : ℚ) call.now cache).2) := by
      rw [UrlCall.exec, signedUrlForAttachment, if_pos horg, Expiring.fetch]
      rcases Expiring.get (cacheKey call.s3Key) call.now cache with ⟨url | url, cache'⟩ <;> rfl
    rw [hexec]
    refine ⟨fun url hurl => ⟨horg, t, hle, hlt, ?_⟩, hsigned⟩
    cases hurl
    exact hfetch
  · rw [UrlCall.exec, signedUrlForAttachment, if_neg horg]
    refine ⟨fun url hurl => ?_, h.mono ht⟩
    cases hurl

theorem afterUrls_append (calls calls' : List UrlCall) (cache : UrlCache) :
    afterUrls sign (calls ++ calls') cache = afterUrls sign calls' (afterUrls sign calls cache) := by
  induction calls generalizing cache with
  | nil => rfl
  | cons call calls ih => exact ih _

/-- A sequence of calls. -/
theorem signed_afterUrls {calls : List UrlCall} (htimes : (calls.map UrlCall.now).Pairwise (· ≤ ·))
    {now : ℚ} (ht : ∀ t ∈ calls.map UrlCall.now, t ≤ now) :
    Signed sign now (afterUrls sign calls Expiring.empty) := by
  -- from the end, so that the last call finds what the others left
  induction calls using List.reverseRecOn generalizing now with
  | nil => exact Expiring.made_empty
  | append_singleton calls call ih =>
    rw [List.map_append, List.pairwise_append] at htimes
    have hbefore : Signed sign call.now (afterUrls sign calls Expiring.empty) :=
      ih htimes.1 fun t hmem => htimes.2.2 t hmem _ List.mem_cons_self
    rw [afterUrls_append]
    exact (hbefore.exec le_rfl).2.mono (ht call.now (by simp))

end Calls

end Media

/-- **A signed URL that is given out** was signed for the attachment asked for, which is the caller's,
and is valid for as long as its own time exceeds that of the cache, whether it is new or cached. -/
theorem signedUrl_valid (sign : String → ℕ → ℚ → String) {calls : List Media.UrlCall}
    (htimes : (calls.map Media.UrlCall.now).Pairwise (· ≤ ·)) :
    ∀ earlier call later, calls = earlier ++ call :: later →
      ∀ url, (call.exec sign (Media.afterUrls sign earlier Expiring.empty)).1 = .ok url →
        (call.orgId ++ "/").toList <+: call.s3Key.toList ∧
          ∃ signedAt, signedAt ≤ call.now ∧
            url = sign call.s3Key Media.signExpirySeconds signedAt ∧
            (Media.signExpirySeconds - Media.cacheTtlSeconds : ℚ) ≤
              signedAt + Media.signExpirySeconds - call.now := by
  rintro earlier call later rfl url hurl
  rw [List.map_append, List.pairwise_append, List.map_cons] at htimes
  have hle : ∀ t ∈ earlier.map Media.UrlCall.now, t ≤ call.now := fun t ht =>
    htimes.2.2 t ht _ List.mem_cons_self
  have hsigned := @Media.signed_afterUrls sign earlier htimes.1 call.now hle
  obtain ⟨horg, t, ht, hlt, hsign⟩ := (hsigned.exec le_rfl).1 url hurl
  refine ⟨List.isPrefixOf_iff_prefix.mp horg, t, ht, hsign, ?_⟩
  linarith

/-- A URL that says what was signed, and when. -/
def sampleSign (s3Key : String) (expiresIn : ℕ) (now : ℚ) : String :=
  s3Key ++ "?expires=" ++ toString expiresIn ++ "&at=" ++ toString now

/-- Two calls for an attachment, the second just before the first URL leaves the cache. -/
def twoCalls : List Media.UrlCall :=
  [⟨"acme", "acme/omnichannel/photo.png", 0⟩, ⟨"acme", "acme/omnichannel/photo.png", 3599⟩]

/-- The URL of the first call is given again, and is valid for more than an hour. -/
theorem signedUrl_valid_cached : ∃ signedAt : ℚ, signedAt ≤ 3599 ∧
    sampleSign "acme/omnichannel/photo.png" Media.signExpirySeconds 0 =
      sampleSign "acme/omnichannel/photo.png" Media.signExpirySeconds signedAt ∧
    (Media.signExpirySeconds - Media.cacheTtlSeconds : ℚ) ≤
      signedAt + Media.signExpirySeconds - 3599 := by
  have htimes : (twoCalls.map Media.UrlCall.now).Pairwise (· ≤ ·) := by decide +kernel
  have hcached : (Media.UrlCall.exec sampleSign ⟨"acme", "acme/omnichannel/photo.png", 3599⟩
      (Media.afterUrls sampleSign [⟨"acme", "acme/omnichannel/photo.png", 0⟩] Expiring.empty)).1 =
        .ok (sampleSign "acme/omnichannel/photo.png" Media.signExpirySeconds 0) := by
    have horg : ("acme" ++ "/").toList.isPrefixOf "acme/omnichannel/photo.png".toList = true := by
      decide +kernel
    have hfresh : ¬(0 + (Media.cacheTtlSeconds : ℚ) ≤ 3599) := by
      norm_num [Media.cacheTtlSeconds]
    rw [Media.afterUrls, Media.afterUrls, Media.UrlCall.exec, Media.UrlCall.exec]
    simp only [Media.signedUrlForAttachment, if_pos horg, Expiring.get, Expiring.empty,
      Expiring.set, Function.update_self, if_neg hfresh]
  exact (signedUrl_valid sampleSign htimes [⟨"acme", "acme/omnichannel/photo.png", 0⟩]
    ⟨"acme", "acme/omnichannel/photo.png", 3599⟩ [] rfl _ hcached).2

end A2ZCore.Omnichannel
