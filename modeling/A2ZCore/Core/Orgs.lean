import A2ZCore.Core.Values

/-!
# The ids of orgs

`create_org` makes an org's id of its name and of eight hexadecimal digits. Whatever the name is, the
id is one that can stand between separators.

## Main definitions

* `slug`, `newOrgId` — the parts of an id, and the id
* `IsOrgId` — what `create_org` can make
-/

namespace A2ZCore.Core

/-- `[a-z0-9]`. -/
def isSlugChar (c : Char) : Bool := ('a' ≤ c && c ≤ 'z') || c.isDigit

/-- `re.sub(r"[^a-z0-9]+", "-", …)`; `inRun` says whether the run of other characters has its hyphen
already. -/
def hyphenate (inRun : Bool) : List Char → List Char
  | [] => []
  | c :: cs =>
    if isSlugChar c then c :: hyphenate false cs
    else if inRun then hyphenate true cs
    else '-' :: hyphenate true cs

/-- `_slug`, of the name in lower case. -/
def slug (lowered : String) : String :=
  let base := (((hyphenate false lowered.toList).dropWhile (· = '-')).reverse.dropWhile
    (· = '-')).reverse
  if base = [] then "org" else String.ofList base

/-- `create_org`'s `f"{_slug(org_name)}-{uuid.uuid4().hex[:8]}"`. -/
def newOrgId (lowered hex : String) : String := slug lowered ++ "-" ++ hex

/-- The characters of `uuid.uuid4().hex`. -/
def isHexDigit (c : Char) : Bool := c.isDigit || ('a' ≤ c && c ≤ 'f')

/-- What `create_org` can make. -/
def IsOrgId (orgId : String) : Prop :=
  ∃ lowered hex : String, (∀ c ∈ hex.toList, isHexDigit c = true) ∧ orgId = newOrgId lowered hex

theorem mem_hyphenate {inRun : Bool} {cs : List Char} {c : Char} (h : c ∈ hyphenate inRun cs) :
    isSlugChar c = true ∨ c = '-' := by
  induction cs generalizing inRun with
  | nil => cases h
  | cons d cs ih =>
    unfold hyphenate at h
    split at h
    · rcases List.mem_cons.mp h with rfl | h
      · exact .inl ‹_›
      · exact ih h
    · split at h
      · exact ih h
      · rcases List.mem_cons.mp h with rfl | h
        · exact .inr rfl
        · exact ih h

theorem mem_slug {lowered : String} {c : Char} (h : c ∈ (slug lowered).toList) :
    isSlugChar c = true ∨ c = '-' := by
  unfold slug at h
  dsimp only at h
  split at h
  · have hall : "org".toList.all isSlugChar = true := by decide
    exact .inl (List.all_eq_true.mp hall c h)
  · rw [String.toList_ofList, List.mem_reverse] at h
    have hmem := (List.dropWhile_sublist _).subset h
    exact mem_hyphenate ((List.dropWhile_sublist _).subset (List.mem_reverse.mp hmem))

/-- An org's id is made of lower-case letters, digits and hyphens. -/
theorem IsOrgId.mem {orgId : String} (h : IsOrgId orgId) {c : Char} (hc : c ∈ orgId.toList) :
    isSlugChar c = true ∨ c = '-' := by
  obtain ⟨lowered, hex, hhex, rfl⟩ := h
  rw [newOrgId, String.toList_append, String.toList_append, List.mem_append, List.mem_append] at hc
  rcases hc with (hc | hc) | hc
  · exact mem_slug hc
  · exact .inr (by simpa using hc)
  · have hdigit := hhex c hc
    simp only [isHexDigit, Bool.or_eq_true, Bool.and_eq_true, decide_eq_true_eq] at hdigit
    refine .inl ?_
    simp only [isSlugChar, Bool.or_eq_true, Bool.and_eq_true, decide_eq_true_eq]
    rcases hdigit with hdigit | ⟨hle, hge⟩
    · exact .inr hdigit
    · exact .inl ⟨hle, Char.le_trans hge (by decide)⟩

/-- A separator is no part of an org's id. -/
theorem IsOrgId.not_mem {orgId : String} (h : IsOrgId orgId) {c : Char}
    (hslug : isSlugChar c = false) (hc : c ≠ '-') : c ∉ orgId.toList := by
  intro hmem
  rcases h.mem hmem with htrue | heq
  · rw [htrue] at hslug
    cases hslug
  · exact hc heq

/-! ### Separators -/

/-- What stands before the first separator is known, and what follows it. -/
theorem append_cons_inj_of_not_mem {α : Type} {sep : α} {x y xs ys : List α} (hx : sep ∉ x)
    (hy : sep ∉ y) (h : x ++ sep :: xs = y ++ sep :: ys) : x = y ∧ xs = ys := by
  induction x generalizing y with
  | nil =>
    cases y with
    | nil => exact ⟨rfl, List.tail_eq_of_cons_eq h⟩
    | cons b y =>
      rw [List.nil_append, List.cons_append, List.cons.injEq] at h
      exact absurd (h.1 ▸ List.mem_cons_self) hy
  | cons a x ih =>
    cases y with
    | nil =>
      rw [List.nil_append, List.cons_append, List.cons.injEq] at h
      exact absurd (h.1 ▸ List.mem_cons_self) hx
    | cons b y =>
      rw [List.cons_append, List.cons_append, List.cons.injEq] at h
      obtain ⟨hrest, htail⟩ := ih (fun hmem => hx (List.mem_cons_of_mem a hmem))
        (fun hmem => hy (List.mem_cons_of_mem b hmem)) h.2
      exact ⟨by rw [h.1, hrest], htail⟩

end A2ZCore.Core
