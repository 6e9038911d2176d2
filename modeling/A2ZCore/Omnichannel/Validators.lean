import A2ZCore.Core.Email
import A2ZCore.Lib.Regex
import A2ZCore.Omnichannel.Connections
import Mathlib

/-!
# What the validators accept

`_validate_address` and the domain check of `start_domain_verification` against what they are for: an
address `local@domain` with one `@`, no whitespace, and a dot inside the domain; a domain of two or
more labels of letters, digits and inner hyphens. Both patterns end in `$`, which stands before a
final line feed as well as at the end. Each validator accepts its grammar, and each word of its
grammar once more with a line feed behind it. `"a@b.c\n"` is no address, and is accepted.

## Main definitions

* `addressRe`, `domainRe` — the two patterns
* `AddressGrammar`, `DomainGrammar` — what they are for
* `PassesDomainCheck` — `start_domain_verification` goes beyond its check

## Main results

* `matchesAddress_iff`, `matchesDomain_iff` — the checks are the patterns under `re.match`
* `validators_exact_iff` — both accept exactly their grammar, unless the string is a word of it with a
  line feed at the end
-/

namespace A2ZCore.Omnichannel

open Interaction Interaction.Proc A2ZCore.Core Regex Regex.Pattern

/-! ### The patterns -/

/-- `[^@\s]+` -/
def addressPart : Pattern Char := plus (cls fun c => c != '@' && !pyIsSpace c)

/-- `_ADDRESS_RE`, between its anchors. -/
def addressRe : Pattern Char :=
  cat addressPart (cat (lit '@') (cat addressPart (cat (lit '.') addressPart)))

/-- `[a-zA-Z0-9](?:[a-zA-Z0-9-]{0,61}[a-zA-Z0-9])?` -/
def labelRe : Pattern Char :=
  cat (cls isAlphanumeric)
    (opt (cat (upTo 61 (cls fun c => isAlphanumeric c || c == '-')) (cls isAlphanumeric)))

/-- `_DOMAIN_RE`, between its anchors. -/
def domainRe : Pattern Char := cat labelRe (plus (cat (lit '.') labelRe))

/-! ### The grammars -/

/-- `local@domain` with exactly one `@`, no whitespace or line break anywhere, and a dot with
something on both sides in the domain. -/
def AddressGrammar (cs : List Char) : Prop :=
  ∃ localPart left right, cs = localPart ++ '@' :: (left ++ '.' :: right) ∧ localPart ≠ [] ∧
    left ≠ [] ∧ right ≠ [] ∧ cs.count '@' = 1 ∧ ∀ c ∈ cs, pyIsSpace c = false

/-- One to 63 letters, digits and inner hyphens. -/
structure LabelGrammar (cs : List Char) : Prop where
  pos : 1 ≤ cs.length
  le : cs.length ≤ 63
  chars : ∀ c ∈ cs, c.isAlphanum ∨ c = '-'
  first : cs.head? ≠ some '-'
  last : cs.getLast? ≠ some '-'

/-- Two or more labels with dots between them. -/
def DomainGrammar (cs : List Char) : Prop :=
  ∃ labels : List (List Char), 2 ≤ labels.length ∧ (∀ l ∈ labels, LabelGrammar l) ∧
    cs = ['.'].intercalate labels

/-! ### Addresses -/

theorem mem_addressPart {w : List Char} :
    w ∈ addressPart.lang ↔ w ≠ [] ∧ '@' ∉ w ∧ ∀ c ∈ w, pyIsSpace c = false := by
  rw [addressPart, mem_plus_cls]
  constructor
  · rintro ⟨hne, hall⟩
    refine ⟨hne, ?_, ?_⟩
    · intro hmem
      simpa using hall '@' hmem
    · intro c hc
      simpa using (Bool.and_eq_true_iff.mp (hall c hc)).2
  · rintro ⟨hne, hat, hspace⟩
    refine ⟨hne, fun c hc => ?_⟩
    have hc' : c ≠ '@' := fun heq => hat (heq ▸ hc)
    simp [hc', hspace c hc]

theorem not_isSpace_at : pyIsSpace '@' = false ∧ pyIsSpace '.' = false := by decide

theorem mem_addressRe {cs : List Char} : cs ∈ addressRe.lang ↔ AddressGrammar cs := by
  constructor
  · intro h
    obtain ⟨localPart, _, hlocal, hrest₁, rfl⟩ := mem_cat.mp h
    obtain ⟨_, _, hat, hrest₂, rfl⟩ := mem_cat.mp hrest₁
    obtain ⟨left, _, hleft, hrest₃, rfl⟩ := mem_cat.mp hrest₂
    obtain ⟨_, right, hdot, hright, rfl⟩ := mem_cat.mp hrest₃
    rw [mem_lit.mp hat, mem_lit.mp hdot]
    obtain ⟨hlne, hlat, hlsp⟩ := mem_addressPart.mp hlocal
    obtain ⟨hne₁, hat₁, hsp₁⟩ := mem_addressPart.mp hleft
    obtain ⟨hne₂, hat₂, hsp₂⟩ := mem_addressPart.mp hright
    refine ⟨localPart, left, right, by simp, hlne, hne₁, hne₂, ?_, ?_⟩
    · simp [List.count_eq_zero.mpr hlat, List.count_eq_zero.mpr hat₁,
        List.count_eq_zero.mpr hat₂]
    · intro c hc
      simp only [List.mem_append, List.mem_singleton] at hc
      rcases hc with hc | rfl | hc | rfl | hc
      · exact hlsp c hc
      · exact not_isSpace_at.1
      · exact hsp₁ c hc
      · exact not_isSpace_at.2
      · exact hsp₂ c hc
  · rintro ⟨localPart, left, right, rfl, hlne, hne₁, hne₂, hcount, hspace⟩
    simp only [List.count_append, List.count_cons_self, List.count_cons] at hcount
    have hpart : ∀ w : List Char, w ≠ [] → w.count '@' = 0 →
        (∀ c ∈ w, c ∈ localPart ++ '@' :: (left ++ '.' :: right)) → w ∈ addressPart.lang :=
      fun w hne hzero hsub => mem_addressPart.mpr
        ⟨hne, List.count_eq_zero.mp hzero, fun c hc => hspace c (hsub c hc)⟩
    have hlocal := hpart localPart hlne (by omega) fun c hc => by simp [hc]
    have hleft := hpart left hne₁ (by omega) fun c hc => by simp [hc]
    have hright := hpart right hne₂ (by omega) fun c hc => by simp [hc]
    exact mem_cat.mpr ⟨localPart, _, hlocal, mem_cat.mpr ⟨['@'], _, mem_lit.mpr rfl,
      mem_cat.mpr ⟨left, _, hleft, mem_cat.mpr ⟨['.'], right, mem_lit.mpr rfl, hright, rfl⟩, rfl⟩,
      rfl⟩, rfl⟩

/-- An inner character, as a split with something on both sides. -/
theorem mem_inner_iff {a : Char} {cs : List Char} :
    a ∈ (cs.drop 1).dropLast ↔
      ∃ left right, left ≠ [] ∧ right ≠ [] ∧ cs = left ++ a :: right := by
  constructor
  · intro h
    obtain ⟨pre, post, hsplit⟩ := List.append_of_mem h
    match cs with
    | [] => simp at h
    | first :: rest =>
      have hne : rest ≠ [] := by
        rintro rfl
        simp at h
      have hrest : rest = pre ++ a :: (post ++ [rest.getLast hne]) := by
        have hlast := List.dropLast_append_getLast hne
        rw [List.drop_one, List.tail_cons] at hsplit
        rw [hsplit] at hlast
        simpa using hlast.symm
      exact ⟨first :: pre, post ++ [rest.getLast hne], by simp, by simp, by
        rw [List.cons_append, ← hrest]⟩
  · rintro ⟨left, right, hleft, hright, rfl⟩
    obtain ⟨first, left, rfl⟩ := List.exists_cons_of_ne_nil hleft
    rw [List.cons_append, List.drop_one, List.tail_cons,
      List.dropLast_append_of_ne_nil (by simp), List.dropLast_cons_of_ne_nil hright]
    simp

/-- Around the first `@`. -/
theorem split_at_first {cs : List Char} (h : '@' ∈ cs) :
    cs = (cs.takeWhile fun c => c != '@') ++
      '@' :: (cs.dropWhile fun c => c != '@').drop 1 := by
  induction cs with
  | nil => simp at h
  | cons c cs ih =>
    by_cases hc : c = '@'
    · simp [hc]
    · have hmem : '@' ∈ cs := by
        rcases List.mem_cons.mp h with heq | hmem
        · exact absurd heq.symm hc
        · exact hmem
      simpa [hc] using ih hmem

theorem not_mem_takeWhile_at (cs : List Char) : '@' ∉ cs.takeWhile fun c => c != '@' := by
  intro h
  simpa using List.mem_takeWhile_imp h

theorem isAddress_iff (cs : List Char) : isAddress cs = true ↔ AddressGrammar cs := by
  simp only [isAddress, Bool.and_eq_true, Bool.not_eq_true', List.isEmpty_eq_false_iff,
    List.any_eq_false, List.contains_eq_mem, decide_eq_true_eq, decide_eq_false_iff_not,
    Bool.not_eq_true]
  constructor
  · rintro ⟨⟨⟨⟨⟨hlocal, hlsp⟩, hat⟩, hdat⟩, hdsp⟩, hdot⟩
    have hsplit := split_at_first hat
    have hlat := not_mem_takeWhile_at cs
    generalize (cs.takeWhile fun c => c != '@') = localPart at *
    generalize (cs.dropWhile fun c => c != '@').drop 1 = domain at *
    obtain ⟨left, right, hleft, hright, rfl⟩ := mem_inner_iff.mp hdot
    refine ⟨localPart, left, right, hsplit, hlocal, hleft, hright, ?_, ?_⟩
    · rw [hsplit, List.count_append, List.count_cons_self, List.count_eq_zero.mpr hlat,
        List.count_eq_zero.mpr hdat]
    · intro c hc
      rw [hsplit, List.mem_append, List.mem_cons] at hc
      rcases hc with hc | rfl | hc
      · exact hlsp c hc
      · exact not_isSpace_at.1
      · exact hdsp c hc
  · rintro ⟨localPart, left, right, rfl, hlne, hne₁, hne₂, hcount, hspace⟩
    rw [List.count_append, List.count_cons_self] at hcount
    have hlat : '@' ∉ localPart := List.count_eq_zero.mp (by omega)
    have hdat : '@' ∉ left ++ '.' :: right := List.count_eq_zero.mp (by omega)
    have hall : ∀ c ∈ localPart, (c != '@') = true := by
      intro c hc
      simpa using fun heq : c = '@' => hlat (heq ▸ hc)
    rw [List.takeWhile_append_of_pos hall, List.dropWhile_append_of_pos hall]
    simp only [bne_self_eq_false, List.takeWhile_cons, List.dropWhile_cons, Bool.false_eq_true,
      if_false, List.append_nil, List.drop_one, List.tail_cons]
    have hin := (mem_inner_iff (a := '.')).mpr ⟨left, right, hne₁, hne₂, rfl⟩
    rw [List.drop_one] at hin
    exact ⟨⟨⟨⟨⟨hlne, fun c hc => hspace c (by simp [hc])⟩, by simp⟩, hdat⟩,
      fun c hc => hspace c (by simp at hc ⊢; tauto)⟩, hin⟩

/-! ### Domains -/

theorem isAlphanumeric_hyphen : isAlphanumeric '-' = false ∧ isAlphanumeric '.' = false := by decide

theorem mem_labelRe {cs : List Char} : cs ∈ labelRe.lang ↔ LabelGrammar cs := by
  rw [labelRe, mem_delimited (by intro c hc; simp [hc])]
  constructor
  · rintro ⟨hne, hlen, hhead, hlast, hall⟩
    refine ⟨List.length_pos_iff.mpr hne, hlen, ?_, ?_, ?_⟩
    · intro c hc
      simpa [isAlphanumeric] using hall c hc
    · intro heq
      exact absurd (hhead '-' heq) (by simp [isAlphanumeric_hyphen.1])
    · intro heq
      exact absurd (hlast '-' heq) (by simp [isAlphanumeric_hyphen.1])
  · intro h
    have hchar : ∀ c ∈ cs, c ≠ '-' → isAlphanumeric c = true := by
      intro c hc hne
      exact (h.chars c hc).resolve_right hne
    refine ⟨List.length_pos_iff.mp h.pos, h.le, ?_, ?_, ?_⟩
    · intro c hc
      exact hchar c (List.mem_of_mem_head? hc) fun heq => h.first (heq ▸ hc)
    · intro c hc
      exact hchar c (List.mem_of_getLast? hc) fun heq => h.last (heq ▸ hc)
    · intro c hc
      simpa [isAlphanumeric] using h.chars c hc

theorem isLabel_iff {cs : List Char} : isLabel cs = true ↔ LabelGrammar cs := by
  rw [← mem_labelRe, labelRe, mem_delimited (by intro c hc; simp [hc])]
  simp only [isLabel, Bool.and_eq_true, decide_eq_true_eq, List.all_eq_true, Option.any_eq_true]
  constructor
  · rintro ⟨⟨⟨hlen, first, hfirst, hf⟩, last, hlast, hl⟩, hall⟩
    refine ⟨?_, hlen, ?_, ?_, hall⟩
    · rintro rfl
      simp at hfirst
    · intro c hc
      rw [Option.mem_def, hfirst] at hc
      exact Option.some.inj hc ▸ hf
    · intro c hc
      rw [Option.mem_def, hlast] at hc
      exact Option.some.inj hc ▸ hl
  · rintro ⟨hne, hlen, hhead, hlast, hall⟩
    exact ⟨⟨⟨hlen, cs.head hne, List.head?_eq_some_head hne,
      hhead _ (List.head?_eq_some_head hne)⟩, cs.getLast hne, List.getLast?_eq_some_getLast hne,
      hlast _ (List.getLast?_eq_some_getLast hne)⟩, hall⟩

theorem LabelGrammar.dot_not_mem {cs : List Char} (h : LabelGrammar cs) : '.' ∉ cs := by
  intro hmem
  exact absurd (h.chars '.' hmem) (by decide)

theorem mem_domainRe {cs : List Char} : cs ∈ domainRe.lang ↔ DomainGrammar cs := by
  rw [domainRe, mem_separated]
  simp only [mem_labelRe, DomainGrammar]

theorem isDomain_iff (cs : List Char) : isDomain cs = true ↔ DomainGrammar cs := by
  simp only [isDomain, Bool.and_eq_true, decide_eq_true_eq, List.all_eq_true, isLabel_iff]
  constructor
  · rintro ⟨hlen, hall⟩
    exact ⟨cs.splitOn '.', hlen, hall, (List.intercalate_splitOn '.').symm⟩
  · rintro ⟨labels, hlen, hall, rfl⟩
    have hne : labels ≠ [] := List.length_pos_iff.mp (by omega)
    rw [List.splitOn_intercalate '.' (fun l hl => (hall l hl).dot_not_mem) hne]
    exact ⟨hlen, hall⟩

/-! ### The checks -/

/-- A check of the characters, made again without a line feed at the end. -/
theorem check_or_dropLast_iff {check : List Char → Bool} {grammar : List Char → Prop}
    (h : ∀ cs, check cs = true ↔ grammar cs) (cs : List Char) :
    (check cs || (cs.getLast? == some '\n' && check cs.dropLast)) = true ↔
      grammar cs ∨ ∃ u, grammar u ∧ cs = u ++ ['\n'] := by
  rw [Bool.or_eq_true, Bool.and_eq_true, beq_iff_eq, h, h]
  refine or_congr_right ⟨?_, ?_⟩
  · rintro ⟨hlast, hgrammar⟩
    exact ⟨cs.dropLast, hgrammar, (List.dropLast_append_getLast? '\n' hlast).symm⟩
  · rintro ⟨u, hu, rfl⟩
    simpa using hu

/-- The check of an address is its pattern, under `re.match`. -/
theorem matchesAddress_iff (recipient : String) :
    matchesAddress recipient = true ↔ Matches addressRe recipient.toList := by
  simp only [Regex.Matches, mem_addressRe]
  exact check_or_dropLast_iff isAddress_iff recipient.toList

/-- The check of a domain is its pattern, under `re.match`. -/
theorem matchesDomain_iff (domain : String) :
    matchesDomain domain = true ↔ Matches domainRe domain.toList := by
  simp only [Regex.Matches, mem_domainRe]
  exact check_or_dropLast_iff isDomain_iff domain.toList

theorem validateAddress_iff (recipient : String) :
    validateAddress recipient = .ok () ↔ Matches addressRe recipient.toList := by
  rw [← matchesAddress_iff, validateAddress]
  by_cases h : matchesAddress recipient = true
  · simp [h]
  · simp [h]

/-- `start_domain_verification` goes beyond its check. -/
def PassesDomainCheck (orgId domain changedBy : String) : Prop :=
  startDomainVerification orgId domain changedBy ≠
    .raise ⟨.invalidAddressError, "Invalid domain: " ++ pyRepr domain⟩

theorem passesDomainCheck_iff (orgId domain changedBy : String) :
    PassesDomainCheck orgId domain changedBy ↔ Matches domainRe domain.toList := by
  rw [← matchesDomain_iff, PassesDomainCheck, startDomainVerification]
  by_cases h : matchesDomain domain = true
  · simp only [h, Bool.not_true, Bool.false_eq_true, if_false, iff_true]
    intro heq
    cases heq
  · simp [h]

/-! ### Exactly the grammar -/

theorem not_addressGrammar_concat (u : List Char) : ¬ AddressGrammar (u ++ ['\n']) := by
  rintro ⟨_, _, _, _, _, _, _, _, hspace⟩
  exact absurd (hspace '\n' (by simp)) (by decide)

theorem not_domainGrammar_concat (u : List Char) : ¬ DomainGrammar (u ++ ['\n']) := by
  rintro ⟨labels, _, hall, heq⟩
  have hmem : '\n' ∈ ['.'].intercalate labels := heq ▸ by simp
  rcases mem_intercalate hmem with hdot | ⟨l, hl, hchar⟩
  · exact absurd hdot (by decide)
  · exact absurd ((hall l hl).chars '\n' hchar) (by decide)

/-- `"a@b.c\n"` is not an address. -/
theorem not_validators_exact :
    ¬ ∀ s orgId changedBy : String,
      (validateAddress s = .ok () ↔ AddressGrammar s.toList) ∧
        (PassesDomainCheck orgId s changedBy ↔ DomainGrammar s.toList) := by
  intro h
  have hpass : validateAddress "a@b.c\n" = .ok () := by rfl
  have hgrammar := (h "a@b.c\n" "org" "admin").1.mp hpass
  exact not_addressGrammar_concat ['a', '@', 'b', '.', 'c'] hgrammar

/-- Each validator accepts exactly its grammar on a string that is not a word of it with a line feed
at the end, and on no other. -/
theorem validators_exact_iff (s orgId changedBy : String) :
    ((validateAddress s = .ok () ↔ AddressGrammar s.toList) ↔
        ¬ ∃ u, AddressGrammar u ∧ s.toList = u ++ ['\n']) ∧
      ((PassesDomainCheck orgId s changedBy ↔ DomainGrammar s.toList) ↔
        ¬ ∃ u, DomainGrammar u ∧ s.toList = u ++ ['\n']) := by
  constructor
  · refine accepts_exactly_iff not_addressGrammar_concat ?_
    rw [validateAddress_iff]
    simp only [Regex.Matches, mem_addressRe]
  · refine accepts_exactly_iff not_domainGrammar_concat ?_
    rw [passesDomainCheck_iff]
    simp only [Regex.Matches, mem_domainRe]

end A2ZCore.Omnichannel
