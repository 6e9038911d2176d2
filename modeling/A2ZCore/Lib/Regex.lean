import Mathlib

/-!
# Regular expressions over classes

The fragment of regular expressions that validators are written in: classes, concatenation, `?`, `+`
and `{0,n}`. A pattern denotes a language. A matcher that is anchored at both ends with `^` and `$`
does not accept that language: `$` also stands before a line feed that ends the string, which is what
`Matches` says.

## Main definitions

* `Pattern`, `Pattern.lang` — the patterns and what they denote
* `Matches` — `re.match` of a pattern between `^` and `$`

## Main results

* `mem_plus_cls`, `mem_upTo_cls`, `mem_delimited`, `mem_separated` — the idioms, as conditions on the
  words
* `accepts_exactly_iff` — an anchored matcher accepts exactly its grammar on all but the words of the
  grammar with a line feed at the end
-/

namespace Regex

open Computability

variable {α : Type*}

/-- A regular expression. A class is the predicate of its members. -/
inductive Pattern (α : Type*) where
  /-- One character of a class. -/
  | cls (p : α → Bool)
  /-- One after the other. -/
  | cat (P Q : Pattern α)
  /-- `P?` -/
  | opt (P : Pattern α)
  /-- `P+` -/
  | plus (P : Pattern α)
  /-- `P{0,n}` -/
  | upTo (n : ℕ) (P : Pattern α)

namespace Pattern

/-- A literal. -/
def lit [BEq α] (a : α) : Pattern α := cls fun c => c == a

/-- What a pattern denotes. -/
def lang : Pattern α → Language α
  | cls p => {w | ∃ c, p c ∧ w = [c]}
  | cat P Q => P.lang * Q.lang
  | opt P => 1 + P.lang
  | plus P => P.lang * P.lang∗
  | upTo n P => ⨆ k : Fin (n + 1), P.lang ^ (k : ℕ)

variable {P Q : Pattern α} {p : α → Bool} {w : List α} {n : ℕ}

theorem mem_cls : w ∈ (cls p).lang ↔ ∃ c, p c ∧ w = [c] := Iff.rfl

theorem mem_lit [BEq α] [LawfulBEq α] {a : α} : w ∈ (lit a).lang ↔ w = [a] := by
  rw [lit, mem_cls]
  constructor
  · rintro ⟨c, hc, rfl⟩
    rw [eq_of_beq hc]
  · rintro rfl
    exact ⟨a, beq_self_eq_true a, rfl⟩

theorem mem_cat : w ∈ (cat P Q).lang ↔ ∃ u v, u ∈ P.lang ∧ v ∈ Q.lang ∧ w = u ++ v := by
  rw [lang, Language.mem_mul]
  constructor
  · rintro ⟨u, hu, v, hv, rfl⟩
    exact ⟨u, v, hu, hv, rfl⟩
  · rintro ⟨u, v, hu, hv, rfl⟩
    exact ⟨u, hu, v, hv, rfl⟩

theorem mem_opt : w ∈ (opt P).lang ↔ w = [] ∨ w ∈ P.lang := by
  rw [lang, Language.mem_add, Language.mem_one]

theorem mem_plus : w ∈ (plus P).lang ↔
    ∃ words : List (List α), words ≠ [] ∧ (∀ u ∈ words, u ∈ P.lang) ∧ w = words.flatten := by
  rw [lang, Language.mem_mul]
  constructor
  · rintro ⟨u, hu, v, ⟨words, rfl, hwords⟩, rfl⟩
    exact ⟨u :: words, by simp, by simpa [hu] using hwords, by simp⟩
  · rintro ⟨words, hne, hwords, rfl⟩
    obtain ⟨u, rest, rfl⟩ := List.exists_cons_of_ne_nil hne
    rw [List.forall_mem_cons] at hwords
    exact ⟨u, hwords.1, rest.flatten, Language.join_mem_kstar hwords.2, by simp⟩

theorem mem_upTo : w ∈ (upTo n P).lang ↔
    ∃ words : List (List α), words.length ≤ n ∧ (∀ u ∈ words, u ∈ P.lang) ∧ w = words.flatten := by
  rw [lang, Language.mem_iSup]
  constructor
  · rintro ⟨k, hk⟩
    obtain ⟨words, rfl, hlen, hwords⟩ := Language.mem_pow.mp hk
    exact ⟨words, by omega, hwords, rfl⟩
  · rintro ⟨words, hlen, hwords, rfl⟩
    exact ⟨⟨words.length, by omega⟩, Language.mem_pow.mpr ⟨words, rfl, rfl, hwords⟩⟩

/-! ### Idioms -/

/-- Words of one character each are the characters of their concatenation. -/
theorem length_flatten_of_cls {words : List (List α)} (h : ∀ u ∈ words, u ∈ (cls p).lang) :
    words.flatten.length = words.length ∧ ∀ c ∈ words.flatten, p c := by
  induction words with
  | nil => simp
  | cons u words ih =>
    rw [List.forall_mem_cons] at h
    obtain ⟨⟨c, hc, rfl⟩, hrest⟩ := h
    obtain ⟨hlen, hall⟩ := ih hrest
    constructor
    · simp [hlen]
    · simpa [hc] using hall

/-- The characters of a word, as words. -/
theorem flatten_map_singleton (w : List α) : (w.map fun c => [c]).flatten = w := by
  induction w with
  | nil => rfl
  | cons c w ih => simp [ih]

theorem mem_map_singleton (h : ∀ c ∈ w, p c) : ∀ u ∈ w.map fun c => [c], u ∈ (cls p).lang := by
  intro u hu
  obtain ⟨c, hc, rfl⟩ := List.mem_map.mp hu
  exact ⟨c, h c hc, rfl⟩

/-- `[…]+` -/
theorem mem_plus_cls : w ∈ (plus (cls p)).lang ↔ w ≠ [] ∧ ∀ c ∈ w, p c := by
  rw [mem_plus]
  constructor
  · rintro ⟨words, hne, hwords, rfl⟩
    obtain ⟨hlen, hall⟩ := length_flatten_of_cls hwords
    refine ⟨?_, hall⟩
    rw [← List.length_pos_iff] at hne ⊢
    omega
  · rintro ⟨hne, hall⟩
    exact ⟨w.map fun c => [c], by simpa using hne, mem_map_singleton hall,
      (flatten_map_singleton w).symm⟩

/-- `[…]{0,n}` -/
theorem mem_upTo_cls : w ∈ (upTo n (cls p)).lang ↔ w.length ≤ n ∧ ∀ c ∈ w, p c := by
  rw [mem_upTo]
  constructor
  · rintro ⟨words, hle, hwords, rfl⟩
    obtain ⟨hlen, hall⟩ := length_flatten_of_cls hwords
    exact ⟨by omega, hall⟩
  · rintro ⟨hle, hall⟩
    exact ⟨w.map fun c => [c], by simpa using hle, mem_map_singleton hall,
      (flatten_map_singleton w).symm⟩

/-- `[edge](?:[inner]{0,n}[edge])?`: a word of at most `n + 2` characters whose first and last are of
the smaller class. -/
theorem mem_delimited {edge inner : α → Bool} (hsub : ∀ c, edge c → inner c) :
    w ∈ (cat (cls edge) (opt (cat (upTo n (cls inner)) (cls edge)))).lang ↔
      w ≠ [] ∧ w.length ≤ n + 2 ∧ (∀ c ∈ w.head?, edge c) ∧ (∀ c ∈ w.getLast?, edge c) ∧
        ∀ c ∈ w, inner c := by
  rw [mem_cat]
  constructor
  · rintro ⟨_, rest, ⟨first, hfirst, rfl⟩, hrest, rfl⟩
    rcases mem_opt.mp hrest with rfl | hrest
    · simp [hfirst, hsub first hfirst]
    · obtain ⟨mid, _, hmid, ⟨last, hlast, rfl⟩, rfl⟩ := mem_cat.mp hrest
      obtain ⟨hlen, hall⟩ := mem_upTo_cls.mp hmid
      refine ⟨by simp, by simp; omega, by simp [hfirst], ?_, ?_⟩
      · rw [← List.append_assoc, List.getLast?_concat]
        simp [hlast]
      · intro c hc
        simp only [List.mem_append, List.mem_singleton] at hc
        rcases hc with rfl | hc | rfl
        · exact hsub _ hfirst
        · exact hall c hc
        · exact hsub _ hlast
  · rintro ⟨hne, hlen, hhead, hlast, hall⟩
    obtain ⟨first, rest, rfl⟩ := List.exists_cons_of_ne_nil hne
    refine ⟨[first], rest, ⟨first, hhead first (by simp), rfl⟩, mem_opt.mpr ?_, rfl⟩
    rcases List.eq_nil_or_concat rest with rfl | ⟨mid, last, rfl⟩
    · exact Or.inl rfl
    · refine Or.inr (mem_cat.mpr ⟨mid, [last], mem_upTo_cls.mpr ⟨?_, ?_⟩, ⟨last, ?_, rfl⟩, by simp⟩)
      · simp at hlen
        omega
      · exact fun c hc => hall c (by simp [hc])
      · have hend : (first :: mid.concat last).getLast? = some last := by
          rw [List.concat_eq_append, ← List.cons_append, List.getLast?_concat]
        exact hlast last hend

/-- `sep` before each of the words, after a first one. -/
theorem intercalate_cons_eq (sep : α) (u : List α) (words : List (List α)) :
    [sep].intercalate (u :: words) = u ++ (words.map fun v => sep :: v).flatten := by
  induction words generalizing u with
  | nil => simp
  | cons v words ih => rw [List.intercalate_cons_cons, ih]; simp

theorem mem_intercalate {sep c : α} {words : List (List α)} (h : c ∈ [sep].intercalate words) :
    c = sep ∨ ∃ u ∈ words, c ∈ u := by
  induction words with
  | nil => simp at h
  | cons u words ih =>
    rw [intercalate_cons_eq, List.mem_append, List.mem_flatten] at h
    rcases h with hc | ⟨v, hv, hc⟩
    · exact Or.inr ⟨u, by simp, hc⟩
    · obtain ⟨w, hw, rfl⟩ := List.mem_map.mp hv
      rcases List.mem_cons.mp hc with rfl | hc
      · exact Or.inl rfl
      · exact Or.inr ⟨w, by simp [hw], hc⟩

/-- `P(?:sep P)+`: two or more words of `P`, separated. -/
theorem mem_separated [BEq α] [LawfulBEq α] {sep : α} :
    w ∈ (cat P (plus (cat (lit sep) P))).lang ↔
      ∃ words : List (List α), 2 ≤ words.length ∧ (∀ u ∈ words, u ∈ P.lang) ∧
        w = [sep].intercalate words := by
  rw [mem_cat]
  constructor
  · rintro ⟨u, rest, hu, hrest, rfl⟩
    obtain ⟨parts, hne, hparts, rfl⟩ := mem_plus.mp hrest
    have htail : ∀ v ∈ parts, v = sep :: v.tail ∧ v.tail ∈ P.lang := by
      intro v hv
      obtain ⟨_, x, hsep, hx, rfl⟩ := mem_cat.mp (hparts v hv)
      rw [mem_lit.mp hsep]
      exact ⟨rfl, hx⟩
    have hmap : (parts.map List.tail).map (fun v => sep :: v) = parts := by
      rw [List.map_map]
      exact (List.map_congr_left fun v hv => (htail v hv).1.symm).trans (List.map_id parts)
    refine ⟨u :: parts.map List.tail, ?_, ?_, ?_⟩
    · have := List.length_pos_iff.mpr hne
      simp
      omega
    · intro v hv
      rcases List.mem_cons.mp hv with rfl | hv
      · exact hu
      · obtain ⟨x, hx, rfl⟩ := List.mem_map.mp hv
        exact (htail x hx).2
    · rw [intercalate_cons_eq, hmap]
  · rintro ⟨words, hlen, hwords, rfl⟩
    match words, hlen with
    | u :: v :: words, _ =>
      rw [List.forall_mem_cons] at hwords
      refine ⟨u, _, hwords.1, mem_plus.mpr ⟨(v :: words).map fun x => sep :: x, by simp, ?_, rfl⟩,
        intercalate_cons_eq sep u (v :: words)⟩
      intro x hx
      obtain ⟨y, hy, rfl⟩ := List.mem_map.mp hx
      exact mem_cat.mpr ⟨[sep], y, mem_lit.mpr rfl, hwords.2 y hy, rfl⟩

end Pattern

/-! ### Anchors -/

/-- `re.match` of `^P$`: `$` is the end of the string, or a line feed before it. -/
def Matches (P : Pattern Char) (w : List Char) : Prop :=
  w ∈ P.lang ∨ ∃ u ∈ P.lang, w = u ++ ['\n']

/-- Where no word of the grammar ends with a line feed, what is accepted beyond the grammar is exactly
its words with one. -/
theorem accepts_exactly_iff {grammar : List Char → Prop} {accepts : Prop} {w : List Char}
    (hline : ∀ u, ¬ grammar (u ++ ['\n']))
    (hacc : accepts ↔ grammar w ∨ ∃ u, grammar u ∧ w = u ++ ['\n']) :
    (accepts ↔ grammar w) ↔ ¬ ∃ u, grammar u ∧ w = u ++ ['\n'] := by
  rw [hacc]
  constructor
  · rintro hiff ⟨u, hu, rfl⟩
    exact hline u (hiff.mp (Or.inr ⟨u, hu, rfl⟩))
  · intro hnone
    simp [hnone]

end Regex
