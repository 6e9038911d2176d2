import Mathlib

/-!
# Caches whose entries expire

A table of values, each with the time from which it counts as absent. Such a cache is read through:
what is absent is made and kept for `ttl`. What is read may have been made earlier, and the bound on
how much earlier is `ttl`.

The entry of an item `i` is under the key `name i`.

## Main definitions

* `Cache`, `get`, `set` — the table, and what is done to it
* `fetch` — reading through it
* `Made` — each entry is what was made of its item at some time, and expires `ttl` after it

## Main results

* `Made.fetch` — what is fetched was made less than `ttl` ago
-/

namespace Expiring

variable {ι κ τ α : Type*}

/-- Values by key, each with the time at which it expires. -/
abbrev Cache (κ τ α : Type*) := κ → Option (τ × α)

/-- No entry. -/
def empty : Cache κ τ α := fun _ => none

section Operations

variable [DecidableEq κ] [Add τ] [LE τ] [DecidableLE τ]

/-- The value under a key. An entry that has expired is dropped. -/
def get (key : κ) (now : τ) (c : Cache κ τ α) : Option α × Cache κ τ α :=
  match c key with
  | none => (none, c)
  | some (expiresAt, value) =>
    if expiresAt ≤ now then (none, Function.update c key none) else (some value, c)

/-- Keep a value under a key for `ttl`. -/
def set (key : κ) (value : α) (ttl now : τ) (c : Cache κ τ α) : Cache κ τ α :=
  Function.update c key (some (now + ttl, value))

/-- The value under a key, which is made when there is none. -/
def fetch (key : κ) (make : τ → α) (ttl now : τ) (c : Cache κ τ α) : α × Cache κ τ α :=
  match get key now c with
  | (some value, c') => (value, c')
  | (none, c') => (make now, set key (make now) ttl now c')

end Operations

variable [AddCommGroup τ] [LinearOrder τ]

/-- Each entry is what was made of its item at some time, and expires `ttl` after that. -/
def Made (name : ι → κ) (make : ι → τ → α) (ttl now : τ) (c : Cache κ τ α) : Prop :=
  ∀ i expiresAt value, c (name i) = some (expiresAt, value) →
    ∃ t, t ≤ now ∧ expiresAt = t + ttl ∧ value = make i t

variable {name : ι → κ} {make : ι → τ → α} {ttl t₀ now : τ} {c : Cache κ τ α}

theorem made_empty : Made name make ttl now (empty : Cache κ τ α) := by
  intro i expiresAt value h
  cases h

/-- Time passes. -/
theorem Made.mono (h : Made name make ttl t₀ c) (ht : t₀ ≤ now) : Made name make ttl now c := by
  intro i expiresAt value hentry
  obtain ⟨t, hle, hmade⟩ := h i expiresAt value hentry
  exact ⟨t, hle.trans ht, hmade⟩

variable [DecidableEq κ]

/-- An entry that is dropped. -/
theorem Made.update_none (h : Made name make ttl now c) (key : κ) :
    Made name make ttl now (Function.update c key none) := by
  intro i expiresAt value hentry
  by_cases hkey : name i = key
  · rw [hkey, Function.update_self] at hentry
    cases hentry
  · rw [Function.update_of_ne hkey] at hentry
    exact h i expiresAt value hentry

/-- An entry that is made now. -/
theorem Made.set (hname : Function.Injective name) (h : Made name make ttl now c) (i : ι) :
    Made name make ttl now (set (name i) (make i now) ttl now c) := by
  intro j expiresAt value hentry
  by_cases hij : j = i
  · subst hij
    rw [Expiring.set, Function.update_self] at hentry
    cases hentry
    exact ⟨now, le_rfl, rfl, rfl⟩
  · rw [Expiring.set, Function.update_of_ne fun hkey => hij (hname hkey)] at hentry
    exact h j expiresAt value hentry

/-- **What is fetched was made less than `ttl` ago.** -/
theorem Made.fetch (hname : Function.Injective name) (h : Made name make ttl t₀ c) (ht : t₀ ≤ now)
    (hfresh : now < now + ttl) (i : ι) :
    (∃ t, t ≤ now ∧ now < t + ttl ∧ (fetch (name i) (make i) ttl now c).1 = make i t) ∧
      Made name make ttl now (fetch (name i) (make i) ttl now c).2 := by
  have hnow := h.mono ht
  unfold Expiring.fetch Expiring.get
  cases hentry : c (name i) with
  | none => exact ⟨⟨now, le_rfl, hfresh, rfl⟩, hnow.set hname i⟩
  | some entry =>
    obtain ⟨expiresAt, value⟩ := entry
    obtain ⟨t, hle, rfl, rfl⟩ := hnow i expiresAt value hentry
    by_cases hexpired : t + ttl ≤ now
    · simp only [if_pos hexpired]
      exact ⟨⟨now, le_rfl, hfresh, rfl⟩, (hnow.update_none (name i)).set hname i⟩
    · simp only [if_neg hexpired]
      exact ⟨⟨t, hle, not_le.mp hexpired, rfl⟩, hnow⟩

end Expiring
