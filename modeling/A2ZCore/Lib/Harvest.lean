import Mathlib

/-!
# Strict and tolerant readings

A document is read for a list of elements, and a reading can fail. A strict reading of several parts fails
as soon as one of them does, so that nothing is returned of the others. A tolerant reading passes over
the parts that cannot be read.

`Reads` says of a strict reading when it succeeds, and that it then returns what the tolerant one does. It
goes through the ways readings are put together, so a walk over nested lists has it if what is read at the
bottom has. And then the strict reading returns all that is readable just where everything is, or nothing
is (`Reads.returned_eq_iff`).

## Main definitions

* `returned` — what is returned, which is nothing if the reading fails
* `Reads` — a strict reading, with the tolerant one and the documents it takes

## Main results

* `Reads.returned_eq_iff` — when all that is readable is returned
* `Reads.mapM`, `Reads.mapM_one` — a list of parts
* `Reads.bind`, `Reads.within` — a part of a document, and a part in the light of another
-/

namespace Harvest

variable {α β γ ε : Type}

/-- What is returned. -/
def returned : Except ε (List β) → List β
  | .ok xs => xs
  | .error _ => []

/-- A strict reading succeeds on the sound documents, and returns what the tolerant reading does. -/
structure Reads (strict : α → Except ε (List β)) (tolerant : α → List β) (Sound : α → Prop) :
    Prop where
  exists_ok_iff : ∀ a, (∃ xs, strict a = .ok xs) ↔ Sound a
  eq_of_ok : ∀ {a xs}, strict a = .ok xs → xs = tolerant a

variable {strict : α → Except ε (List β)} {tolerant : α → List β} {Sound : α → Prop}

/-- All that is readable is returned, exactly when the document is sound or nothing in it is readable. -/
theorem Reads.returned_eq_iff (h : Reads strict tolerant Sound) (a : α) :
    returned (strict a) = tolerant a ↔ Sound a ∨ tolerant a = [] := by
  cases ha : strict a with
  | ok xs =>
    have hsound : Sound a := (h.exists_ok_iff a).mp ⟨xs, ha⟩
    exact ⟨fun _ => .inl hsound, fun _ => h.eq_of_ok ha⟩
  | error e =>
    have hsound : ¬Sound a := fun hsound => by
      obtain ⟨xs, hxs⟩ := (h.exists_ok_iff a).mpr hsound
      rw [ha] at hxs
      exact nomatch hxs
    constructor
    · intro hnil
      exact .inr hnil.symm
    · rintro (h' | h')
      · exact absurd h' hsound
      · exact h'.symm

/-! ### Lists of parts -/

theorem mapM_cons_eq_ok_iff {f : α → Except ε β} {x : α} {xs : List α} {ys : List β} :
    (x :: xs).mapM f = .ok ys ↔
      ∃ y, f x = .ok y ∧ ∃ rest, xs.mapM f = .ok rest ∧ y :: rest = ys := by
  rw [List.mapM_cons]
  cases f x with
  | error e => simp [bind, Except.bind]
  | ok y => cases xs.mapM f <;> simp [bind, Except.bind, pure, Except.pure]

/-- A pass over a list succeeds where it does on every item. -/
theorem exists_mapM_ok_iff {f : α → Except ε β} {xs : List α} :
    (∃ ys, xs.mapM f = .ok ys) ↔ ∀ x ∈ xs, ∃ y, f x = .ok y := by
  induction xs with
  | nil => simp [pure, Except.pure]
  | cons x xs ih =>
    rw [List.forall_mem_cons, ← ih]
    simp only [mapM_cons_eq_ok_iff]
    constructor
    · rintro ⟨_, y, hy, rest, hrest, rfl⟩
      exact ⟨⟨y, hy⟩, rest, hrest⟩
    · rintro ⟨⟨y, hy⟩, rest, hrest⟩
      exact ⟨_, y, hy, rest, hrest, rfl⟩

/-- What is read of each part, one after the other. -/
theorem Reads.mapM (h : Reads strict tolerant Sound) :
    Reads (fun xs : List α => (xs.mapM strict).map List.flatten) (fun xs => xs.flatMap tolerant)
      fun xs => ∀ x ∈ xs, Sound x where
  exists_ok_iff xs := by
    simp only [← h.exists_ok_iff, ← exists_mapM_ok_iff]
    cases xs.mapM strict <;> simp [Except.map]
  eq_of_ok {xs ys} hys := by
    induction xs generalizing ys with
    | nil =>
      cases hys
      rfl
    | cons x xs ih =>
      cases hmap : (x :: xs).mapM strict with
      | error e => simp [hmap, Except.map] at hys
      | ok yss =>
        obtain ⟨y, hy, rest, hrest, rfl⟩ := mapM_cons_eq_ok_iff.mp hmap
        have hflatten : (xs.mapM strict).map List.flatten = .ok rest.flatten := by
          rw [hrest]
          rfl
        have htail := ih hflatten
        rw [hmap] at hys
        cases hys
        rw [List.flatten_cons, List.flatMap_cons, htail, h.eq_of_ok hy]

/-- What is read of each part, where it is one element. -/
theorem Reads.mapM_one {read : α → Except ε β} {find : α → Option β} {Sound : α → Prop}
    (hok : ∀ a, (∃ y, read a = .ok y) ↔ Sound a) (heq : ∀ {a y}, read a = .ok y → find a = some y) :
    Reads (fun xs : List α => xs.mapM read) (fun xs => xs.filterMap find)
      fun xs => ∀ x ∈ xs, Sound x where
  exists_ok_iff xs := by simp only [← hok, exists_mapM_ok_iff]
  eq_of_ok {xs ys} hys := by
    induction xs generalizing ys with
    | nil =>
      cases hys
      rfl
    | cons x xs ih =>
      obtain ⟨y, hy, rest, hrest, rfl⟩ := mapM_cons_eq_ok_iff.mp hys
      rw [List.filterMap_cons_some (heq hy), ih hrest]

/-- What is read tolerantly of a part of the document, if there is that part. -/
def ofPart (part : γ → Except ε α) (tolerant : α → List β) (c : γ) : List β :=
  match part c with
  | .ok a => tolerant a
  | .error _ => []

/-- What is read of a part of the document. -/
theorem Reads.bind (h : Reads strict tolerant Sound) (part : γ → Except ε α) :
    Reads (fun c => (part c).bind strict) (ofPart part tolerant) fun c => ∃ a, part c = .ok a ∧ Sound a where
  exists_ok_iff c := by
    cases part c with
    | error e => simp [Except.bind]
    | ok a => simpa [Except.bind] using h.exists_ok_iff a
  eq_of_ok {c xs} hxs := by
    unfold ofPart
    cases hpart : part c with
    | error e => simp [hpart, Except.bind] at hxs
    | ok a =>
      rw [hpart] at hxs
      exact h.eq_of_ok hxs

/-- What is read with something else of the document in hand. The tolerant reading has to have that also
where the strict one fails to get it. -/
theorem Reads.within {strict : γ → α → Except ε (List β)} {tolerant : γ → α → List β}
    {Sound : γ → α → Prop} (h : ∀ c, Reads (strict c) (tolerant c) (Sound c))
    {context : α → Except ε γ} {fallback : α → γ}
    (hcontext : ∀ {a c}, context a = .ok c → fallback a = c) :
    Reads (fun a => (context a).bind fun c => strict c a) (fun a => tolerant (fallback a) a)
      fun a => ∃ c, context a = .ok c ∧ Sound c a where
  exists_ok_iff a := by
    cases context a with
    | error e => simp [Except.bind]
    | ok c => simpa [Except.bind] using (h c).exists_ok_iff a
  eq_of_ok {a xs} hxs := by
    cases hc : context a with
    | error e => simp [hc, Except.bind] at hxs
    | ok c =>
      rw [hc] at hxs
      rw [hcontext hc]
      exact (h c).eq_of_ok hxs

/-- A pass whose results are then mapped. -/
theorem mapM_map {f : α → Except ε β} (φ : β → γ) (xs : List α) :
    (xs.mapM fun x => (f x).map φ) = (xs.mapM f).map (List.map φ) := by
  induction xs with
  | nil => rfl
  | cons x xs ih =>
    rw [List.mapM_cons, List.mapM_cons, ih]
    cases f x with
    | error e => rfl
    | ok y => cases xs.mapM f <;> rfl

/-- A strict reading that is written otherwise. -/
theorem Reads.congr (h : Reads strict tolerant Sound) {strict' : α → Except ε (List β)}
    (heq : ∀ a, strict' a = strict a) : Reads strict' tolerant Sound := by
  obtain rfl : strict' = strict := funext heq
  exact h

end Harvest
