import A2ZCore.Lib.Pool
import Mathlib

/-!
# Effects that should happen once

A program is given the right to an effect by the reply to a call, and then carries the effect out.
`grants` says how many rights a reply gives, `spends` picks the calls that use one up, and `accepts` the
calls at which the effect takes place. A program that is given new rights has no use for those that it
had before.

`Pool.count_le_one` says when a run of such programs carries the effect out at most once: when rights are
given one at a time, and none once the effect has taken place, and the effect is carried out by the
program that was given a right last.

## Main definitions

* `Pool.count` — how many calls of a run satisfy a condition
* `Rights`, `Rights.Within` — a program carries the effect out only with a right to it
* `Rights.Uses` — a part of a program that is given no rights
* `Pool.Undisputed` — rights are given one at a time, before the effect has taken place, and used by the
  last program that was given one

## Main results

* `Rights.uses_bind`, `Rights.within_bind`, `Rights.within_forEach` — the rules for programs
* `Pool.count_le_one`
-/

namespace Interaction

open Proc

variable {C : Type} {R : C → Type} {ε α β σ X W : Type}

namespace Pool

variable {answer : (c : C) → X → W → Except ε (R c) × W}

/-- Whether the next call, when the move is made, satisfies `P`. -/
def calls (P : C → X → W → Bool) (s : Pool C R ε α W) (m : ℕ × X) : Bool :=
  match s.procs[m.1]? with
  | some (.call c _) => P c m.2 s.world
  | _ => false

/-- How many calls of a run satisfy `P`. -/
def count (answer : (c : C) → X → W → Except ε (R c) × W) (P : C → X → W → Bool) :
    Pool C R ε α W → List (ℕ × X) → ℕ
  | _, [] => 0
  | s, m :: ms => (s.calls P m).toNat + count answer P (s.step answer m) ms

theorem calls_eq_true {P : C → X → W → Bool} {s : Pool C R ε α W} {m : ℕ × X} :
    s.calls P m = true ↔ ∃ c k, s.procs[m.1]? = some (.call c k) ∧ P c m.2 s.world = true := by
  unfold calls
  constructor
  · intro h
    split at h
    · next c k hck => exact ⟨c, k, hck, h⟩
    · cases h
  · rintro ⟨c, k, hck, h⟩
    rw [hck]
    exact h

theorem count_eq_zero {P : C → X → W → Bool} {ms : List (ℕ × X)} {s : Pool C R ε α W}
    (h : Along answer (fun c x w => P c x w = false) s ms) : s.count answer P ms = 0 := by
  induction ms generalizing s with
  | nil => rfl
  | cons m ms ih =>
    have hcalls : s.calls P m = false := by
      rw [← Bool.not_eq_true, calls_eq_true]
      rintro ⟨c, k, hck, hP⟩
      rw [h.1 c k hck] at hP
      cases hP
    rw [count, hcalls, ih h.2]
    rfl

/-- A condition is never counted exactly when no call of the run satisfies it. -/
theorem count_eq_zero_iff {P : C → X → W → Bool} {ms : List (ℕ × X)} {s : Pool C R ε α W} :
    s.count answer P ms = 0 ↔ Along answer (fun c x w => P c x w = false) s ms := by
  refine ⟨fun h => ?_, count_eq_zero⟩
  induction ms generalizing s with
  | nil => trivial
  | cons m ms ih =>
    rw [count, Nat.add_eq_zero_iff] at h
    refine ⟨fun c k hck => ?_, ih h.2⟩
    have hcalls : s.calls P m = P c m.2 s.world := by rw [calls, hck]
    show P c m.2 s.world = false
    rw [← hcalls]
    simpa using h.1

end Pool

/-! ### Rights -/

/-- How rights to an effect are given, and used. -/
structure Rights (C : Type) (R : C → Type) (ε : Type) where
  /-- The replies to a call that are considered. -/
  possible : (c : C) → Except ε (R c) → Prop
  /-- How many rights a reply gives. -/
  grants : (c : C) → Except ε (R c) → ℕ
  /-- The call uses a right up. -/
  spends : C → Bool
  grants_of_spends : ∀ c r, spends c = true → grants c r = 0

namespace Rights

variable {K : Rights C R ε} {m n : ℕ}

/-- The rights that are left after a call. -/
def left (K : Rights C R ε) (n : ℕ) (c : C) (r : Except ε (R c)) : ℕ :=
  if 0 < K.grants c r then K.grants c r else n - (K.spends c).toNat

/-- With `n` rights to begin with, the program uses up only rights that it has. -/
def Within (K : Rights C R ε) : ℕ → Proc C R ε α → Prop
  | _, .ret _ => True
  | _, .raise _ => True
  | n, .call c k =>
    (K.spends c = true → 0 < n) ∧ ∀ r, K.possible c r → Within K (K.left n c r) (k r)

/-- The call gives no rights. -/
def Barren (K : Rights C R ε) (c : C) : Prop := ∀ r, K.possible c r → K.grants c r = 0

/-- The program is given no rights, and uses up at most `n`. -/
def Uses (K : Rights C R ε) : ℕ → Proc C R ε α → Prop
  | _, .ret _ => True
  | _, .raise _ => True
  | n, .call c k => K.Barren c ∧ (K.spends c = true → 0 < n) ∧
    ∀ r, K.possible c r → Uses K (n - (K.spends c).toNat) (k r)

theorem uses_mono (h : m ≤ n) {p : Proc C R ε α} (hp : K.Uses m p) : K.Uses n p := by
  induction p generalizing m n with
  | ret a => trivial
  | raise e => trivial
  | call c k ih =>
    exact ⟨hp.1, fun hc => (hp.2.1 hc).trans_le h,
      fun r hr => ih r (Nat.sub_le_sub_right h _) (hp.2.2 r hr)⟩

theorem within_mono (h : m ≤ n) {p : Proc C R ε α} (hp : K.Within m p) : K.Within n p := by
  induction p generalizing m n with
  | ret a => trivial
  | raise e => trivial
  | call c k ih =>
    refine ⟨fun hc => (hp.1 hc).trans_le h, fun r hr => ih r ?_ (hp.2 r hr)⟩
    unfold left
    split <;> omega

/-- A program that neither uses a right up nor is given one. -/
theorem uses_of_calls {p : Proc C R ε α} (hp : p.Calls fun c => K.Barren c ∧ K.spends c = false)
    (n : ℕ) : K.Uses n p := by
  induction p generalizing n with
  | ret a => trivial
  | raise e => trivial
  | call c k ih =>
    obtain ⟨⟨hbarren, hspends⟩, hk⟩ := hp
    exact ⟨hbarren, fun hc => absurd (hc.symm.trans hspends) (by decide), fun r _ => ih r (hk r) _⟩

theorem uses_ofExcept (x : Except ε α) (n : ℕ) : K.Uses n (Proc.ofExcept x : Proc C R ε α) := by
  cases x <;> trivial

theorem uses_perform {c : C} (hc : K.Barren c) (hspends : K.spends c = true → 0 < n) :
    K.Uses n (perform c : Proc C R ε (R c)) := by
  refine ⟨hc, hspends, fun r _ => ?_⟩
  cases r <;> trivial

/-- The rights that a program uses up, and those that what follows it does. -/
theorem uses_bind {p : Proc C R ε α} {f : α → Proc C R ε β} (hp : K.Uses m p)
    (hf : ∀ a, K.Uses n (f a)) : K.Uses (m + n) (p.bind f) := by
  induction p generalizing m with
  | ret a => exact uses_mono (Nat.le_add_left n m) (hf a)
  | raise e => trivial
  | call c k ih =>
    obtain ⟨hbarren, hspends, hk⟩ := hp
    refine ⟨hbarren, fun hc => Nat.add_pos_left (hspends hc) n, fun r hr => ?_⟩
    refine uses_mono ?_ (ih r (hk r hr))
    cases hc : K.spends c with
    | false => simp
    | true =>
      have hpos := hspends hc
      rw [Bool.toNat_true]
      omega

theorem uses_bind_zero {p : Proc C R ε α} {f : α → Proc C R ε β} (hp : K.Uses 0 p)
    (hf : ∀ a, K.Uses n (f a)) : K.Uses n (p.bind f) := by
  have h := uses_bind hp hf
  rwa [Nat.zero_add] at h

/-- A reply of which something is known. -/
theorem uses_perform_bind {c : C} {f : R c → Proc C R ε β} (hc : K.Barren c)
    (hspends : K.spends c = false) (hf : ∀ a, K.possible c (.ok a) → K.Uses n (f a)) :
    K.Uses n ((perform c).bind f) := by
  refine ⟨hc, fun h => absurd (h.symm.trans hspends) (by decide), fun r hr => ?_⟩
  rw [hspends]
  cases r with
  | ok a => exact hf a hr
  | error e => trivial

theorem uses_handle {p : Proc C R ε α} {f : ε → Proc C R ε α} (hp : K.Uses m p)
    (hf : ∀ e, K.Uses n (f e)) : K.Uses (m + n) (p.handle f) := by
  induction p generalizing m with
  | ret a => trivial
  | raise e => exact uses_mono (Nat.le_add_left n m) (hf e)
  | call c k ih =>
    obtain ⟨hbarren, hspends, hk⟩ := hp
    refine ⟨hbarren, fun hc => Nat.add_pos_left (hspends hc) n, fun r hr => ?_⟩
    refine uses_mono ?_ (ih r (hk r hr))
    cases hc : K.spends c with
    | false => simp
    | true =>
      have hpos := hspends hc
      rw [Bool.toNat_true]
      omega

/-- What a program that is given no rights leaves is for what follows it. -/
theorem within_bind {p : Proc C R ε α} {f : α → Proc C R ε β} (hp : K.Uses m p)
    (hf : ∀ a, K.Within n (f a)) : K.Within (m + n) (p.bind f) := by
  induction p generalizing m with
  | ret a => exact within_mono (Nat.le_add_left n m) (hf a)
  | raise e => trivial
  | call c k ih =>
    obtain ⟨hbarren, hspends, hk⟩ := hp
    refine ⟨fun hc => Nat.add_pos_left (hspends hc) n, fun r hr => ?_⟩
    rw [left, if_neg (by simp [hbarren r hr])]
    refine within_mono ?_ (ih r (hk r hr))
    cases hc : K.spends c with
    | false => simp
    | true =>
      have hpos := hspends hc
      rw [Bool.toNat_true]
      omega

theorem within_bind_zero {p : Proc C R ε α} {f : α → Proc C R ε β} (hp : K.Uses 0 p)
    (hf : ∀ a, K.Within n (f a)) : K.Within n (p.bind f) := by
  have h := within_bind hp hf
  rwa [Nat.zero_add] at h

/-- What follows without a call uses nothing up. -/
theorem within_bind_ret {p : Proc C R ε α} (hp : K.Within n p) (f : α → β) :
    K.Within n (p.bind fun a => .ret (f a)) := by
  induction p generalizing n with
  | ret a => trivial
  | raise e => trivial
  | call c k ih => exact ⟨hp.1, fun r hr => ih r (hp.2 r hr)⟩

/-- One call. What it gives is for what follows it. -/
theorem within_perform_bind {c : C} {f : R c → Proc C R ε β} (hspends : K.spends c = false)
    (hf : ∀ a, K.possible c (.ok a) → K.Within (K.left n c (.ok a)) (f a)) :
    K.Within n ((perform c).bind f) := by
  refine ⟨fun h => absurd (h.symm.trans hspends) (by decide), fun r hr => ?_⟩
  cases r with
  | ok a => exact hf a hr
  | error e => trivial

/-- Each round of a loop has its own rights. -/
theorem within_forEach {weight : β → ℕ} {body : σ → β → Proc C R ε σ}
    (hbody : ∀ s b, K.Uses (weight b) (body s b)) (l : List β) (s : σ) :
    K.Within (l.map weight).sum (forEach l s body) := by
  induction l generalizing s with
  | nil => trivial
  | cons b l ih =>
    rw [List.map_cons, List.sum_cons]
    exact within_bind (hbody s b) fun s' => ih s'

end Rights

/-! ### At most once -/

namespace Pool

/-- How many rights a move gives. -/
def granted (answer : (c : C) → X → W → Except ε (R c) × W) (K : Rights C R ε) (s : Pool C R ε α W)
    (m : ℕ × X) : ℕ :=
  match s.procs[m.1]? with
  | some (.call c _) => K.grants c (answer c m.2 s.world).1
  | _ => 0

/-- Rights are given one at a time, and none once the effect has taken place; and the effect is carried
out by the program that was given a right last. `holder` is that program, if there is one, and `accepted`
says whether the effect has taken place. -/
def Undisputed (answer : (c : C) → X → W → Except ε (R c) × W) (K : Rights C R ε)
    (accepts : C → X → W → Bool) (holder : Option ℕ) (accepted : Bool) :
    Pool C R ε α W → List (ℕ × X) → Prop
  | _, [] => True
  | s, m :: ms =>
    (0 < s.granted answer K m → s.granted answer K m = 1 ∧ accepted = false) ∧
      (s.calls accepts m = true → ∀ i ∈ holder, i = m.1) ∧
      Undisputed answer K accepts (if 0 < s.granted answer K m then some m.1 else holder)
        (accepted || s.calls accepts m) (s.step answer m) ms

variable {answer : (c : C) → X → W → Except ε (R c) × W} {K : Rights C R ε}
  {accepts : C → X → W → Bool}

instance decidableUndisputed (holder : Option ℕ) (accepted : Bool) :
    (s : Pool C R ε α W) → (ms : List (ℕ × X)) →
      Decidable (Undisputed answer K accepts holder accepted s ms)
  | _, [] => .isTrue trivial
  | s, m :: ms =>
    have : Decidable (Undisputed answer K accepts
        (if 0 < s.granted answer K m then some m.1 else holder)
        (accepted || s.calls accepts m) (s.step answer m) ms) :=
      decidableUndisputed _ _ _ _
    inferInstanceAs (Decidable (_ ∧ _ ∧ _))

/-- The rights of each program of a pool. The last that was given one has it until the effect takes
place, and before there is one no program has any. -/
structure Holds (K : Rights C R ε) (holder : Option ℕ) (accepted : Bool) (s : Pool C R ε α W)
    (rights : ℕ → ℕ) : Prop where
  within : ∀ (i : ℕ) (p : Proc C R ε α), s.procs[i]? = some p → K.Within (rights i) p
  held : ∀ i ∈ holder, rights i + accepted.toNat ≤ 1
  unheld : holder = none → ∀ i, rights i = 0

section Move

variable {holder : Option ℕ} {accepted : Bool} {s : Pool C R ε α W} {rights : ℕ → ℕ} {m : ℕ × X} {c : C}
  {k : Except ε (R c) → Proc C R ε α}

/-- The rights after a move: the program that moves has those that are left to it, the others theirs. -/
def rightsAfter (answer : (c : C) → X → W → Except ε (R c) × W) (K : Rights C R ε)
    (rights : ℕ → ℕ) (s : Pool C R ε α W) (m : ℕ × X) (c : C) : ℕ → ℕ :=
  Function.update rights m.1 (K.left (rights m.1) c (answer c m.2 s.world).1)

theorem Holds.within_step (hpossible : ∀ c x w, K.possible c (answer c x w).1)
    (h : Holds K holder accepted s rights) (hck : s.procs[m.1]? = some (.call c k)) (i : ℕ)
    (p : Proc C R ε α) (hp : (s.step answer m).procs[i]? = some p) :
    K.Within (rightsAfter answer K rights s m c i) p := by
  have hlt : m.1 < s.procs.length := (List.getElem?_eq_some_iff.mp hck).1
  rw [step_call hck] at hp
  by_cases hi : i = m.1
  · subst hi
    rw [List.getElem?_set_self hlt, Option.some.injEq] at hp
    rw [← hp, rightsAfter, Function.update_self]
    exact (h.within m.1 _ hck).2 _ (hpossible c m.2 s.world)
  · rw [List.getElem?_set_ne (Ne.symm hi)] at hp
    rw [rightsAfter, Function.update_of_ne hi]
    exact h.within i p hp

/-- A move that gives a right, before the effect has taken place. -/
theorem Holds.grant (hpossible : ∀ c x w, K.possible c (answer c x w).1)
    (h : Holds K holder false s rights) (hck : s.procs[m.1]? = some (.call c k))
    (hone : K.grants c (answer c m.2 s.world).1 = 1) :
    Holds K (some m.1) false (s.step answer m) (rightsAfter answer K rights s m c) := by
  refine ⟨h.within_step hpossible hck, fun i hi => ?_, fun hnone => (by cases hnone)⟩
  cases hi
  rw [rightsAfter, Function.update_self, Rights.left, hone]
  rfl

/-- A move that gives no right: it uses one up where it carries out the effect. -/
theorem Holds.spend (hpossible : ∀ c x w, K.possible c (answer c x w).1)
    (hspends : ∀ c x w, accepts c x w = true → K.spends c = true)
    (h : Holds K holder accepted s rights) (hck : s.procs[m.1]? = some (.call c k))
    (hnone : K.grants c (answer c m.2 s.world).1 = 0)
    (haccepts : accepts c m.2 s.world = true → ∀ i ∈ holder, i = m.1) :
    (accepts c m.2 s.world = true → accepted = false) ∧
      Holds K holder (accepted || accepts c m.2 s.world) (s.step answer m)
        (rightsAfter answer K rights s m c) := by
  have hleft : rightsAfter answer K rights s m c m.1 = rights m.1 - (K.spends c).toNat := by
    rw [rightsAfter, Function.update_self, Rights.left, hnone, if_neg (Nat.lt_irrefl 0)]
  have hle : ∀ i, rightsAfter answer K rights s m c i ≤ rights i := by
    intro i
    by_cases hi : i = m.1
    · rw [hi, hleft]
      omega
    · rw [rightsAfter, Function.update_of_ne hi]
  have hunheld : holder = none → ∀ i, rightsAfter answer K rights s m c i = 0 := fun hholder i =>
    Nat.le_zero.mp ((hle i).trans_eq (h.unheld hholder i))
  cases hacc : accepts c m.2 s.world with
  | false =>
    rw [Bool.or_false]
    exact ⟨fun hacc' => absurd hacc' Bool.false_ne_true, h.within_step hpossible hck,
      fun i hi => (Nat.add_le_add_right (hle i) _).trans (h.held i hi), hunheld⟩
  | true =>
    -- it has a right, so it is the one that was given one last
    have hspend := hspends c m.2 s.world hacc
    have hright := (h.within m.1 _ hck).1 hspend
    cases hholder : holder with
    | none =>
      have hzero := h.unheld hholder m.1
      omega
    | some i =>
      have hi : i = m.1 := haccepts hacc i hholder
      have hone := h.held i hholder
      have hbefore : accepted = false := by
        cases accepted with
        | false => rfl
        | true =>
          rw [hi, Bool.toNat_true] at hone
          omega
      refine ⟨fun _ => hbefore, h.within_step hpossible hck, fun j hj => ?_,
        fun hnone => (by cases hnone)⟩
      cases hj
      rw [hbefore, hi, hleft, hspend, Bool.toNat_true]
      rw [hbefore, hi, Bool.toNat_false] at hone
      show rights m.1 - 1 + 1 ≤ 1
      omega

/-- One move. -/
theorem Holds.step (hpossible : ∀ c x w, K.possible c (answer c x w).1)
    (hspends : ∀ c x w, accepts c x w = true → K.spends c = true)
    (h : Holds K holder accepted s rights)
    (hgranted : 0 < s.granted answer K m → s.granted answer K m = 1 ∧ accepted = false)
    (haccepts : s.calls accepts m = true → ∀ i ∈ holder, i = m.1) :
    (s.calls accepts m = true → accepted = false) ∧
      ∃ rights', Holds K (if 0 < s.granted answer K m then some m.1 else holder)
        (accepted || s.calls accepts m) (s.step answer m) rights' := by
  rcases step_cases answer s m with ⟨c, k, hck⟩ | ⟨hnone, hsame⟩
  · have hcalls : s.calls accepts m = accepts c m.2 s.world := by rw [calls, hck]
    have hgrants : s.granted answer K m = K.grants c (answer c m.2 s.world).1 := by rw [granted, hck]
    rw [hgrants] at hgranted ⊢
    rw [hcalls] at haccepts ⊢
    by_cases hgrant : 0 < K.grants c (answer c m.2 s.world).1
    · obtain ⟨hone, rfl⟩ := hgranted hgrant
      have hno : accepts c m.2 s.world = false := by
        rw [← Bool.not_eq_true]
        intro hacc
        have hzero := K.grants_of_spends c (answer c m.2 s.world).1 (hspends c m.2 s.world hacc)
        omega
      rw [if_pos hgrant, hno]
      exact ⟨fun _ => rfl, _, h.grant hpossible hck hone⟩
    · rw [if_neg hgrant]
      obtain ⟨hbefore, hafter⟩ := h.spend hpossible hspends hck (Nat.eq_zero_of_not_pos hgrant) haccepts
      exact ⟨hbefore, _, hafter⟩
  · have hcalls : s.calls accepts m = false := by
      rw [← Bool.not_eq_true, calls_eq_true]
      rintro ⟨c, k, hck, _⟩
      exact hnone c k hck
    have hgrants : s.granted answer K m = 0 := by
      unfold granted
      split
      · next c k hck => exact absurd hck (hnone c k)
      · rfl
    rw [hcalls, hgrants, hsame, if_neg (Nat.lt_irrefl 0), Bool.or_false]
    exact ⟨fun h => absurd h Bool.false_ne_true, rights, h⟩

end Move

/-- **At most once.** Where rights are given one at a time, none once the effect has taken place, and the
effect is carried out by the program that was given a right last, it takes place at most once. -/
theorem count_le_one {s : Pool C R ε α W} {ms : List (ℕ × X)}
    (hpossible : ∀ c x w, K.possible c (answer c x w).1)
    (hspends : ∀ c x w, accepts c x w = true → K.spends c = true)
    (hprocs : ∀ p ∈ s.procs, K.Within 0 p) (h : Undisputed answer K accepts none false s ms) :
    s.count answer accepts ms ≤ 1 := by
  have hall : ∀ (ms : List (ℕ × X)) (holder : Option ℕ) (accepted : Bool) (s : Pool C R ε α W)
      (rights : ℕ → ℕ), Holds K holder accepted s rights →
      Undisputed answer K accepts holder accepted s ms →
        accepted.toNat + s.count answer accepts ms ≤ 1 := by
    intro ms
    induction ms with
    | nil =>
      intro holder accepted s rights _ _
      rw [count]
      cases accepted <;> decide
    | cons m ms ih =>
      rintro holder accepted s rights hs ⟨hgranted, haccepts, hrest⟩
      obtain ⟨hbefore, rights', hs'⟩ := hs.step hpossible hspends hgranted haccepts
      have hle := ih _ _ _ rights' hs' hrest
      rw [count]
      cases hacc : s.calls accepts m with
      | false =>
        rw [hacc, Bool.or_false] at hle
        rwa [Bool.toNat_false, Nat.zero_add]
      | true =>
        rw [hacc, Bool.or_true, Bool.toNat_true] at hle
        rw [hbefore hacc, Bool.toNat_false, Bool.toNat_true, Nat.zero_add]
        exact hle
  have hstart : Holds K none false s fun _ => 0 :=
    ⟨fun i p hp => hprocs p (List.mem_of_getElem? hp), fun i hi => (by cases hi), fun _ _ => rfl⟩
  have hle := hall ms none false s _ hstart h
  rwa [Bool.toNat_false, Nat.zero_add] at hle

end Pool

end Interaction
