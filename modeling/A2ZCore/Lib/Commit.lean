import A2ZCore.Lib.Proc

/-!
# Programs with one effect

Many programs look around, decide, and then carry out one effect: a transaction is committed, a file
is renamed. The calls before it change nothing, and nothing that follows changes anything either. Such
a program may fail for two kinds of reasons, its own ones, which it finds out before the effect, and
those of the calls it makes. A program that fails for a reason of its own has had no effect.

`silent` are the calls that change nothing, `D` describes the effect, and `E` are the errors of calls.

## Main definitions

* `Proc.Commits` — at most one call is not silent; it is described, and what follows raises only what
  its calls raise

## Main results

* `Proc.Commits.exec_cases` — a run has had no effect, or one that is described
* `Proc.Commits.exec_error` — a run that ends in an error of the program has had none
-/

namespace Interaction

namespace Proc

variable {C X W V : Type} {R : C → Type} {ε α β : Type}
variable {silent D : C → Prop} {E : ε → Prop}

/-- What follows the effect: silent calls, and no other errors than theirs. -/
structure Closes (silent : C → Prop) (E : ε → Prop) (p : Proc C R ε α) : Prop where
  calls : p.Calls silent
  raises : p.Raises E

/-- Silent calls, and then at most one that is not; it satisfies `D`, and closes. -/
def Commits (silent D : C → Prop) (E : ε → Prop) : Proc C R ε α → Prop
  | .ret _ => True
  | .raise _ => True
  | .call c k => (silent c → ∀ r, (k r).Commits silent D E) ∧
      (¬silent c → D c ∧ ∀ r, (k r).Calls silent ∧ ((∀ e, r = .error e → E e) → (k r).Raises E))

/-! ### Rules -/

theorem Commits.of_calls {p : Proc C R ε α} (hp : p.Calls silent) : p.Commits silent D E := by
  induction p with
  | ret a => trivial
  | raise e => trivial
  | call c k ih => exact ⟨fun _ r => ih r (hp.2 r), fun hnot => absurd hp.1 hnot⟩

/-- A silent part comes before. -/
theorem Commits.bind_of_returns {P : α → Prop} {p : Proc C R ε α} {f : α → Proc C R ε β}
    (hp : p.Calls silent) (hv : p.Returns P) (hf : ∀ a, P a → (f a).Commits silent D E) :
    (p.bind f).Commits silent D E := by
  induction p with
  | ret a => exact hf a hv
  | raise e => trivial
  | call c k ih =>
    exact ⟨fun _ r => ih r (hp.2 r) (hv r), fun hnot => absurd hp.1 hnot⟩

theorem Commits.bind {p : Proc C R ε α} {f : α → Proc C R ε β} (hp : p.Calls silent)
    (hf : ∀ a, (f a).Commits silent D E) : (p.bind f).Commits silent D E :=
  Commits.bind_of_returns hp p.returns_true fun a _ => hf a

/-- A check comes before. -/
theorem Commits.ofExcept_bind {x : Except ε α} {f : α → Proc C R ε β}
    (hf : ∀ a, x = .ok a → (f a).Commits silent D E) :
    ((Proc.ofExcept x).bind f).Commits silent D E := by
  cases x with
  | ok a => exact hf a rfl
  | error e => trivial

/-- The effect. -/
theorem Commits.perform_bind {c : C} {f : R c → Proc C R ε β} (hD : D c)
    (hf : ∀ a, Closes silent E (f a)) : ((perform c).bind f).Commits silent D E := by
  refine ⟨fun _ r => ?_, fun _ => ⟨hD, fun r => ?_⟩⟩
  · cases r with
    | ok a => exact .of_calls (hf a).calls
    | error e => trivial
  · cases r with
    | ok a => exact ⟨(hf a).calls, fun _ => (hf a).raises⟩
    | error e => exact ⟨trivial, fun h => h e rfl⟩

/-- The result is dropped. -/
theorem Commits.bind_ret {p : Proc C R ε α} (hp : p.Commits silent D E) (b : β) :
    (p.bind fun _ => .ret b).Commits silent D E := by
  induction p with
  | ret a => trivial
  | raise e => trivial
  | call c k ih =>
    refine ⟨fun hc r => ih r (hp.1 hc r), fun hc => ⟨(hp.2 hc).1, fun r => ?_⟩⟩
    obtain ⟨hcalls, hraises⟩ := (hp.2 hc).2 r
    exact ⟨hcalls.bind fun _ => trivial, fun h => (hraises h).bind fun _ => trivial⟩

theorem Closes.bind {p : Proc C R ε α} {f : α → Proc C R ε β} (hp : Closes silent E p)
    (hf : ∀ a, Closes silent E (f a)) : Closes silent E (p.bind f) where
  calls := hp.calls.bind fun a => (hf a).calls
  raises := hp.raises.bind fun a => (hf a).raises

theorem Closes.ret (a : α) : Closes silent E (.ret a : Proc C R ε α) := ⟨trivial, trivial⟩

theorem Closes.perform {c : C} (hc : silent c) :
    Closes silent E (Proc.perform c : Proc C R ε (R c)) :=
  ⟨Calls.perform hc, Raises.perform c⟩

/-! ### Runs -/

variable {answer : (c : C) → X → W → Except ε (R c) × W}

/-- The replies of a run are errors of `E` at most. -/
def ErrorsIn (answer : (c : C) → X → W → Except ε (R c) × W) (E : ε → Prop) (o : Oracle X) : Prop :=
  ∀ n x, o n = some x → ∀ c w e, (answer c x w).1 = .error e → E e

theorem ErrorsIn.tail {o : Oracle X} (h : ErrorsIn answer E o) : ErrorsIn answer E o.tail :=
  fun n x hx => h (n + 1) x hx

/-- A program that raises what its calls raise. -/
theorem Raises.of_exec {p : Proc C R ε α} (hp : p.Raises E) {o : Oracle X}
    (ho : ErrorsIn answer E o) {w w' : W} {e : ε} (h : exec answer p o w = (some (.error e), w')) :
    E e := by
  induction p generalizing o w with
  | ret a => cases h
  | raise e' => cases h; exact hp
  | call c k ih =>
    rw [exec] at h
    cases hx : o 0 with
    | none => rw [hx] at h; cases h
    | some x =>
      rw [hx] at h
      exact ih _ (hp _ fun e he => ho 0 x hx c w e he) ho.tail h

section Runs

variable {view : W → V} (hsilent : ∀ c, silent c → ∀ x w, view (answer c x w).2 = view w)

include hsilent

/-- Silent calls leave the view as it is. -/
theorem Calls.exec_view {p : Proc C R ε α} (hp : p.Calls silent) (o : Oracle X) (w : W) :
    view (exec answer p o w).2 = view w := by
  have hrel := exec_rel_of_calls (S := fun w w' => view w' = view w) (fun _ => rfl)
    (fun _ _ _ h h' => h'.trans h) hsilent hp o w
  exact hrel

/-- **A run has had no effect, or the one that is described**, made where the program began. -/
theorem Commits.exec_cases {p : Proc C R ε α} (hp : p.Commits silent D E) (o : Oracle X) (w : W) :
    view (exec answer p o w).2 = view w ∨ ∃ c n x w₁, D c ∧ o n = some x ∧ view w₁ = view w ∧
      view (exec answer p o w).2 = view (answer c x w₁).2 := by
  induction p generalizing o w with
  | ret a => exact .inl rfl
  | raise e => exact .inl rfl
  | call c k ih =>
    rw [exec]
    cases hx : o 0 with
    | none => exact .inl rfl
    | some x =>
      by_cases hc : silent c
      · have hview := hsilent c hc x w
        rcases ih _ (hp.1 hc _) o.tail (answer c x w).2 with h | ⟨c', n, x', w₁, hD, ho, hw₁, h⟩
        · exact .inl (h.trans hview)
        · exact .inr ⟨c', n + 1, x', w₁, hD, ho, hw₁.trans hview, h⟩
      · obtain ⟨hD, hk⟩ := hp.2 hc
        exact .inr ⟨c, 0, x, w, hD, hx, rfl, Calls.exec_view hsilent (hk _).1 o.tail _⟩

/-- **A run that ends in an error of the program itself has had no effect.** -/
theorem Commits.exec_error {p : Proc C R ε α} (hp : p.Commits silent D E) {o : Oracle X}
    (ho : ErrorsIn answer E o) {w w' : W} {e : ε} (he : ¬E e)
    (h : exec answer p o w = (some (.error e), w')) : view w' = view w := by
  induction p generalizing o w with
  | ret a => cases h
  | raise e' => cases h; rfl
  | call c k ih =>
    rw [exec] at h
    cases hx : o 0 with
    | none => rw [hx] at h; cases h
    | some x =>
      rw [hx] at h
      by_cases hc : silent c
      · exact (ih _ (hp.1 hc _) ho.tail h).trans (hsilent c hc x w)
      · obtain ⟨_, hk⟩ := hp.2 hc
        have hraises := (hk (answer c x w).1).2 fun e he => ho 0 x hx c w e he
        exact absurd (hraises.of_exec ho.tail h) he

end Runs

end Proc

end Interaction
