import A2ZCore.Lib.Proc
import Mathlib

/-!
# Two programs in step

A program written for a detailed state and one written for the state it stands for make the same number
of calls, one by one, and each call of the first does to its state what the call of the second does to
what the state stands for. The calls and their replies need not be the same; what is decided by the
environment is.

`InStep` is that relation between the two programs and the two states. It is put together along
sequences and handlers, and where it holds, the two runs end alike, wherever they are stopped.

## Main definitions

* `InStep` — two programs, from two states

## Main results

* `InStep.bind`, `InStep.handle`, `InStep.embed` — what it is put together of
* `InStep.exec_eq` — the two runs return the same value
-/

namespace Interaction

namespace Proc

variable {C D : Type} {R : C → Type} {S : D → Type} {ε α α' β β' X W V : Type}

/-- `J` relates the states at every call and at the end, `T` the values returned; the environment
decides as `A` says. -/
inductive InStep (answer : (c : C) → X → W → Except ε (R c) × W)
    (answer' : (d : D) → X → V → Except ε (S d) × V) (A : X → Prop) (J : W → V → Prop)
    (T : α → α' → Prop) : Proc C R ε α → Proc D S ε α' → W → V → Prop where
  | ret {a : α} {a' : α'} {w : W} {v : V} (hJ : J w v) (hT : T a a') :
    InStep answer answer' A J T (.ret a) (.ret a') w v
  | raise {e : ε} {w : W} {v : V} (hJ : J w v) : InStep answer answer' A J T (.raise e) (.raise e) w v
  | call {c : C} {d : D} {k : Except ε (R c) → Proc C R ε α} {l : Except ε (S d) → Proc D S ε α'}
      {w : W} {v : V} (hJ : J w v) (h : ∀ x, A x →
        InStep answer answer' A J T (k (answer c x w).1) (l (answer' d x v).1) (answer c x w).2
          (answer' d x v).2) :
    InStep answer answer' A J T (.call c k) (.call d l) w v

variable {answer : (c : C) → X → W → Except ε (R c) × W}
  {answer' : (d : D) → X → V → Except ε (S d) × V} {A : X → Prop} {J : W → V → Prop}
  {T : α → α' → Prop} {U : β → β' → Prop} {w : W} {v : V}

/-- Replies that are alike: the same error, or values that `T` relates. -/
def Alike (T : α → α' → Prop) : Except ε α → Except ε α' → Prop
  | .ok a, .ok a' => T a a'
  | .error e, .error e' => e = e'
  | _, _ => False

/-- One call each. -/
theorem InStep.perform {c : C} {d : D} {T : R c → S d → Prop} (hJ : J w v) (h : ∀ x, A x →
    Alike T (answer c x w).1 (answer' d x v).1 ∧ J (answer c x w).2 (answer' d x v).2) :
    InStep answer answer' A J T (Proc.perform c) (Proc.perform d) w v := by
  refine .call hJ fun x hx => ?_
  obtain ⟨hreply, hafter⟩ := h x hx
  revert hreply
  cases (answer c x w).1 with
  | ok a =>
    cases (answer' d x v).1 with
    | ok a' => exact fun hT => .ret hafter hT
    | error e => exact fun hfalse => hfalse.elim
  | error e =>
    cases (answer' d x v).1 with
    | ok a' => exact fun hfalse => hfalse.elim
    | error e' =>
      rintro rfl
      exact .raise hafter

theorem InStep.mono {J' : W → V → Prop} {T' : α → α' → Prop} {p : Proc C R ε α} {q : Proc D S ε α'}
    (hJ : ∀ w v, J w v → J' w v) (hT : ∀ a a', T a a' → T' a a')
    (h : InStep answer answer' A J T p q w v) : InStep answer answer' A J' T' p q w v := by
  induction h with
  | ret h hret => exact .ret (hJ _ _ h) (hT _ _ hret)
  | raise h => exact .raise (hJ _ _ h)
  | call h _ ih => exact .call (hJ _ _ h) ih

/-- The first program may leave the states related more closely than the rest does. -/
theorem InStep.bind_into {J' : W → V → Prop} {p : Proc C R ε α} {q : Proc D S ε α'}
    {f : α → Proc C R ε β} {g : α' → Proc D S ε β'} (hinto : ∀ w v, J w v → J' w v)
    (h : InStep answer answer' A J T p q w v)
    (hf : ∀ a a' w v, T a a' → J w v → InStep answer answer' A J' U (f a) (g a') w v) :
    InStep answer answer' A J' U (p.bind f) (q.bind g) w v := by
  induction h with
  | ret hJ hT => exact hf _ _ _ _ hT hJ
  | raise hJ => exact .raise (hinto _ _ hJ)
  | call hJ _ ih => exact .call (hinto _ _ hJ) ih

theorem InStep.bind {p : Proc C R ε α} {q : Proc D S ε α'} {f : α → Proc C R ε β}
    {g : α' → Proc D S ε β'} (h : InStep answer answer' A J T p q w v)
    (hf : ∀ a a' w v, T a a' → J w v → InStep answer answer' A J U (f a) (g a') w v) :
    InStep answer answer' A J U (p.bind f) (q.bind g) w v :=
  h.bind_into (fun _ _ h => h) hf

/-- A lookup that one side makes in a part only, where what is not in the part counts as nothing. -/
theorem InStep.bind_lookup {found : Option α} {part : α → Bool} {p : Proc C R ε (Option α)}
    {q : Proc D S ε (Option α)} {f : Option α → Proc C R ε β} {g : Option α → Proc D S ε β'}
    (h : InStep answer answer' A J (fun r r' => r = found ∧ r' = found.filter part) p q w v)
    (hoff : ∀ a, part a = false → f (some a) = f none)
    (hnone : ∀ w v, J w v → InStep answer answer' A J U (f none) (g none) w v)
    (hsome : ∀ a w v, found = some a → part a = true → J w v →
      InStep answer answer' A J U (f (some a)) (g (some a)) w v) :
    InStep answer answer' A J U (p.bind f) (q.bind g) w v := by
  refine h.bind ?_
  rintro r r' w v ⟨rfl, rfl⟩ hJ
  cases r with
  | none => exact hnone w v hJ
  | some a =>
    cases hpart : part a with
    | true =>
      rw [Option.filter_some, if_pos hpart]
      exact hsome a w v rfl hpart hJ
    | false =>
      rw [Option.filter_some, if_neg (by simp [hpart]), hoff a hpart]
      exact hnone w v hJ

theorem InStep.handle {p : Proc C R ε α} {q : Proc D S ε α'} {f : ε → Proc C R ε α}
    {g : ε → Proc D S ε α'} (h : InStep answer answer' A J T p q w v)
    (hf : ∀ e w v, J w v → InStep answer answer' A J T (f e) (g e) w v) :
    InStep answer answer' A J T (p.handle f) (q.handle g) w v := by
  induction h with
  | ret hJ hT => exact .ret hJ hT
  | raise hJ => exact hf _ _ _ hJ
  | call hJ _ ih => exact .call hJ ih

/-- One program, among the calls of either side. -/
theorem InStep.embed {B : Type} {Q : B → Type} {emb : B → C} {back : (b : B) → R (emb b) → Q b}
    {emb' : B → D} {back' : (b : B) → S (emb' b) → Q b} {P : B → Prop}
    (hP : ∀ b, P b → ∀ x w v, A x → J w v →
      (answer (emb b) x w).1.map (back b) = (answer' (emb' b) x v).1.map (back' b) ∧
        J (answer (emb b) x w).2 (answer' (emb' b) x v).2)
    {p : Proc B Q ε α} (hp : p.Calls P) (hJ : J w v) :
    InStep answer answer' A J Eq (p.embed emb back) (p.embed emb' back') w v := by
  induction p generalizing w v with
  | ret a => exact .ret hJ rfl
  | raise e => exact .raise hJ
  | call b k ih =>
    refine .call hJ fun x hx => ?_
    obtain ⟨hreply, hafter⟩ := hP b hp.1 x w v hx hJ
    rw [hreply]
    exact ih _ (hp.2 _) hafter

/-- Two programs in step, among other calls. -/
theorem InStep.among {B B' Y : Type} {Q : B → Type} {Q' : B' → Type}
    {ask : (b : B) → Y → W → Except ε (Q b) × W} {ask' : (b : B') → Y → V → Except ε (Q' b) × V}
    {emb : B → C} {back : (b : B) → R (emb b) → Q b} {emb' : B' → D}
    {back' : (b : B') → S (emb' b) → Q' b} {f : X → Y} {A' : Y → Prop}
    (hask : ∀ b x w, ask b (f x) w = ((answer (emb b) x w).1.map (back b), (answer (emb b) x w).2))
    (hask' : ∀ b x v, ask' b (f x) v =
      ((answer' (emb' b) x v).1.map (back' b), (answer' (emb' b) x v).2))
    (hA : ∀ x, A x → A' (f x)) {p : Proc B Q ε α} {q : Proc B' Q' ε α'}
    (h : InStep ask ask' A' J T p q w v) :
    InStep answer answer' A J T (p.embed emb back) (q.embed emb' back') w v := by
  induction h with
  | ret hJ hT => exact .ret hJ hT
  | raise hJ => exact .raise hJ
  | call hJ _ ih =>
    refine .call hJ fun x hx => ?_
    have hnext := ih (f x) (hA x hx)
    rwa [hask, hask'] at hnext

/-- A program next to itself, where each of its calls is answered alike. -/
theorem InStep.of_calls {answer' : (c : C) → X → V → Except ε (R c) × V} {P : C → Prop}
    (hP : ∀ c, P c → ∀ x w v, A x → J w v → (answer c x w).1 = (answer' c x v).1 ∧
      J (answer c x w).2 (answer' c x v).2)
    {p : Proc C R ε α} (hp : p.Calls P) (hJ : J w v) : InStep answer answer' A J Eq p p w v := by
  induction p generalizing w v with
  | ret a => exact .ret hJ rfl
  | raise e => exact .raise hJ
  | call c k ih =>
    refine .call hJ fun x hx => ?_
    obtain ⟨hreply, hafter⟩ := hP c hp.1 x w v hx hJ
    rw [hreply]
    exact ih _ (hp.2 _) hafter

/-- The states of the two runs are related, also where they are stopped. -/
theorem InStep.exec_rel {p : Proc C R ε α} {q : Proc D S ε α'} (h : InStep answer answer' A J T p q w v)
    {o : Oracle X} (ho : ∀ n x, o n = some x → A x) :
    J (exec answer p o w).2 (exec answer' q o v).2 := by
  induction h generalizing o with
  | ret hJ _ => exact hJ
  | raise hJ => exact hJ
  | call hJ _ ih =>
    rw [exec, exec]
    cases hx : o 0 with
    | none => exact hJ
    | some x => exact ih x (ho 0 x hx) (o := o.tail) fun n => ho (n + 1)

/-- The two runs return the same value, raise the same error or are both stopped. -/
theorem InStep.exec_eq {p : Proc C R ε α} {q : Proc D S ε α} (h : InStep answer answer' A J Eq p q w v)
    {o : Oracle X} (ho : ∀ n x, o n = some x → A x) :
    (exec answer p o w).1 = (exec answer' q o v).1 := by
  induction h generalizing o with
  | ret _ hT => exact congrArg (fun a => some (Except.ok a)) hT
  | raise _ => rfl
  | call _ _ ih =>
    rw [exec, exec]
    cases hx : o 0 with
    | none => rfl
    | some x => exact ih x (ho 0 x hx) (o := o.tail) fun n => ho (n + 1)

end Proc

end Interaction
