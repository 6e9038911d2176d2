import Mathlib

/-!
# Programs that call an environment

A request handler is a piece of straight-line code that suspends at every external call: a
database statement, a queue operation, a remote service. Between two suspensions it runs alone;
at a suspension anything may happen, including that the call fails or that the handler is never
resumed.

`Proc` is that shape and nothing more. A program is a finite tree whose inner nodes are calls and
whose branches are the possible replies, a value or an error. What a call does is not part of the
program: an *answer* function says how an environment in state `w` replies to a call once the
environment's own `x` (a fault, a generated identifier, a clock reading) has been fixed.

## Main definitions

* `Proc` — programs over the calls `C`, with replies `R c` and errors `ε`
* `Proc.perform`, `Proc.ofExcept`, `Proc.forEach` — one call, a pure computation, a loop
* `Proc.embed` — a program over one set of calls as a program over a larger one
* `Proc.Calls`, `Proc.Returns` — what every call, and every value returned, satisfies
* `Proc.Raises` — which errors it can raise
* `Proc.Succeeds` — where each reply is as expected, the program returns
* `Proc.exec`, `Proc.Along` — running a program alone, and what holds at each of its calls

## Main results

* `Proc.exec_map` — a run in the image of the state
* `Proc.Guards.iff_along` — a run raises errors of one kind only, exactly when its calls do
* `Proc.Yields.bind`, `Proc.Reaches.bind_right` — a run is put together from runs of the parts
-/

namespace Interaction

/-- A program that makes calls in `C`, is resumed with a reply in `R c` or an error in `ε`, and
returns an `α`. -/
inductive Proc (C : Type) (R : C → Type) (ε α : Type) where
  | ret (a : α)
  | raise (e : ε)
  | call (c : C) (k : Except ε (R c) → Proc C R ε α)

namespace Proc

variable {C D : Type} {R : C → Type} {S : D → Type} {ε α β σ X W : Type}

/-- Sequencing. An error of the first program skips the second. -/
def bind : Proc C R ε α → (α → Proc C R ε β) → Proc C R ε β
  | .ret a, f => f a
  | .raise e, _ => .raise e
  | .call c k, f => .call c fun r => (k r).bind f

/-- Run `h` on the error of a program, wherever in the program it was raised. -/
def handle : Proc C R ε α → (ε → Proc C R ε α) → Proc C R ε α
  | .ret a, _ => .ret a
  | .raise e, h => h e
  | .call c k, h => .call c fun r => (k r).handle h

instance : Monad (Proc C R ε) where
  pure := .ret
  bind := bind

instance : MonadExceptOf ε (Proc C R ε) where
  throw := .raise
  tryCatch := handle

@[simp] theorem pure_eq (a : α) : (pure a : Proc C R ε α) = .ret a := rfl

@[simp] theorem bind_eq (p : Proc C R ε α) (f : α → Proc C R ε β) : p >>= f = p.bind f := rfl

@[simp] theorem throw_eq (e : ε) : (throw e : Proc C R ε α) = .raise e := rfl

@[simp] theorem tryCatch_eq (p : Proc C R ε α) (h : ε → Proc C R ε α) :
    tryCatch p h = p.handle h := rfl

theorem bind_assoc (p : Proc C R ε α) (f : α → Proc C R ε β) (g : β → Proc C R ε σ) :
    (p.bind f).bind g = p.bind fun a => (f a).bind g := by
  induction p with
  | ret a => rfl
  | raise e => rfl
  | call c k ih => exact congrArg (Proc.call c) (funext ih)

/-- Make one call and return its reply. -/
def perform (c : C) : Proc C R ε (R c) :=
  .call c fun
    | .ok a => .ret a
    | .error e => .raise e

/-- A computation that makes no call. -/
def ofExcept : Except ε α → Proc C R ε α
  | .ok a => .ret a
  | .error e => .raise e

@[simp] theorem ofExcept_ok (a : α) : (ofExcept (.ok a) : Proc C R ε α) = .ret a := rfl

@[simp] theorem ofExcept_error (e : ε) : (ofExcept (.error e) : Proc C R ε α) = .raise e := rfl

/-- `try p finally cleanup`. -/
def tryFinally (p : Proc C R ε α) (cleanup : Proc C R ε Unit) : Proc C R ε α :=
  (p.handle fun e => cleanup.bind fun _ => .raise e).bind fun a => cleanup.bind fun _ => .ret a

/-- A loop over a list, threading the loop's variables `s`. -/
def forEach : List β → σ → (σ → β → Proc C R ε σ) → Proc C R ε σ
  | [], s, _ => .ret s
  | b :: bs, s, f => (f s b).bind fun s' => forEach bs s' f

/-- A program over the calls `C` as a program over `D`: every call is renamed along `emb`, and
the reply of the renamed call is read back along `back`. -/
def embed (emb : C → D) (back : (c : C) → S (emb c) → R c) : Proc C R ε α → Proc D S ε α
  | .ret a => .ret a
  | .raise e => .raise e
  | .call c k => .call (emb c) fun r => (k (r.map (back c))).embed emb back

theorem embed_bind (emb : C → D) (back : (c : C) → S (emb c) → R c) (p : Proc C R ε α)
    (f : α → Proc C R ε β) :
    (p.bind f).embed emb back = (p.embed emb back).bind fun a => (f a).embed emb back := by
  induction p with
  | ret a => rfl
  | raise e => rfl
  | call c k ih => exact congrArg (Proc.call (emb c)) (funext fun r => ih _)

theorem embed_handle (emb : C → D) (back : (c : C) → S (emb c) → R c) (p : Proc C R ε α)
    (h : ε → Proc C R ε α) :
    (p.handle h).embed emb back = (p.embed emb back).handle fun e => (h e).embed emb back := by
  induction p with
  | ret a => rfl
  | raise e => rfl
  | call c k ih => exact congrArg (Proc.call (emb c)) (funext fun r => ih _)

/-! ### The calls a program can make -/

/-- Every call `p` makes, whatever the replies, satisfies `P`. -/
def Calls (P : C → Prop) : Proc C R ε α → Prop
  | .ret _ => True
  | .raise _ => True
  | .call c k => P c ∧ ∀ r, (k r).Calls P

theorem Calls.mono {P P' : C → Prop} (h : ∀ c, P c → P' c) {p : Proc C R ε α}
    (hp : p.Calls P) : p.Calls P' := by
  induction p with
  | ret a => trivial
  | raise e => trivial
  | call c k ih => exact ⟨h c hp.1, fun r => ih r (hp.2 r)⟩

theorem Calls.bind {P : C → Prop} {p : Proc C R ε α} {f : α → Proc C R ε β} (hp : p.Calls P)
    (hf : ∀ a, (f a).Calls P) : (p.bind f).Calls P := by
  induction p with
  | ret a => exact hf a
  | raise e => trivial
  | call c k ih => exact ⟨hp.1, fun r => ih r (hp.2 r)⟩

theorem Calls.handle {P : C → Prop} {p : Proc C R ε α} {h : ε → Proc C R ε α} (hp : p.Calls P)
    (hh : ∀ e, (h e).Calls P) : (p.handle h).Calls P := by
  induction p with
  | ret a => trivial
  | raise e => exact hh e
  | call c k ih => exact ⟨hp.1, fun r => ih r (hp.2 r)⟩

theorem Calls.perform {P : C → Prop} {c : C} (h : P c) :
    (perform c : Proc C R ε (R c)).Calls P := by
  refine ⟨h, fun r => ?_⟩
  cases r <;> trivial

theorem Calls.ofExcept {P : C → Prop} (x : Except ε α) : (ofExcept x : Proc C R ε α).Calls P := by
  cases x <;> trivial

/-- A loop makes the calls of its body. -/
theorem Calls.forEach {P : C → Prop} {body : σ → β → Proc C R ε σ}
    (h : ∀ s b, (body s b).Calls P) {l : List β} {s : σ} : (forEach l s body).Calls P := by
  induction l generalizing s with
  | nil => trivial
  | cons b l ih => exact (h s b).bind fun _ => ih

/-- The calls of an embedded program are the embedded calls of the program. -/
theorem Calls.embed {P : D → Prop} {emb : C → D} {back : (c : C) → S (emb c) → R c}
    {p : Proc C R ε α} (hp : p.Calls fun c => P (emb c)) : (p.embed emb back).Calls P := by
  induction p with
  | ret a => trivial
  | raise e => trivial
  | call c k ih => exact ⟨hp.1, fun r => ih _ (hp.2 _)⟩

theorem calls_true (p : Proc C R ε α) : p.Calls fun _ => True := by
  induction p with
  | ret a => trivial
  | raise e => trivial
  | call c k ih => exact ⟨trivial, ih⟩

/-! ### The values a program can return -/

/-- Every value `p` returns, whatever the replies, satisfies `P`. -/
def Returns (P : α → Prop) : Proc C R ε α → Prop
  | .ret a => P a
  | .raise _ => True
  | .call _ k => ∀ r, (k r).Returns P

theorem returns_true (p : Proc C R ε α) : p.Returns fun _ => True := by
  induction p with
  | ret a => trivial
  | raise e => trivial
  | call c k ih => exact ih

theorem Returns.bind {P : α → Prop} {Q : β → Prop} {p : Proc C R ε α} {f : α → Proc C R ε β}
    (hp : p.Returns P) (hf : ∀ a, P a → (f a).Returns Q) : (p.bind f).Returns Q := by
  induction p with
  | ret a => exact hf a hp
  | raise e => trivial
  | call c k ih => exact fun r => ih r (hp r)

theorem Returns.ofExcept {P : α → Prop} {x : Except ε α} (h : ∀ a, x = .ok a → P a) :
    (ofExcept x : Proc C R ε α).Returns P := by
  cases x with
  | ok a => exact h a rfl
  | error e => trivial

/-- The rule for sequences, with what the first program returns. -/
theorem Calls.bind_of_returns {P : C → Prop} {V : α → Prop} {p : Proc C R ε α}
    {f : α → Proc C R ε β} (hp : p.Calls P) (hv : p.Returns V) (hf : ∀ a, V a → (f a).Calls P) :
    (p.bind f).Calls P := by
  induction p with
  | ret a => exact hf a hv
  | raise e => trivial
  | call c k ih => exact ⟨hp.1, fun r => ih r (hp.2 r) (hv r)⟩

/-- A check that makes no call. -/
theorem Calls.ofExcept_bind {P : C → Prop} {x : Except ε α} {f : α → Proc C R ε β}
    (hf : ∀ a, x = .ok a → (f a).Calls P) : ((Proc.ofExcept x).bind f).Calls P := by
  cases x with
  | ok a => exact hf a rfl
  | error e => trivial

/-! ### The errors a program can raise -/

/-- Where each reply that is an error satisfies `E`, so does each error that `p` raises. -/
def Raises (E : ε → Prop) : Proc C R ε α → Prop
  | .ret _ => True
  | .raise e => E e
  | .call _ k => ∀ r, (∀ e, r = .error e → E e) → (k r).Raises E

theorem Raises.bind {E : ε → Prop} {p : Proc C R ε α} {f : α → Proc C R ε β} (hp : p.Raises E)
    (hf : ∀ a, (f a).Raises E) : (p.bind f).Raises E := by
  induction p with
  | ret a => exact hf a
  | raise e => exact hp
  | call c k ih => exact fun r hr => ih r (hp r hr)

theorem Raises.handle {E : ε → Prop} {p : Proc C R ε α} {h : ε → Proc C R ε α} (hp : p.Raises E)
    (hh : ∀ e, E e → (h e).Raises E) : (p.handle h).Raises E := by
  induction p with
  | ret a => trivial
  | raise e => exact hh e hp
  | call c k ih => exact fun r hr => ih r (hp r hr)

theorem Raises.perform {E : ε → Prop} (c : C) : (perform c : Proc C R ε (R c)).Raises E := by
  intro r hr
  cases r with
  | ok a => trivial
  | error e => exact hr e rfl

theorem Raises.embed {E : ε → Prop} {emb : C → D} {back : (c : C) → S (emb c) → R c}
    {p : Proc C R ε α} (hp : p.Raises E) : (p.embed emb back).Raises E := by
  induction p with
  | ret a => trivial
  | raise e => exact hp
  | call c k ih =>
    refine fun r hr => ih _ (hp _ fun e he => ?_)
    cases r with
    | ok a => cases he
    | error e' => exact hr e (congrArg _ (Except.error.inj he))

/-! ### Programs that cannot fail -/

/-- Where each reply is one that `A` allows, `p` returns. -/
def Succeeds (A : (c : C) → Except ε (R c) → Prop) : Proc C R ε α → Prop
  | .ret _ => True
  | .raise _ => False
  | .call c k => ∀ r, A c r → (k r).Succeeds A

theorem Succeeds.bind {A : (c : C) → Except ε (R c) → Prop} {p : Proc C R ε α}
    {f : α → Proc C R ε β} (hp : p.Succeeds A) (hf : ∀ a, (f a).Succeeds A) :
    (p.bind f).Succeeds A := by
  induction p with
  | ret a => exact hf a
  | raise e => exact hp.elim
  | call c k ih => exact fun r hr => ih r (hp r hr)

/-- A handler is not needed. -/
theorem Succeeds.handle {A : (c : C) → Except ε (R c) → Prop} {p : Proc C R ε α}
    (hp : p.Succeeds A) (h : ε → Proc C R ε α) : (p.handle h).Succeeds A := by
  induction p with
  | ret a => trivial
  | raise e => exact hp.elim
  | call c k ih => exact fun r hr => ih r (hp r hr)

/-- A call that is answered with a value. -/
theorem Succeeds.perform {A : (c : C) → Except ε (R c) → Prop} {c : C}
    (h : ∀ e, ¬A c (.error e)) : (perform c : Proc C R ε (R c)).Succeeds A := by
  intro r hr
  cases r with
  | ok a => trivial
  | error e => exact absurd hr (h e)

theorem Succeeds.embed {Ψ : (d : D) → Except ε (S d) → Prop} {emb : C → D}
    {back : (c : C) → S (emb c) → R c} {p : Proc C R ε α} {A : (c : C) → Except ε (R c) → Prop}
    (h : ∀ c r, Ψ (emb c) r → A c (r.map (back c))) (hp : p.Succeeds A) :
    (p.embed emb back).Succeeds Ψ := by
  induction p with
  | ret a => trivial
  | raise e => exact hp
  | call c k ih => exact fun r hr => ih _ (hp _ (h c r hr))

/-! ### Running alone -/

/-- What the environment decides at the successive calls of a run. `none` is a program that is
stopped there and never resumed. -/
abbrev Oracle (X : Type) := ℕ → Option X

/-- The oracle that decides the listed calls and stops the program at the next one. -/
def Oracle.ofList (xs : List X) : Oracle X := fun n => xs[n]?

/-- The decisions left after the first call. -/
def Oracle.tail (o : Oracle X) : Oracle X := fun n => o (n + 1)

/-- Run a program alone. The result is `none` when the program was stopped at a call. -/
def exec (answer : (c : C) → X → W → Except ε (R c) × W) :
    Proc C R ε α → Oracle X → W → Option (Except ε α) × W
  | .ret a, _, w => (some (.ok a), w)
  | .raise e, _, w => (some (.error e), w)
  | .call c k, o, w =>
    match o 0 with
    | none => (none, w)
    | some x => exec answer (k (answer c x w).1) o.tail (answer c x w).2

/-- `Φ` holds at each call of a run: of the call, of what the environment decides there, and of
the state the call is made in. -/
def Along (answer : (c : C) → X → W → Except ε (R c) × W) (Φ : C → X → W → Prop) :
    Proc C R ε α → Oracle X → W → Prop
  | .ret _, _, _ => True
  | .raise _, _, _ => True
  | .call c k, o, w =>
    match o 0 with
    | none => True
    | some x => Φ c x w ∧ Along answer Φ (k (answer c x w).1) o.tail (answer c x w).2

variable {answer : (c : C) → X → W → Except ε (R c) × W}

/-- A condition that can be checked at a call can be checked along a run. -/
instance decidableAlong {Φ : C → X → W → Prop} [∀ c x w, Decidable (Φ c x w)] :
    (p : Proc C R ε α) → (o : Oracle X) → (w : W) → Decidable (Along answer Φ p o w)
  | .ret _, _, _ => .isTrue trivial
  | .raise _, _, _ => .isTrue trivial
  | .call c k, o, w =>
    match h : o 0 with
    | none => .isTrue (by rw [Along, h]; trivial)
    | some x =>
      have : Decidable (Along answer Φ (k (answer c x w).1) o.tail (answer c x w).2) :=
        decidableAlong _ _ _
      decidable_of_iff (Φ c x w ∧ Along answer Φ (k (answer c x w).1) o.tail (answer c x w).2)
        (by rw [Along, h])

/-- What holds at each call of a program that begins with a call. -/
theorem along_perform_bind {Φ : C → X → W → Prop} {c : C} {f : R c → Proc C R ε β} {o : Oracle X}
    {w : W} : Along answer Φ ((perform c).bind f) o w ↔ ∀ x, o 0 = some x → Φ c x w ∧
      ∀ a, (answer c x w).1 = .ok a → Along answer Φ (f a) o.tail (answer c x w).2 := by
  show Along answer Φ (.call c _) o w ↔ _
  rw [Along]
  cases hx : o 0 with
  | none => exact ⟨fun _ _ h => (nomatch h), fun _ => trivial⟩
  | some x =>
    refine ⟨fun h y hy => ?_, fun h => ⟨(h x rfl).1, ?_⟩⟩
    · obtain rfl : x = y := Option.some.inj hy
      refine ⟨h.1, fun a ha => ?_⟩
      have hrest := h.2
      rwa [ha] at hrest
    · cases ha : (answer c x w).1 with
      | error e => trivial
      | ok a => exact (h x rfl).2 a ha

/-- The run of a program that begins with a call, and returns. -/
theorem exec_perform_bind {c : C} {f : R c → Proc C R ε β} {o : Oracle X} {w w' : W} {b : β}
    (h : exec answer ((perform c).bind f) o w = (some (.ok b), w')) : ∃ x a, o 0 = some x ∧
      (answer c x w).1 = .ok a ∧ exec answer (f a) o.tail (answer c x w).2 = (some (.ok b), w') := by
  have hrun : exec answer (.call c fun r => (match r with
    | .ok a => .ret a
    | .error e => .raise e : Proc C R ε (R c)).bind f) o w = (some (.ok b), w') := h
  rw [exec] at hrun
  cases hx : o 0 with
  | none => rw [hx] at hrun; cases hrun
  | some x =>
    rw [hx] at hrun
    cases ha : (answer c x w).1 with
    | error e =>
      dsimp only at hrun
      rw [ha] at hrun
      cases hrun
    | ok a =>
      dsimp only at hrun
      rw [ha] at hrun
      exact ⟨x, a, rfl, ha, hrun⟩

/-- A program that is never stopped returns or raises. -/
theorem exists_exec_eq_some (p : Proc C R ε α) {o : Oracle X} (ho : ∀ n, (o n).isSome) (w : W) :
    ∃ r w', exec answer p o w = (some r, w') := by
  induction p generalizing o w with
  | ret a => exact ⟨.ok a, w, rfl⟩
  | raise e => exact ⟨.error e, w, rfl⟩
  | call c k ih =>
    obtain ⟨x, hx⟩ := Option.isSome_iff_exists.mp (ho 0)
    obtain ⟨r, w', h⟩ :=
      ih (answer c x w).1 (o := o.tail) (fun n => ho (n + 1)) (answer c x w).2
    refine ⟨r, w', ?_⟩
    rw [exec, hx]
    exact h

/-- A program that is stopped at its first call does nothing. -/
theorem exec_none (p : Proc C R ε α) (w : W) : (exec answer p (fun _ => none) w).2 = w := by
  cases p <;> rfl

/-- Dropping the result of a program does not change what it does. -/
theorem exec_bind_ret (p : Proc C R ε α) (b : β) (o : Oracle X) (w : W) :
    (exec answer (p.bind fun _ => .ret b) o w).2 = (exec answer p o w).2 := by
  induction p generalizing o w with
  | ret a => rfl
  | raise e => rfl
  | call c k ih =>
    rw [bind, exec, exec]
    cases o 0 with
    | none => rfl
    | some x => exact ih _ _ _

/-- What every call does to the state, a run does. -/
theorem exec_rel {S : W → W → Prop} (hrefl : ∀ w, S w w) (htrans : ∀ u v w, S u v → S v w → S u w)
    (hanswer : ∀ c x w, S w (answer c x w).2) (p : Proc C R ε α) (o : Oracle X) (w : W) :
    S w (exec answer p o w).2 := by
  induction p generalizing o w with
  | ret a => exact hrefl w
  | raise e => exact hrefl w
  | call c k ih =>
    rw [exec]
    cases o 0 with
    | none => exact hrefl w
    | some x => exact htrans _ _ _ (hanswer c x w) (ih _ _ _)

/-- What every call of a program does to the state, its run does. -/
theorem exec_rel_of_calls {P : C → Prop} {S : W → W → Prop} (hrefl : ∀ w, S w w)
    (htrans : ∀ u v w, S u v → S v w → S u w) (hanswer : ∀ c, P c → ∀ x w, S w (answer c x w).2)
    {p : Proc C R ε α} (hp : p.Calls P) (o : Oracle X) (w : W) : S w (exec answer p o w).2 := by
  induction p generalizing o w with
  | ret a => exact hrefl w
  | raise e => exact hrefl w
  | call c k ih =>
    rw [exec]
    cases o 0 with
    | none => exact hrefl w
    | some x => exact htrans _ _ _ (hanswer c hp.1 x w) (ih _ (hp.2 _) _ _)

/-- The run of one call. -/
theorem exec_perform_cases (c : C) (o : Oracle X) (w : W) :
    exec answer (perform c) o w = (none, w) ∨ ∃ x,
      exec answer (perform c) o w = (some (answer c x w).1, (answer c x w).2) := by
  rw [perform, exec]
  cases o 0 with
  | none => exact .inl rfl
  | some x =>
    refine .inr ⟨x, ?_⟩
    dsimp only
    cases (answer c x w).1 <;> rfl

/-- The run of one call that returns. -/
theorem exec_perform_inv {c : C} {o : Oracle X} {w w' : W} {a : R c}
    (h : exec answer (perform c) o w = (some (.ok a), w')) :
    ∃ x, o 0 = some x ∧ answer c x w = (.ok a, w') := by
  rw [perform, exec] at h
  cases hx : o 0 with
  | none => rw [hx] at h; cases h
  | some x =>
    rw [hx] at h
    dsimp only at h
    cases ha : (answer c x w).1 with
    | error e => rw [ha] at h; cases h
    | ok b =>
      rw [ha] at h
      cases h
      exact ⟨x, rfl, Prod.ext ha rfl⟩

/-- The run of one call that is answered with a value. -/
theorem exec_perform_of_ok {c : C} {o : Oracle X} {x : X} {w w' : W} {a : R c} (hx : o 0 = some x)
    (h : answer c x w = (.ok a, w')) : exec answer (perform c) o w = (some (.ok a), w') := by
  rw [perform, exec, hx]
  dsimp only
  rw [h]
  rfl

/-- A sequence whose first program returns goes on with the second. -/
theorem exec_bind_of_ok {p : Proc C R ε α} {o : Oracle X} {w w' : W} {a : α}
    (h : exec answer p o w = (some (.ok a), w')) (f : α → Proc C R ε β) :
    ∃ k, exec answer (p.bind f) o w = exec answer (f a) (fun n => o (n + k)) w' := by
  induction p generalizing o w with
  | ret b => cases h; exact ⟨0, rfl⟩
  | raise e => cases h
  | call c k ih =>
    rw [exec] at h
    rw [bind, exec]
    cases hx : o 0 with
    | none => rw [hx] at h; cases h
    | some x =>
      rw [hx] at h
      obtain ⟨j, hj⟩ := ih _ h
      exact ⟨j + 1, hj⟩

/-- The handler of a program that returns is not run. -/
theorem exec_handle_of_ok {p : Proc C R ε α} {o : Oracle X} {w w' : W} {a : α}
    (h : exec answer p o w = (some (.ok a), w')) (f : ε → Proc C R ε α) :
    exec answer (p.handle f) o w = (some (.ok a), w') := by
  induction p generalizing o w with
  | ret b => exact h
  | raise e => cases h
  | call c k ih =>
    rw [exec] at h
    rw [handle, exec]
    cases hx : o 0 with
    | none => rw [hx] at h; cases h
    | some x =>
      rw [hx] at h
      exact ih _ h

/-- Where every call is decided alike, a sequence whose first program returns goes on with the
second. -/
theorem exec_bind_const {p : Proc C R ε α} {x : X} {w w' : W} {a : α}
    (h : exec answer p (fun _ => some x) w = (some (.ok a), w')) (f : α → Proc C R ε β) :
    exec answer (p.bind f) (fun _ => some x) w = exec answer (f a) (fun _ => some x) w' := by
  obtain ⟨_, hk⟩ := exec_bind_of_ok h f
  exact hk

/-- A sequence whose first program does not return ends with it. -/
theorem exec_bind_of_not_ok {p : Proc C R ε α} {o : Oracle X} {w : W}
    (h : ∀ a, (exec answer p o w).1 ≠ some (.ok a)) (f : α → Proc C R ε β) :
    (exec answer (p.bind f) o w).2 = (exec answer p o w).2 ∧
      ∀ b, (exec answer (p.bind f) o w).1 ≠ some (.ok b) := by
  induction p generalizing o w with
  | ret a => exact absurd rfl (h a)
  | raise e => exact ⟨rfl, nofun⟩
  | call c k ih =>
    rw [exec] at h
    rw [bind, exec, exec]
    cases hx : o 0 with
    | none => exact ⟨rfl, nofun⟩
    | some x =>
      rw [hx] at h
      exact ih _ h

/-- A sequence goes on with its second program, or ends with the first. -/
theorem exec_bind_cases (p : Proc C R ε α) (f : α → Proc C R ε β) (o : Oracle X) (w : W) :
    (∃ a w₁ k, exec answer p o w = (some (.ok a), w₁) ∧
        exec answer (p.bind f) o w = exec answer (f a) (fun n => o (n + k)) w₁) ∨
      (exec answer (p.bind f) o w).2 = (exec answer p o w).2 ∧
        ∀ b, (exec answer (p.bind f) o w).1 ≠ some (.ok b) := by
  by_cases hp : ∃ a, (exec answer p o w).1 = some (.ok a)
  · obtain ⟨a, ha⟩ := hp
    have hfirst : exec answer p o w = (some (.ok a), (exec answer p o w).2) := Prod.ext ha rfl
    obtain ⟨k, hk⟩ := exec_bind_of_ok hfirst f
    exact .inl ⟨a, _, k, hfirst, hk⟩
  · push Not at hp
    exact .inr (exec_bind_of_not_ok hp f)

/-- The run of a sequence that returns. -/
theorem exec_bind_inv {p : Proc C R ε α} {f : α → Proc C R ε β} {o : Oracle X} {w w' : W} {b : β}
    (h : exec answer (p.bind f) o w = (some (.ok b), w')) : ∃ a w₁ k,
      exec answer p o w = (some (.ok a), w₁) ∧
        exec answer (f a) (fun n => o (n + k)) w₁ = (some (.ok b), w') := by
  rcases exec_bind_cases p f o w with ⟨a, w₁, k, hp, hk⟩ | ⟨_, hnot⟩
  · exact ⟨a, w₁, k, hp, hk.symm.trans h⟩
  · exact absurd (congrArg Prod.fst h) (hnot b)

/-- The run of a program over a larger set of calls. -/
theorem exec_embed {emb : D → C} {back : (d : D) → R (emb d) → S d}
    {answer₀ : (d : D) → X → W → Except ε (S d) × W}
    (h : ∀ d x w, answer₀ d x w = ((answer (emb d) x w).1.map (back d), (answer (emb d) x w).2))
    (p : Proc D S ε α) (o : Oracle X) (w : W) :
    exec answer (p.embed emb back) o w = exec answer₀ p o w := by
  induction p generalizing o w with
  | ret a => rfl
  | raise e => rfl
  | call d k ih =>
    rw [embed, exec, exec]
    cases o 0 with
    | none => rfl
    | some x =>
      dsimp only
      rw [ih, h]

/-- What a program returns is among what it can return. -/
theorem Returns.of_exec {P : α → Prop} {p : Proc C R ε α} (hp : p.Returns P) {o : Oracle X} {w w' : W}
    {a : α} (h : exec answer p o w = (some (.ok a), w')) : P a := by
  induction p generalizing o w with
  | ret b => cases h; exact hp
  | raise e => cases h
  | call c k ih =>
    rw [exec] at h
    cases hx : o 0 with
    | none => rw [hx] at h; cases h
    | some x =>
      rw [hx] at h
      exact ih _ (hp _) h

/-! ### Errors of one kind -/

/-- `p` raises errors in `E` only, but where `Φ` does not hold at a call: there it raises another error
at once. -/
def Guards (answer : (c : C) → X → W → Except ε (R c) × W) (Φ : C → X → W → Prop) (E : ε → Prop) :
    Proc C R ε α → Prop
  | .ret _ => True
  | .raise e => E e
  | .call c k => ∀ x w, (Φ c x w → Guards answer Φ E (k (answer c x w).1)) ∧
      (¬Φ c x w → ∃ e, k (answer c x w).1 = .raise e ∧ ¬E e)

section Guards

variable {Φ : C → X → W → Prop} {E : ε → Prop}

/-- A run raises errors in `E` only exactly when `Φ` holds at each of its calls. -/
theorem Guards.iff_along {p : Proc C R ε α} (hp : Guards answer Φ E p) (o : Oracle X) (w : W) :
    (∀ e, (exec answer p o w).1 = some (.error e) → E e) ↔ Along answer Φ p o w := by
  induction p generalizing o w with
  | ret a => exact ⟨fun _ => trivial, fun _ => nofun⟩
  | raise e => exact ⟨fun _ => trivial, fun _ e' he => by cases he; exact hp⟩
  | call c k ih =>
    rw [exec, Along]
    cases o 0 with
    | none => exact ⟨fun _ => trivial, fun _ => nofun⟩
    | some x =>
      obtain ⟨hgood, hbad⟩ := hp x w
      by_cases hΦ : Φ c x w
      · exact (ih _ (hgood hΦ) _ _).trans ⟨fun h => ⟨hΦ, h⟩, fun h => h.2⟩
      · obtain ⟨e, he, hnot⟩ := hbad hΦ
        refine ⟨fun h => absurd (h e ?_) hnot, fun h => absurd h.1 hΦ⟩
        dsimp only
        rw [he]
        rfl

theorem Guards.bind {p : Proc C R ε α} {f : α → Proc C R ε β} (hp : Guards answer Φ E p)
    (hf : ∀ a, Guards answer Φ E (f a)) : Guards answer Φ E (p.bind f) := by
  induction p with
  | ret a => exact hf a
  | raise e => exact hp
  | call c k ih =>
    refine fun x w => ⟨fun hΦ => ih _ ((hp x w).1 hΦ), fun hΦ => ?_⟩
    obtain ⟨e, he, hnot⟩ := (hp x w).2 hΦ
    exact ⟨e, congrArg (fun q => q.bind f) he, hnot⟩

/-- A handler that turns errors of one kind into errors of another. -/
theorem Guards.handle {E' : ε → Prop} {p : Proc C R ε α} {h : ε → Proc C R ε α}
    (hp : Guards answer Φ E' p) (hgood : ∀ e, E' e → Guards answer Φ E (h e))
    (hbad : ∀ e, ¬E' e → ∃ e', h e = .raise e' ∧ ¬E e') : Guards answer Φ E (p.handle h) := by
  induction p with
  | ret a => trivial
  | raise e => exact hgood e hp
  | call c k ih =>
    refine fun x w => ⟨fun hΦ => ih _ ((hp x w).1 hΦ), fun hΦ => ?_⟩
    obtain ⟨e, he, hnot⟩ := (hp x w).2 hΦ
    obtain ⟨e', he', hnot'⟩ := hbad e hnot
    exact ⟨e', (congrArg (fun q => q.handle h) he).trans he', hnot'⟩

/-- One call, whose errors are of the kind exactly when `Φ` holds. -/
theorem Guards.perform {c : C}
    (h : ∀ x w, (∀ e, (answer c x w).1 = .error e → E e) ↔ Φ c x w) :
    Guards answer Φ E (perform c) := by
  intro x w
  rw [← h x w]
  cases (answer c x w).1 with
  | ok a => exact ⟨fun _ => trivial, fun hΦ => absurd (fun e he => nomatch he) hΦ⟩
  | error e =>
    refine ⟨fun hΦ => hΦ e rfl, fun hΦ => ⟨e, rfl, fun he => hΦ fun e' he' => ?_⟩⟩
    cases he'
    exact he

theorem Guards.ofExcept {r : Except ε α} (h : ∀ e, r = .error e → E e) :
    Guards answer Φ E (ofExcept r) := by
  cases r with
  | ok a => trivial
  | error e => exact h e rfl

/-- One call with a handler. -/
theorem Guards.perform_handle {c : C} {h : ε → Proc C R ε (R c)}
    (hok : ∀ x w a, (answer c x w).1 = .ok a → Φ c x w)
    (hgood : ∀ x w e, (answer c x w).1 = .error e → Φ c x w → Guards answer Φ E (h e))
    (hbad : ∀ x w e, (answer c x w).1 = .error e → ¬Φ c x w → ∃ e', h e = .raise e' ∧ ¬E e') :
    Guards answer Φ E ((Proc.perform c).handle h) := by
  intro x w
  let reply (r : Except ε (R c)) : Proc C R ε (R c) := match r with
    | .ok a => .ret a
    | .error e => .raise e
  show (_ → Guards answer Φ E ((reply (answer c x w).1).handle h)) ∧
    (_ → ∃ e, (reply (answer c x w).1).handle h = .raise e ∧ ¬E e)
  cases hreply : (answer c x w).1 with
  | ok a => exact ⟨fun _ => trivial, fun hΦ => absurd (hok x w a hreply) hΦ⟩
  | error e => exact ⟨hgood x w e hreply, hbad x w e hreply⟩

/-- One call, and a check of its reply. -/
theorem Guards.perform_bind {c : C} {f : R c → Proc C R ε β}
    (hgood : ∀ x w a, (answer c x w).1 = .ok a → Φ c x w → Guards answer Φ E (f a))
    (hbad : ∀ x w a, (answer c x w).1 = .ok a → ¬Φ c x w → ∃ e, f a = .raise e ∧ ¬E e)
    (herror : ∀ x w e, (answer c x w).1 = .error e → (E e ↔ Φ c x w)) :
    Guards answer Φ E ((Proc.perform c).bind f) := by
  intro x w
  let reply (r : Except ε (R c)) : Proc C R ε (R c) := match r with
    | .ok a => .ret a
    | .error e => .raise e
  show (_ → Guards answer Φ E ((reply (answer c x w).1).bind f)) ∧
    (_ → ∃ e, (reply (answer c x w).1).bind f = .raise e ∧ ¬E e)
  cases hreply : (answer c x w).1 with
  | ok a => exact ⟨hgood x w a hreply, hbad x w a hreply⟩
  | error e =>
    have hiff := herror x w e hreply
    exact ⟨fun hΦ => hiff.mpr hΦ, fun hΦ => ⟨e, rfl, fun he => hΦ (hiff.mp he)⟩⟩

theorem Guards.embed {emb : D → C} {back : (d : D) → R (emb d) → S d}
    {answer₀ : (d : D) → X → W → Except ε (S d) × W}
    (h : ∀ d x w, answer₀ d x w = ((answer (emb d) x w).1.map (back d), (answer (emb d) x w).2))
    {p : Proc D S ε α} (hp : Guards answer₀ (fun d => Φ (emb d)) E p) :
    Guards answer Φ E (p.embed emb back) := by
  obtain rfl : answer₀ = _ := funext fun d => funext fun x => funext fun w => h d x w
  induction p with
  | ret a => trivial
  | raise e => exact hp
  | call d k ih =>
    refine fun x w => ⟨fun hΦ => ih _ ((hp x w).1 hΦ), fun hΦ => ?_⟩
    obtain ⟨e, he, hnot⟩ := (hp x w).2 hΦ
    exact ⟨e, congrArg (fun q => q.embed emb back) he, hnot⟩

end Guards

/-! ### Runs that may be stopped -/

/-- `Φ` holds at each call of a run, and of what the environment decides there: also that the program is
stopped. -/
def Attended (answer : (c : C) → X → W → Except ε (R c) × W) (Φ : C → Option X → W → Prop) :
    Proc C R ε α → Oracle X → W → Prop
  | .ret _, _, _ => True
  | .raise _, _, _ => True
  | .call c k, o, w => Φ c (o 0) w ∧
    match o 0 with
    | none => True
    | some x => Attended answer Φ (k (answer c x w).1) o.tail (answer c x w).2

/-- A condition that can be checked at a call or a stop can be checked along a run. -/
instance decidableAttended {Φ : C → Option X → W → Prop} [∀ c x w, Decidable (Φ c x w)] :
    (p : Proc C R ε α) → (o : Oracle X) → (w : W) → Decidable (Attended answer Φ p o w)
  | .ret _, _, _ => .isTrue trivial
  | .raise _, _, _ => .isTrue trivial
  | .call c k, o, w =>
    match h : o 0 with
    | none => decidable_of_iff (Φ c none w) (by rw [Attended, h]; simp)
    | some x =>
      have : Decidable (Attended answer Φ (k (answer c x w).1) o.tail (answer c x w).2) :=
        decidableAttended _ _ _
      decidable_of_iff
        (Φ c (some x) w ∧ Attended answer Φ (k (answer c x w).1) o.tail (answer c x w).2)
        (by rw [Attended, h])

theorem Attended.along {Φ : C → Option X → W → Prop} {p : Proc C R ε α} {o : Oracle X} {w : W}
    (h : Attended answer Φ p o w) : Along answer (fun c x w => Φ c (some x) w) p o w := by
  induction p generalizing o w with
  | ret a => trivial
  | raise e => trivial
  | call c k ih =>
    rw [Attended] at h
    rw [Along]
    cases hx : o 0 with
    | none => trivial
    | some x =>
      rw [hx] at h
      exact ⟨h.1, ih _ h.2⟩

/-- Where a run is stopped, the condition holds of the stop. -/
theorem Attended.stopped {Φ : C → Option X → W → Prop} {p : Proc C R ε α} {o : Oracle X} {w w' : W}
    (h : Attended answer Φ p o w) (hrun : exec answer p o w = (none, w')) : ∃ c, Φ c none w' := by
  induction p generalizing o w with
  | ret a => cases hrun
  | raise e => cases hrun
  | call c k ih =>
    rw [Attended] at h
    rw [exec] at hrun
    cases hx : o 0 with
    | none =>
      rw [hx] at h hrun
      cases hrun
      exact ⟨c, h.1⟩
    | some x =>
      rw [hx] at h hrun
      exact ih _ h.2 hrun

/-! ### Runs that exist -/

/-- Decided by `x` at the first call, and then by `o`. -/
def Oracle.cons (x : X) (o : Oracle X) : Oracle X
  | 0 => some x
  | n + 1 => o n

/-- Some run returns `a` and ends in `w'`. -/
def Yields (answer : (c : C) → X → W → Except ε (R c) × W) (p : Proc C R ε α) (w : W) (a : α)
    (w' : W) : Prop :=
  ∃ o, exec answer p o w = (some (.ok a), w')

/-- Some run, stopped or not, ends in `w'`. -/
def Reaches (answer : (c : C) → X → W → Except ε (R c) × W) (p : Proc C R ε α) (w w' : W) : Prop :=
  ∃ o, (exec answer p o w).2 = w'

theorem Yields.ret (a : α) (w : W) : Yields answer (.ret a) w a w := ⟨fun _ => none, rfl⟩

theorem Yields.call {c : C} {k : Except ε (R c) → Proc C R ε α} {x : X} {w w' : W} {a : α}
    (h : Yields answer (k (answer c x w).1) (answer c x w).2 a w') :
    Yields answer (.call c k) w a w' := by
  obtain ⟨o, ho⟩ := h
  exact ⟨.cons x o, ho⟩

theorem Yields.perform {c : C} (x : X) {w w' : W} {a : R c} (h : answer c x w = (.ok a, w')) :
    Yields answer (perform c) w a w' := by
  refine Yields.call (x := x) ?_
  rw [h]
  exact Yields.ret a w'

/-- A run that returns goes on as what follows it does. -/
theorem Yields.exec_bind {p : Proc C R ε α} {w w' : W} {a : α} (hp : Yields answer p w a w')
    (f : α → Proc C R ε β) (o : Oracle X) :
    ∃ o', exec answer (p.bind f) o' w = exec answer (f a) o w' := by
  obtain ⟨o₁, ho⟩ := hp
  induction p generalizing o₁ w with
  | ret a' => cases ho; exact ⟨o, rfl⟩
  | raise e => cases ho
  | call c k ih =>
    rw [exec] at ho
    cases hx : o₁ 0 with
    | none => rw [hx] at ho; cases ho
    | some x =>
      rw [hx] at ho
      obtain ⟨o', ho'⟩ := ih _ _ ho
      exact ⟨.cons x o', ho'⟩

theorem Yields.bind {p : Proc C R ε α} {f : α → Proc C R ε β} {w w' w'' : W} {a : α} {b : β}
    (hp : Yields answer p w a w') (hf : Yields answer (f a) w' b w'') :
    Yields answer (p.bind f) w b w'' := by
  obtain ⟨o, ho⟩ := hf
  obtain ⟨o', ho'⟩ := hp.exec_bind f o
  exact ⟨o', ho'.trans ho⟩

/-- A run whose decisions are of one kind is a run. -/
theorem Yields.of_choice {Y : Type} (g : Y → X) {p : Proc C R ε α} {w w' : W} {a : α}
    (h : Yields (fun c y w => answer c (g y) w) p w a w') : Yields answer p w a w' := by
  obtain ⟨o, ho⟩ := h
  induction p generalizing o w with
  | ret a' => cases ho; exact Yields.ret _ _
  | raise e => cases ho
  | call c k ih =>
    rw [exec] at ho
    cases hy : o 0 with
    | none => rw [hy] at ho; cases ho
    | some y =>
      rw [hy] at ho
      exact Yields.call (x := g y) (ih _ _ ho)

theorem Yields.handle {p : Proc C R ε α} {w w' : W} {a : α} (hp : Yields answer p w a w')
    (h : ε → Proc C R ε α) : Yields answer (p.handle h) w a w' := by
  obtain ⟨o, ho⟩ := hp
  exact ⟨o, exec_handle_of_ok ho h⟩

/-- A sequence that returns has returned from its first program. -/
theorem Yields.bind_inv {p : Proc C R ε α} {f : α → Proc C R ε β} {w w' : W} {b : β}
    (h : Yields answer (p.bind f) w b w') :
    ∃ a w₁, Yields answer p w a w₁ ∧ Yields answer (f a) w₁ b w' := by
  obtain ⟨o, ho⟩ := h
  obtain ⟨a, w₁, k, hp, hf⟩ := exec_bind_inv ho
  exact ⟨a, w₁, ⟨o, hp⟩, _, hf⟩

theorem Yields.perform_inv {c : C} {w w' : W} {a : R c}
    (h : Yields answer (Proc.perform c : Proc C R ε (R c)) w a w') :
    ∃ x, answer c x w = (.ok a, w') := by
  obtain ⟨o, ho⟩ := h
  obtain ⟨x, _, hx⟩ := exec_perform_inv ho
  exact ⟨x, hx⟩

theorem Yields.ret_inv {a b : α} {w w' : W} (h : Yields answer (.ret a) w b w') :
    a = b ∧ w = w' := by
  obtain ⟨o, ho⟩ := h
  cases ho
  exact ⟨rfl, rfl⟩

theorem Yields.reaches {p : Proc C R ε α} {w w' : W} {a : α} (h : Yields answer p w a w') :
    Reaches answer p w w' := by
  obtain ⟨o, ho⟩ := h
  exact ⟨o, congrArg Prod.snd ho⟩

theorem Reaches.perform (c : C) (x : X) (w : W) :
    Reaches answer (perform c : Proc C R ε (R c)) w (answer c x w).2 := by
  refine ⟨.cons x fun _ => none, ?_⟩
  rw [Proc.perform, exec]
  exact exec_none _ _

/-- A run of a sequence can be stopped in its first program. -/
theorem Reaches.bind_left {p : Proc C R ε α} {w w' : W} (h : Reaches answer p w w')
    (f : α → Proc C R ε β) : Reaches answer (p.bind f) w w' := by
  obtain ⟨o, ho⟩ := h
  induction p generalizing o w with
  | ret a => exact ⟨fun _ => none, (exec_none _ _).trans ho⟩
  | raise e => exact ⟨fun _ => none, ho⟩
  | call c k ih =>
    rw [exec] at ho
    cases hx : o 0 with
    | none => rw [hx] at ho; exact ⟨fun _ => none, (exec_none _ _).trans ho⟩
    | some x =>
      rw [hx] at ho
      obtain ⟨o', ho'⟩ := ih _ _ ho
      exact ⟨.cons x o', ho'⟩

/-- A run of a sequence can be stopped in its second program. -/
theorem Reaches.bind_right {p : Proc C R ε α} {f : α → Proc C R ε β} {w w' w'' : W} {a : α}
    (hp : Yields answer p w a w') (hf : Reaches answer (f a) w' w'') :
    Reaches answer (p.bind f) w w'' := by
  obtain ⟨o, ho⟩ := hf
  obtain ⟨o', ho'⟩ := hp.exec_bind f o
  exact ⟨o', (congrArg Prod.snd ho').trans ho⟩

theorem along_mono {Φ Ψ : C → X → W → Prop} (h : ∀ c x w, Φ c x w → Ψ c x w) {p : Proc C R ε α}
    {o : Oracle X} {w : W} (hp : Along answer Φ p o w) : Along answer Ψ p o w := by
  induction p generalizing o w with
  | ret a => trivial
  | raise e => trivial
  | call c k ih =>
    rw [Along] at hp ⊢
    cases hx : o 0 with
    | none => trivial
    | some x =>
      rw [hx] at hp
      exact ⟨h c x w hp.1, ih _ hp.2⟩

theorem along_and {Φ Ψ : C → X → W → Prop} {p : Proc C R ε α} {o : Oracle X} {w : W}
    (hΦ : Along answer Φ p o w) (hΨ : Along answer Ψ p o w) :
    Along answer (fun c x w => Φ c x w ∧ Ψ c x w) p o w := by
  induction p generalizing o w with
  | ret a => trivial
  | raise e => trivial
  | call c k ih =>
    rw [Along] at hΦ hΨ ⊢
    cases hx : o 0 with
    | none => trivial
    | some x =>
      rw [hx] at hΦ hΨ
      exact ⟨⟨hΦ.1, hΨ.1⟩, ih _ hΦ.2 hΨ.2⟩

/-- What holds wherever `J` does, and `J` after it, hold along every run that begins in `J`. -/
theorem along_of_invariant {Φ : C → X → W → Prop} {J : W → Prop} {p : Proc C R ε α} {o : Oracle X}
    {w : W} (h : Along answer (fun c x w => J w → Φ c x w ∧ J (answer c x w).2) p o w) (hw : J w) :
    Along answer Φ p o w := by
  induction p generalizing o w with
  | ret a => trivial
  | raise e => trivial
  | call c k ih =>
    rw [Along] at h ⊢
    cases hx : o 0 with
    | none => trivial
    | some x =>
      rw [hx] at h
      obtain ⟨hΦ, hJ⟩ := h.1 hw
      exact ⟨hΦ, ih _ h.2 hJ⟩

/-- **Simulation.** Where each call is answered in the image of the state as in the state itself,
the run is the same in the image. -/
theorem exec_map {f : W → W} {p : Proc C R ε α} {o : Oracle X} {w : W}
    (h : Along answer (fun c x w => answer c x (f w) = ((answer c x w).1, f (answer c x w).2))
      p o w) : exec answer p o (f w) = ((exec answer p o w).1, f (exec answer p o w).2) := by
  induction p generalizing o w with
  | ret a => rfl
  | raise e => rfl
  | call c k ih =>
    rw [Along] at h
    rw [exec, exec]
    cases hx : o 0 with
    | none => rfl
    | some x =>
      rw [hx] at h
      dsimp only
      rw [h.1]
      exact ih _ h.2

/-- A property of every decision of the oracle holds along every run it decides. -/
theorem along_of_forall {Φ : C → X → W → Prop} (p : Proc C R ε α) {o : Oracle X}
    (ho : ∀ n x, o n = some x → ∀ c w, Φ c x w) (w : W) : Along answer Φ p o w := by
  induction p generalizing o w with
  | ret a => trivial
  | raise e => trivial
  | call c k ih =>
    rw [Along]
    cases hx : o 0 with
    | none => trivial
    | some x => exact ⟨ho 0 x hx c w, ih _ (fun n => ho (n + 1)) _⟩

end Proc

end Interaction
