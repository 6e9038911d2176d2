import A2ZCore.Lib.Proc

/-!
# Contracts: what a program does while others run

A program alone is described by what holds when it returns. A program among others needs two more
things: what the others may do to the state between its calls, and what it promises about each
call it makes itself. A `Contract` names these three together with the environment's answers, and
`Contract.wp` is the weakest precondition they give: `K.wp p w Q` says that from state `w` every
call `p` makes keeps the promise, whatever the others did before it, and that `Q` holds of `p`'s
result.

The fourth field, `admits`, restricts the calls that are considered at all. It is how a statement
about *runs that meet a condition* is proved: what is derived under `admits` holds in every run
each of whose calls meets it.

## Main results

* `Contract.wp_bind`, `Contract.wp_handle`, `Contract.wp_forEach` — sequencing, handlers, loops
* `Contract.wp_of_calls`, `Contract.wp_of_stable` — a stretch of a program of whose calls one thing
  is known
* `Contract.wp_of_rely`, `Contract.wp_and` — what the others may do, and what a program among them
  keeps
* `Contract.wp_comap` — a program over a part of the calls
* `Contract.Preserves` — what each part of a program preserves, the program preserves
* `Contract.exec_post`, `Contract.exec_invariant`, `Contract.along_guar` — runs of a program alone
* `Contract.exec_solo`, `Contract.exec_alone` — the runs of a program that promises nothing
-/

namespace Interaction

open Proc

/-- The setting a program is verified in. -/
structure Contract (C : Type) (R : C → Type) (ε X W : Type) where
  /-- How the environment replies, and what the call does to the state. -/
  answer : (c : C) → X → W → Except ε (R c) × W
  /-- What the other programs may do between two calls. -/
  rely : W → W → Prop
  /-- The calls that are considered. -/
  admits : C → X → W → Prop
  /-- What each call does to the state it is made in. -/
  guar : C → X → W → W → Prop
  rely_refl : ∀ w, rely w w
  rely_trans : ∀ {u v w}, rely u v → rely v w → rely u w

namespace Contract

variable {C : Type} {R : C → Type} {ε α β σ X W : Type} {K : Contract C R ε X W}

/-- From `w`, every admitted call of `p` keeps the promise and `Q` holds of the result. -/
def wp (K : Contract C R ε X W) :
    Proc C R ε α → W → (Except ε α → W → Prop) → Prop
  | .ret a, w, Q => Q (.ok a) w
  | .raise e, w, Q => Q (.error e) w
  | .call c k, w, Q => ∀ w', K.rely w w' → ∀ x, K.admits c x w' →
      K.guar c x w' (K.answer c x w').2 ∧
        K.wp (k (K.answer c x w').1) (K.answer c x w').2 Q

@[simp] theorem wp_ret (a : α) (w : W) (Q : Except ε α → W → Prop) :
    K.wp (.ret a) w Q ↔ Q (.ok a) w := Iff.rfl

@[simp] theorem wp_raise (e : ε) (w : W) (Q : Except ε α → W → Prop) :
    K.wp (.raise e) w Q ↔ Q (.error e) w := Iff.rfl

theorem wp_mono {Q Q' : Except ε α → W → Prop} (h : ∀ r w, Q r w → Q' r w) {p : Proc C R ε α}
    {w : W} (hp : K.wp p w Q) : K.wp p w Q' := by
  induction p generalizing w with
  | ret a => exact h _ _ hp
  | raise e => exact h _ _ hp
  | call c k ih =>
    intro w' hw x hx
    obtain ⟨hg, hk⟩ := hp w' hw x hx
    exact ⟨hg, ih _ hk⟩

/-- The continuation of a sequence, as a postcondition of its first program. -/
def next (K : Contract C R ε X W) (f : α → Proc C R ε β) (Q : Except ε β → W → Prop) :
    Except ε α → W → Prop
  | .ok a, w => K.wp (f a) w Q
  | .error e, w => Q (.error e) w

@[simp] theorem next_ok (f : α → Proc C R ε β) (Q : Except ε β → W → Prop) (a : α) (w : W) :
    K.next f Q (.ok a) w ↔ K.wp (f a) w Q := Iff.rfl

@[simp] theorem next_error (f : α → Proc C R ε β) (Q : Except ε β → W → Prop) (e : ε) (w : W) :
    K.next f Q (.error e) w ↔ Q (.error e) w := Iff.rfl

theorem wp_bind {p : Proc C R ε α} {f : α → Proc C R ε β} {Q : Except ε β → W → Prop} {w : W}
    (hp : K.wp p w (K.next f Q)) : K.wp (p.bind f) w Q := by
  induction p generalizing w with
  | ret a => exact hp
  | raise e => exact hp
  | call c k ih =>
    intro w' hw x hx
    obtain ⟨hg, hk⟩ := hp w' hw x hx
    exact ⟨hg, ih _ hk⟩

/-- What an error of `p` has to satisfy where a handler catches it. -/
def caught (K : Contract C R ε X W) (h : ε → Proc C R ε α) (Q : Except ε α → W → Prop) :
    Except ε α → W → Prop
  | .ok a, w => Q (.ok a) w
  | .error e, w => K.wp (h e) w Q

theorem wp_handle {p : Proc C R ε α} {h : ε → Proc C R ε α} {Q : Except ε α → W → Prop} {w : W}
    (hp : K.wp p w (K.caught h Q)) : K.wp (p.handle h) w Q := by
  induction p generalizing w with
  | ret a => exact hp
  | raise e => exact hp
  | call c k ih =>
    intro w' hw x hx
    obtain ⟨hg, hk⟩ := hp w' hw x hx
    exact ⟨hg, ih _ hk⟩

/-- One call: the promise at the call, and the postcondition of its reply. -/
theorem wp_perform {c : C} {w : W} {Q : Except ε (R c) → W → Prop}
    (h : ∀ w', K.rely w w' → ∀ x, K.admits c x w' →
      K.guar c x w' (K.answer c x w').2 ∧ Q (K.answer c x w').1 (K.answer c x w').2) :
    K.wp (perform c) w Q := by
  intro w' hw x hx
  obtain ⟨hg, hQ⟩ := h w' hw x hx
  refine ⟨hg, ?_⟩
  cases hr : (K.answer c x w').1 with
  | ok a => rwa [hr] at hQ
  | error e => rwa [hr] at hQ

@[simp] theorem wp_ofExcept {x : Except ε α} {w : W} {Q : Except ε α → W → Prop} :
    K.wp (Proc.ofExcept x) w Q ↔ Q x w := by
  cases x <;> exact Iff.rfl

/-- The loop rule: `I` relates what is left of the list, the loop's variables and the state. -/
theorem wp_forEach {f : σ → β → Proc C R ε σ} {Q : Except ε σ → W → Prop}
    (I : List β → σ → W → Prop) (hdone : ∀ s w, I [] s w → Q (.ok s) w)
    (hstep : ∀ b bs s w, I (b :: bs) s w → K.wp (f s b) w fun r w' => match r with
      | .ok s' => I bs s' w'
      | .error e => Q (.error e) w') {bs : List β} {s : σ} {w : W} (h : I bs s w) :
    K.wp (forEach bs s f) w Q := by
  induction bs generalizing s w with
  | nil => exact hdone s w h
  | cons b bs ih =>
    refine wp_bind (wp_mono (fun r w' hr => ?_) (hstep b bs s w h))
    cases r with
    | ok s' => exact ih hr
    | error e => exact hr

/-- What the others do does not invalidate a precondition. -/
theorem wp_of_rely {Q : Except ε α → W → Prop} (hQ : ∀ r w w', K.rely w w' → Q r w → Q r w')
    {p : Proc C R ε α} {w w' : W} (hw : K.rely w w') (hp : K.wp p w Q) : K.wp p w' Q := by
  cases p with
  | ret a => exact hQ _ _ _ hw hp
  | raise e => exact hQ _ _ _ hw hp
  | call c k => exact fun w'' hw' x hx => hp w'' (K.rely_trans hw hw') x hx

/-- What the others and each promise keep, a program keeps. -/
theorem wp_and {S : W → W → Prop} (hrefl : ∀ w, S w w) (htrans : ∀ u v w, S u v → S v w → S u w)
    (hrely : ∀ w w', K.rely w w' → S w w') (hguar : ∀ c x w w', K.guar c x w w' → S w w')
    {Q : Except ε α → W → Prop} {p : Proc C R ε α} {w : W} (hp : K.wp p w Q) :
    K.wp p w fun r w' => Q r w' ∧ S w w' := by
  induction p generalizing w with
  | ret a => exact ⟨hp, hrefl w⟩
  | raise e => exact ⟨hp, hrefl w⟩
  | call c k ih =>
    intro w' hw x hx
    obtain ⟨hg, hk⟩ := hp w' hw x hx
    refine ⟨hg, wp_mono (fun r w'' h => ⟨h.1, ?_⟩) (ih _ hk)⟩
    exact htrans _ _ _ (hrely w w' hw) (htrans _ _ _ (hguar c x w' _ hg) h.2)

/-- Where each promise is among what is relied on, a program leaves the state as the others might
have left it. -/
theorem wp_and_rely (hK : ∀ c x w w', K.guar c x w w' → K.rely w w') {Q : Except ε α → W → Prop}
    {p : Proc C R ε α} {w : W} (hp : K.wp p w Q) : K.wp p w fun r w' => Q r w' ∧ K.rely w w' :=
  wp_and K.rely_refl (fun _ _ _ => K.rely_trans) (fun _ _ h => h) hK hp

/-- **The frame rule.** Where no call of `p` does more than the others might do between two calls
anyway, nothing has to be known about `p` but its calls and the values it can return. -/
theorem wp_of_calls {P : C → Prop} {V : α → Prop}
    (hP : ∀ c, P c → ∀ x w, K.admits c x w →
      K.guar c x w (K.answer c x w).2 ∧ K.rely w (K.answer c x w).2)
    {Q : Except ε α → W → Prop} {p : Proc C R ε α} {w : W} (hp : p.Calls P) (hv : p.Returns V)
    (hok : ∀ a w', K.rely w w' → V a → Q (.ok a) w')
    (herror : ∀ e w', K.rely w w' → Q (.error e) w') : K.wp p w Q := by
  induction p generalizing w with
  | ret a => exact hok a w (K.rely_refl w) hv
  | raise e => exact herror e w (K.rely_refl w)
  | call c k ih =>
    intro w' hw x hx
    obtain ⟨hg, hr⟩ := hP c hp.1 x w' hx
    have hstep : ∀ {w''}, K.rely (K.answer c x w').2 w'' → K.rely w w'' := fun h =>
      K.rely_trans hw (K.rely_trans hr h)
    exact ⟨hg, ih _ (hp.2 _) (hv _) (fun a w'' h ha => hok a w'' (hstep h) ha)
      fun e w'' h => herror e w'' (hstep h)⟩

/-- The frame rule for a program that returns where each reply is as expected: it fails only where
`T`, under which they are, does not hold. -/
theorem wp_of_succeeds {P : C → Prop} {A : (c : C) → Except ε (R c) → Prop} {T : Prop}
    (hP : ∀ c, P c → ∀ x w, K.admits c x w →
      K.guar c x w (K.answer c x w).2 ∧ K.rely w (K.answer c x w).2)
    (hA : T → ∀ c x w, K.admits c x w → A c (K.answer c x w).1)
    {Q : Except ε α → W → Prop} {p : Proc C R ε α} {w : W} (hp : p.Calls P)
    (hs : T → p.Succeeds A) (hok : ∀ a w', K.rely w w' → Q (.ok a) w')
    (herror : ∀ e w', K.rely w w' → ¬T → Q (.error e) w') : K.wp p w Q := by
  induction p generalizing w with
  | ret a => exact hok a w (K.rely_refl w)
  | raise e => exact herror e w (K.rely_refl w) hs
  | call c k ih =>
    intro w' hw x hx
    obtain ⟨hg, hr⟩ := hP c hp.1 x w' hx
    have hstep : ∀ {w''}, K.rely (K.answer c x w').2 w'' → K.rely w w'' := fun h =>
      K.rely_trans hw (K.rely_trans hr h)
    exact ⟨hg, ih _ (hp.2 _) (fun hT => hs hT _ (hA hT c x w' hx))
      (fun a w'' h => hok a w'' (hstep h)) fun e w'' h => herror e w'' (hstep h)⟩

/-- The frame rule for a program of whose errors one thing is known. -/
theorem wp_of_raises {P : C → Prop} {E : ε → Prop}
    (hP : ∀ c, P c → ∀ x w, K.admits c x w →
      K.guar c x w (K.answer c x w).2 ∧ K.rely w (K.answer c x w).2)
    (hE : ∀ c, P c → ∀ x w, K.admits c x w → ∀ e, (K.answer c x w).1 = .error e → E e)
    {Q : Except ε α → W → Prop} {p : Proc C R ε α} {w : W} (hp : p.Calls P) (he : p.Raises E)
    (hok : ∀ a w', K.rely w w' → Q (.ok a) w')
    (herror : ∀ e w', K.rely w w' → E e → Q (.error e) w') : K.wp p w Q := by
  induction p generalizing w with
  | ret a => exact hok a w (K.rely_refl w)
  | raise e => exact herror e w (K.rely_refl w) he
  | call c k ih =>
    intro w' hw x hx
    obtain ⟨hg, hr⟩ := hP c hp.1 x w' hx
    have hstep : ∀ {w''}, K.rely (K.answer c x w').2 w'' → K.rely w w'' := fun h =>
      K.rely_trans hw (K.rely_trans hr h)
    exact ⟨hg, ih _ (hp.2 _) (he _ (hE c hp.1 x w' hx)) (fun a w'' h => hok a w'' (hstep h))
      fun e w'' h => herror e w'' (hstep h)⟩

/-- The frame rule for the first part of a sequence. -/
theorem wp_bind_of_calls {P : C → Prop} {V : α → Prop}
    (hP : ∀ c, P c → ∀ x w, K.admits c x w →
      K.guar c x w (K.answer c x w).2 ∧ K.rely w (K.answer c x w).2)
    {Q : Except ε β → W → Prop} {p : Proc C R ε α} {f : α → Proc C R ε β} {w : W}
    (hp : p.Calls P) (hv : p.Returns V) (hf : ∀ a w', K.rely w w' → V a → K.wp (f a) w' Q)
    (herror : ∀ e w', K.rely w w' → Q (.error e) w') : K.wp (p.bind f) w Q :=
  wp_bind (wp_of_calls hP hp hv hf herror)

/-- **What a program keeps.** Where the others keep `J`, and each call of `p` keeps it and its promise
wherever it holds, so does `p`, whatever it does. -/
theorem wp_of_stable {P : C → Prop} {J : W → Prop} (hJ : ∀ w w', K.rely w w' → J w → J w')
    (hP : ∀ c, P c → ∀ x w, J w → K.admits c x w →
      K.guar c x w (K.answer c x w).2 ∧ J (K.answer c x w).2)
    {p : Proc C R ε α} {w : W} (hp : p.Calls P) (hw : J w) : K.wp p w fun _ w' => J w' := by
  induction p generalizing w with
  | ret a => exact hw
  | raise e => exact hw
  | call c k ih =>
    intro w' hrely x hx
    obtain ⟨hguar, hafter⟩ := hP c hp.1 x w' (hJ w w' hrely hw) hx
    exact ⟨hguar, ih _ (hp.2 _) hafter⟩

/-- **A program over a part of the state.** Where `K` answers the renamed calls of `p` as `K₀` does
on the part `π` of the state, what `K₀` says of `p` holds of the renamed program, which leaves the
rest as the others might have. -/
theorem wp_embed {D X₀ W₀ : Type} {S : D → Type} (K : Contract D S ε X W)
    (K₀ : Contract C R ε X₀ W₀) (emb : C → D) (back : (c : C) → S (emb c) → R c) (ξ : X → X₀)
    (π : W → W₀) {P : C → Prop} (hrely : ∀ w w', K.rely w w' → K₀.rely (π w) (π w'))
    (hadmits : ∀ c x w, K.admits (emb c) x w → K₀.admits c (ξ x) (π w))
    (hanswer : ∀ c x w, ((K.answer (emb c) x w).1.map (back c), π (K.answer (emb c) x w).2) =
      K₀.answer c (ξ x) (π w))
    (hP : ∀ c, P c → ∀ x w, K.admits (emb c) x w →
      K.guar (emb c) x w (K.answer (emb c) x w).2 ∧ K.rely w (K.answer (emb c) x w).2)
    {p : Proc C R ε α} {w : W} {Q : Except ε α → W₀ → Prop} (hp : p.Calls P)
    (h : K₀.wp p (π w) Q) : K.wp (p.embed emb back) w fun r w' => Q r (π w') ∧ K.rely w w' := by
  induction p generalizing w with
  | ret a => exact ⟨h, K.rely_refl w⟩
  | raise e => exact ⟨h, K.rely_refl w⟩
  | call c k ih =>
    intro w₁ h₁ x hx
    obtain ⟨hguar, h₂⟩ := hP c hp.1 x w₁ hx
    obtain ⟨_, hk⟩ := h (π w₁) (hrely _ _ h₁) (ξ x) (hadmits c x w₁ hx)
    rw [← hanswer c x w₁] at hk
    refine ⟨hguar, wp_mono (fun r w' hr => ⟨hr.1, ?_⟩) (ih _ (hp.2 _) hk)⟩
    exact K.rely_trans h₁ (K.rely_trans h₂ hr.2)

/-- What a program returns, next to what holds of its result. -/
theorem wp_and_returns {Q : Except ε α → W → Prop} {V : α → Prop} {p : Proc C R ε α} {w : W}
    (hp : K.wp p w Q) (hv : p.Returns V) :
    K.wp p w fun r w' => Q r w' ∧ ∀ a, r = .ok a → V a := by
  induction p generalizing w with
  | ret a =>
    refine ⟨hp, fun b hb => ?_⟩
    cases hb
    exact hv
  | raise e => exact ⟨hp, nofun⟩
  | call c k ih =>
    intro w' hw x hx
    obtain ⟨hguar, hk⟩ := hp w' hw x hx
    exact ⟨hguar, ih _ hk (hv _)⟩

/-- The setting of a program over a part of the calls. -/
def comap {D : Type} {S : D → Type} (K : Contract D S ε X W) (emb : C → D)
    (back : (c : C) → S (emb c) → R c) : Contract C R ε X W where
  answer c x w := ((K.answer (emb c) x w).1.map (back c), (K.answer (emb c) x w).2)
  rely := K.rely
  admits c x w := K.admits (emb c) x w
  guar c x w w' := K.guar (emb c) x w w'
  rely_refl := K.rely_refl
  rely_trans := K.rely_trans

/-- A program over a part of the calls is verified in the setting of that part. -/
theorem wp_comap {D : Type} {S : D → Type} {K : Contract D S ε X W} {emb : C → D}
    {back : (c : C) → S (emb c) → R c} {p : Proc C R ε α} {w : W} {Q : Except ε α → W → Prop}
    (h : (K.comap emb back).wp p w Q) : K.wp (p.embed emb back) w Q := by
  induction p generalizing w with
  | ret a => exact h
  | raise e => exact h
  | call c k ih =>
    intro w' hw x hx
    obtain ⟨hguar, hk⟩ := h w' hw x hx
    exact ⟨hguar, ih _ hk⟩

/-- **A renamed program.** Where `K` answers the renamed calls as `K₀` does, what `K₀` says of a program
holds of the renamed one. -/
theorem wp_rename {D X₀ : Type} {S : D → Type} {K : Contract D S ε X W} {K₀ : Contract C R ε X₀ W}
    {emb : C → D} {back : (c : C) → S (emb c) → R c} (ξ : X → X₀)
    (hrely : ∀ w w', K.rely w w' → K₀.rely w w')
    (hadmits : ∀ c x w, K.admits (emb c) x w → K₀.admits c (ξ x) w)
    (hanswer : ∀ c x w, ((K.answer (emb c) x w).1.map (back c), (K.answer (emb c) x w).2) =
      K₀.answer c (ξ x) w)
    (hguar : ∀ c x w w', K₀.guar c (ξ x) w w' → K.guar (emb c) x w w') {p : Proc C R ε α} {w : W}
    {Q : Except ε α → W → Prop} (h : K₀.wp p w Q) : K.wp (p.embed emb back) w Q := by
  induction p generalizing w with
  | ret a => exact h
  | raise e => exact h
  | call c k ih =>
    intro w' hw x hx
    obtain ⟨hstep, hk⟩ := h w' (hrely _ _ hw) (ξ x) (hadmits c x w' hx)
    rw [← hanswer c x w'] at hstep hk
    exact ⟨hguar _ _ _ _ hstep, ih _ hk⟩

/-! ### What a program preserves -/

/-- `p` preserves `J`, whether it returns or raises. -/
def Preserves (K : Contract C R ε X W) (J : W → Prop) (p : Proc C R ε α) : Prop :=
  ∀ w, J w → K.wp p w fun _ w' => J w'

section Preserves

variable {J : W → Prop}

theorem Preserves.bind {p : Proc C R ε α} {f : α → Proc C R ε β} (hp : K.Preserves J p)
    (hf : ∀ a, K.Preserves J (f a)) : K.Preserves J (p.bind f) := by
  refine fun w hw => wp_bind (wp_mono (fun r w' hw' => ?_) (hp w hw))
  cases r with
  | ok a => exact hf a w' hw'
  | error e => exact hw'

theorem Preserves.handle {p : Proc C R ε α} {h : ε → Proc C R ε α} (hp : K.Preserves J p)
    (hh : ∀ e, K.Preserves J (h e)) : K.Preserves J (p.handle h) := by
  refine fun w hw => wp_handle (wp_mono (fun r w' hw' => ?_) (hp w hw))
  cases r with
  | ok a => exact hw'
  | error e => exact hh e w' hw'

/-- What the cleanup establishes holds after the program, however it ends. -/
theorem wp_tryFinally {Q : W → Prop} {p : Proc C R ε α} {cleanup : Proc C R ε Unit} {w : W}
    (hp : K.wp p w fun _ w' => J w')
    (hcleanup : ∀ w', J w' → K.wp cleanup w' fun _ w'' => Q w'') :
    K.wp (p.tryFinally cleanup) w fun _ w' => Q w' := by
  refine wp_bind (wp_handle (wp_mono (fun r w' hw' => ?_) hp))
  cases r with
  | ok a =>
    refine wp_bind (wp_mono (fun r w'' h => ?_) (hcleanup w' hw'))
    cases r <;> exact h
  | error e =>
    refine wp_bind (wp_mono (fun r w'' h => ?_) (hcleanup w' hw'))
    cases r <;> exact h

theorem Preserves.tryFinally {p : Proc C R ε α} {cleanup : Proc C R ε Unit} (hp : K.Preserves J p)
    (hcleanup : K.Preserves J cleanup) : K.Preserves J (p.tryFinally cleanup) :=
  fun w hw => wp_tryFinally (hp w hw) hcleanup

theorem Preserves.forEach {f : σ → β → Proc C R ε σ} (hf : ∀ s b, K.Preserves J (f s b))
    (bs : List β) (s : σ) : K.Preserves J (forEach bs s f) := by
  induction bs generalizing s with
  | nil => exact fun w hw => hw
  | cons b bs ih => exact (hf s b).bind ih

theorem Preserves.ofExcept_bind {x : Except ε α} {f : α → Proc C R ε β}
    (hf : ∀ a, x = .ok a → K.Preserves J (f a)) : K.Preserves J ((Proc.ofExcept x).bind f) := by
  cases x with
  | ok a => exact hf a rfl
  | error e => exact fun w hw => hw

end Preserves

/-! ### A program alone -/

/-- The postcondition holds of the result of an admitted run that was not stopped. -/
theorem exec_post {Q : Except ε α → W → Prop} {p : Proc C R ε α} {o : Oracle X} {w : W}
    (hp : K.wp p w Q) (ha : Along K.answer K.admits p o w) {r : Except ε α} {w' : W}
    (h : exec K.answer p o w = (some r, w')) : Q r w' := by
  induction p generalizing o w with
  | ret a => cases h; exact hp
  | raise e => cases h; exact hp
  | call c k ih =>
    rw [Along] at ha
    rw [exec] at h
    cases hx : o 0 with
    | none => rw [hx] at h; cases h
    | some x =>
      rw [hx] at ha h
      exact ih _ (hp w (K.rely_refl w) x ha.1).2 ha.2 h

/-- The setting of a program that runs alone, and promises nothing. -/
def solo (answer : (c : C) → X → W → Except ε (R c) × W) : Contract C R ε X W where
  answer := answer
  rely w w' := w = w'
  admits _ _ _ := True
  guar _ _ _ _ := True
  rely_refl _ := rfl
  rely_trans h h' := h.trans h'

theorem wp_solo_perform {answer : (c : C) → X → W → Except ε (R c) × W} {c : C} {w : W}
    {Q : Except ε (R c) → W → Prop} (h : ∀ x, Q (answer c x w).1 (answer c x w).2) :
    (solo answer).wp (perform c) w Q := by
  refine wp_perform ?_
  rintro _ rfl x _
  exact ⟨trivial, h x⟩

/-- The postcondition holds of every run that was not stopped. -/
theorem exec_solo {answer : (c : C) → X → W → Except ε (R c) × W} {Q : Except ε α → W → Prop}
    {p : Proc C R ε α} {o : Oracle X} {w : W} (hp : (solo answer).wp p w Q) {r : Except ε α} {w' : W}
    (h : exec answer p o w = (some r, w')) : Q r w' :=
  exec_post hp (along_of_forall p (fun _ _ _ _ _ => trivial) w) h

/-- The setting of a program that runs alone and promises nothing, at the calls that `A` admits. -/
def admitting (answer : (c : C) → X → W → Except ε (R c) × W) (A : C → X → W → Prop) :
    Contract C R ε X W :=
  { solo answer with admits := A }

theorem wp_admitting_perform {answer : (c : C) → X → W → Except ε (R c) × W} {A : C → X → W → Prop}
    {c : C} {w : W} {Q : Except ε (R c) → W → Prop}
    (h : ∀ x, A c x w → Q (answer c x w).1 (answer c x w).2) :
    (admitting answer A).wp (perform c) w Q := by
  refine wp_perform ?_
  rintro _ rfl x hx
  exact ⟨trivial, h x hx⟩

/-- The setting of a program that runs alone, promises nothing, and meets an environment that decides
as `A` says. -/
def alone (answer : (c : C) → X → W → Except ε (R c) × W) (A : X → Prop) : Contract C R ε X W :=
  { solo answer with admits := fun _ x _ => A x }

theorem wp_alone_perform {answer : (c : C) → X → W → Except ε (R c) × W} {A : X → Prop} {c : C}
    {w : W} {Q : Except ε (R c) → W → Prop}
    (h : ∀ x, A x → Q (answer c x w).1 (answer c x w).2) : (alone answer A).wp (perform c) w Q := by
  refine wp_perform ?_
  rintro _ rfl x hx
  exact ⟨trivial, h x hx⟩

/-- The postcondition holds of every run that was not stopped, where the environment decides so. -/
theorem exec_alone {answer : (c : C) → X → W → Except ε (R c) × W} {A : X → Prop}
    {Q : Except ε α → W → Prop} {p : Proc C R ε α} {o : Oracle X} {w : W}
    (hp : (alone answer A).wp p w Q) (ho : ∀ n x, o n = some x → A x) {r : Except ε α} {w' : W}
    (h : exec answer p o w = (some r, w')) : Q r w' :=
  exec_post hp (along_of_forall p (fun n x hx _ _ => ho n x hx) w) h

/-- What every promised call keeps, a run keeps, also when it is stopped. -/
theorem exec_invariant {J : W → Prop} (hJ : ∀ c x w w', K.guar c x w w' → J w → J w')
    {Q : Except ε α → W → Prop} {p : Proc C R ε α} {o : Oracle X} {w : W} (hp : K.wp p w Q)
    (ha : Along K.answer K.admits p o w) (hw : J w) : J (exec K.answer p o w).2 := by
  induction p generalizing o w with
  | ret a => exact hw
  | raise e => exact hw
  | call c k ih =>
    rw [Along] at ha
    rw [exec]
    cases hx : o 0 with
    | none => exact hw
    | some x =>
      rw [hx] at ha
      obtain ⟨hg, hk⟩ := hp w (K.rely_refl w) x ha.1
      exact ih _ hk ha.2 (hJ c x w _ hg hw)

/-- Every call of an admitted run keeps the promise. -/
theorem along_guar {Q : Except ε α → W → Prop} {p : Proc C R ε α} {o : Oracle X} {w : W}
    (hp : K.wp p w Q) (ha : Along K.answer K.admits p o w) :
    Along K.answer (fun c x w => K.guar c x w (K.answer c x w).2) p o w := by
  induction p generalizing o w with
  | ret a => trivial
  | raise e => trivial
  | call c k ih =>
    rw [Along] at ha ⊢
    cases hx : o 0 with
    | none => trivial
    | some x =>
      rw [hx] at ha
      obtain ⟨hg, hk⟩ := hp w (K.rely_refl w) x ha.1
      exact ⟨hg, ih _ hk ha.2⟩

end Contract

end Interaction
