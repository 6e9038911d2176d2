import A2ZCore.Lib.Proc
import Mathlib

/-!
# Parties that do not notice each other

Several parties have their programs run on one state, one after another. What a party can tell two
states apart by is a relation, and so is what it takes for a call to stay clear of what the other
parties see.

`Unwinds` is the pair of conditions on single calls that matters: a call of the party itself is
answered alike in states it cannot tell apart, and a call of any other party leaves it in a state it
cannot tell from the one before. From them, a whole run looks to each party as if it had been served
alone.

## Main definitions

* `Turn`, `serve` — a party's program, and a run of turns
* `AlongTurns` — what holds at each call of such a run
* `Unwinds` — the conditions on single calls

## Main results

* `Unwinds.exec_own`, `Unwinds.exec_foreign` — one program, of the party itself and of another
* `Unwinds.serve_alone` — leaving out the others' turns changes nothing for a party
-/

namespace Interaction

namespace Proc

variable {P C : Type} {R : C → Type} {ε α X W : Type}

/-- A program that is run for a party, and what the environment decides meanwhile. -/
structure Turn (P C : Type) (R : C → Type) (ε α X : Type) where
  party : P
  program : Proc C R ε α
  oracle : Oracle X

/-- What successive turns reply, each to its party, and the state they leave. -/
def serve (answer : (c : C) → X → W → Except ε (R c) × W) :
    List (Turn P C R ε α X) → W → List (P × Option (Except ε α)) × W
  | [], w => ([], w)
  | t :: ts, w =>
    let r := exec answer t.program t.oracle w
    let rest := serve answer ts r.2
    ((t.party, r.1) :: rest.1, rest.2)

/-- `Φ` holds at each call of a run, of the party that makes it. -/
def AlongTurns (answer : (c : C) → X → W → Except ε (R c) × W) (Φ : P → C → X → W → Prop) :
    List (Turn P C R ε α X) → W → Prop
  | [], _ => True
  | t :: ts, w => Along answer (Φ t.party) t.program t.oracle w ∧
    AlongTurns answer Φ ts (exec answer t.program t.oracle w).2

variable {answer : (c : C) → X → W → Except ε (R c) × W} {Φ Ψ : P → C → X → W → Prop}

/-- A condition that can be checked at a call can be checked along the turns. -/
instance decidableAlongTurns [∀ a c x w, Decidable (Φ a c x w)] :
    (ts : List (Turn P C R ε α X)) → (w : W) → Decidable (AlongTurns answer Φ ts w)
  | [], _ => .isTrue trivial
  | t :: ts, w =>
    have : Decidable (AlongTurns answer Φ ts (exec answer t.program t.oracle w).2) :=
      decidableAlongTurns ts _
    inferInstanceAs (Decidable (Along answer (Φ t.party) t.program t.oracle w ∧
      AlongTurns answer Φ ts (exec answer t.program t.oracle w).2))

/-- What follows along each turn follows along all of them. -/
theorem AlongTurns.imp {ts : List (Turn P C R ε α X)} {w : W} (h : AlongTurns answer Φ ts w)
    (himp : ∀ t ∈ ts, ∀ w, Along answer (Φ t.party) t.program t.oracle w →
      Along answer (Ψ t.party) t.program t.oracle w) : AlongTurns answer Ψ ts w := by
  induction ts generalizing w with
  | nil => trivial
  | cons t ts ih =>
    exact ⟨himp t List.mem_cons_self w h.1,
      ih h.2 fun t' ht' => himp t' (List.mem_cons_of_mem _ ht')⟩

/-- A party's own call is answered alike in states it cannot tell apart, and it does not notice the
calls of the others. -/
structure Unwinds (answer : (c : C) → X → W → Except ε (R c) × W) (Apart : P → C → X → W → Prop)
    (Sees : P → W → W → Prop) : Prop where
  own : ∀ {a c x w v}, Apart a c x w → Sees a w v →
    (answer c x w).1 = (answer c x v).1 ∧ Sees a (answer c x w).2 (answer c x v).2
  foreign : ∀ {a b c x w v}, b ≠ a → Apart b c x w → Sees a w v → Sees a (answer c x w).2 v

namespace Unwinds

variable {Apart : P → C → X → W → Prop} {Sees : P → W → W → Prop}

/-- A program of the party itself runs alike in states the party cannot tell apart. -/
theorem exec_own (h : Unwinds answer Apart Sees) {a : P} {p : Proc C R ε α} {o : Oracle X} {w v : W}
    (hp : Along answer (Apart a) p o w) (hsees : Sees a w v) :
    (exec answer p o w).1 = (exec answer p o v).1 ∧
      Sees a (exec answer p o w).2 (exec answer p o v).2 := by
  induction p generalizing o w v with
  | ret b => exact ⟨rfl, hsees⟩
  | raise e => exact ⟨rfl, hsees⟩
  | call c k ih =>
    rw [Along] at hp
    rw [exec, exec]
    cases hx : o 0 with
    | none => exact ⟨rfl, hsees⟩
    | some x =>
      rw [hx] at hp
      obtain ⟨hreply, hafter⟩ := h.own hp.1 hsees
      have hrest := ih _ hp.2 hafter
      dsimp only
      rw [← hreply]
      exact hrest

/-- A program of another party leaves a state that the party cannot tell from the one before. -/
theorem exec_foreign (h : Unwinds answer Apart Sees) {a b : P} (hne : b ≠ a) {p : Proc C R ε α}
    {o : Oracle X} {w v : W} (hp : Along answer (Apart b) p o w) (hsees : Sees a w v) :
    Sees a (exec answer p o w).2 v := by
  induction p generalizing o w with
  | ret b => exact hsees
  | raise e => exact hsees
  | call c k ih =>
    rw [Along] at hp
    rw [exec]
    cases hx : o 0 with
    | none => exact hsees
    | some x =>
      rw [hx] at hp
      exact ih _ hp.2 (h.foreign hne hp.1 hsees)

/-- **Leaving out the others' turns** changes neither what a party is replied nor what it sees in
the end. -/
theorem serve_alone [DecidableEq P] (h : Unwinds answer Apart Sees) (a : P)
    {ts : List (Turn P C R ε α X)} {w v : W} (hturns : AlongTurns answer Apart ts w)
    (hsees : Sees a w v) :
    ((serve answer ts w).1.filter fun r => r.1 = a) =
        (serve answer (ts.filter fun t => t.party = a) v).1 ∧
      Sees a (serve answer ts w).2 (serve answer (ts.filter fun t => t.party = a) v).2 := by
  induction ts generalizing w v with
  | nil => exact ⟨rfl, hsees⟩
  | cons t ts ih =>
    by_cases ht : t.party = a
    · have hown : Along answer (Apart a) t.program t.oracle w := ht ▸ hturns.1
      obtain ⟨hreply, hafter⟩ := h.exec_own hown hsees
      obtain ⟨hrest, hend⟩ := ih hturns.2 hafter
      rw [List.filter_cons_of_pos (by simpa using ht), serve, serve,
        List.filter_cons_of_pos (by simpa using ht), hrest, hreply]
      exact ⟨rfl, hend⟩
    · have hafter := h.exec_foreign ht hturns.1 hsees
      rw [List.filter_cons_of_neg (by simpa using ht), serve,
        List.filter_cons_of_neg (by simpa using ht)]
      exact ih hturns.2 hafter

end Unwinds

end Proc

end Interaction
