import A2ZCore.Lib.Once
import Mathlib

/-!
# Effects that should come in pairs

Two effects belong together: a record and its message, a withdrawal and its deposit. `f` is how far
the one is ahead of the other in a state. A program may put `f` out of balance for a while, as long
as it has made up for it when it ends; what it has to make up for is its debt. `miss` picks the calls
that write a debt off.

The debt of a program is no part of the state that it shares. `Contract.owing` adds it, so that a
program is verified with the rules of `Contract`, and `Pool.balanced` adds the debts of a pool up:
when all programs have ended, `f` is off by the number of calls that wrote a debt off.

## Main definitions

* `Contract.owing` — a setting, with the debt of the program that is verified

## Main results

* `Pool.run_owing`, `Pool.balanced`
-/

namespace Interaction

open Proc

variable {C : Type} {R : C → Type} {ε α X W : Type}

/-- A setting, with the debt of the program that is verified in it. -/
def Contract.owing (K : Contract C R ε X W) (f : W → ℤ) (miss : C → X → W → Bool) :
    Contract C R ε X (W × ℤ) where
  answer c x s := ((K.answer c x s.1).1,
    ((K.answer c x s.1).2, s.2 + (f (K.answer c x s.1).2 - f s.1) - (miss c x s.1).toNat))
  rely s s' := K.rely s.1 s'.1 ∧ s'.2 = s.2
  admits c x s := K.admits c x s.1
  guar c x s s' := K.guar c x s.1 s'.1
  rely_refl s := ⟨K.rely_refl s.1, rfl⟩
  rely_trans h h' := ⟨K.rely_trans h.1 h'.1, h'.2.trans h.2⟩

namespace Pool

variable {K : Contract C R ε X W} {f : W → ℤ} {miss : C → X → W → Bool}
  {Q : Except ε α → W × ℤ → Prop}

/-- Each program of a pool meets the contract with its debt, and `f` is the sum of the debts. -/
structure Owes (K : Contract C R ε X W) (f : W → ℤ) (miss : C → X → W → Bool)
    (Q : Except ε α → W × ℤ → Prop) (s : Pool C R ε α W) (ps : List (Proc C R ε α × ℤ)) : Prop where
  procs : ps.map Prod.fst = s.procs
  wp : ∀ p ∈ ps, (K.owing f miss).wp p.1 (s.world, p.2) Q

/-- One call of one program: the debt it runs up is how far it moves `f`. -/
theorem step_owing (hK : ∀ c x w w', K.guar c x w w' → K.rely w w')
    (hQ : ∀ r w w' d, K.rely w w' → Q r (w, d) → Q r (w', d)) {s : Pool C R ε α W} {m : ℕ × X}
    {ps : List (Proc C R ε α × ℤ)} (h : Owes K f miss Q s ps)
    (ha : ∀ c k, s.procs[m.1]? = some (.call c k) → K.admits c m.2 s.world) :
    (∀ c k, s.procs[m.1]? = some (.call c k) →
        K.guar c m.2 s.world (K.answer c m.2 s.world).2) ∧
      ∃ ps', Owes K f miss Q (s.step K.answer m) ps' ∧
        f (s.step K.answer m).world - (ps'.map Prod.snd).sum =
          f s.world - (ps.map Prod.snd).sum + (s.calls miss m).toNat := by
  rcases step_cases K.answer s m with ⟨c, k, hck⟩ | ⟨hnone, hstep⟩
  case inr =>
    refine ⟨fun c k hck => absurd hck (hnone c k), ps, by rwa [hstep], ?_⟩
    have hcalls : s.calls miss m = false := by
      rw [← Bool.not_eq_true, calls_eq_true]
      rintro ⟨c, k, hck, _⟩
      exact hnone c k hck
    rw [hstep, hcalls]
    simp
  have hi := hck
  rw [← h.procs, List.getElem?_map, Option.map_eq_some_iff] at hi
  obtain ⟨⟨p, d⟩, hp, rfl : p = _⟩ := hi
  obtain ⟨hguar, hrest⟩ :=
    h.wp _ (List.mem_of_getElem? hp) (s.world, d) ((K.owing f miss).rely_refl _) m.2 (ha c k hck)
  have hcalls : s.calls miss m = miss c m.2 s.world := by rw [calls, hck]
  set d' := d + (f (K.answer c m.2 s.world).2 - f s.world) - (miss c m.2 s.world).toNat with hd'
  refine ⟨fun c' k' h' => ?_, ps.set m.1 (k (K.answer c m.2 s.world).1, d'), ⟨?_, ?_⟩, ?_⟩
  · rw [hck] at h'
    cases h'
    exact hguar
  · rw [step_call hck, List.map_set, h.procs]
  · intro q hq
    rw [step_call hck]
    rcases List.mem_or_eq_of_mem_set hq with hother | rfl
    · have hrely : (K.owing f miss).rely (s.world, q.2) ((K.answer c m.2 s.world).2, q.2) :=
        ⟨hK _ _ _ _ hguar, rfl⟩
      refine Contract.wp_of_rely ?_ hrely (h.wp q hother)
      rintro r ⟨w, e⟩ ⟨w', e'⟩ ⟨hw, rfl⟩
      exact hQ r w w' _ hw
    · exact hrest
  · rw [step_call hck, List.map_set, hcalls, List.sum_set']
    have hlt : m.1 < (ps.map Prod.snd).length := by
      rw [List.length_map]
      exact (List.getElem?_eq_some_iff.mp hp).1
    have hd : (ps.map Prod.snd)[m.1] = d := by
      rw [List.getElem_map, (List.getElem?_eq_some_iff.mp hp).2]
    rw [dif_pos hlt, hd]
    dsimp only
    omega

/-- **Debts add up.** In a run of programs that each meet the contract, `f` is off by their debts
and by the number of calls that wrote a debt off. -/
theorem run_owing (hK : ∀ c x w w', K.guar c x w w' → K.rely w w')
    (hQ : ∀ r w w' d, K.rely w w' → Q r (w, d) → Q r (w', d)) {ms : List (ℕ × X)}
    {s : Pool C R ε α W} {ps : List (Proc C R ε α × ℤ)} (h : Owes K f miss Q s ps)
    (ha : Along K.answer K.admits s ms) :
    Along K.answer (fun c x w => K.guar c x w (K.answer c x w).2) s ms ∧
      ∃ ps', Owes K f miss Q (s.run K.answer ms) ps' ∧
        f (s.run K.answer ms).world - (ps'.map Prod.snd).sum =
          f s.world - (ps.map Prod.snd).sum + s.count K.answer miss ms := by
  induction ms generalizing s ps with
  | nil => exact ⟨trivial, ps, h, by simp [count]⟩
  | cons m ms ih =>
    obtain ⟨hguar, ps₁, h₁, hf₁⟩ := step_owing hK hQ h ha.1
    obtain ⟨hrest, ps₂, h₂, hf₂⟩ := ih h₁ ha.2
    refine ⟨⟨hguar, hrest⟩, ps₂, h₂, ?_⟩
    rw [run_cons, hf₂, hf₁, count]
    push_cast
    omega

/-- **Balance.** When programs that begin without debt have all ended, and none of them ends with a
debt, `f` is off by the number of calls that wrote a debt off. -/
theorem balanced (hK : ∀ c x w w', K.guar c x w w' → K.rely w w')
    (hQ : ∀ r w w' d, K.rely w w' → Q r (w, d) → Q r (w', d))
    (hpaid : ∀ r w d, Q r (w, d) → d = 0) {ms : List (ℕ × X)} {s : Pool C R ε α W}
    (hs : ∀ p ∈ s.procs, (K.owing f miss).wp p (s.world, 0) Q) (ha : Along K.answer K.admits s ms)
    (hend : (s.run K.answer ms).Finished) :
    Along K.answer (fun c x w => K.guar c x w (K.answer c x w).2) s ms ∧
      (∀ a, .ret a ∈ (s.run K.answer ms).procs → Q (.ok a) ((s.run K.answer ms).world, 0)) ∧
      f (s.run K.answer ms).world = f s.world + s.count K.answer miss ms := by
  have hstart : Owes K f miss Q s (s.procs.map fun p => (p, 0)) := by
    refine ⟨by simp [Function.comp_def], fun p hp => ?_⟩
    obtain ⟨p, hmem, rfl⟩ := List.mem_map.mp hp
    exact hs p hmem
  obtain ⟨hguar, ps, hps, hf⟩ := run_owing hK hQ hstart ha
  have hended : ∀ p ∈ ps, p.2 = 0 := by
    rintro ⟨p, d⟩ hp
    have hwp := hps.wp _ hp
    cases p with
    | ret a => exact hpaid _ _ _ hwp
    | raise e => exact hpaid _ _ _ hwp
    | call c k => exact absurd (hps.procs ▸ List.mem_map_of_mem hp) (hend c k)
  refine ⟨hguar, fun a hmem => ?_, ?_⟩
  · rw [← hps.procs] at hmem
    obtain ⟨⟨p, d⟩, hp, rfl : p = _⟩ := List.mem_map.mp hmem
    obtain rfl : d = 0 := hended _ hp
    exact hps.wp _ hp
  · have hsum : (ps.map Prod.snd).sum = 0 := List.sum_eq_zero fun d hd => by
      obtain ⟨p, hp, rfl⟩ := List.mem_map.mp hd
      exact hended p hp
    have hzero : ((s.procs.map fun p => (p, (0 : ℤ))).map Prod.snd).sum = 0 :=
      List.sum_eq_zero fun d hd => by
        obtain ⟨p, hp, rfl⟩ := List.mem_map.mp hd
        obtain ⟨q, _, rfl⟩ := List.mem_map.mp hp
        rfl
    omega

end Pool

end Interaction
