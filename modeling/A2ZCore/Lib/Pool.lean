import A2ZCore.Lib.Contract

/-!
# Programs that run side by side

A `Pool` is any number of programs over one shared state. A schedule says which program makes its
next call and what the environment decides there; the calls of different programs may alternate in
any order, and a program that is never scheduled again has crashed.

`Pool.run_guar` is the parallel composition rule: when each program meets the contract alone and
each promise is among the things the others rely on, every call of every run keeps the promise.
`Pool.run_iff` turns a promise of the form *the state stays good exactly when the call meets a
condition* into the same equivalence for whole runs.
-/

namespace Interaction

open Proc

/-- Programs that share a state. -/
structure Pool (C : Type) (R : C → Type) (ε α W : Type) where
  procs : List (Proc C R ε α)
  world : W

namespace Pool

variable {C : Type} {R : C → Type} {ε α X W : Type}

/-- Program `m.1` makes its next call, decided by `m.2`. A program that has finished does
nothing. -/
def step (answer : (c : C) → X → W → Except ε (R c) × W) (s : Pool C R ε α W) (m : ℕ × X) :
    Pool C R ε α W :=
  match s.procs[m.1]? with
  | some (.call c k) =>
    ⟨s.procs.set m.1 (k (answer c m.2 s.world).1), (answer c m.2 s.world).2⟩
  | _ => s

/-- Follow a schedule. -/
def run (answer : (c : C) → X → W → Except ε (R c) × W) (s : Pool C R ε α W)
    (ms : List (ℕ × X)) : Pool C R ε α W :=
  ms.foldl (step answer) s

/-- `Φ` holds at each call of a run. -/
def Along (answer : (c : C) → X → W → Except ε (R c) × W) (Φ : C → X → W → Prop) :
    Pool C R ε α W → List (ℕ × X) → Prop
  | _, [] => True
  | s, m :: ms =>
    (∀ c k, s.procs[m.1]? = some (.call c k) → Φ c m.2 s.world) ∧
      Along answer Φ (s.step answer m) ms

/-- A condition that can be checked at a call can be checked along a run. -/
instance decidableAlong {answer : (c : C) → X → W → Except ε (R c) × W} {Φ : C → X → W → Prop}
    [∀ c x w, Decidable (Φ c x w)] :
    (s : Pool C R ε α W) → (ms : List (ℕ × X)) → Decidable (Along answer Φ s ms)
  | _, [] => .isTrue trivial
  | s, m :: ms =>
    have : Decidable (∀ c k, s.procs[m.1]? = some (.call c k) → Φ c m.2 s.world) :=
      match h : s.procs[m.1]? with
      | some (.call c k) => decidable_of_iff (Φ c m.2 s.world)
        ⟨fun hΦ _ _ hck => by cases hck; exact hΦ, fun hall => hall c k rfl⟩
      | some (.ret _) | some (.raise _) | none => .isTrue nofun
    have : Decidable (Along answer Φ (s.step answer m) ms) := decidableAlong _ _
    inferInstanceAs (Decidable (_ ∧ _))

/-- Every program of the pool has returned or raised. -/
def Finished (s : Pool C R ε α W) : Prop := ∀ c k, Proc.call c k ∉ s.procs

/-- `Finished`, as a check. -/
def isFinished (s : Pool C R ε α W) : Bool :=
  s.procs.all fun
    | .call _ _ => false
    | _ => true

theorem finished_of_isFinished {s : Pool C R ε α W} (h : s.isFinished = true) : s.Finished :=
  fun _ _ hck => Bool.false_ne_true (List.all_eq_true.mp h _ hck)

/-- What a program of the pool has returned. -/
def returned (s : Pool C R ε α W) (i : ℕ) : Option α :=
  match s.procs[i]? with
  | some (.ret a) => some a
  | _ => none

theorem getElem?_of_returned {s : Pool C R ε α W} {i : ℕ} {a : α} (h : s.returned i = some a) :
    s.procs[i]? = some (.ret a) := by
  unfold returned at h
  split at h
  · next hi => cases h; exact hi
  · cases h

theorem mem_of_returned {s : Pool C R ε α W} {i : ℕ} {a : α} (h : s.returned i = some a) :
    .ret a ∈ s.procs :=
  List.mem_of_getElem? (getElem?_of_returned h)

theorem length_step (s : Pool C R ε α W) (m : ℕ × X)
    (answer : (c : C) → X → W → Except ε (R c) × W) :
    (s.step answer m).procs.length = s.procs.length := by
  unfold step
  split
  · exact List.length_set
  · rfl

/-- A run keeps its programs. -/
theorem length_run (s : Pool C R ε α W) (ms : List (ℕ × X))
    (answer : (c : C) → X → W → Except ε (R c) × W) :
    (s.run answer ms).procs.length = s.procs.length := by
  induction ms generalizing s with
  | nil => rfl
  | cons m ms ih => exact (ih (s.step answer m)).trans (length_step s m answer)

variable {answer : (c : C) → X → W → Except ε (R c) × W}

theorem step_call {s : Pool C R ε α W} {m : ℕ × X} {c : C} {k : Except ε (R c) → Proc C R ε α}
    (h : s.procs[m.1]? = some (.call c k)) :
    s.step answer m =
      ⟨s.procs.set m.1 (k (answer c m.2 s.world).1), (answer c m.2 s.world).2⟩ := by
  simp only [step, h]

theorem step_of_not_call {s : Pool C R ε α W} {m : ℕ × X}
    (h : ∀ c k, s.procs[m.1]? ≠ some (.call c k)) : s.step answer m = s := by
  unfold step
  split
  · next c k hck => exact absurd hck (h c k)
  · rfl

/-- A step is a call of some program, or nothing. -/
theorem step_cases (answer : (c : C) → X → W → Except ε (R c) × W) (s : Pool C R ε α W)
    (m : ℕ × X) :
    (∃ c k, s.procs[m.1]? = some (.call c k)) ∨
      (∀ c k, s.procs[m.1]? ≠ some (.call c k)) ∧ s.step answer m = s := by
  by_cases h : ∃ c k, s.procs[m.1]? = some (.call c k)
  · exact .inl h
  · push Not at h
    exact .inr ⟨h, step_of_not_call h⟩

@[simp] theorem run_nil (s : Pool C R ε α W) : s.run answer [] = s := rfl

@[simp] theorem run_cons (s : Pool C R ε α W) (m : ℕ × X) (ms : List (ℕ × X)) :
    s.run answer (m :: ms) = (s.step answer m).run answer ms := rfl

theorem run_append (s : Pool C R ε α W) (ms ms' : List (ℕ × X)) :
    s.run answer (ms ++ ms') = (s.run answer ms).run answer ms' :=
  List.foldl_append

theorem Along.mono {Φ Ψ : C → X → W → Prop} (h : ∀ c x w, Φ c x w → Ψ c x w)
    {ms : List (ℕ × X)} {s : Pool C R ε α W} (hs : Along answer Φ s ms) : Along answer Ψ s ms := by
  induction ms generalizing s with
  | nil => trivial
  | cons m ms ih => exact ⟨fun c k hck => h _ _ _ (hs.1 c k hck), ih hs.2⟩

theorem Along.and {Φ Ψ : C → X → W → Prop} {ms : List (ℕ × X)} {s : Pool C R ε α W}
    (h : Along answer Φ s ms) (h' : Along answer Ψ s ms) :
    Along answer (fun c x w => Φ c x w ∧ Ψ c x w) s ms := by
  induction ms generalizing s with
  | nil => trivial
  | cons m ms ih => exact ⟨fun c k hck => ⟨h.1 c k hck, h'.1 c k hck⟩, ih h.2 h'.2⟩

/-- Two conditions that agree wherever a third one holds. -/
theorem Along.congr {Θ Φ Ψ : C → X → W → Prop} (h : ∀ c x w, Θ c x w → (Φ c x w ↔ Ψ c x w))
    {ms : List (ℕ × X)} {s : Pool C R ε α W} (hs : Along answer Θ s ms) :
    Along answer Φ s ms ↔ Along answer Ψ s ms := by
  induction ms generalizing s with
  | nil => exact Iff.rfl
  | cons m ms ih =>
    rw [Along, Along, ih hs.2]
    refine and_congr_left fun _ => forall_congr' fun c => forall_congr' fun k => ?_
    exact forall_congr' fun hck => h c m.2 s.world (hs.1 c k hck)

/-- What every program may call, a run calls. -/
theorem along_of_calls {P : C → Prop} {ms : List (ℕ × X)} {s : Pool C R ε α W}
    (hs : ∀ p ∈ s.procs, p.Calls P) : Along answer (fun c _ _ => P c) s ms := by
  induction ms generalizing s with
  | nil => trivial
  | cons m ms ih =>
    refine ⟨fun c k hck => (hs _ (List.mem_of_getElem? hck)).1, ih ?_⟩
    rcases step_cases answer s m with ⟨c, k, hck⟩ | ⟨_, hstep⟩
    · rw [step_call hck]
      intro p hp
      rcases List.mem_or_eq_of_mem_set hp with hother | rfl
      · exact hs p hother
      · exact (hs _ (List.mem_of_getElem? hck)).2 _
    · rwa [hstep]

theorem along_append {Φ : C → X → W → Prop} {ms ms' : List (ℕ × X)} {s : Pool C R ε α W} :
    Along answer Φ s (ms ++ ms') ↔ Along answer Φ s ms ∧ Along answer Φ (s.run answer ms) ms' := by
  induction ms generalizing s with
  | nil => simp [Along]
  | cons m ms ih => rw [List.cons_append, Along, Along, ih, run_cons, and_assoc]

/-- What every call keeps, a run keeps. -/
theorem run_invariant {J : W → Prop} {ms : List (ℕ × X)} {s : Pool C R ε α W}
    (ha : Along answer (fun c x w => J w → J (answer c x w).2) s ms) (h : J s.world) :
    J (s.run answer ms).world := by
  induction ms generalizing s with
  | nil => exact h
  | cons m ms ih =>
    rw [run_cons]
    refine ih ha.2 ?_
    rcases step_cases answer s m with ⟨c, k, hck⟩ | ⟨_, hs⟩
    · rw [step_call hck]
      exact ha.1 c k hck h
    · rwa [hs]

/-- What every call keeps holds at every call. -/
theorem along_invariant {J : W → Prop} {ms : List (ℕ × X)} {s : Pool C R ε α W}
    (ha : Along answer (fun c x w => J w → J (answer c x w).2) s ms) (h : J s.world) :
    Along answer (fun _ _ w => J w) s ms := by
  induction ms generalizing s with
  | nil => trivial
  | cons m ms ih =>
    refine ⟨fun _ _ _ => h, ih ha.2 ?_⟩
    rcases step_cases answer s m with ⟨c, k, hck⟩ | ⟨_, hs⟩
    · rw [step_call hck]
      exact ha.1 c k hck h
    · rwa [hs]

/-- **From one call to a run.** Where each call leaves the state good exactly when it was good and
the call meets `Φ`, a run ends in a good state exactly when it began in one and all its calls meet
`Φ`. -/
theorem run_iff {J : W → Prop} {Φ : C → X → W → Prop} {ms : List (ℕ × X)}
    {s : Pool C R ε α W}
    (ha : Along answer (fun c x w => J (answer c x w).2 ↔ J w ∧ Φ c x w) s ms) :
    J (s.run answer ms).world ↔ J s.world ∧ Along answer Φ s ms := by
  induction ms generalizing s with
  | nil => simp [Along]
  | cons m ms ih =>
    rw [run_cons, ih ha.2, Along]
    rcases step_cases answer s m with ⟨c, k, hck⟩ | ⟨hnone, hs⟩
    · have hone : (∀ c' k', s.procs[m.1]? = some (.call c' k') → Φ c' m.2 s.world) ↔
          Φ c m.2 s.world := by
        refine ⟨fun h => h c k hck, fun h c' k' h' => ?_⟩
        rw [hck] at h'
        cases h'
        exact h
      have hiff : J (answer c m.2 s.world).2 ↔ J s.world ∧ Φ c m.2 s.world := ha.1 c k hck
      have hworld : (s.step answer m).world = (answer c m.2 s.world).2 := by rw [step_call hck]
      rw [hone, ← and_assoc, ← hiff, hworld]
    · rw [hs]
      exact ⟨fun h => ⟨h.1, fun c k hck => absurd hck (hnone c k), h.2⟩, fun h => ⟨h.1, h.2.2⟩⟩

/-- **What becomes true stays true** in a run exactly when no call of the run undoes it. -/
theorem stable_iff_along {J : W → Prop} {ms : List (ℕ × X)} {s : Pool C R ε α W} :
    (∀ n m, n ≤ m → J (s.run answer (ms.take n)).world → J (s.run answer (ms.take m)).world) ↔
      Along answer (fun c x w => J w → J (answer c x w).2) s ms := by
  induction ms generalizing s with
  | nil => simp [Along]
  | cons m ms ih =>
    rw [Along, ← ih]
    constructor
    · intro h
      refine ⟨fun c k hck hJ => ?_, fun i j hij hJ => h (i + 1) (j + 1) (by omega) hJ⟩
      have hone := h 0 1 (by omega) hJ
      rwa [List.take_succ_cons, List.take_zero, run_cons, run_nil, step_call hck] at hone
    · rintro ⟨hfirst, hrest⟩ i j hij hJ
      have hstep : J s.world → J (s.step answer m).world := by
        intro hJ
        rcases step_cases answer s m with ⟨c, k, hck⟩ | ⟨_, hs⟩
        · rw [step_call hck]
          exact hfirst c k hck hJ
        · rwa [hs]
      match i, j with
      | 0, 0 => exact hJ
      | 0, j + 1 => exact hrest 0 j (by omega) (hstep hJ)
      | i + 1, j + 1 => exact hrest i j (by omega) hJ

/-! ### Parallel composition -/

variable {K : Contract C R ε X W}

/-- One admitted call of one program keeps the promise, and leaves every program of the pool with
a contract. -/
theorem step_wp_at {Q : ℕ → Except ε α → W → Prop}
    (hK : ∀ c x w w', K.guar c x w w' → K.rely w w')
    (hQ : ∀ i r w w', K.rely w w' → Q i r w → Q i r w') {s : Pool C R ε α W} {m : ℕ × X}
    (hs : ∀ i p, s.procs[i]? = some p → K.wp p s.world (Q i))
    (ha : ∀ c k, s.procs[m.1]? = some (.call c k) → K.admits c m.2 s.world) :
    (∀ c k, s.procs[m.1]? = some (.call c k) →
        K.guar c m.2 s.world (K.answer c m.2 s.world).2) ∧
      ∀ i p, (s.step K.answer m).procs[i]? = some p → K.wp p (s.step K.answer m).world (Q i) := by
  rcases step_cases K.answer s m with ⟨c, k, hck⟩ | ⟨hnone, hstep⟩
  · have hmine := hs _ _ hck s.world (K.rely_refl _) m.2 (ha c k hck)
    refine ⟨fun c' k' h' => ?_, fun i p hp => ?_⟩
    · rw [hck] at h'
      cases h'
      exact hmine.1
    · rw [step_call hck] at hp ⊢
      rw [List.getElem?_set] at hp
      split at hp
      · next hi =>
        subst hi
        split at hp
        · cases hp
          exact hmine.2
        · cases hp
      · exact Contract.wp_of_rely (hQ i) (hK _ _ _ _ hmine.1) (hs i p hp)
  · refine ⟨fun c k hck => absurd hck (hnone c k), ?_⟩
    rw [hstep]
    exact hs

/-- **Parallel composition.** When each program of a pool meets the contract alone, and what each
promises is among what the others rely on, every call of an admitted run keeps the promise and the
programs that have finished satisfy their postconditions. -/
theorem run_wp_at {Q : ℕ → Except ε α → W → Prop}
    (hK : ∀ c x w w', K.guar c x w w' → K.rely w w')
    (hQ : ∀ i r w w', K.rely w w' → Q i r w → Q i r w') {ms : List (ℕ × X)}
    {s : Pool C R ε α W} (hs : ∀ i p, s.procs[i]? = some p → K.wp p s.world (Q i))
    (ha : Along K.answer K.admits s ms) :
    Along K.answer (fun c x w => K.guar c x w (K.answer c x w).2) s ms ∧
      ∀ i p, (s.run K.answer ms).procs[i]? = some p →
        K.wp p (s.run K.answer ms).world (Q i) := by
  induction ms generalizing s with
  | nil => exact ⟨trivial, hs⟩
  | cons m ms ih =>
    obtain ⟨hguar, hprocs⟩ := step_wp_at hK hQ hs ha.1
    obtain ⟨hrest, hend⟩ := ih hprocs ha.2
    exact ⟨⟨hguar, hrest⟩, hend⟩

/-- Parallel composition, with one postcondition for all programs. -/
theorem run_wp {Q : Except ε α → W → Prop} (hK : ∀ c x w w', K.guar c x w w' → K.rely w w')
    (hQ : ∀ r w w', K.rely w w' → Q r w → Q r w') {ms : List (ℕ × X)} {s : Pool C R ε α W}
    (hs : ∀ p ∈ s.procs, K.wp p s.world Q) (ha : Along K.answer K.admits s ms) :
    Along K.answer (fun c x w => K.guar c x w (K.answer c x w).2) s ms ∧
      ∀ p ∈ (s.run K.answer ms).procs, K.wp p (s.run K.answer ms).world Q := by
  obtain ⟨hguar, hend⟩ := run_wp_at (Q := fun _ => Q) hK (fun _ => hQ)
    (fun i p hp => hs p (List.mem_of_getElem? hp)) ha
  refine ⟨hguar, fun p hp => ?_⟩
  obtain ⟨i, hi⟩ := List.mem_iff_getElem?.mp hp
  exact hend i p hi

/-! ### Runs with a record -/

section Record

variable {G : Type} {record : G → ℕ → C → X → W → G}

/-- `Φ` holds at each call of a run, and of the program that makes it. -/
def AlongAt (answer : (c : C) → X → W → Except ε (R c) × W) (Φ : ℕ → C → X → W → Prop) :
    Pool C R ε α W → List (ℕ × X) → Prop
  | _, [] => True
  | s, m :: ms =>
    (∀ c k, s.procs[m.1]? = some (.call c k) → Φ m.1 c m.2 s.world) ∧
      AlongAt answer Φ (s.step answer m) ms

/-- What is put down about a run, call after call. -/
def recorded (answer : (c : C) → X → W → Except ε (R c) × W) (record : G → ℕ → C → X → W → G) :
    Pool C R ε α W → List (ℕ × X) → G → G
  | _, [], g => g
  | s, m :: ms, g => recorded answer record (s.step answer m) ms <|
    match s.procs[m.1]? with
    | some (.call c _) => record g m.1 c m.2 s.world
    | _ => g

/-- What each program may call, it may still call after a step. -/
theorem calls_step {P : ℕ → C → Prop} {s : Pool C R ε α W}
    (hs : ∀ (i : ℕ) p, s.procs[i]? = some p → p.Calls (P i)) (m : ℕ × X) :
    ∀ (i : ℕ) p, (s.step answer m).procs[i]? = some p → p.Calls (P i) := by
  rcases step_cases answer s m with ⟨c, k, hck⟩ | ⟨_, hstep⟩
  · intro i p hp
    rw [step_call hck, List.getElem?_set] at hp
    split at hp
    · next hi =>
      subst hi
      split at hp
      · cases hp
        exact (hs _ _ hck).2 _
      · cases hp
    · exact hs i p hp
  · rw [hstep]
    exact hs

/-- **A run and its record.** Where each call leaves the state and the record in agreement exactly when
it meets `Φ`, they agree at every point of a run exactly when all its calls meet `Φ`. -/
theorem recorded_iff {J : W → G → Prop} {P : ℕ → C → Prop} {Φ : ℕ → C → X → W → Prop}
    (hstep : ∀ i c x w g, P i c → J w g → (J (answer c x w).2 (record g i c x w) ↔ Φ i c x w))
    {ms : List (ℕ × X)} {s : Pool C R ε α W} {g : G}
    (hs : ∀ (i : ℕ) p, s.procs[i]? = some p → p.Calls (P i)) (h : J s.world g) :
    (∀ n, J (s.run answer (ms.take n)).world (recorded answer record s (ms.take n) g)) ↔
      AlongAt answer Φ s ms := by
  induction ms generalizing s g with
  | nil => simpa [AlongAt, recorded] using h
  | cons m ms ih =>
    have hrest : ∀ (i : ℕ) p, (s.step answer m).procs[i]? = some p → p.Calls (P i) := calls_step hs m
    rcases step_cases answer s m with ⟨c, k, hck⟩ | ⟨hnone, hsame⟩
    · have hone : (J (s.step answer m).world (record g m.1 c m.2 s.world) ↔ Φ m.1 c m.2 s.world) := by
        rw [step_call hck]
        exact hstep m.1 c m.2 s.world g (hs _ _ hck).1 h
      have hput : ∀ ms', recorded answer record s (m :: ms') g =
          recorded answer record (s.step answer m) ms' (record g m.1 c m.2 s.world) := by
        intro ms'
        rw [recorded, hck]
      constructor
      · intro hall
        have hfirst := hall 1
        rw [List.take_succ_cons, List.take_zero, hput, run_cons] at hfirst
        refine ⟨fun c' k' h' => ?_, (ih hrest hfirst).mp fun n => ?_⟩
        · rw [hck] at h'
          cases h'
          exact hone.mp hfirst
        · have hnext := hall (n + 1)
          rwa [List.take_succ_cons, hput, run_cons] at hnext
      · rintro ⟨hfirst, hlater⟩ n
        have hafter := hone.mpr (hfirst c k hck)
        cases n with
        | zero => exact h
        | succ n =>
          rw [List.take_succ_cons, hput, run_cons]
          exact (ih hrest hafter).mpr hlater n
    · have hput : ∀ ms', recorded answer record s (m :: ms') g =
          recorded answer record (s.step answer m) ms' g := by
        intro ms'
        rw [recorded]
        split
        · next c k hck => exact absurd hck (hnone c k)
        · rfl
      have hkept : J (s.step answer m).world g := by rwa [hsame]
      rw [AlongAt, ← ih hrest hkept]
      constructor
      · intro hall
        refine ⟨fun c k hck => absurd hck (hnone c k), fun n => ?_⟩
        have hnext := hall (n + 1)
        rwa [List.take_succ_cons, hput, run_cons] at hnext
      · rintro ⟨_, hlater⟩ n
        cases n with
        | zero => exact h
        | succ n =>
          rw [List.take_succ_cons, hput, run_cons]
          exact hlater n

end Record

/-! ### Runs in which each program notes what it is told -/

section Notes

variable {G : Type} (note : (c : C) → Except ε (R c) → G → G)

/-- The calls of a program that notes the replies: its notes are part of the state that it is verified
in. -/
def noting (answer : (c : C) → X → W → Except ε (R c) × W) (c : C) (x : X) (s : W × G) :
    Except ε (R c) × (W × G) :=
  ((answer c x s.1).1, ((answer c x s.1).2, note c (answer c x s.1).1 s.2))

/-- The program has begun or will begin: it makes another call. -/
def underWay (s : Pool C R ε α W) (i : ℕ) : Bool :=
  match s.procs[i]? with
  | some (.call _ _) => true
  | _ => false

/-- The notes after a step, which are those of the program that made the call. -/
def notesAfter (answer : (c : C) → X → W → Except ε (R c) × W) (s : Pool C R ε α W) (g : ℕ → G)
    (m : ℕ × X) : ℕ → G :=
  match s.procs[m.1]? with
  | some (.call c _) => Function.update g m.1 (note c (answer c m.2 s.world).1 (g m.1))
  | _ => g

/-- `Φ` holds at each call of a run, of the pool, the notes, and the program that makes the call. -/
def AlongNoted (answer : (c : C) → X → W → Except ε (R c) × W)
    (Φ : Pool C R ε α W → (ℕ → G) → ℕ → C → X → Prop) :
    Pool C R ε α W → List (ℕ × X) → (ℕ → G) → Prop
  | _, [], _ => True
  | s, m :: ms, g =>
    (∀ c k, s.procs[m.1]? = some (.call c k) → Φ s g m.1 c m.2) ∧
      AlongNoted answer Φ (s.step answer m) ms (notesAfter note answer s g m)

/-- A condition that can be checked at a call can be checked along a run. -/
instance decidableAlongNoted {answer : (c : C) → X → W → Except ε (R c) × W}
    {Φ : Pool C R ε α W → (ℕ → G) → ℕ → C → X → Prop} [∀ s g i c x, Decidable (Φ s g i c x)] :
    (s : Pool C R ε α W) → (ms : List (ℕ × X)) → (g : ℕ → G) →
      Decidable (AlongNoted note answer Φ s ms g)
  | _, [], _ => .isTrue trivial
  | s, m :: ms, g =>
    have : Decidable (∀ c k, s.procs[m.1]? = some (.call c k) → Φ s g m.1 c m.2) :=
      match h : s.procs[m.1]? with
      | some (.call c k) => decidable_of_iff (Φ s g m.1 c m.2)
        ⟨fun hΦ _ _ hck => by cases hck; exact hΦ, fun hall => hall c k rfl⟩
      | some (.ret _) | some (.raise _) | none => .isTrue nofun
    have : Decidable (AlongNoted note answer Φ (s.step answer m) ms
        (notesAfter note answer s g m)) := decidableAlongNoted _ _ _
    inferInstanceAs (Decidable (_ ∧ _))

variable {note}

theorem AlongNoted.mono {Φ Ψ : Pool C R ε α W → (ℕ → G) → ℕ → C → X → Prop}
    (h : ∀ s g i c x, Φ s g i c x → Ψ s g i c x) {ms : List (ℕ × X)} {s : Pool C R ε α W}
    {g : ℕ → G} (hs : AlongNoted note answer Φ s ms g) : AlongNoted note answer Ψ s ms g := by
  induction ms generalizing s g with
  | nil => trivial
  | cons m ms ih => exact ⟨fun c k hck => h _ _ _ _ _ (hs.1 c k hck), ih hs.2⟩

/-- What holds at each call whatever is noted. -/
theorem AlongNoted.along {Φ : C → X → W → Prop} {ms : List (ℕ × X)} {s : Pool C R ε α W} {g : ℕ → G}
    (hs : AlongNoted note answer (fun s _ _ c x => Φ c x s.world) s ms g) : Along answer Φ s ms := by
  induction ms generalizing s g with
  | nil => trivial
  | cons m ms ih => exact ⟨hs.1, ih hs.2⟩

/-- **Parallel composition with notes.** Each program meets its own contract, over the state and its own
notes. When each call of a run is admitted, and what it does is among what every other program that is
under way relies on, given its notes, each call keeps the promise. -/
theorem run_wp_noted {K : ℕ → Contract C R ε X (W × G)}
    (hanswer : ∀ i, (K i).answer = noting note answer) {ms : List (ℕ × X)} {s : Pool C R ε α W}
    {g : ℕ → G}
    (hs : ∀ (i : ℕ) p, s.procs[i]? = some p → (K i).wp p (s.world, g i) fun _ _ => True)
    (ha : AlongNoted note answer (fun s g i c x => (K i).admits c x (s.world, g i) ∧
      ((K i).guar c x (s.world, g i) (noting note answer c x (s.world, g i)).2 →
        ∀ j, j ≠ i → s.underWay j = true →
          (K j).rely (s.world, g j) ((answer c x s.world).2, g j))) s ms g) :
    AlongNoted note answer (fun s g i c x =>
      (K i).guar c x (s.world, g i) (noting note answer c x (s.world, g i)).2) s ms g := by
  induction ms generalizing s g with
  | nil => trivial
  | cons m ms ih =>
    obtain ⟨hfirst, hrest⟩ := ha
    rcases step_cases answer s m with ⟨c, k, hck⟩ | ⟨hnone, hstep⟩
    · obtain ⟨hadmits, hothers⟩ := hfirst c k hck
      have hmine := hs _ _ hck (s.world, g m.1) ((K m.1).rely_refl _) m.2 hadmits
      rw [hanswer] at hmine
      obtain ⟨hguar, hk⟩ := hmine
      refine ⟨fun c' k' h' => ?_, ih (fun i p hp => ?_) hrest⟩
      · rw [hck] at h'
        cases h'
        exact hguar
      · rw [step_call hck] at hp ⊢
        have hnotes : notesAfter note answer s g m =
            Function.update g m.1 (note c (answer c m.2 s.world).1 (g m.1)) := by
          rw [notesAfter, hck]
        rw [hnotes]
        rw [List.getElem?_set] at hp
        split at hp
        · next hi =>
          subst hi
          split at hp
          · cases hp
            rw [Function.update_self]
            exact hk
          · cases hp
        · next hi =>
          rw [Function.update_of_ne (Ne.symm hi)]
          cases p with
          | ret a => trivial
          | raise e => trivial
          | call c' k' =>
            have hunder : s.underWay i = true := by rw [underWay, hp]
            exact Contract.wp_of_rely (fun _ _ _ _ _ => trivial)
              (hothers hguar i (Ne.symm hi) hunder) (hs i _ hp)
    · refine ⟨fun c k hck => absurd hck (hnone c k), ?_⟩
      have hnotes : notesAfter note answer s g m = g := by
        unfold notesAfter
        split
        · next c k hck => exact absurd hck (hnone c k)
        · rfl
      rw [hstep, hnotes] at hrest ⊢
      exact ih hs hrest

end Notes

theorem along_true (ms : List (ℕ × X)) (s : Pool C R ε α W) :
    Along answer (fun _ _ _ => True) s ms := by
  induction ms generalizing s with
  | nil => trivial
  | cons m ms ih => exact ⟨fun _ _ _ => trivial, ih _⟩

end Pool

end Interaction
