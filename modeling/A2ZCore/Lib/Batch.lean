import A2ZCore.Lib.Proc

/-!
# Loops over a batch, and entries that raise

An exception ends a loop, so that what is left of the batch is not taken up. `isolate` puts a handler
around the body, and the isolated loop says what would have become of each entry otherwise: an entry is
`Sound` where its body returns when it is taken up after the ones before it, whatever became of those.

`isolates_iff` compares the two: a loop gets past all its sound entries exactly when no entry that
raises comes before one that is sound.

## Main definitions

* `Proc.completes` — a run that returns
* `Proc.isolate` — a loop's body, each of whose errors ends only its entry
* `Proc.Sound`, `Proc.Passed`, `Proc.Isolates`

## Main results

* `Proc.isolates_iff`
-/

namespace Interaction

namespace Proc

variable {C : Type} {R : C → Type} {ε α β σ X W : Type}

/-- A run alone that returns. -/
def completes (answer : (c : C) → X → W → Except ε (R c) × W) (p : Proc C R ε α) (o : Oracle X)
    (w : W) : Bool :=
  match (exec answer p o w).1 with
  | some (.ok _) => true
  | _ => false

/-- A loop's body, each of whose errors ends only its entry. -/
def isolate (f : σ → β → Proc C R ε σ) : σ → β → Proc C R ε σ :=
  fun s b => (f s b).handle fun _ => .ret s

variable (answer : (c : C) → X → W → Except ε (R c) × W) (f : σ → β → Proc C R ε σ) (bs : List β)
  (s : σ) (o : Oracle X) (w : W)

/-- Entry `i` is there, and its body returns when it is taken up after the ones before it, whatever
became of those. -/
def Sound (i : ℕ) : Prop :=
  ∃ b ∈ bs[i]?, completes answer ((forEach (bs.take i) s (isolate f)).bind fun s' => f s' b) o w

/-- Entry `i` is there, and the loop gets past it. -/
def Passed (i : ℕ) : Prop :=
  ∃ b ∈ bs[i]?, completes answer ((forEach (bs.take i) s f).bind fun s' => f s' b) o w

/-- The loop gets past every sound entry. -/
def Isolates : Prop := ∀ i, Sound answer f bs s o w i → Passed answer f bs s o w i

/-- No entry that raises comes before one that is sound. -/
def FailuresLast : Prop := ∀ i j, i < j → Sound answer f bs s o w j → Sound answer f bs s o w i

variable {answer f bs s o w}

instance (i : ℕ) : Decidable (Sound answer f bs s o w i) :=
  match h : bs[i]? with
  | none => .isFalse fun ⟨b, hb, _⟩ => by rw [h] at hb; cases hb
  | some b => decidable_of_iff
      (completes answer ((forEach (bs.take i) s (isolate f)).bind fun s' => f s' b) o w)
      ⟨fun hb => ⟨b, h, hb⟩, fun ⟨b', hb', hdone⟩ => by rw [h] at hb'; cases hb'; exact hdone⟩

instance (i : ℕ) : Decidable (Passed answer f bs s o w i) :=
  match h : bs[i]? with
  | none => .isFalse fun ⟨b, hb, _⟩ => by rw [h] at hb; cases hb
  | some b => decidable_of_iff
      (completes answer ((forEach (bs.take i) s f).bind fun s' => f s' b) o w)
      ⟨fun hb => ⟨b, h, hb⟩, fun ⟨b', hb', hdone⟩ => by rw [h] at hb'; cases hb'; exact hdone⟩

/-! ### Runs that return -/

theorem completes_call {c : C} {k : Except ε (R c) → Proc C R ε α} :
    completes answer (.call c k) o w = match o 0 with
      | none => false
      | some x => completes answer (k (answer c x w).1) o.tail (answer c x w).2 := by
  unfold completes
  rw [exec]
  cases o 0 <;> rfl

/-- A sequence that returns has a first part that does. -/
theorem completes_of_bind {p : Proc C R ε α} {g : α → Proc C R ε β}
    (h : completes answer (p.bind g) o w = true) : completes answer p o w = true := by
  induction p generalizing o w with
  | ret a => rfl
  | raise e => cases h
  | call c k ih =>
    rw [bind, completes_call] at h
    rw [completes_call]
    cases hx : o 0 with
    | none => rw [hx] at h; cases h
    | some x =>
      rw [hx] at h
      exact ih _ h

/-- A handler around a part that returns is not run, whatever follows that part. -/
theorem exec_handle_bind {p : Proc C R ε α} {h : ε → Proc C R ε α} {k : α → Proc C R ε β}
    {g g' : α → Proc C R ε σ} (hp : completes answer (p.bind k) o w = true)
    (hg : ∀ a o w, completes answer (k a) o w = true → exec answer (g a) o w = exec answer (g' a) o w) :
    exec answer ((p.handle h).bind g) o w = exec answer (p.bind g') o w := by
  induction p generalizing o w with
  | ret a => exact hg a o w hp
  | raise e => cases hp
  | call c r ih =>
    rw [bind, completes_call] at hp
    rw [handle, bind, bind, exec, exec]
    cases hx : o 0 with
    | none => rfl
    | some x =>
      rw [hx] at hp
      exact ih _ hp

/-- A loop that returns is the isolated loop. -/
theorem exec_isolate (h : completes answer (forEach bs s f) o w = true) (g : σ → Proc C R ε α) :
    exec answer ((forEach bs s (isolate f)).bind g) o w =
      exec answer ((forEach bs s f).bind g) o w := by
  induction bs generalizing s o w with
  | nil => rfl
  | cons b bs ih =>
    rw [forEach, forEach, bind_assoc, bind_assoc]
    exact exec_handle_bind h fun s' o' w' h' => ih h'

theorem forEach_append (as bs : List β) (s : σ) (f : σ → β → Proc C R ε σ) :
    forEach (as ++ bs) s f = (forEach as s f).bind fun s' => forEach bs s' f := by
  induction as generalizing s with
  | nil => rfl
  | cons a as ih =>
    rw [List.cons_append, forEach, forEach, bind_assoc]
    exact congrArg _ (funext fun s' => ih s')

theorem bind_ret (p : Proc C R ε α) : p.bind .ret = p := by
  induction p with
  | ret a => rfl
  | raise e => rfl
  | call c k ih => exact congrArg (Proc.call c) (funext ih)

/-! ### Entries -/

/-- An entry is passed where the loop over the entries up to it returns. -/
theorem passed_iff_completes {i : ℕ} (hi : i < bs.length) : Passed answer f bs s o w i ↔
    completes answer (forEach (bs.take (i + 1)) s f) o w = true := by
  have hget : bs[i]? = some bs[i] := List.getElem?_eq_getElem hi
  have hloop : forEach (bs.take (i + 1)) s f =
      (forEach (bs.take i) s f).bind fun s' => f s' bs[i] := by
    rw [List.take_add_one, hget, Option.toList_some, forEach_append]
    refine congrArg _ (funext fun s' => ?_)
    exact bind_ret (f s' bs[i])
  rw [hloop]
  refine ⟨fun ⟨b, hb, h⟩ => ?_, fun h => ⟨bs[i], hget, h⟩⟩
  rw [hget] at hb
  cases hb
  exact h

/-- Where the loop reaches an entry, it gets past it exactly when it is sound. -/
theorem passed_iff_sound {i : ℕ} (h : completes answer (forEach (bs.take i) s f) o w = true) :
    Passed answer f bs s o w i ↔ Sound answer f bs s o w i := by
  refine exists_congr fun b => and_congr_right fun _ => ?_
  unfold completes
  rw [exec_isolate h]

theorem lt_length_of_sound {i : ℕ} (h : Sound answer f bs s o w i) : i < bs.length := by
  obtain ⟨b, hb, _⟩ := h
  exact (List.getElem?_eq_some_iff.mp hb).1

/-- The loop gets past an entry exactly when it and those before it are sound. -/
theorem passed_iff {i : ℕ} (hi : i < bs.length) :
    Passed answer f bs s o w i ↔ ∀ j ≤ i, Sound answer f bs s o w j := by
  induction i with
  | zero =>
    rw [passed_iff_sound (by rfl)]
    refine ⟨fun h j hj => ?_, fun h => h 0 (Nat.le_refl 0)⟩
    obtain rfl := Nat.le_zero.mp hj
    exact h
  | succ i ih =>
    have hprev := ih (by omega)
    rw [passed_iff_completes (by omega)] at hprev
    constructor
    · intro h j hj
      obtain ⟨b, hb, hdone⟩ := h
      have hreached := completes_of_bind hdone
      rcases Nat.lt_or_eq_of_le hj with hlt | rfl
      · exact hprev.mp hreached j (by omega)
      · exact (passed_iff_sound hreached).mp ⟨b, hb, hdone⟩
    · intro h
      exact (passed_iff_sound (hprev.mpr fun j hj => h j (by omega))).mpr (h (i + 1) (Nat.le_refl _))

/-- **A loop gets past all its sound entries** exactly when no entry that raises comes before one that
is sound. -/
theorem isolates_iff : Isolates answer f bs s o w ↔ FailuresLast answer f bs s o w := by
  constructor
  · intro h i j hij hj
    exact (passed_iff (lt_length_of_sound hj)).mp (h j hj) i (Nat.le_of_lt hij)
  · intro h i hi
    refine (passed_iff (lt_length_of_sound hi)).mpr fun j hj => ?_
    rcases Nat.lt_or_eq_of_le hj with hlt | rfl
    · exact h j i hlt hi
    · exact hi

end Proc

end Interaction
