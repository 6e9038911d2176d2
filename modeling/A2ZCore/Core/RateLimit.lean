import A2ZCore.Core.Services
import A2ZCore.Lib.Window
import Mathlib

/-!
# The rate limiter

`check_and_increment`, called any number of times, for any keys. The critical section makes one call
to the process's own state, and what it decides depends on nothing but the timestamps of its key.
These are what the key's history of accepted calls has left in the window, so a call is accepted
exactly when the history has room for it.

## Main definitions

* `Check`, `Check.outcome`, `afterChecks` — a call, what it returns or raises, and the state after
  a sequence of calls
* `acceptedAt` — the times at which the calls of one key were accepted

## Main results

* `limiter_exact` — which calls are accepted, and what has no influence on it
* `retryAfter_exact` — what a rejected call is told to wait
-/

namespace A2ZCore.Core

open Interaction SlidingWindow

/-! ### Calls of the limiter -/

/-- A call of `check_and_increment`, and what the environment decides at it. -/
structure Check where
  orgId : String
  action : String
  limit : ℕ
  windowSeconds : ℕ
  choice : Choice

namespace Check

/-- `(org_id, action)`. -/
def key (c : Check) : String × String := (c.orgId, c.action)

/-- `time.monotonic()` at the call. -/
def now (c : Check) : ℚ := c.choice.monotonic

/-- The run of the call. -/
def exec (c : Check) (w : World) : Option (Except PyErr Unit) × World :=
  Proc.exec Call.answer (checkAndIncrement c.orgId c.action c.limit c.windowSeconds)
    (fun _ => some c.choice) w

/-- What the call returns or raises. -/
def outcome (c : Check) (w : World) : Option (Except PyErr Unit) := (c.exec w).1

/-- The call returns. -/
def accepted (c : Check) (w : World) : Bool :=
  match c.outcome w with
  | some (.ok _) => true
  | _ => false

end Check

/-- The state after a sequence of calls. -/
def afterChecks : List Check → World → World
  | [], w => w
  | c :: cs, w => afterChecks cs (c.exec w).2

/-- What each call of a sequence returns or raises. -/
def outcomes : List Check → World → List (Option (Except PyErr Unit))
  | [], _ => []
  | c :: cs, w => c.outcome w :: outcomes cs (c.exec w).2

/-- What the calls of one key return or raise, among the others. -/
def outcomesOf (key : String × String) (cs : List Check) (w : World) :
    List (Option (Except PyErr Unit)) :=
  ((cs.zip (outcomes cs w)).filter fun r => r.1.key = key).map Prod.snd

/-- The times at which the calls of a key were accepted. -/
def acceptedAt (key : String × String) : List Check → World → List ℚ
  | [], _ => []
  | c :: cs, w =>
    (if c.key = key ∧ c.accepted w then [c.now] else []) ++ acceptedAt key cs (c.exec w).2

theorem afterChecks_append (cs cs' : List Check) (w : World) :
    afterChecks (cs ++ cs') w = afterChecks cs' (afterChecks cs w) := by
  induction cs generalizing w with
  | nil => rfl
  | cons c cs ih => exact ih _

/-! ### One call -/

/-- The timestamps that are left of a key's when it is called. -/
def Check.kept (c : Check) (w : World) : List ℚ := evict (c.windowSeconds : ℚ) c.now (w.windows c.key)

/-- A call in terms of the critical section. -/
theorem Check.exec_eq (c : Check) (w : World) :
    c.exec w = match Core.slideWindow c.limit c.windowSeconds c.now (w.windows c.key) with
      | .error e => (some (.error e), w)
      | .ok (none, dq) => (some (.ok ()), { w with windows := Function.update w.windows c.key dq })
      | .ok (some retryAfter, dq) =>
        (some (.error ⟨.rateLimitError retryAfter, "Rate limit exceeded for " ++ c.action ++
          " (limit " ++ toString c.limit ++ "/" ++ toString c.windowSeconds ++ "s)"⟩),
          { w with windows := Function.update w.windows c.key dq }) := by
  show Proc.exec Call.answer (.call _ _) _ w = _
  rw [Proc.exec]
  simp only [Call.answer, Check.key, Check.now]
  cases Core.slideWindow c.limit c.windowSeconds c.choice.monotonic (w.windows (c.orgId, c.action)) with
  | error e => rfl
  | ok r =>
    obtain ⟨retry, dq⟩ := r
    cases retry <;> rfl

/-- The critical section looks at nothing but what is left in the window. -/
theorem slideWindow_congr {limit windowSeconds : ℕ} {now : ℚ} {dq dq' : List ℚ}
    (h : evict (windowSeconds : ℚ) now dq = evict (windowSeconds : ℚ) now dq') :
    Core.slideWindow limit windowSeconds now dq = Core.slideWindow limit windowSeconds now dq' := by
  simp only [evict] at h
  simp only [Core.slideWindow, h]

/-- The critical section, where the window has room. -/
theorem slideWindow_of_lt {limit windowSeconds : ℕ} {now : ℚ} {dq kept : List ℚ}
    (hkept : evict (windowSeconds : ℚ) now dq = kept) (hroom : kept.length < limit) :
    Core.slideWindow limit windowSeconds now dq = .ok (none, kept ++ [now]) := by
  subst hkept
  exact if_neg (not_le.mpr hroom)

/-- The critical section, where the window is full. -/
theorem slideWindow_of_le {limit windowSeconds : ℕ} {now : ℚ} {dq kept : List ℚ}
    (hkept : evict (windowSeconds : ℚ) now dq = kept) (hlimit : 1 ≤ limit)
    (hfull : limit ≤ kept.length) :
    ∃ retry, Core.slideWindow limit windowSeconds now dq = .ok (some retry, kept) := by
  cases kept with
  | nil => simp at hfull; omega
  | cons t rest =>
    refine ⟨max 1 (t + windowSeconds - now).ceil, ?_⟩
    rw [evict] at hkept
    simp only [Core.slideWindow, hkept]
    exact if_pos hfull

/-- A call, where its limit is positive. -/
theorem Check.exec_of_limit {c : Check} (hlimit : 1 ≤ c.limit) (w : World) :
    (c.accepted w = true ↔ (c.kept w).length < c.limit) ∧
      (c.exec w).2.windows c.key =
        if (c.kept w).length < c.limit then c.kept w ++ [c.now] else c.kept w := by
  have hkept : evict (c.windowSeconds : ℚ) c.now (w.windows c.key) = c.kept w := rfl
  by_cases hroom : (c.kept w).length < c.limit
  · have hslide := slideWindow_of_lt hkept hroom
    rw [Check.accepted, Check.outcome, Check.exec_eq, hslide]
    simp [hroom]
  · obtain ⟨retry, hslide⟩ :=
      slideWindow_of_le hkept hlimit (not_lt.mp hroom)
    rw [Check.accepted, Check.outcome, Check.exec_eq, hslide]
    simp [hroom]

/-- A call leaves the timestamps of other keys. -/
theorem Check.windows_of_ne {c : Check} {key : String × String} (h : c.key ≠ key) (w : World) :
    (c.exec w).2.windows key = w.windows key := by
  rw [Check.exec_eq]
  split
  · rfl
  · exact Function.update_of_ne h.symm _ _
  · exact Function.update_of_ne h.symm _ _

/-- A call does the same to the timestamps of its key where they are the same. -/
theorem Check.windows_congr {c : Check} {w w' : World} (h : w.windows c.key = w'.windows c.key) :
    (c.exec w).2.windows c.key = (c.exec w').2.windows c.key := by
  rw [Check.exec_eq, Check.exec_eq, h]
  split
  · exact h
  · simp
  · simp

/-- A call depends on nothing but what its key has left in the window. -/
theorem Check.outcome_congr {c : Check} {w w' : World} (h : c.kept w = c.kept w') :
    c.outcome w = c.outcome w' := by
  rw [Check.outcome, Check.exec_eq, Check.outcome, Check.exec_eq, slideWindow_congr h]
  rcases Core.slideWindow c.limit c.windowSeconds c.now (w'.windows c.key) with e | ⟨_ | r, dq⟩ <;> rfl

/-! ### Sequences of calls -/

section Sequences

variable {key : String × String} {limit windowSeconds : ℕ}

/-- The calls of `key` have its limit and its window. -/
def Fixed (key : String × String) (limit windowSeconds : ℕ) (cs : List Check) : Prop :=
  ∀ c ∈ cs, c.key = key → c.limit = limit ∧ c.windowSeconds = windowSeconds

/-- The times of the calls of `key`. -/
def timesOf (key : String × String) (cs : List Check) : List ℚ :=
  (cs.filter fun c => c.key = key).map Check.now

/-- A time before all of them. -/
theorem exists_start {times : List ℚ} (h : times.Pairwise (· ≤ ·)) :
    ∃ t₀, (t₀ :: times).Pairwise (· ≤ ·) := by
  cases times with
  | nil => exact ⟨0, List.pairwise_singleton _ _⟩
  | cons t times =>
    refine ⟨t, List.pairwise_cons.mpr ⟨fun s hs => ?_, h⟩⟩
    rcases List.mem_cons.mp hs with rfl | hs
    · exact le_rfl
    · exact (List.pairwise_cons.mp h).1 s hs

/-- **The timestamps of a key track its history** of accepted calls, and no window of the history
holds more of them than the limit. -/
theorem tracks_afterChecks (hlimit : 1 ≤ limit) (hwindow : 0 < windowSeconds) {cs : List Check}
    (hfixed : Fixed key limit windowSeconds cs) {t₀ : ℚ} {history : List ℚ} {w : World}
    (htracks : Tracks (windowSeconds : ℚ) t₀ history (w.windows key))
    (hbound : ∀ r, (within (windowSeconds : ℚ) r history).length ≤ limit)
    (htimes : (t₀ :: timesOf key cs).Pairwise (· ≤ ·)) :
    ∃ t₁, (∀ t, t₀ ≤ t → (∀ s ∈ timesOf key cs, s ≤ t) → t₁ ≤ t) ∧
      Tracks (windowSeconds : ℚ) t₁ (history ++ acceptedAt key cs w) ((afterChecks cs w).windows key) ∧
      ∀ r, (within (windowSeconds : ℚ) r (history ++ acceptedAt key cs w)).length ≤ limit := by
  induction cs generalizing t₀ history w with
  | nil => exact ⟨t₀, fun t ht _ => ht, by simpa [acceptedAt, afterChecks] using htracks,
      by simpa [acceptedAt] using hbound⟩
  | cons c cs ih =>
    have hrest : Fixed key limit windowSeconds cs := fun d hd => hfixed d (List.mem_cons_of_mem c hd)
    by_cases hkey : c.key = key
    · obtain ⟨hlimit', hwindow'⟩ := hfixed c List.mem_cons_self hkey
      have htimes' : timesOf key (c :: cs) = c.now :: timesOf key cs := by simp [timesOf, hkey]
      rw [htimes', List.pairwise_cons] at htimes
      have ht₀ : t₀ ≤ c.now := htimes.1 _ List.mem_cons_self
      obtain ⟨haccepted, hwindows⟩ := c.exec_of_limit (hlimit'.symm ▸ hlimit) w
      have hkept : c.kept w = within (windowSeconds : ℚ) c.now history := by
        rw [Check.kept, hwindow', hkey]
        exact htracks.evict_eq ht₀
      have hevict : c.kept w = evict (windowSeconds : ℚ) c.now (w.windows key) := by
        rw [Check.kept, hwindow', hkey]
      have hrecord : record limit (windowSeconds : ℚ) history c.now =
          history ++ if c.key = key ∧ c.accepted w = true then [c.now] else [] := by
        rw [hlimit', hkept] at haccepted
        by_cases hroom : (within (windowSeconds : ℚ) c.now history).length < limit <;>
          simp [SlidingWindow.record, hkey, haccepted, hroom]
      have htracks' := htracks.record limit ht₀ (Nat.cast_pos.mpr hwindow)
      rw [← hevict, ← hlimit', ← hwindows, hkey, hlimit', hrecord] at htracks'
      have hbound' := length_within_record limit (t := c.now)
        (fun s hs => (htracks.le s hs).trans ht₀) hbound
      rw [hrecord] at hbound'
      obtain ⟨t₁, ht₁, hend⟩ := ih hrest htracks' hbound' htimes.2
      refine ⟨t₁, fun t _ hall => ?_, ?_⟩
      · rw [htimes'] at hall
        exact ht₁ t (hall _ List.mem_cons_self) fun s hs => hall s (List.mem_cons_of_mem _ hs)
      · rwa [List.append_assoc] at hend
    · have htimes' : timesOf key (c :: cs) = timesOf key cs := by simp [timesOf, hkey]
      rw [htimes'] at htimes ⊢
      rw [← c.windows_of_ne hkey w] at htracks
      have hnone : acceptedAt key (c :: cs) w = acceptedAt key cs (c.exec w).2 := by
        simp [acceptedAt, hkey]
      rw [hnone]
      exact ih hrest htracks hbound htimes

/-- Two states in which each later call finds the same left in its window. -/
def Alike (key : String × String) (windowSeconds : ℕ) (t₀ : ℚ) (w w' : World) : Prop :=
  (∀ k, k ≠ key → w.windows k = w'.windows k) ∧
    ∀ t, t₀ ≤ t → evict (windowSeconds : ℚ) t (w.windows key) =
      evict (windowSeconds : ℚ) t (w'.windows key)

theorem Alike.exec {t₀ : ℚ} {c : Check} {w w' : World} (hlimit : 1 ≤ limit)
    (hfixed : c.key = key → c.limit = limit ∧ c.windowSeconds = windowSeconds)
    (htime : c.key = key → t₀ ≤ c.now) (h : Alike key windowSeconds t₀ w w') :
    c.outcome w = c.outcome w' ∧ Alike key windowSeconds t₀ (c.exec w).2 (c.exec w').2 := by
  by_cases hkey : c.key = key
  · obtain ⟨hlimit', hwindow⟩ := hfixed hkey
    have hkept : c.kept w = c.kept w' := by
      rw [Check.kept, Check.kept, hkey, hwindow]
      exact h.2 c.now (htime hkey)
    refine ⟨Check.outcome_congr hkept, ?_, fun t _ => ?_⟩
    · intro k hk
      have hne : c.key ≠ k := fun hck => hk (hck.symm.trans hkey)
      rw [c.windows_of_ne hne, c.windows_of_ne hne]
      exact h.1 k hk
    · rw [← hkey, (c.exec_of_limit (hlimit'.symm ▸ hlimit) w).2,
        (c.exec_of_limit (hlimit'.symm ▸ hlimit) w').2, hkept]
  · have hsame : w.windows c.key = w'.windows c.key := h.1 _ hkey
    refine ⟨Check.outcome_congr (by rw [Check.kept, Check.kept, hsame]), ?_, ?_⟩
    · intro k hk
      by_cases hck : c.key = k
      · subst hck
        exact Check.windows_congr hsame
      · rw [c.windows_of_ne hck, c.windows_of_ne hck]
        exact h.1 k hk
    · rw [c.windows_of_ne hkey, c.windows_of_ne hkey]
      exact h.2

/-- The calls of a sequence do the same in such states. -/
theorem outcomes_of_alike {t₀ : ℚ} (hlimit : 1 ≤ limit) {cs : List Check}
    (hfixed : Fixed key limit windowSeconds cs) (htimes : ∀ s ∈ timesOf key cs, t₀ ≤ s)
    {w w' : World} (h : Alike key windowSeconds t₀ w w') : outcomes cs w = outcomes cs w' := by
  induction cs generalizing w w' with
  | nil => rfl
  | cons c cs ih =>
    have htime : c.key = key → t₀ ≤ c.now := by
      intro hkey
      exact htimes _ (by simp [timesOf, hkey])
    obtain ⟨houtcome, hafter⟩ := h.exec hlimit (hfixed c List.mem_cons_self) htime
    rw [outcomes, outcomes, houtcome]
    refine congrArg _ (ih (fun d hd => hfixed d (List.mem_cons_of_mem c hd)) ?_ hafter)
    intro s hs
    refine htimes s ?_
    by_cases hkey : c.key = key
    · simp only [timesOf, hkey, decide_true, List.filter_cons_of_pos, List.map_cons]
      exact List.mem_cons_of_mem _ hs
    · simpa [timesOf, hkey] using hs

/-- A call that is rejected leaves a state that is like the one before it. -/
theorem alike_of_rejected {c : Check} {w : World} (hlimit : 1 ≤ c.limit)
    (hrejected : c.accepted w = false) : Alike c.key c.windowSeconds c.now (c.exec w).2 w := by
  obtain ⟨haccepted, hwindows⟩ := c.exec_of_limit hlimit w
  have hfull : ¬(c.kept w).length < c.limit := by
    rw [← haccepted, hrejected]
    exact Bool.false_ne_true
  refine ⟨fun k hk => c.windows_of_ne hk.symm w, fun t ht => ?_⟩
  rw [hwindows, if_neg hfull]
  exact evict_evict ht _

/-- What the calls of a key do among others, they do alone. -/
theorem outcomesOf_eq (key : String × String) (cs : List Check) {w w' : World}
    (h : w.windows key = w'.windows key) :
    outcomesOf key cs w = outcomes (cs.filter fun c => c.key = key) w' := by
  induction cs generalizing w w' with
  | nil => rfl
  | cons c cs ih =>
    by_cases hkey : c.key = key
    · have hsame : w.windows c.key = w'.windows c.key := by rwa [hkey]
      have houtcome : c.outcome w = c.outcome w' :=
        Check.outcome_congr (by rw [Check.kept, Check.kept, hsame])
      have hafter := ih (hkey ▸ Check.windows_congr hsame)
      simp [outcomesOf, outcomes, hkey, houtcome, ← hafter]
    · have hafter := ih ((c.windows_of_ne hkey w).trans h)
      simp [outcomesOf, outcomes, hkey, ← hafter]

end Sequences

/-! ### The limiter -/

/-- **The limiter is exact.** Take the calls of one key, with one positive limit and one positive
window, at times that do not go back, among any calls of other keys. A call is accepted exactly when
fewer calls than the limit have been accepted in the window that ends with it; no half-open window
of that length holds more accepted calls than the limit; a call that is rejected changes nothing of
what later calls do; and the other keys have no influence. -/
theorem limiter_exact {key : String × String} {limit windowSeconds : ℕ} (hlimit : 1 ≤ limit)
    (hwindow : 0 < windowSeconds) {cs : List Check} (hfixed : Fixed key limit windowSeconds cs)
    (htimes : (timesOf key cs).Pairwise (· ≤ ·)) {w : World} (hempty : w.windows key = []) :
    (∀ earlier c later, cs = earlier ++ c :: later → c.key = key →
      (c.accepted (afterChecks earlier w) = true ↔
        (within (windowSeconds : ℚ) c.now (acceptedAt key earlier w)).length < limit) ∧
      (c.accepted (afterChecks earlier w) = false →
        outcomes later (afterChecks (earlier ++ [c]) w) = outcomes later (afterChecks earlier w))) ∧
    (∀ t : ℚ, (within (windowSeconds : ℚ) t (acceptedAt key cs w)).length ≤ limit ∧
      ((acceptedAt key cs w).filter fun s => t ≤ s ∧ s < t + windowSeconds).length ≤ limit) ∧
    outcomesOf key cs w = outcomes (cs.filter fun c => c.key = key) w := by
  obtain ⟨t₀, hstart⟩ := exists_start htimes
  have hnil : Tracks (windowSeconds : ℚ) t₀ [] (w.windows key) := by
    rw [hempty]
    exact tracks_nil _ _
  have hnone : ∀ r : ℚ, (within (windowSeconds : ℚ) r []).length ≤ limit := by simp [within]
  refine ⟨?_, fun t => ?_, outcomesOf_eq key cs rfl⟩
  · rintro earlier c later rfl hkey
    have hsplit : timesOf key (earlier ++ c :: later) =
        timesOf key earlier ++ c.now :: timesOf key later := by simp [timesOf, hkey]
    rw [hsplit] at hstart
    rw [hsplit, List.pairwise_append, List.pairwise_cons] at htimes
    have hfixed₁ : Fixed key limit windowSeconds earlier := fun d hd =>
      hfixed d (List.mem_append_left _ hd)
    have hfixed₂ : Fixed key limit windowSeconds later := fun d hd =>
      hfixed d (List.mem_append_right _ (List.mem_cons_of_mem c hd))
    obtain ⟨hlimit', hwindow'⟩ := hfixed c (by simp) hkey
    have hstart₁ : (t₀ :: timesOf key earlier).Pairwise (· ≤ ·) :=
      hstart.sublist ((List.sublist_append_left _ _).cons_cons t₀)
    obtain ⟨t₁, ht₁, htracks, _⟩ := tracks_afterChecks hlimit hwindow hfixed₁ hnil hnone hstart₁
    have hlast : t₁ ≤ c.now := by
      refine ht₁ c.now ?_ fun s hs => htimes.2.2 s hs _ List.mem_cons_self
      exact (List.pairwise_cons.mp hstart).1 _ (by simp)
    have hkept : c.kept (afterChecks earlier w) =
        within (windowSeconds : ℚ) c.now (acceptedAt key earlier w) := by
      rw [Check.kept, hkey, hwindow']
      exact htracks.evict_eq hlast
    constructor
    · rw [((c.exec_of_limit (hlimit'.symm ▸ hlimit)) _).1, hkept, hlimit']
    · intro hrejected
      rw [afterChecks_append]
      have halike := alike_of_rejected (hlimit'.symm ▸ hlimit) hrejected
      rw [hkey, hwindow'] at halike
      exact outcomes_of_alike hlimit hfixed₂ htimes.2.1.1 halike
  · obtain ⟨t₁, _, _, hbound⟩ := tracks_afterChecks hlimit hwindow hfixed hnil hnone hstart
    exact ⟨hbound t, length_filter_le hbound t⟩

/-- A call at a time, with a limit of one in a minute. -/
def checkAt (action : String) (now : ℚ) : Check :=
  ⟨"org", action, 1, 60, { Choice.calm "token" with monotonic := now }⟩

/-- A call that is accepted, one of another key, and one that is rejected. -/
def halfMinute : List Check := [checkAt "send" 0, checkAt "parse" 50, checkAt "send" 30]

/-- A minute after an accepted call, a call is accepted again. -/
theorem limiter_exact_minute :
    (checkAt "send" 60).accepted (afterChecks halfMinute World.initial) = true := by
  have hfixed : Fixed ("org", "send") 1 60 (halfMinute ++ [checkAt "send" 60]) := by
    intro c hc _
    simp only [halfMinute, List.mem_append, List.mem_cons, List.not_mem_nil, or_false] at hc
    rcases hc with (rfl | rfl | rfl) | rfl <;> exact ⟨rfl, rfl⟩
  have htimes : (timesOf ("org", "send") (halfMinute ++ [checkAt "send" 60])).Pairwise (· ≤ ·) := by
    decide +kernel
  have hexact := (limiter_exact le_rfl (by decide) hfixed htimes (w := World.initial) rfl).1
  exact (hexact halfMinute (checkAt "send" 60) [] rfl rfl).1.mpr (by decide +kernel)

/-! ### How long to wait -/

section Waiting

variable {key : String × String} {limit windowSeconds : ℕ}

/-- No state that is reached holds more timestamps of a key than its limit. -/
theorem length_windows_le (hlimit : 1 ≤ limit) {cs : List Check}
    (hfixed : Fixed key limit windowSeconds cs) {w : World}
    (hstart : (w.windows key).length ≤ limit) :
    ((afterChecks cs w).windows key).length ≤ limit := by
  induction cs generalizing w with
  | nil => exact hstart
  | cons c cs ih =>
    refine ih (fun d hd => hfixed d (List.mem_cons_of_mem c hd)) ?_
    by_cases hkey : c.key = key
    · obtain ⟨hlimit', _⟩ := hfixed c List.mem_cons_self hkey
      have hwindows := (c.exec_of_limit (hlimit'.symm ▸ hlimit) w).2
      have hkept : (c.kept w).length ≤ (w.windows key).length := by
        rw [Check.kept, hkey]
        exact (List.dropWhile_sublist _).length_le
      rw [← hkey, hwindows, hlimit']
      by_cases hroom : (c.kept w).length < limit
      · rw [if_pos hroom, List.length_append, List.length_singleton]
        omega
      · rw [if_neg hroom]
        omega
    · rwa [c.windows_of_ne hkey]

/-- A call that is rejected finds its window full, and says when the oldest of it will have left. -/
theorem Check.exec_of_rejected {c : Check} (hlimit : 1 ≤ c.limit) {w : World} {r : ℤ} {text : String}
    (h : c.outcome w = some (.error ⟨.rateLimitError r, text⟩)) :
    ∃ oldest rest, (c.exec w).2.windows c.key = oldest :: rest ∧
      c.limit ≤ (oldest :: rest).length ∧ ¬oldest ≤ c.now - c.windowSeconds ∧
      r = max 1 (oldest + c.windowSeconds - c.now).ceil := by
  have hkept : evict (c.windowSeconds : ℚ) c.now (w.windows c.key) = c.kept w := rfl
  by_cases hroom : (c.kept w).length < c.limit
  · have hslide := slideWindow_of_lt hkept hroom
    rw [Check.outcome, Check.exec_eq, hslide] at h
    cases h
  · cases hcases : c.kept w with
    | nil => simp [hcases] at hroom; omega
    | cons oldest rest =>
      rw [hcases] at hkept hroom
      have hslide : Core.slideWindow c.limit c.windowSeconds c.now (w.windows c.key) =
          .ok (some (max 1 (oldest + c.windowSeconds - c.now).ceil), oldest :: rest) := by
        have hdrop := hkept
        rw [evict] at hdrop
        simp only [Core.slideWindow, hdrop]
        exact if_pos (not_lt.mp hroom)
      refine ⟨oldest, rest, ?_, not_lt.mp hroom, ?_, ?_⟩
      · rw [Check.exec_eq, hslide]
        exact Function.update_self _ _ _
      · have hhead := List.head?_dropWhile_not (fun s => decide (s ≤ c.now - c.windowSeconds))
          (w.windows c.key)
        rw [evict] at hkept
        simpa [hkept] using hhead
      · rw [Check.outcome, Check.exec_eq, hslide] at h
        cases h
        rfl

/-- Calls that are rejected do no more to a key than time does. -/
theorem evict_afterChecks (hlimit : 1 ≤ limit) {cs : List Check}
    (hfixed : Fixed key limit windowSeconds cs) {w : World} (hnone : acceptedAt key cs w = [])
    {t : ℚ} (htimes : ∀ s ∈ timesOf key cs, s ≤ t) :
    evict (windowSeconds : ℚ) t ((afterChecks cs w).windows key) =
      evict (windowSeconds : ℚ) t (w.windows key) := by
  induction cs generalizing w with
  | nil => rfl
  | cons c cs ih =>
    obtain ⟨hhead, htail⟩ := List.append_eq_nil_iff.mp hnone
    have hrest : ∀ s ∈ timesOf key cs, s ≤ t := by
      intro s hs
      refine htimes s ?_
      rw [timesOf] at hs ⊢
      exact (List.Sublist.map _ ((List.sublist_cons_self c cs).filter _)).subset hs
    rw [afterChecks, ih (fun d hd => hfixed d (List.mem_cons_of_mem c hd)) htail hrest]
    by_cases hkey : c.key = key
    · obtain ⟨hlimit', hwindow⟩ := hfixed c List.mem_cons_self hkey
      have hrejected : c.accepted w ≠ true := fun haccepted => by simp [hkey, haccepted] at hhead
      have hnow : c.now ≤ t := htimes _ (by simp [timesOf, hkey])
      obtain ⟨haccepted, hwindows⟩ := c.exec_of_limit (hlimit'.symm ▸ hlimit) w
      rw [← hkey, hwindows, if_neg fun hroom => hrejected (haccepted.mpr hroom), Check.kept, hwindow]
      exact evict_evict hnow _
    · rw [c.windows_of_ne hkey]

/-- As long as the oldest of a full window stays in it, every call is rejected. -/
theorem windows_afterChecks_of_full (hlimit : 1 ≤ limit) {oldest : ℚ} {rest : List ℚ}
    (hfull : limit ≤ (oldest :: rest).length) {cs : List Check}
    (hfixed : Fixed key limit windowSeconds cs)
    (htimes : ∀ s ∈ timesOf key cs, s < oldest + windowSeconds) {w : World}
    (hwindows : w.windows key = oldest :: rest) :
    (afterChecks cs w).windows key = oldest :: rest := by
  induction cs generalizing w with
  | nil => exact hwindows
  | cons c cs ih =>
    have hrest : ∀ s ∈ timesOf key cs, s < oldest + windowSeconds := by
      intro s hs
      refine htimes s ?_
      rw [timesOf] at hs ⊢
      exact (List.Sublist.map _ ((List.sublist_cons_self c cs).filter _)).subset hs
    refine ih (fun d hd => hfixed d (List.mem_cons_of_mem c hd)) hrest ?_
    by_cases hkey : c.key = key
    · obtain ⟨hlimit', hwindow⟩ := hfixed c List.mem_cons_self hkey
      have hstays : ¬oldest ≤ c.now - windowSeconds := by
        have hnow := htimes _ (by simp [timesOf, hkey] : c.now ∈ timesOf key (c :: cs))
        linarith
      have hkept : c.kept w = oldest :: rest := by
        rw [Check.kept, hkey, hwindow, hwindows]
        exact List.dropWhile_cons_of_neg (by simpa using hstays)
      rw [← hkey, (c.exec_of_limit (hlimit'.symm ▸ hlimit) w).2, hkept, hlimit',
        if_neg (not_lt.mpr hfull)]
    · rwa [c.windows_of_ne hkey]

end Waiting

/-- **What a rejected call is told to wait is enough, and no more than a second too much.** Take a
state that is reached from an empty window, with one positive limit and one window for a key. When a
call of the key is rejected and told to wait `r` seconds, a call after `r` seconds is accepted, if
none was in between; and a call a second earlier is rejected, unless `r` is one second, the least that
is said. -/
theorem retryAfter_exact {key : String × String} {limit windowSeconds : ℕ} (hlimit : 1 ≤ limit)
    {earlier : List Check} {c : Check} (hkey : c.key = key)
    (hfixed : Fixed key limit windowSeconds (earlier ++ [c])) {w : World}
    (hempty : w.windows key = []) {r : ℤ} {text : String}
    (hrejected : c.outcome (afterChecks earlier w) = some (.error ⟨.rateLimitError r, text⟩))
    {between : List Check} {d : Check} (hkey' : d.key = key)
    (hfixed' : Fixed key limit windowSeconds (between ++ [d]))
    (htimes : ∀ s ∈ timesOf key between, s ≤ d.now) :
    (d.now = c.now + r → acceptedAt key between (afterChecks (earlier ++ [c]) w) = [] →
      d.accepted (afterChecks (earlier ++ c :: between) w) = true) ∧
    (1 < r → d.now = c.now + r - 1 →
      d.accepted (afterChecks (earlier ++ c :: between) w) = false) := by
  obtain ⟨hlimit₁, hwindow₁⟩ := hfixed c (by simp) hkey
  obtain ⟨hlimit₂, hwindow₂⟩ := hfixed' d (by simp) hkey'
  have hbetween : Fixed key limit windowSeconds between := fun e he =>
    hfixed' e (List.mem_append_left _ he)
  have hlength : ((afterChecks (earlier ++ [c]) w).windows key).length ≤ limit :=
    length_windows_le hlimit hfixed (by rw [hempty]; exact Nat.zero_le _)
  obtain ⟨oldest, rest, hwindows, hfull, _, hr⟩ :=
    Check.exec_of_rejected (hlimit₁.symm ▸ hlimit) hrejected
  have hafter : afterChecks (earlier ++ c :: between) w =
      afterChecks between (afterChecks (earlier ++ [c]) w) := by
    rw [← afterChecks_append, List.append_assoc, List.singleton_append]
  have hstate : (afterChecks (earlier ++ [c]) w).windows key = oldest :: rest := by
    rw [afterChecks_append, ← hkey]
    exact hwindows
  rw [hlimit₁] at hfull
  rw [hwindow₁] at hr
  rw [hafter]
  generalize afterChecks (earlier ++ [c]) w = w₁ at hlength hstate ⊢
  have haccepted := (d.exec_of_limit (hlimit₂.symm ▸ hlimit) (afterChecks between w₁)).1
  rw [hlimit₂, Check.kept, hkey', hwindow₂] at haccepted
  constructor
  · intro hnow hnone
    -- by then the oldest has left the window, which never held more than the limit
    have hleft : oldest ≤ d.now - windowSeconds := by
      have hceil : oldest + windowSeconds - c.now ≤ (oldest + windowSeconds - c.now).ceil :=
        Rat.le_ceil
      have hmax : ((oldest + windowSeconds - c.now).ceil : ℚ) ≤ r := by
        rw [hr]
        exact_mod_cast le_max_right _ _
      have hle : oldest + windowSeconds - c.now ≤ (r : ℚ) := hceil.trans hmax
      linarith
    rw [haccepted, evict_afterChecks hlimit hbetween hnone htimes, hstate, evict,
      List.dropWhile_cons_of_pos (by simpa using hleft)]
    have hdrop := (List.dropWhile_sublist (fun s => decide (s ≤ d.now - windowSeconds))
      (l := rest)).length_le
    rw [hstate, List.length_cons] at hlength
    omega
  · intro hone hnow
    have hceil : r = (oldest + windowSeconds - c.now).ceil := by
      rw [max_def] at hr
      split_ifs at hr <;> omega
    have hstays : d.now < oldest + windowSeconds := by
      have hlt : ((oldest + windowSeconds - c.now).ceil : ℚ) < oldest + windowSeconds - c.now + 1 :=
        Rat.ceil_lt
      have hcast : (r : ℚ) < oldest + windowSeconds - c.now + 1 := by
        rw [hceil]
        exact hlt
      linarith
    have hsame := windows_afterChecks_of_full hlimit hfull hbetween
      (fun s hs => (htimes s hs).trans_lt hstays) hstate
    rw [← Bool.not_eq_true, haccepted, hsame, evict, List.dropWhile_cons_of_neg]
    · exact not_lt.mpr hfull
    · have hnot : ¬oldest ≤ d.now - windowSeconds := by linarith
      simpa using hnot

/-- After the half minute that a rejected call is told to wait, a call is accepted, and one a second
earlier is not. -/
theorem retryAfter_exact_minute :
    (checkAt "send" 60).accepted (afterChecks halfMinute World.initial) = true ∧
      (checkAt "send" 59).accepted (afterChecks halfMinute World.initial) = false := by
  have hfixed : ∀ cs : List Check, cs ⊆ halfMinute ++ [checkAt "send" 60, checkAt "send" 59] →
      Fixed ("org", "send") 1 60 cs := by
    intro cs hcs c hc _
    have hmem := hcs hc
    simp only [halfMinute, List.mem_append, List.mem_cons, List.not_mem_nil, or_false] at hmem
    rcases hmem with (rfl | rfl | rfl) | rfl | rfl <;> exact ⟨rfl, rfl⟩
  have hrejected : (checkAt "send" 30).outcome
      (afterChecks [checkAt "send" 0, checkAt "parse" 50] World.initial) =
        some (.error ⟨.rateLimitError 30, "Rate limit exceeded for send (limit 1/60s)"⟩) := by
    decide +kernel
  have hexact : ∀ d : Check, d ∈ [checkAt "send" 60, checkAt "send" 59] → d.key = ("org", "send") →
      _ := fun d hd hkey => @retryAfter_exact ("org", "send") 1 60 le_rfl
    [checkAt "send" 0, checkAt "parse" 50] (checkAt "send" 30) rfl
    (hfixed _ (by simp [halfMinute])) World.initial rfl 30 _ hrejected [] d hkey
    (hfixed _ (by simpa using List.mem_append_right halfMinute hd)) (by simp [timesOf])
  exact ⟨(hexact _ (by simp) rfl).1 (by decide +kernel) rfl,
    (hexact _ (by simp) rfl).2 (by decide) (by decide +kernel)⟩

end A2ZCore.Core
