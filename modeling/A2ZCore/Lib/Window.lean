import Mathlib

/-!
# Sliding windows

A limiter lets an event happen at time `t` when fewer than `limit` events have happened in the window
`(t - width, t]`. Said of the whole history of events that is `record`. An implementation need not
keep the history: as long as time does not go back, an event that has left the window is never looked
at again, and a queue from which such events are dropped at the front decides the same. `Tracks` is
what such a queue has to do with the history.

## Main definitions

* `within`, `record` — the events in a window, and the limiter over the whole history
* `evict` — dropping from the front what has left the window
* `Tracks` — the queue holds what is left of the history

## Main results

* `Tracks.evict_eq`, `Tracks.record` — the queue decides as the history does, and goes on tracking it
* `length_within_le`, `length_filter_le` — no window holds more than `limit` events
-/

namespace SlidingWindow

variable {α : Type*} [AddCommGroup α] [LinearOrder α]

/-- The events in the window `(t - width, t]`. -/
def within (width t : α) (times : List α) : List α :=
  times.filter fun s => t - width < s ∧ s ≤ t

/-- The limiter at time `t`: the history with the event, when its window has room. -/
def record (limit : ℕ) (width : α) (history : List α) (t : α) : List α :=
  if (within width t history).length < limit then history ++ [t] else history

/-- Drop what has left the window at `t`, from the front. -/
def evict (width t : α) (queue : List α) : List α := queue.dropWhile fun s => s ≤ t - width

/-- The queue holds what is left of the history at time `t`. -/
structure Tracks (width t : α) (history queue : List α) : Prop where
  sorted : history.Pairwise (· ≤ ·)
  le : ∀ s ∈ history, s ≤ t
  queue_eq : queue = evict width t history

/-! ### Eviction -/

theorem tracks_nil (width t : α) : Tracks width t [] [] := ⟨.nil, by simp, rfl⟩

/-- In a sorted queue, what is dropped from the front is all that has left the window. -/
theorem evict_eq_within {width t : α} {history : List α} (hsorted : history.Pairwise (· ≤ ·))
    (hle : ∀ s ∈ history, s ≤ t) : evict width t history = within width t history := by
  induction history with
  | nil => rfl
  | cons s history ih =>
    rw [List.pairwise_cons] at hsorted
    by_cases hs : s ≤ t - width
    · have hrest := ih hsorted.2 fun r hr => hle r (List.mem_cons_of_mem s hr)
      simpa [evict, within, hs, not_lt.mpr hs] using hrest
    · have hall : ∀ r ∈ s :: history, t - width < r ∧ r ≤ t := by
        intro r hr
        refine ⟨(not_le.mp hs).trans_le ?_, hle r hr⟩
        rcases List.mem_cons.mp hr with rfl | hr
        · exact le_rfl
        · exact hsorted.1 r hr
      rw [evict, List.dropWhile_cons_of_neg (by simpa using hs), within, List.filter_eq_self.mpr]
      simpa using hall

/-- What is recorded is recorded at the end. -/
theorem Tracks.sorted_record (limit : ℕ) {width t₀ t : α} {history queue : List α}
    (h : Tracks width t₀ history queue) (ht : t₀ ≤ t) :
    (record limit width history t).Pairwise (· ≤ ·) ∧ ∀ s ∈ record limit width history t, s ≤ t := by
  have hle : ∀ s ∈ history, s ≤ t := fun s hs => (h.le s hs).trans ht
  unfold SlidingWindow.record
  split
  · constructor
    · rw [List.pairwise_append]
      refine ⟨h.sorted, List.pairwise_singleton _ _, ?_⟩
      simpa using hle
    · intro s hs
      rcases List.mem_append.mp hs with hs | hs
      · exact hle s hs
      · exact (List.mem_singleton.mp hs).le
  · exact ⟨h.sorted, hle⟩

variable [IsOrderedAddMonoid α]

/-- What has left the window stays out of it. -/
theorem evict_evict {width t₀ t : α} (ht : t₀ ≤ t) (queue : List α) :
    evict width t (evict width t₀ queue) = evict width t queue := by
  induction queue with
  | nil => rfl
  | cons s queue ih =>
    by_cases hs : s ≤ t₀ - width
    · have hs' : s ≤ t - width := hs.trans (sub_le_sub_right ht width)
      simpa [evict, hs, hs'] using ih
    · simp [evict, hs]

/-- An event that has just happened is in its window. -/
theorem evict_append {width t : α} (hwidth : 0 < width) (history : List α) :
    evict width t (history ++ [t]) = evict width t history ++ [t] := by
  have ht : ¬t ≤ t - width := by simpa using hwidth
  induction history with
  | nil => simp [evict, ht]
  | cons s history ih =>
    by_cases hs : s ≤ t - width
    · simpa [evict, hs] using ih
    · simp [evict, hs]

/-! ### The queue and the history -/

section Tracks

variable {limit : ℕ} {width t₀ t : α} {history queue : List α}

/-- **The queue decides as the history does.** -/
theorem Tracks.evict_eq (h : Tracks width t₀ history queue) (ht : t₀ ≤ t) :
    evict width t queue = within width t history := by
  rw [h.queue_eq, evict_evict ht, evict_eq_within h.sorted fun s hs => (h.le s hs).trans ht]

variable (limit) in
/-- The queue goes on tracking the history when the event is added to both or to neither. -/
theorem Tracks.record (h : Tracks width t₀ history queue) (ht : t₀ ≤ t) (hwidth : 0 < width) :
    Tracks width t (record limit width history t)
      (if (evict width t queue).length < limit then evict width t queue ++ [t]
        else evict width t queue) := by
  obtain ⟨hsorted, hle⟩ := h.sorted_record limit ht
  refine ⟨hsorted, hle, ?_⟩
  have hkept : evict width t history = within width t history :=
    evict_eq_within h.sorted fun s hs => (h.le s hs).trans ht
  rw [h.evict_eq ht, SlidingWindow.record]
  split
  · rw [evict_append hwidth, hkept]
  · exact hkept.symm

end Tracks

/-! ### How full a window can be -/

/-- Where the events in one window are all in another, that one holds as many. -/
theorem length_filter_mono {β : Type*} {p q : β → Prop} [DecidablePred p] [DecidablePred q]
    {times : List β} (h : ∀ s ∈ times, p s → q s) :
    (times.filter fun s => p s).length ≤ (times.filter fun s => q s).length := by
  rw [← List.countP_eq_length_filter, ← List.countP_eq_length_filter]
  refine List.countP_mono_left fun s hs hp => ?_
  simpa using h s hs (by simpa using hp)

/-- A window that ends before the event at `t` does not see it, and one that ends later sees no more
of the rest than the window at `t`. -/
theorem length_within_record (limit : ℕ) {width t : α} {history : List α}
    (hle : ∀ s ∈ history, s ≤ t) (hbound : ∀ r, (within width r history).length ≤ limit) (r : α) :
    (within width r (record limit width history t)).length ≤ limit := by
  unfold record
  split
  case isFalse => exact hbound r
  case isTrue hroom =>
    rw [within, List.filter_append, List.length_append]
    by_cases hr : t ≤ r
    · have hold : (within width r history).length ≤ (within width t history).length :=
        length_filter_mono fun s hs hin => ⟨(sub_le_sub_right hr width).trans_lt hin.1, hle s hs⟩
      have hnew := List.length_filter_le (fun s => decide (r - width < s ∧ s ≤ r)) [t]
      simp only [List.length_singleton] at hnew
      rw [within] at hold
      omega
    · have hnew : ([t].filter fun s => decide (r - width < s ∧ s ≤ r)) = [] := by simp [hr]
      rw [hnew]
      exact hbound r

/-- A window that is closed at its beginning lies in the window of the last event it holds. -/
theorem length_filter_le {limit : ℕ} {width : α} {history : List α}
    (hbound : ∀ r, (within width r history).length ≤ limit) (t : α) :
    (history.filter fun s => t ≤ s ∧ s < t + width).length ≤ limit := by
  set inside := history.filter fun s => t ≤ s ∧ s < t + width with hinside
  by_cases hempty : 0 < inside.length
  case neg => omega
  have hlast := List.maximum_of_length_pos_mem hempty
  set last := List.maximum_of_length_pos hempty
  have hspan := (List.mem_filter.mp hlast).2
  simp only [decide_eq_true_eq] at hspan
  refine (length_filter_mono fun s hs hin => ?_).trans (hbound last)
  have hmem : s ∈ inside := by simp [hinside, hs, hin]
  refine ⟨?_, List.le_maximum_of_length_pos_of_mem hmem hempty⟩
  exact (sub_lt_iff_lt_add.mpr hspan.2).trans_le hin.1

end SlidingWindow
