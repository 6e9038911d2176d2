import Mathlib

/-!
# At-least-once queues

A queue that hands an entry out without giving it up: an entry stays until it is deleted, and until
then any receive may hand it out again. Each receive of an entry is counted, and an entry that has
been received `limit` times is not handed out once more but moved to the dead letters.

A queue is the list of everything that was ever sent to it, and an entry's handle is its position.
Which entries a receive picks is the environment's decision, so visibility timeouts, delays and the
order of delivery are all left open.

## Main definitions

* `Entry`, `Queue` — what was sent, how often it was received, and where it is
* `Queue.send`, `Queue.receive`, `Queue.delete` — the operations

## Main results

* `Queue.getElem?_receive`, `Queue.mem_receive` — what a receive does, and what it hands out
* `Queue.leaves_receive`, `Queue.leaves_delete` — how an entry leaves the queue
-/

namespace Messaging

/-- Where an entry is. -/
inductive Place where
  | live
  | deleted
  | dead
  deriving DecidableEq, Repr

/-- An entry of a queue, and how often it was received. -/
structure Entry (α : Type) where
  body : α
  receives : ℕ
  place : Place

/-- An entry as it is handed out: its body, its handle, and how often it was received, this time
included. -/
structure Delivery (α : Type) where
  body : α
  handle : ℕ
  receives : ℕ

/-- Everything that was ever sent to a queue. -/
abbrev Queue (α : Type) := List (Entry α)

variable {α : Type}

/-- An entry once it has been picked by a receive. -/
def Entry.picked (limit : ℕ) (e : Entry α) : Entry α :=
  if e.place ≠ .live then e
  else if e.receives < limit then { e with receives := e.receives + 1 }
  else { e with place := .dead }

/-- What a receive that picks an entry hands out. -/
def Entry.delivery (limit handle : ℕ) (e : Entry α) : Option (Delivery α) :=
  if e.place = .live ∧ e.receives < limit then some ⟨e.body, handle, e.receives + 1⟩ else none

/-- An entry once it has been deleted. A dead letter is no longer in the queue. -/
def Entry.discarded (e : Entry α) : Entry α :=
  if e.place = .live then { e with place := .deleted } else e

namespace Queue

/-- Add an entry. -/
def send (q : Queue α) (a : α) : Queue α := q ++ [⟨a, 0, .live⟩]

/-- Receive the entries at the positions `picks`. -/
def receive (limit : ℕ) (picks : List ℕ) (q : Queue α) : List (Delivery α) × Queue α :=
  (picks.filterMap fun i => q[i]?.bind (Entry.delivery limit i),
    q.mapIdx fun i e => if i ∈ picks then e.picked limit else e)

/-- Delete the entry with a handle. -/
def delete (handle : ℕ) (q : Queue α) : Queue α := q.modify handle Entry.discarded

/-- The entry at position `i` is taken out of the queue. -/
def Leaves (q q' : Queue α) (i : ℕ) (e : Entry α) : Prop :=
  q[i]? = some e ∧ e.place = .live ∧ ∀ e', q'[i]? = some e' → e'.place ≠ .live

variable {limit handle i : ℕ} {picks : List ℕ} {q q' : Queue α} {e e' : Entry α} {d : Delivery α}

theorem getElem?_receive (limit : ℕ) (picks : List ℕ) (q : Queue α) (i : ℕ) :
    (receive limit picks q).2[i]? =
      q[i]?.map fun e => if i ∈ picks then e.picked limit else e := by
  rw [receive, List.getElem?_mapIdx]

/-- What is handed out is an entry of the queue, received once more. -/
theorem mem_receive (h : d ∈ (receive limit picks q).1) :
    (receive limit picks q).2[d.handle]? = some ⟨d.body, d.receives, .live⟩ ∧
      d.receives ≤ limit := by
  obtain ⟨i, hi, hd⟩ := List.mem_filterMap.mp h
  obtain ⟨e, he, hed⟩ := Option.bind_eq_some_iff.mp hd
  unfold Entry.delivery at hed
  split at hed
  · next hlive =>
    cases hed
    refine ⟨?_, hlive.2⟩
    rw [getElem?_receive, he, Option.map_some, if_pos hi, Entry.picked, if_neg (by simp [hlive.1]),
      if_pos hlive.2, hlive.1]
  · cases hed

/-- An entry that is in the queue after a receive was not touched by it, or is handed out. -/
theorem receive_cases (h : (receive limit picks q).2[i]? = some e') (hlive : e'.place = .live) :
    q[i]? = some e' ∨ ∃ d ∈ (receive limit picks q).1, d.handle = i ∧ d.body = e'.body ∧
      d.receives = e'.receives := by
  rw [getElem?_receive] at h
  obtain ⟨e, he, h⟩ := Option.map_eq_some_iff.mp h
  by_cases hi : i ∈ picks
  case neg =>
    rw [if_neg hi] at h
    exact .inl (h ▸ he)
  rw [if_pos hi, Entry.picked] at h
  split_ifs at h with hplace hcount
  · exact .inl (h ▸ he)
  · refine .inr ⟨⟨e.body, i, e.receives + 1⟩, ?_, rfl, by rw [← h], by rw [← h]⟩
    refine List.mem_filterMap.mpr ⟨i, hi, ?_⟩
    rw [he, Option.bind_some, Entry.delivery, if_pos ⟨not_not.mp hplace, hcount⟩]
  · rw [← h] at hlive
    cases hlive

/-- A receive takes an entry out of the queue only when it has been received `limit` times. -/
theorem leaves_receive (h : Leaves q (receive limit picks q).2 i e) : limit ≤ e.receives := by
  obtain ⟨he, hlive, hgone⟩ := h
  by_contra hcount
  have hafter := getElem?_receive limit picks q i
  rw [he, Option.map_some] at hafter
  refine hgone _ hafter ?_
  split_ifs
  · rw [Entry.picked, if_neg (not_not.mpr hlive), if_pos (by omega)]
    exact hlive
  · exact hlive

/-- A delete takes out the entry with the handle. -/
theorem leaves_delete (h : Leaves q (delete handle q) i e) : i = handle := by
  obtain ⟨he, hlive, hgone⟩ := h
  by_contra hne
  refine hgone e ?_ hlive
  rw [delete, List.getElem?_modify, he]
  simp [Ne.symm hne]

/-- A delete keeps every entry's body and how often it was received. -/
theorem exists_delete (handle : ℕ) (h : q[i]? = some e) :
    ∃ e', (delete handle q)[i]? = some e' ∧ e'.body = e.body ∧ e'.receives = e.receives := by
  rw [delete, List.getElem?_modify, h]
  by_cases hi : handle = i
  · refine ⟨e.discarded, by simp [hi], ?_⟩
    unfold Entry.discarded
    split <;> exact ⟨rfl, rfl⟩
  · exact ⟨e, by simp [hi], rfl, rfl⟩

/-- A receive keeps every entry's body. -/
theorem map_body_receive (limit : ℕ) (picks : List ℕ) (q : Queue α) :
    (receive limit picks q).2.map Entry.body = q.map Entry.body := by
  refine List.ext_getElem? fun i => ?_
  rw [List.getElem?_map, getElem?_receive, List.getElem?_map, Option.map_map]
  refine congrArg (fun f => q[i]?.map f) (funext fun e => ?_)
  rw [Function.comp_apply]
  split
  · unfold Entry.picked
    split_ifs <;> rfl
  · rfl

/-- A delete keeps every entry's body. -/
theorem map_body_delete (handle : ℕ) (q : Queue α) :
    (delete handle q).map Entry.body = q.map Entry.body := by
  refine List.ext_getElem? fun i => ?_
  rw [delete, List.getElem?_map, List.getElem?_modify, List.getElem?_map, Option.map_eq_map,
    Option.map_map]
  refine congrArg (fun f => q[i]?.map f) (funext fun e => ?_)
  rw [Function.comp_apply]
  split
  · unfold Entry.discarded
    split_ifs <;> rfl
  · rfl

/-- What is handed out was sent. -/
theorem mem_map_body_of_receive (h : d ∈ (receive limit picks q).1) : d.body ∈ q.map Entry.body := by
  rw [← map_body_receive limit picks q]
  exact List.mem_map.mpr ⟨_, List.mem_of_getElem? (mem_receive h).1, rfl⟩

/-- What is in the queue after a delete was in it before. -/
theorem getElem?_of_delete (h : (delete handle q)[i]? = some e) (hlive : e.place = .live) :
    q[i]? = some e := by
  rw [delete, List.getElem?_modify] at h
  obtain ⟨e', he', h⟩ := Option.map_eq_some_iff.mp h
  split at h
  · rw [← h, Entry.discarded] at hlive
    split at hlive
    · cases hlive
    · next hgone => exact absurd hlive hgone
  · rw [he', h]

theorem not_leaves_self : ¬Leaves q q i e := fun h => h.2.2 e h.1 h.2.1

end Queue

end Messaging
