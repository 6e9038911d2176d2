import Mathlib

/-!
# A bounded lossy log

A reader's end of a log that never makes its writer wait. What is written waits in a queue of at most
`n` entries; when the queue is full, the oldest entry in it is lost to make room. The reader takes
entries from the front.

`LossyLog` keeps, beside the queue, what has been taken and what has been lost, each in order, so
that it can be said what becomes of the entries: none is taken twice or out of order, and each of
them has been taken, or waits, or was lost when the queue was full.

## Main definitions

* `LossyLog`, `LossyLog.step` — the log, and what writing an entry and taking one do to it
* `LossyLog.run`, `written` — a sequence of both, and the entries it writes

## Main results

* `LossyLog.conforms_run` — what a log has to do with the entries written to it
-/

/-- A log: the entries taken, waiting and lost. -/
structure LossyLog (M : Type*) where
  taken : List M
  queue : List M
  lost : List M

namespace LossyLog

variable {M : Type*}

/-- Writing an entry, or taking one. -/
inductive Event (M : Type*) where
  | write (m : M)
  | take

/-- No entries. -/
def empty : LossyLog M := ⟨[], [], []⟩

/-- The queue after an entry is written. -/
def push (n : ℕ) (queue : List M) (m : M) : List M :=
  if queue.length < n then queue ++ [m] else queue.tail ++ [m]

/-- What is lost when an entry is written. -/
def dropped (n : ℕ) (queue : List M) : List M :=
  if queue.length < n then [] else queue.head?.toList

/-- One event. Taking from an empty queue takes nothing. -/
def step (n : ℕ) (l : LossyLog M) : Event M → LossyLog M
  | .write m => { l with queue := push n l.queue m, lost := l.lost ++ dropped n l.queue }
  | .take => { l with taken := l.taken ++ l.queue.head?.toList, queue := l.queue.tail }

/-- A sequence of events. -/
def run (n : ℕ) (l : LossyLog M) (es : List (Event M)) : LossyLog M := es.foldl (step n) l

/-- The entries that a sequence of events writes. -/
def written : List (Event M) → List M
  | [] => []
  | .write m :: es => m :: written es
  | .take :: es => written es

@[simp] theorem run_nil (n : ℕ) (l : LossyLog M) : l.run n [] = l := rfl

@[simp] theorem run_cons (n : ℕ) (l : LossyLog M) (e : Event M) (es : List (Event M)) :
    l.run n (e :: es) = (l.step n e).run n es := rfl

theorem run_append (n : ℕ) (l : LossyLog M) (es es' : List (Event M)) :
    l.run n (es ++ es') = (l.run n es).run n es' :=
  List.foldl_append

/-- What a log has to do with the entries `sent` to it. -/
structure Conforms (n : ℕ) (sent : List M) (l : LossyLog M) : Prop where
  /-- What has been taken and what waits come in order, and each entry at most once. -/
  sublist : (l.taken ++ l.queue).Sublist sent
  /-- What waits is the newest. -/
  suffix : l.queue <:+ sent
  /-- Every entry has been taken, waits, or was lost. -/
  perm : (l.lost ++ (l.taken ++ l.queue)).Perm sent
  length_le : l.queue.length ≤ n

theorem conforms_empty (n : ℕ) : (empty : LossyLog M).Conforms n [] :=
  ⟨.slnil, List.suffix_rfl, .nil, Nat.zero_le n⟩

/-- The head of a queue, and its tail. -/
theorem head?_append_tail (queue : List M) : queue.head?.toList ++ queue.tail = queue := by
  cases queue <;> rfl

/-- Nothing but what is dropped is lost. -/
theorem dropped_append_push (n : ℕ) (queue : List M) (m : M) :
    dropped n queue ++ push n queue m = queue ++ [m] := by
  unfold dropped push
  split
  · rfl
  · rw [← List.append_assoc, head?_append_tail]

theorem Conforms.write {n : ℕ} (hn : 0 < n) {sent : List M} {l : LossyLog M} (h : l.Conforms n sent)
    (m : M) : (l.step n (.write m)).Conforms n (sent ++ [m]) := by
  have hpush : (push n l.queue m).Sublist (l.queue ++ [m]) := by
    rw [← dropped_append_push n]
    exact List.sublist_append_right _ _
  constructor
  · have hall : (l.taken ++ push n l.queue m).Sublist (l.taken ++ (l.queue ++ [m])) :=
      hpush.append_left _
    rw [← List.append_assoc] at hall
    exact hall.trans (h.sublist.append_right [m])
  · have hsuffix : push n l.queue m <:+ l.queue ++ [m] :=
      ⟨dropped n l.queue, dropped_append_push n l.queue m⟩
    obtain ⟨older, holder⟩ := h.suffix
    refine hsuffix.trans ⟨older, ?_⟩
    rw [← List.append_assoc, holder]
  · have hmove : (l.lost ++ dropped n l.queue ++ (l.taken ++ push n l.queue m)).Perm
        (l.lost ++ (l.taken ++ l.queue) ++ [m]) := by
      have hswap : (dropped n l.queue ++ (l.taken ++ push n l.queue m)).Perm
          (l.taken ++ (dropped n l.queue ++ push n l.queue m)) := by
        rw [← List.append_assoc, ← List.append_assoc]
        exact List.perm_append_comm.append_right _
      rw [dropped_append_push] at hswap
      simpa [List.append_assoc] using hswap.append_left l.lost
    exact hmove.trans (h.perm.append_right [m])
  · have hlength := h.length_le
    show (push n l.queue m).length ≤ n
    unfold push
    split
    · simp; omega
    · simp; omega

theorem Conforms.take {n : ℕ} {sent : List M} {l : LossyLog M} (h : l.Conforms n sent) :
    (l.step n .take).Conforms n sent := by
  have hsame : l.taken ++ l.queue.head?.toList ++ l.queue.tail = l.taken ++ l.queue := by
    rw [List.append_assoc, head?_append_tail]
  constructor
  · show (l.taken ++ l.queue.head?.toList ++ l.queue.tail).Sublist sent
    rw [hsame]
    exact h.sublist
  · exact (List.tail_suffix _).trans h.suffix
  · show (l.lost ++ (l.taken ++ l.queue.head?.toList ++ l.queue.tail)).Perm sent
    rw [hsame]
    exact h.perm
  · have hlength := h.length_le
    show l.queue.tail.length ≤ n
    simp
    omega

/-- **What becomes of the entries** written to a log of some capacity. -/
theorem conforms_run {n : ℕ} (hn : 0 < n) {es : List (Event M)} {sent : List M} {l : LossyLog M}
    (h : l.Conforms n sent) : (l.run n es).Conforms n (sent ++ written es) := by
  induction es generalizing sent l with
  | nil => simpa [written] using h
  | cons e es ih =>
    cases e with
    | write m =>
      have hrest := ih (h.write hn m)
      rwa [List.append_assoc] at hrest
    | take => exact ih h.take

end LossyLog
