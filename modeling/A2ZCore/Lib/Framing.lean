import Mathlib

/-!
# Named values on lines

A record is written down as the names and the values of its fields, in the order of the names and each
followed by a separator. The names hold no separator, but the values may, and nothing escapes it there:
a value may hold what reads like the next fields.

So two records can be written down alike. `mem_of_lines_eq` says what keeps them apart, field by
field: as long as no line of a value is the name of a later field, the value is the same in both records.

## Main definitions

* `frame` — the fields of a record, written down
* `PlainUpTo` — up to a field, no line of a value is the name of a later field

## Main results

* `splitOn_frame` — the lines of a record
* `mem_of_lines_eq` — a field of two records that are written down alike
* `eq_of_lines_eq_of_last` — their last values, where these have one line
-/

namespace Framing

variable {K α : Type} {name : K → List α} {sep : α}

/-- The names and the values, each followed by the separator. -/
def frame (name : K → List α) (sep : α) (entries : List (K × List α)) : List α :=
  entries.flatMap fun e => name e.1 ++ sep :: (e.2 ++ [sep])

@[simp] theorem frame_nil : frame name sep [] = [] := rfl

@[simp] theorem frame_cons (e : K × List α) (rest : List (K × List α)) :
    frame name sep (e :: rest) = name e.1 ++ sep :: (e.2 ++ sep :: frame name sep rest) := by
  simp [frame]

/-! ### The lines -/

variable [DecidableEq α]

/-- The lines of the names and the values. -/
def lines (name : K → List α) (sep : α) (entries : List (K × List α)) : List (List α) :=
  entries.flatMap fun e => name e.1 :: e.2.splitOn sep

@[simp] theorem lines_nil : lines name sep [] = [] := rfl

@[simp] theorem lines_cons (e : K × List α) (rest : List (K × List α)) :
    lines name sep (e :: rest) = name e.1 :: (e.2.splitOn sep ++ lines name sep rest) := rfl

/-- The lines of what is written down: after the last separator there is one more, which is empty. -/
theorem splitOn_frame {entries : List (K × List α)} (hname : ∀ e ∈ entries, sep ∉ name e.1) :
    (frame name sep entries).splitOn sep = lines name sep entries ++ [[]] := by
  induction entries with
  | nil => simp
  | cons e rest ih =>
    have he := hname e List.mem_cons_self
    have hrest := ih fun e' he' => hname e' (List.mem_cons_of_mem _ he')
    rw [frame_cons, List.splitOn_append_cons_self, List.splitOn_append_cons_self, hrest,
      List.splitOn_eq_singleton he, lines_cons, List.singleton_append, List.cons_append,
      List.append_assoc]

/-- Records that are written down alike have the same lines. -/
theorem lines_eq_of_frame_eq {E F : List (K × List α)} (hE : ∀ e ∈ E, sep ∉ name e.1)
    (hF : ∀ f ∈ F, sep ∉ name f.1) (h : frame name sep E = frame name sep F) :
    lines name sep E = lines name sep F := by
  have hsplit := congrArg (List.splitOn sep) h
  rw [splitOn_frame hE, splitOn_frame hF] at hsplit
  exact List.append_cancel_right hsplit

/-- Two values in the same place are the same, if the line where the shorter one stops is not one of
the longer one. -/
theorem value_eq_of_append_eq {v v' : List α} {E F : List (K × List α)}
    (h : v.splitOn sep ++ lines name sep E = v'.splitOn sep ++ lines name sep F)
    (hE : ∀ e ∈ E, name e.1 ∉ v'.splitOn sep) (hF : ∀ f ∈ F, name f.1 ∉ v.splitOn sep) :
    v = v' ∧ lines name sep E = lines name sep F := by
  -- what is left of one value is empty, or its first line is the other record's next name
  have hnext : ∀ {w : List α} {a rest : List (List α)} {G : List (K × List α)},
      lines name sep G = a ++ rest → (∀ line ∈ a, line ∈ w.splitOn sep) →
      (∀ g ∈ G, name g.1 ∉ w.splitOn sep) → a = [] := by
    intro w a rest G hG ha hw
    by_contra hne
    obtain ⟨line, a, rfl⟩ := List.exists_cons_of_ne_nil hne
    obtain _ | ⟨g, G⟩ := G
    · simp at hG
    · rw [lines_cons, List.cons_append] at hG
      refine hw g List.mem_cons_self ?_
      rw [(List.cons.inj hG).1]
      exact ha line List.mem_cons_self
  have hsame : v.splitOn sep = v'.splitOn sep := by
    obtain ⟨a, hv', ha⟩ | ⟨a, hv, ha⟩ := List.append_eq_append_iff.mp h
    · rw [hv', hnext ha (fun line hline => hv' ▸ List.mem_append_right _ hline) hE,
        List.append_nil]
    · rw [hv, hnext ha (fun line hline => hv ▸ List.mem_append_right _ hline) hF,
        List.append_nil]
  refine ⟨?_, ?_⟩
  · have hv : [sep].intercalate (v.splitOn sep) = v := List.intercalate_splitOn sep
    rw [← hv, hsame, List.intercalate_splitOn]
  · rw [hsame] at h
    exact List.append_cancel_left h

/-! ### The fields -/

variable [LinearOrder K] {names : List K} {target : K}

/-- The entries are named, each name once and in order. -/
structure Ordered (names : List K) (entries : List (K × List α)) : Prop where
  pairwise : entries.Pairwise fun e f => e.1 < f.1
  named : ∀ e ∈ entries, e.1 ∈ names

/-- No line of a value up to a field is the name of a field that comes after that value's own. -/
def PlainUpTo (name : K → List α) (sep : α) (names : List K) (target : K)
    (entries : List (K × List α)) : Prop :=
  ∀ e ∈ entries, e.1 ≤ target → ∀ later ∈ names, e.1 < later → name later ∉ e.2.splitOn sep

/-- A field is the same in two records that are written down alike, if no line of a value up to it is
the name of a later field. -/
theorem mem_of_lines_eq (hinj : Function.Injective name) {E F : List (K × List α)}
    (hE : Ordered names E) (hF : Ordered names F) (hplainE : PlainUpTo name sep names target E)
    (hplainF : PlainUpTo name sep names target F) (h : lines name sep E = lines name sep F)
    {v : List α} (hv : (target, v) ∈ E) : (target, v) ∈ F := by
  induction E generalizing F with
  | nil => exact absurd hv List.not_mem_nil
  | cons e E ih =>
    obtain _ | ⟨f, F⟩ := F
    · simp at h
    have hEe := List.pairwise_cons.mp hE.pairwise
    have hFf := List.pairwise_cons.mp hF.pairwise
    rw [lines_cons, lines_cons] at h
    obtain ⟨hfst, hrest⟩ := List.cons.inj h
    replace hfst : e.1 = f.1 := hinj hfst
    have hle : e.1 ≤ target := by
      obtain rfl | hmem := List.mem_cons.mp hv
      · exact le_rfl
      · exact (hEe.1 _ hmem).le
    obtain ⟨hsnd, hlines⟩ := value_eq_of_append_eq hrest
      (fun e' he' => hplainF f List.mem_cons_self (hfst ▸ hle) _
        (hE.named e' (List.mem_cons_of_mem _ he')) (hfst ▸ hEe.1 e' he'))
      (fun f' hf' => hplainE e List.mem_cons_self hle _
        (hF.named f' (List.mem_cons_of_mem _ hf')) (hfst ▸ hFf.1 f' hf'))
    obtain rfl : e = f := Prod.ext hfst hsnd
    obtain rfl | hmem := List.mem_cons.mp hv
    · exact List.mem_cons_self
    · refine List.mem_cons_of_mem _ (ih ?_ ?_ ?_ ?_ hlines hmem)
      · exact ⟨hEe.2, fun e' he' => hE.named e' (List.mem_cons_of_mem _ he')⟩
      · exact ⟨hFf.2, fun f' hf' => hF.named f' (List.mem_cons_of_mem _ hf')⟩
      · exact fun e' he' => hplainE e' (List.mem_cons_of_mem _ he')
      · exact fun f' hf' => hplainF f' (List.mem_cons_of_mem _ hf')

omit [LinearOrder K] in
/-- The last values of two records that are written down alike are the same, if each has one line. -/
theorem eq_of_lines_eq_of_last {E F : List (K × List α)} {k k' : K} {v v' : List α}
    (h : lines name sep (E ++ [(k, v)]) = lines name sep (F ++ [(k', v')])) (hv : sep ∉ v)
    (hv' : sep ∉ v') : v = v' := by
  have hlast : ∀ (G : List (K × List α)) (j : K) (w : List α), sep ∉ w →
      (lines name sep (G ++ [(j, w)])).getLast? = some w := by
    intro G j w hw
    simp [lines, List.splitOn_eq_singleton hw]
  have hgetLast := congrArg List.getLast? h
  rw [hlast E k v hv, hlast F k' v' hv'] at hgetLast
  exact Option.some.inj hgetLast

end Framing
