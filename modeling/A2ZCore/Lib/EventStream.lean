import Mathlib

/-!
# Event streams

The text of a `text/event-stream`, and how a browser reads it. The text is cut into lines, at a line
feed, a carriage return, or both. A line that begins with a colon is a comment; any other is a field,
whose value begins after the colon and at most one space. An empty line ends an event, which is
dispatched when it has any data. What follows the last line break is not read, and neither is an event
that no empty line ends.

So a text of frames is read frame by frame, when no frame has a line break inside: a data frame is one
event, and a comment none.

## Main definitions

* `lines`, `readLine`, `parse` — the lines of a text, one line, and the events of a text
* `Frame`, `Frame.text` — data and comments, each ended by an empty line

## Main results

* `parse_frames` — the events of a sequence of frames
-/

namespace EventStream

/-- An event as it is dispatched. -/
structure Event where
  type : List Char
  data : List Char
  lastEventId : List Char
  deriving DecidableEq, Repr

/-- What has been read of the next event: the buffers for its data and its type, and the last id. -/
structure Buffers where
  data : List Char
  type : List Char
  lastEventId : List Char
  deriving DecidableEq, Repr

/-- The buffers at the beginning of a stream. -/
def Buffers.empty : Buffers := ⟨[], [], []⟩

/-! ### Reading -/

/-- The lines of a text, after `line`, which is the beginning of the first. -/
def lines (line : List Char) : List Char → List (List Char)
  | [] => []
  | '\r' :: '\n' :: cs => line :: lines [] cs
  | c :: cs => if c = '\n' ∨ c = '\r' then line :: lines [] cs else lines (line ++ [c]) cs

/-- What a field does to the buffers. The other fields say nothing about events. -/
def readField (b : Buffers) (name value : List Char) : Buffers :=
  if name = "data".toList then { b with data := b.data ++ value ++ ['\n'] }
  else if name = "event".toList then { b with type := value }
  else if name = "id".toList ∧ '\x00' ∉ value then { b with lastEventId := value }
  else b

/-- The name and the value of a field. -/
def splitField (line : List Char) : List Char × List Char :=
  (line.takeWhile (· ≠ ':'), match line.dropWhile (· ≠ ':') with
    | ':' :: ' ' :: value => value
    | ':' :: value => value
    | _ => [])

/-- The event that an empty line dispatches, if there is any data. The last line feed is not part of
it. -/
def dispatch (b : Buffers) : List Event :=
  if b.data = [] then []
  else [⟨if b.type = [] then "message".toList else b.type, b.data.dropLast, b.lastEventId⟩]

/-- One line: the events that it dispatches, and the buffers after it. -/
def readLine (b : Buffers) (line : List Char) : List Event × Buffers :=
  match line with
  | [] => (dispatch b, ⟨[], [], b.lastEventId⟩)
  | ':' :: _ => ([], b)
  | _ => ([], readField b (splitField line).1 (splitField line).2)

/-- The events of a sequence of lines. -/
def readLines (b : Buffers) : List (List Char) → List Event
  | [] => []
  | line :: rest => (readLine b line).1 ++ readLines (readLine b line).2 rest

/-- A text without the byte order mark it may begin with. -/
def skipMark : List Char → List Char
  | '\uFEFF' :: cs => cs
  | cs => cs

/-- The events of a text. -/
def parse (text : List Char) : List Event := readLines .empty (lines [] (skipMark text))

/-! ### Lines -/

/-- The text has no line break. -/
def OneLine (text : List Char) : Prop := ∀ c ∈ text, c ≠ '\n' ∧ c ≠ '\r'

instance (text : List Char) : Decidable (OneLine text) := List.decidableBAll _ text

theorem lines_cons_of_ne {line cs : List Char} {c : Char} (h : c ≠ '\n' ∧ c ≠ '\r') :
    lines line (c :: cs) = lines (line ++ [c]) cs := by
  rw [lines]
  · simp [h.1, h.2]
  · rintro _ rfl
    exact absurd rfl h.2

/-- A line up to its line feed. -/
theorem lines_append_newline {text : List Char} (h : OneLine text) (line rest : List Char) :
    lines line (text ++ '\n' :: rest) = (line ++ text) :: lines [] rest := by
  induction text generalizing line with
  | nil =>
    rw [List.nil_append, List.append_nil, lines]
    · simp
    · rintro _ ⟨⟩
  | cons c text ih =>
    rw [List.cons_append, lines_cons_of_ne (h c List.mem_cons_self),
      ih fun d hd => h d (List.mem_cons_of_mem _ hd), List.append_assoc, List.singleton_append]

/-! ### Frames -/

/-- What is written into a stream. -/
inductive Frame where
  | data (text : List Char)
  | comment (text : List Char)
  deriving DecidableEq, Repr

namespace Frame

/-- The line of a frame. -/
def line : Frame → List Char
  | data text => "data: ".toList ++ text
  | comment text => ": ".toList ++ text

/-- A frame is its line, and an empty one. -/
def text (f : Frame) : List Char := f.line ++ ['\n', '\n']

/-- The text that a frame carries. -/
def body : Frame → List Char
  | data text => text
  | comment text => text

/-- The data of a frame, if it has any. -/
def data? : Frame → Option (List Char)
  | data text => some text
  | comment _ => none

theorem oneLine_line {f : Frame} (h : OneLine f.body) : OneLine f.line := by
  have hprefix : OneLine ("data: ".toList ++ ": ".toList) := by decide
  intro c hc
  cases f with
  | data text =>
    rcases List.mem_append.mp hc with hname | hbody
    · exact hprefix c (List.mem_append_left _ hname)
    · exact h c hbody
  | comment text =>
    rcases List.mem_append.mp hc with hname | hbody
    · exact hprefix c (List.mem_append_right _ hname)
    · exact h c hbody

end Frame

/-- The event of a data frame. -/
def messageOf (data : List Char) : Event := ⟨"message".toList, data, []⟩

/-- A frame without line breaks inside is its line, and an empty one. -/
theorem lines_frame {f : Frame} (h : OneLine f.body) (rest : List Char) :
    lines [] (f.text ++ rest) = f.line :: [] :: lines [] rest := by
  have hempty : OneLine [] := fun c hc => absurd hc List.not_mem_nil
  have hnext := lines_append_newline hempty [] rest
  rw [List.nil_append] at hnext
  rw [Frame.text, List.append_assoc, List.cons_append, List.cons_append, List.nil_append,
    lines_append_newline (Frame.oneLine_line h), List.nil_append, hnext]
  rfl

/-- A data frame is one event, a comment none, and nothing is left in the buffers. -/
theorem readLines_frame (f : Frame) (rest : List (List Char)) :
    readLines .empty (f.line :: [] :: rest) =
      (f.data?.map messageOf).toList ++ readLines .empty rest := by
  cases f with
  | data text =>
    have hline : readLine .empty (Frame.data text).line = ([], ⟨text ++ ['\n'], [], []⟩) := rfl
    have hmessage : messageOf text = ⟨"message".toList, text, []⟩ := rfl
    have hdispatch : dispatch ⟨text ++ ['\n'], [], []⟩ = [messageOf text] := by
      simp [dispatch, hmessage]
    rw [readLines, hline, readLines, readLine, hdispatch]
    rfl
  | comment text => rfl

/-- **The events of a sequence of frames** without line breaks inside: the data of each data frame, in
order. -/
theorem parse_frames {frames : List Frame} (h : ∀ f ∈ frames, OneLine f.body) :
    parse (frames.flatMap Frame.text) = (frames.filterMap Frame.data?).map messageOf := by
  have hlines : ∀ frames : List Frame, (∀ f ∈ frames, OneLine f.body) →
      readLines .empty (lines [] (frames.flatMap Frame.text)) =
        (frames.filterMap Frame.data?).map messageOf := by
    intro frames h
    induction frames with
    | nil => rfl
    | cons f frames ih =>
      rw [List.flatMap_cons, lines_frame (h f List.mem_cons_self), readLines_frame,
        ih fun g hg => h g (List.mem_cons_of_mem _ hg), List.filterMap_cons]
      cases f.data? <;> rfl
  have hfirst : skipMark (frames.flatMap Frame.text) = frames.flatMap Frame.text := by
    cases frames with
    | nil => rfl
    | cons f frames =>
      cases f <;> rfl
  rw [parse, hfirst, hlines frames h]

end EventStream
