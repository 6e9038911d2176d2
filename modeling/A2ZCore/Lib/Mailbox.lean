import Mathlib

/-!
# Mailboxes

The mailbox of a mail header, as the grammar of mail headers has it: an address by itself, or in angle
brackets behind a display name. Blanks, folded lines and comments, which nest, may stand around each
part of an address and between the words of a name; the local part may be a quoted string, and the domain
a literal in brackets or a single label. An address is told apart from the ways to write it.

## Main definitions

* `Cfws` — blanks, folded lines and comments
* `LocalPart`, `Domain`, `Phrase` — how a local part, a domain and a display name are written
* `Mailbox`, `Mailbox.text`, `Mailbox.address` — a mailbox, how it is written, and the address

## Main results

* `Mailbox.text_eq` — what is written before the `@` of the address, and after it
* `Mailbox.endsInline_text` — a mailbox does not end in a line break
-/

namespace MailGrammar

/-! ### Characters -/

/-- A blank or a tab. -/
def IsBlank (c : Char) : Prop := c = ' ' ∨ c = '\t'

/-- A printable character of ASCII other than the blank. -/
def IsVisible (c : Char) : Prop := '!' ≤ c ∧ c ≤ '~'

/-- The characters of an atom that are neither letters nor digits. -/
def atomSpecials : List Char :=
  ['!', '#', '$', '%', '&', '\'', '*', '+', '-', '/', '=', '?', '^', '_', '\x60', '\x7b', '|', '\x7d', '~']

/-- A character of an atom. -/
def IsAtomChar (c : Char) : Prop := c.isAlphanum ∨ c ∈ atomSpecials

instance : DecidablePred IsAtomChar := fun _ => inferInstanceAs (Decidable (_ ∨ _))

/-! ### Blanks and comments -/

/-- A comment, after the parenthesis that opens it. -/
inductive CommentBody : List Char → Prop where
  | close : CommentBody [')']
  | text {c : Char} {l : List Char} (hc : IsVisible c) (hspecial : c ∉ ['(', ')', '\\'])
    (hl : CommentBody l) : CommentBody (c :: l)
  | blank {c : Char} {l : List Char} (hc : IsBlank c) (hl : CommentBody l) : CommentBody (c :: l)
  | fold {c : Char} {l : List Char} (hc : IsBlank c) (hl : CommentBody l) :
    CommentBody ('\r' :: '\n' :: c :: l)
  | escape {c : Char} {l : List Char} (hc : IsVisible c ∨ IsBlank c) (hl : CommentBody l) :
    CommentBody ('\\' :: c :: l)
  | comment {inner l : List Char} (hinner : CommentBody inner) (hl : CommentBody l) :
    CommentBody ('(' :: (inner ++ l))

/-- Any number of blanks, folded lines and comments. -/
inductive Cfws : List Char → Prop where
  | nil : Cfws []
  | blank {c : Char} {l : List Char} (hc : IsBlank c) (hl : Cfws l) : Cfws (c :: l)
  | fold {c : Char} {l : List Char} (hc : IsBlank c) (hl : Cfws l) : Cfws ('\r' :: '\n' :: c :: l)
  | comment {inner l : List Char} (hinner : CommentBody inner) (hl : Cfws l) :
    Cfws ('(' :: (inner ++ l))

/-! ### Words -/

/-- One character of an atom after the other. -/
def Atom (l : List Char) : Prop := l ≠ [] ∧ ∀ c ∈ l, IsAtomChar c

instance : DecidablePred Atom := fun l =>
  decidable_of_iff (l ≠ [] ∧ l.all fun c => decide (IsAtomChar c)) (by simp [Atom])

/-- Atoms with dots between them. -/
inductive DotAtom : List Char → Prop where
  | atom {l : List Char} (hl : Atom l) : DotAtom l
  | dot {l rest : List Char} (hl : Atom l) (hrest : DotAtom rest) : DotAtom (l ++ '.' :: rest)

/-- A quoted string, after the quote that opens it, and what is quoted. -/
inductive QuotedBody : List Char → List Char → Prop where
  | close : QuotedBody ['"'] []
  | text {c : Char} {l value : List Char} (hc : IsVisible c ∨ IsBlank c) (hspecial : c ∉ ['"', '\\'])
    (hl : QuotedBody l value) : QuotedBody (c :: l) (c :: value)
  | fold {c : Char} {l value : List Char} (hc : IsBlank c) (hl : QuotedBody l value) :
    QuotedBody ('\r' :: '\n' :: c :: l) (c :: value)
  | escape {c : Char} {l value : List Char} (hc : IsVisible c ∨ IsBlank c) (hl : QuotedBody l value) :
    QuotedBody ('\\' :: c :: l) (c :: value)

/-- A word of a display name. -/
inductive Word : List Char → Prop where
  | atom {l : List Char} (hl : Atom l) : Word l
  | quoted {l value : List Char} (hl : QuotedBody l value) : Word ('"' :: l)

/-- Words, with blanks and comments around each, and dots behind any of them. -/
inductive Phrase : List Char → Prop where
  | word {before l after : List Char} (hbefore : Cfws before) (hl : Word l) (hafter : Cfws after) :
    Phrase (before ++ l ++ after)
  | append {l l' : List Char} (hl : Phrase l) (hl' : Phrase l') : Phrase (l ++ l')
  | dot {l after : List Char} (hl : Phrase l) (hafter : Cfws after) : Phrase (l ++ '.' :: after)

/-! ### Addresses -/

/-- How a local part is written, and what it is. -/
inductive LocalPart : List Char → List Char → Prop where
  | dotAtom {before l after : List Char} (hbefore : Cfws before) (hl : DotAtom l)
    (hafter : Cfws after) : LocalPart (before ++ l ++ after) l
  | quoted {before l value after : List Char} (hbefore : Cfws before) (hl : QuotedBody l value)
    (hafter : Cfws after) : LocalPart (before ++ ('"' :: l) ++ after) value

/-- How a domain is written, and what it is: letters in either case name the same domain. -/
inductive Domain : List Char → List Char → Prop where
  | dotAtom {before l after : List Char} (hbefore : Cfws before) (hl : DotAtom l)
    (hafter : Cfws after) : Domain (before ++ l ++ after) (l.map Char.toLower)
  | literal {before l after : List Char} (hbefore : Cfws before)
    (hl : ∀ c ∈ l, IsVisible c ∧ c ∉ ['[', ']', '\\']) (hafter : Cfws after) :
    Domain (before ++ ('[' :: (l ++ [']'])) ++ after) ('[' :: (l.map Char.toLower ++ [']']))

/-- An address as it is written, and its local part and domain. -/
structure AddrSpec where
  localText : List Char
  localPart : List Char
  domainText : List Char
  domain : List Char
  isLocalPart : LocalPart localText localPart
  isDomain : Domain domainText domain

/-- A mailbox. Before the bracket there is a display name, or only blanks and comments. -/
inductive Mailbox where
  | bare (address : AddrSpec)
  | bracketed (name : List Char) (isName : Phrase name ∨ Cfws name) (address : AddrSpec)
    (after : List Char) (isAfter : Cfws after)

namespace Mailbox

/-- What is written before the `@` of the address. -/
def front : Mailbox → List Char
  | bare address => address.localText
  | bracketed name _ address _ _ => name ++ '<' :: address.localText

/-- What is written after it. -/
def back : Mailbox → List Char
  | bare address => address.domainText
  | bracketed _ _ address after _ => address.domainText ++ '>' :: after

/-- How the mailbox is written. -/
def text : Mailbox → List Char
  | bare address => address.localText ++ '@' :: address.domainText
  | bracketed name _ address after _ =>
    name ++ '<' :: (address.localText ++ '@' :: (address.domainText ++ '>' :: after))

/-- The local part and the domain. -/
def address : Mailbox → List Char × List Char
  | bare address => (address.localPart, address.domain)
  | bracketed _ _ address _ _ => (address.localPart, address.domain)

theorem text_eq (m : Mailbox) : m.text = m.front ++ '@' :: m.back := by
  cases m <;> simp [text, front, back]

end Mailbox

/-! ### Where a mailbox ends -/

/-- The text does not end in a line feed. -/
def EndsInline (l : List Char) : Prop := l.getLast? ≠ some '\n'

theorem endsInline_nil : EndsInline [] := by
  simp [EndsInline]

theorem EndsInline.append {l l' : List Char} (hl : EndsInline l) (hl' : EndsInline l') :
    EndsInline (l ++ l') := by
  unfold EndsInline at *
  rw [List.getLast?_append]
  cases h : l'.getLast? with
  | none => simpa using hl
  | some c => simpa [h] using hl'

theorem EndsInline.cons {c : Char} {l : List Char} (hc : c ≠ '\n') (hl : EndsInline l) :
    EndsInline (c :: l) :=
  EndsInline.append (l := [c]) (by simpa [EndsInline] using hc) hl

theorem endsInline_of_forall {l : List Char} (h : ∀ c ∈ l, c ≠ '\n') : EndsInline l := by
  induction l with
  | nil => exact endsInline_nil
  | cons c l ih =>
    obtain ⟨hc, hl⟩ := List.forall_mem_cons.mp h
    exact (ih hl).cons hc

theorem IsVisible.ne_lineFeed {c : Char} (hc : IsVisible c) : c ≠ '\n' := by
  rintro rfl
  exact absurd hc.1 (by decide)

theorem IsBlank.ne_lineFeed {c : Char} (hc : IsBlank c) : c ≠ '\n' := by
  rcases hc with rfl | rfl <;> decide

theorem IsAtomChar.ne_lineFeed {c : Char} (hc : IsAtomChar c) : c ≠ '\n' := by
  rintro rfl
  rcases hc with halphanum | hspecial
  · exact absurd halphanum (by decide)
  · exact absurd hspecial (by decide)

theorem EndsInline.fold {c : Char} {l : List Char} (hl : EndsInline l) (hc : IsBlank c) :
    EndsInline ('\r' :: '\n' :: c :: l) := by
  have hbreak : EndsInline ['\r', '\n', c] := by simpa [EndsInline] using hc.ne_lineFeed
  exact hbreak.append hl

theorem CommentBody.endsInline {l : List Char} (h : CommentBody l) : EndsInline l := by
  induction h with
  | close => exact endsInline_nil.cons (by decide)
  | text hc _ _ ih => exact ih.cons hc.ne_lineFeed
  | blank hc _ ih => exact ih.cons hc.ne_lineFeed
  | fold hc _ ih => exact ih.fold hc
  | escape hc _ ih =>
    exact (ih.cons (hc.elim IsVisible.ne_lineFeed IsBlank.ne_lineFeed)).cons (by decide)
  | comment _ _ hinner hl => exact (hinner.append hl).cons (by decide)

theorem Cfws.endsInline {l : List Char} (h : Cfws l) : EndsInline l := by
  induction h with
  | nil => exact endsInline_nil
  | blank hc _ ih => exact ih.cons hc.ne_lineFeed
  | fold hc _ ih => exact ih.fold hc
  | comment hinner _ hl => exact (hinner.endsInline.append hl).cons (by decide)

theorem Atom.endsInline {l : List Char} (h : Atom l) : EndsInline l :=
  endsInline_of_forall fun c hc => (h.2 c hc).ne_lineFeed

theorem DotAtom.endsInline {l : List Char} (h : DotAtom l) : EndsInline l := by
  induction h with
  | atom hl => exact hl.endsInline
  | dot hl _ ih => exact hl.endsInline.append (ih.cons (by decide))

theorem DotAtom.ne_nil {l : List Char} (h : DotAtom l) : l ≠ [] := by
  cases h with
  | atom hl => exact hl.1
  | dot => simp

theorem Domain.endsInline {l value : List Char} (h : Domain l value) : EndsInline l := by
  cases h with
  | dotAtom hbefore hl hafter => exact (hbefore.endsInline.append hl.endsInline).append hafter.endsInline
  | literal hbefore hl hafter =>
    have hclosed : EndsInline [']'] := endsInline_nil.cons (by decide)
    have hliteral := (endsInline_of_forall fun c hc => (hl c hc).1.ne_lineFeed).append hclosed
    exact (hbefore.endsInline.append (hliteral.cons (by decide))).append hafter.endsInline

namespace Mailbox

/-- A mailbox does not end in a line break. -/
theorem endsInline_text (m : Mailbox) : EndsInline m.text := by
  have hback : EndsInline ('@' :: m.back) := by
    cases m with
    | bare address => exact address.isDomain.endsInline.cons (by decide)
    | bracketed name _ address after hafter =>
      exact (address.isDomain.endsInline.append (hafter.endsInline.cons (by decide))).cons (by decide)
  rw [m.text_eq]
  unfold EndsInline at *
  rw [List.getLast?_append_of_ne_nil _ (List.cons_ne_nil _ _)]
  exact hback

/-- There is something before the `@`. -/
theorem front_ne_nil (m : Mailbox) : m.front ≠ [] := by
  have hlocal : ∀ {l value}, LocalPart l value → l ≠ [] := by
    intro l value h
    cases h with
    | dotAtom hbefore hl hafter => simp [hl.ne_nil]
    | quoted => simp
  cases m with
  | bare address => exact hlocal address.isLocalPart
  | bracketed => simp [front]

end Mailbox

end MailGrammar
