import A2ZCore.Core.IsoFormat
import A2ZCore.Invoicing.Rendering

/-!
# Texts in an invoice's documents

The names, notes and terms of an invoice are put into the HTML body of its email and into the paragraphs
of its PDF as they are. The cells of the tables are drawn as text, but a paragraph is parsed as markup,
which fails where it is malformed, and has its white space collapsed.

What the parser makes of a text is a parameter. A `<` begins a tag where a letter, a `/`, a `!` or a `?`
follows, and a `&` a reference where a letter or a `#` follows; before anything else they stand for
themselves. Which references a parser knows, and what it makes of one that it does not know, is its own
affair.

## Main definitions

* `htmlTags` — the tags of an HTML text
* `OpensTag`, `Unsettled`, `WellSpaced` — what in a text the parser may take for more than characters
* `Markup` — the parser of a paragraph
* `paragraphs`, `renderParagraphs` — what is handed to it, and what it makes of that
* `SameButText` — two invoices, with the settings of their orgs, that differ in free text only
* `TextOnly` — the tags are the same, and each paragraph renders its own characters
* `PlainText` — no text opens a tag, and each is spaced as the parser leaves it

## Main results

* `textOnly_iff` — when the documents treat data as text
-/

namespace A2ZCore.Invoicing

open A2ZCore.Core (OrgSettings)

/-! ### The tags of an HTML text -/

/-- Where a reader of HTML is. -/
inductive HtmlState where
  | data
  /-- After a `<`. -/
  | opened
  /-- In a tag, which has been read so far. -/
  | tag (text : List Char)
  deriving DecidableEq

/-- A character that opens a tag, after a `<`. -/
def opensTag (c : Char) : Bool := c.isAlpha || c == '/' || c == '!' || c == '?'

/-- Where the reader is after a character. -/
def HtmlState.next : HtmlState → Char → HtmlState
  | data, c => if c = '<' then opened else data
  | opened, c => if opensTag c then tag [c] else if c = '<' then opened else data
  | tag text, c => if c = '>' then data else tag (c :: text)

/-- The tag that a character closes. -/
def HtmlState.closed : HtmlState → Char → List String
  | tag text, '>' => [String.ofList text.reverse]
  | _, _ => []

/-- The tags of a text, from a state of the reader on. -/
def htmlTags (state : HtmlState) : List Char → List String
  | [] => []
  | c :: cs => state.closed c ++ htmlTags (state.next c) cs

theorem htmlTags_append (state : HtmlState) (xs ys : List Char) :
    htmlTags state (xs ++ ys) = htmlTags state xs ++ htmlTags (xs.foldl HtmlState.next state) ys := by
  induction xs generalizing state with
  | nil => rfl
  | cons c cs ih =>
    rw [List.cons_append, htmlTags, htmlTags, ih, List.append_assoc]
    rfl

/-- Two characters follow one on the other. -/
def hasPair (p : Char → Char → Bool) : List Char → Bool
  | a :: b :: cs => p a b || hasPair p (b :: cs)
  | _ => false

/-- The text opens a tag. -/
def OpensTag (text : String) : Prop := hasPair (fun a b => a == '<' && opensTag b) text.toList

instance (text : String) : Decidable (OpensTag text) := inferInstanceAs (Decidable (_ = true))

/-- A text that opens no tag is passed over, up to a character that opens none either. -/
theorem htmlTags_append_of_not_opens {text : List Char} {c : Char} (hc : opensTag c = false)
    (hc' : c ≠ '<') (rest : List Char) {state : HtmlState}
    (hstate : state = .data ∨ state = .opened ∧ (text.head?.all fun d => !opensTag d))
    (h : hasPair (fun a b => a == '<' && opensTag b) text = false) :
    htmlTags state (text ++ c :: rest) = htmlTags .data rest := by
  induction text generalizing state with
  | nil =>
    rcases hstate with rfl | ⟨rfl, -⟩ <;>
      simp [htmlTags, HtmlState.next, HtmlState.closed, hc, hc']
  | cons d text ih =>
    have hrest : hasPair (fun a b => a == '<' && opensTag b) text = false := by
      cases text with
      | nil => rfl
      | cons e text => exact (Bool.or_eq_false_iff.mp h).2
    -- what follows a `<` does not open a tag
    have hfollows : d = '<' → (text.head?.all fun e => !opensTag e) := by
      rintro rfl
      cases text with
      | nil => rfl
      | cons e text => simpa [hasPair] using (Bool.or_eq_false_iff.mp h).1
    have hclosed : state.closed d = [] := by
      rcases hstate with rfl | ⟨rfl, -⟩ <;> rfl
    have hnext : state.next d = if d = '<' then .opened else .data := by
      rcases hstate with rfl | ⟨rfl, hhead⟩
      · rfl
      · have hplain : opensTag d = false := by simpa using hhead
        simp [HtmlState.next, hplain]
    rw [List.cons_append, htmlTags, hclosed, List.nil_append, hnext]
    refine ih ?_ hrest
    by_cases hd : d = '<'
    · exact .inr ⟨if_pos hd, hfollows hd⟩
    · exact .inl (if_neg hd)

/-! ### The paragraphs of the document -/

/-- A character at which a line can be broken. -/
def isBreaking (c : Char) : Bool := pyIsSpace c && c != '\xa0'

/-- Single blanks stand between words, from a place where a blank came before or not. -/
def spaced (afterBlank : Bool) : List Char → Bool
  | [] => !afterBlank
  | c :: cs => if isBreaking c then c == ' ' && !afterBlank && spaced true cs else spaced false cs

/-- The text is words with single blanks between them. -/
def WellSpaced (text : String) : Prop := text = "" ∨ spaced true text.toList

instance (text : String) : Decidable (WellSpaced text) := inferInstanceAs (Decidable (_ ∨ _))

/-- The text opens a reference, or has a space without width in it: what becomes of it is for the parser
to say. -/
def Unsettled (text : String) : Prop :=
  hasPair (fun a b => a == '&' && (b.isAlpha || b == '#')) text.toList ∨ '\u200b' ∈ text.toList

instance (text : String) : Decidable (Unsettled text) := inferInstanceAs (Decidable (_ ∨ _))

/-- The parser of `Paragraph`: the characters that a text renders, unless the text is malformed. -/
structure Markup where
  render : String → Option String
  /-- A tag is not rendered as it is written. -/
  render_of_opensTag : ∀ text, OpensTag text → render text ≠ some text
  /-- Character data renders itself, but for the white space. -/
  render_of_data : ∀ text, ¬OpensTag text → ¬Unsettled text →
    (render text = some text ↔ WellSpaced text)

/-- The texts that are handed to `Paragraph`, in order. -/
def paragraphs (elements : List Flowable) : List String :=
  elements.filterMap fun
    | .paragraph text _ => some text
    | _ => none

/-- What the paragraphs render. A text that is malformed raises, and so does `render_invoice_pdf`. -/
def renderParagraphs (markup : Markup) (elements : List Flowable) : Except PyErr (List String) :=
  (paragraphs elements).mapM fun text => match markup.render text with
    | some rendered => .ok rendered
    | none => .error ⟨.exception "ValueError", "paraparser: syntax error: " ++ text⟩

/-! ### Data as text -/

/-- Two invoices, with the settings of their orgs, that differ in their free text only. -/
structure SameButText (invoice invoice' : Invoice) (settings settings' : OrgSettings) : Prop where
  invoice : invoice' = { invoice with
    customerName := invoice'.customerName
    customerCompany := invoice'.customerCompany
    customerEmail := invoice'.customerEmail
    notes := invoice'.notes
    paymentTerms := invoice'.paymentTerms }
  settings : settings' = { settings with senderName := settings'.senderName }

/-- Every paragraph is well-formed markup that renders its own characters. -/
def Faithful (markup : Markup) (invoice : Invoice) (settings : OrgSettings) : Prop :=
  ∀ lineItems, renderParagraphs markup (invoiceElements invoice lineItems settings) =
    .ok (paragraphs (invoiceElements invoice lineItems settings))

/-- The documents treat the data of both as text. -/
structure TextOnly (markup : Markup) (invoice invoice' : Invoice) (settings settings' : OrgSettings) :
    Prop where
  tags : htmlTags .data (renderInvoiceEmailHtml invoice settings).toList =
    htmlTags .data (renderInvoiceEmailHtml invoice' settings').toList
  left : Faithful markup invoice settings
  right : Faithful markup invoice' settings'

/-- The texts that the documents show, some after a heading. -/
def texts (invoice : Invoice) (settings : OrgSettings) : List String :=
  [senderName invoice settings, "Invoice " ++ invoice.invoiceNumber, invoice.customerName,
      invoice.customerEmail] ++
    (truthy invoice.customerCompany).toList ++
      (truthy invoice.paymentTerms).toList.map (fun t => "Terms: " ++ t) ++
        (truthy invoice.notes).toList

/-- The text opens no tag, and has single blanks between its words; or it is one that the parser has to
settle, and the parser leaves it. -/
def IsPlain (markup : Markup) (text : String) : Prop :=
  ¬OpensTag text ∧ if Unsettled text then markup.render text = some text else WellSpaced text

/-- Each text is plain. -/
def PlainText (markup : Markup) (invoice : Invoice) (settings : OrgSettings) : Prop :=
  ∀ text ∈ texts invoice settings, IsPlain markup text

/-! ### What the paragraphs render -/

section Paragraphs

variable {markup : Markup}

/-- A text renders itself exactly where it is plain. -/
theorem render_eq_iff (text : String) : markup.render text = some text ↔ IsPlain markup text := by
  unfold IsPlain
  by_cases htag : OpensTag text
  · exact iff_of_false (markup.render_of_opensTag text htag) fun h => h.1 htag
  · rw [and_iff_right htag]
    split
    · exact Iff.rfl
    · next hsettled => exact markup.render_of_data text htag hsettled

/-- A text of ordinary characters is a word. -/
theorem spaced_of_forall {l : List Char} (hl : l ≠ []) (h : ∀ c ∈ l, isBreaking c = false)
    (afterBlank : Bool) : spaced afterBlank l = true := by
  induction l generalizing afterBlank with
  | nil => exact absurd rfl hl
  | cons c l ih =>
    obtain ⟨hc, hrest⟩ := List.forall_mem_cons.mp h
    rw [spaced, if_neg (by simp [hc])]
    cases l with
    | nil => rfl
    | cons d l => exact ih (List.cons_ne_nil _ _) hrest false

/-- A text without a `<` opens no tag, and one without a `&` no reference. -/
theorem hasPair_eq_false {p : Char → Char → Bool} {l : List Char} (h : ∀ a ∈ l, ∀ b, p a b = false) :
    hasPair p l = false := by
  induction l with
  | nil => rfl
  | cons a l ih =>
    cases l with
    | nil => rfl
    | cons b l =>
      rw [hasPair, h a List.mem_cons_self, Bool.false_or]
      exact ih fun c hc => h c (List.mem_cons_of_mem _ hc)

/-- The characters of a heading with a date. -/
def isDatedChar (c : Char) : Bool := c.isAlphanum || c == ':' || c == '-' || c == ' '

theorem isPlain_of_dated {text : String} (hchars : text.toList.all isDatedChar)
    (hspaced : spaced true text.toList = true) : IsPlain markup text := by
  have hnot : ∀ c, isDatedChar c = false → c ∉ text.toList := by
    intro c hc hmem
    rw [List.all_eq_true.mp hchars c hmem] at hc
    cases hc
  have hopens : ∀ (c : Char) (next : Char → Bool), isDatedChar c = false →
      hasPair (fun a b => a == c && next b) text.toList = false := by
    intro c next hc
    refine hasPair_eq_false fun a ha b => ?_
    have hne : a ≠ c := fun h => hnot c hc (h ▸ ha)
    simp [hne]
  have htag : ¬OpensTag text := by
    rw [OpensTag, hopens '<' opensTag (by decide)]
    exact Bool.false_ne_true
  have hsettled : ¬Unsettled text := by
    rw [Unsettled, hopens '&' _ (by decide), not_or]
    exact ⟨Bool.false_ne_true, hnot _ (by decide)⟩
  refine ⟨htag, ?_⟩
  rw [if_neg hsettled]
  exact .inr hspaced

/-- A word, and a blank after it. -/
theorem spaced_word_append {word : List Char} (hword : word ≠ [])
    (h : ∀ c ∈ word, isBreaking c = false) (afterBlank : Bool) (rest : List Char) :
    spaced afterBlank (word ++ ' ' :: rest) = spaced true rest := by
  induction word generalizing afterBlank with
  | nil => exact absurd rfl hword
  | cons c word ih =>
    obtain ⟨hc, hrest⟩ := List.forall_mem_cons.mp h
    rw [List.cons_append, spaced, if_neg (by simp [hc])]
    cases word with
    | nil => rfl
    | cons d word => exact ih (List.cons_ne_nil _ _) hrest false

theorem mapM_eq_ok_iff {f : String → Except PyErr String} {l : List String} :
    l.mapM f = .ok l ↔ ∀ text ∈ l, f text = .ok text := by
  induction l with
  | nil => exact iff_of_true rfl nofun
  | cons text l ih =>
    rw [List.mapM_cons, List.forall_mem_cons, ← ih]
    constructor
    · intro h
      obtain ⟨rendered, htext, h⟩ := bind_eq_ok.mp h
      obtain ⟨rest, hrest, h⟩ := bind_eq_ok.mp h
      obtain ⟨rfl, rfl⟩ := List.cons.inj (Except.ok.inj h)
      exact ⟨htext, hrest⟩
    · rintro ⟨htext, hrest⟩
      rw [htext, hrest]
      rfl

theorem renderParagraphs_eq_iff (elements : List Flowable) :
    renderParagraphs markup elements = .ok (paragraphs elements) ↔
      ∀ text ∈ paragraphs elements, IsPlain markup text := by
  refine mapM_eq_ok_iff.trans (forall₂_congr fun text _ => ?_)
  rw [← @render_eq_iff markup]
  cases markup.render text with
  | none => exact ⟨nofun, nofun⟩
  | some rendered => exact ⟨fun h => congrArg some (Except.ok.inj h),
      fun h => congrArg Except.ok (Option.some.inj h)⟩

theorem isDatedChar_of_mem_isoformat {d : Date} {c : Char} (hc : c ∈ d.isoformat.toList) :
    isDatedChar c = true ∧ isBreaking c = false := by
  have hdigit : ∀ {c : Char}, c.isDigit = true → isDatedChar c = true ∧ isBreaking c = false := by
    intro c hc
    have hspace := pyIsSpace_of_isDigit hc
    simp [isDatedChar, isBreaking, Char.isAlphanum, hc, hspace]
  simp only [Date.isoformat, String.toList_append, List.mem_append] at hc
  rcases hc with (((hyear | hdash) | hmonth) | hdash) | hday
  · exact hdigit (isDigit_of_mem_zeroPad hyear)
  · rw [List.mem_singleton.mp hdash]
    decide
  · exact hdigit (isDigit_of_mem_zeroPad hmonth)
  · rw [List.mem_singleton.mp hdash]
    decide
  · exact hdigit (isDigit_of_mem_zeroPad hday)

/-- A heading of two words with a date is plain. -/
theorem isPlain_dated (first second : List Char) (d : Date)
    (hfirst : first.all fun c => isDatedChar c && !isBreaking c)
    (hsecond : second.all fun c => isDatedChar c && !isBreaking c)
    (hne : first ≠ []) (hne' : second ≠ []) :
    IsPlain markup (String.ofList (first ++ ' ' :: (second ++ [' '])) ++ d.isoformat) := by
  have hlist : (String.ofList (first ++ ' ' :: (second ++ [' '])) ++ d.isoformat).toList =
      first ++ ' ' :: (second ++ ' ' :: d.isoformat.toList) := by
    simp
  have hdate : d.isoformat.toList ≠ [] := by simp [Date.isoformat]
  have hwords : ∀ {word : List Char}, (word.all fun c => isDatedChar c && !isBreaking c) →
      ∀ c ∈ word, isDatedChar c = true ∧ isBreaking c = false := by
    intro word hword c hc
    simpa using List.all_eq_true.mp hword c hc
  refine isPlain_of_dated (List.all_eq_true.mpr fun c hc => ?_) ?_
  · rw [hlist] at hc
    simp only [List.mem_append, List.mem_cons] at hc
    rcases hc with hc | rfl | hc | rfl | hc
    · exact (hwords hfirst c hc).1
    · decide
    · exact (hwords hsecond c hc).1
    · decide
    · exact (isDatedChar_of_mem_isoformat hc).1
  · rw [hlist, spaced_word_append hne fun c hc => (hwords hfirst c hc).2,
      spaced_word_append hne' fun c hc => (hwords hsecond c hc).2]
    exact spaced_of_forall hdate (fun c hc => (isDatedChar_of_mem_isoformat hc).2) true

/-- The texts of the paragraphs are those of the invoice, with dates and headings. -/
theorem paragraphs_plain_iff (invoice : Invoice) (lineItems : List InvoiceLineItem)
    (settings : OrgSettings) :
    (∀ text ∈ paragraphs (invoiceElements invoice lineItems settings), IsPlain markup text) ↔
      PlainText markup invoice settings := by
  have hinvoiceDate : ∀ d : Date, IsPlain markup ("Invoice date: " ++ d.isoformat) := fun d =>
    isPlain_dated "Invoice".toList "date:".toList d (by decide +kernel) (by decide +kernel)
      (by decide) (by decide)
  have hdueDate : ∀ d : Date, IsPlain markup ("Due date: " ++ d.isoformat) := fun d =>
    isPlain_dated "Due".toList "date:".toList d (by decide +kernel) (by decide +kernel)
      (by decide) (by decide)
  have hbillTo : IsPlain markup "Bill to:" := isPlain_of_dated (by decide +kernel) (by decide +kernel)
  have hnotes : IsPlain markup "Notes" := isPlain_of_dated (by decide +kernel) (by decide +kernel)
  unfold PlainText texts invoiceElements paragraphs
  cases invoice.dueDate <;> cases truthy invoice.customerCompany <;>
    cases truthy invoice.paymentTerms <;> cases truthy invoice.notes <;>
    simp [hinvoiceDate, hdueDate, hbillTo, hnotes] <;> tauto

theorem faithful_iff (invoice : Invoice) (settings : OrgSettings) :
    Faithful markup invoice settings ↔ PlainText markup invoice settings := by
  unfold Faithful
  simp only [renderParagraphs_eq_iff, paragraphs_plain_iff]
  exact ⟨fun h => h [], fun h _ => h⟩

end Paragraphs

/-! ### The tags of the email -/

/-- The body, from what follows the name of the sender on. -/
def afterSender (invoice : Invoice) : String :=
  "has sent you invoice <strong>" ++ invoice.invoiceNumber ++ "</strong> for <strong>" ++
    money invoice.totalCents invoice.currencyCode ++ "</strong>.</p>" ++
    (match invoice.dueDate with
      | none => ""
      | some d => "<p>Due date: " ++ d.isoformat ++ "</p>") ++
    "<p>The invoice PDF is attached to this email.</p><p>Thank you for your business.</p>"

/-- Where the names open no tag, the tags are those around them. -/
theorem htmlTags_renderInvoiceEmailHtml {markup : Markup} {invoice : Invoice} {settings : OrgSettings}
    (h : PlainText markup invoice settings) :
    htmlTags .data (renderInvoiceEmailHtml invoice settings).toList =
      "p" :: "/p" :: "p" :: htmlTags .data (afterSender invoice).toList := by
  have hname : ¬OpensTag invoice.customerName := (h invoice.customerName (by simp [texts])).1
  have hsender : ¬OpensTag (senderName invoice settings) :=
    (h (senderName invoice settings) (by simp [texts])).1
  have hbody : renderInvoiceEmailHtml invoice settings =
      "<p>Hi " ++ (invoice.customerName ++ ("," ++ ("</p><p>" ++
        (senderName invoice settings ++ (" " ++ afterSender invoice))))) := by
    unfold renderInvoiceEmailHtml afterSender
    cases invoice.dueDate <;> simp [← String.append_assoc]
  have hgreeting : htmlTags .data "<p>Hi ".toList = ["p"] ∧
      "<p>Hi ".toList.foldl HtmlState.next .data = .data := by decide +kernel
  have hbetween : htmlTags .data "</p><p>".toList = ["/p", "p"] ∧
      "</p><p>".toList.foldl HtmlState.next .data = .data := by decide +kernel
  have hpassed : ∀ {text : String} {c : Char}, ¬OpensTag text → opensTag c = false → c ≠ '<' →
      ∀ rest, htmlTags .data (text.toList ++ c :: rest) = htmlTags .data rest := by
    intro text c htext hc hc' rest
    exact htmlTags_append_of_not_opens hc hc' rest (.inl rfl) (Bool.eq_false_iff.mpr htext)
  have hcomma : ",".toList = [','] := rfl
  have hblank : " ".toList = [' '] := rfl
  simp only [hbody, String.toList_append, hcomma, hblank, List.singleton_append]
  rw [htmlTags_append, hgreeting.1, hgreeting.2, hpassed hname (by decide) (by decide), htmlTags_append,
    hbetween.1, hbetween.2, hpassed hsender (by decide) (by decide)]
  rfl

/-- **When the documents treat data as text.** Two invoices that differ in free text only have emails with
the same tags and paragraphs that render their own characters, so that neither document can fail for its
text, exactly where no text that is shown opens a tag, and each has single blanks between its words, or
is one that the parser settles, and leaves. -/
theorem textOnly_iff (markup : Markup) {invoice invoice' : Invoice} {settings settings' : OrgSettings}
    (h : SameButText invoice invoice' settings settings') :
    TextOnly markup invoice invoice' settings settings' ↔
      PlainText markup invoice settings ∧ PlainText markup invoice' settings' := by
  constructor
  · intro htext
    exact ⟨(faithful_iff invoice settings).mp htext.left, (faithful_iff invoice' settings').mp htext.right⟩
  · rintro ⟨hplain, hplain'⟩
    have hafter : afterSender invoice' = afterSender invoice := by
      rw [h.invoice]
      rfl
    refine ⟨?_, (faithful_iff invoice settings).mpr hplain, (faithful_iff invoice' settings').mpr hplain'⟩
    rw [htmlTags_renderInvoiceEmailHtml hplain, htmlTags_renderInvoiceEmailHtml hplain', hafter]

/-! ### A name in bold -/

/-- A parser that takes character data only, whose blanks need no collapsing. -/
def plainMarkup : Markup where
  render text := if OpensTag text ∨ ¬WellSpaced text then none else some text
  render_of_opensTag _ htag h := by
    rw [if_pos (.inl htag)] at h
    cases h
  render_of_data text htag _ := by
    by_cases hspaced : WellSpaced text <;> simp [htag, hspaced]

/-- An invoice to a customer. -/
def invoiceTo (customerName : String) : Invoice where
  id := "i1"
  orgId := "org"
  invoiceNumber := "INV-0001"
  status := .draft
  customerEmail := "kim@example.com"
  customerName := customerName
  customerCompany := none
  invoiceDate := ⟨2026, 1, 1⟩
  dueDate := none
  paymentTerms := none
  subtotalCents := 100
  taxCents := 0
  discountCents := 0
  totalCents := 100
  amountPaidCents := 0
  paymentStatus := .unpaid
  currencyCode := "USD"
  notes := none
  pdfS3Key := none
  isDeleted := false
  createdBy := "ada"
  createdAt := ⟨⟨2026, 1, 1⟩, 0, 0, 0, 0⟩

/-- The settings of an org with a name. -/
def acmeSettings : OrgSettings :=
  ⟨"org", "UTC", "USD", "en_US", "", "INV", 2, "free", "Acme", []⟩

theorem sameButText_names (customerName customerName' : String) :
    SameButText (invoiceTo customerName) (invoiceTo customerName') acmeSettings acmeSettings :=
  ⟨rfl, rfl⟩

instance (text : String) : Decidable (IsPlain plainMarkup text) :=
  inferInstanceAs (Decidable (_ ∧ if Unsettled text then plainMarkup.render text = some text
    else WellSpaced text))

/-- Two plain names, one with a `<` and a `&` that stand for themselves. -/
theorem textOnly_plain :
    TextOnly plainMarkup (invoiceTo "Kim") (invoiceTo "Lee < Kim & Co") acmeSettings acmeSettings := by
  refine (textOnly_iff plainMarkup (sameButText_names "Kim" "Lee < Kim & Co")).mpr ⟨?_, ?_⟩
  · show ∀ text ∈ ["Acme", "Invoice INV-0001", "Kim", "kim@example.com"], IsPlain plainMarkup text
    decide +kernel
  · show ∀ text ∈ ["Acme", "Invoice INV-0001", "Lee < Kim & Co", "kim@example.com"],
      IsPlain plainMarkup text
    decide +kernel

/-- A name that opens a tag and does not close it. -/
theorem not_textOnly : ¬∀ (markup : Markup) (invoice invoice' : Invoice)
    (settings settings' : OrgSettings), SameButText invoice invoice' settings settings' →
      TextOnly markup invoice invoice' settings settings' := by
  intro h
  have htext := h plainMarkup _ _ _ _ (sameButText_names "Kim" "<b>Kim")
  have hraised : renderParagraphs plainMarkup (invoiceElements (invoiceTo "<b>Kim") [] acmeSettings) =
      .error ⟨.exception "ValueError", "paraparser: syntax error: <b>Kim"⟩ := by
    decide +kernel
  rw [htext.right []] at hraised
  cases hraised

end A2ZCore.Invoicing
