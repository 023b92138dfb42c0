import PageLoom.Indent.Format
import PageLoom.Page.Document
import PageLoom.Proofs.Indent.Lines
import PageLoom.Proofs.Page.ActiveLink
import PageLoom.Proofs.Splice.Matches

namespace PageLoom

/-!
# Where characters come from

A document has the characters of what it is put together from and those of its frame. Marking the
link of a page and indenting add nothing but the mark, blanks and line ends.

* `mem_of_mem_splice`, `mem_of_mem_markActive` — the characters of a text with matches replaced;
* `mem_of_mem_indent` — the characters of an indented text;
* `Document.brace_not_mem_text` — documents without braces.
-/

variable {c : Char} {value text line : List Char}

/-! ### Splicing -/

/-- Pieces put together hold characters of the text and of the value. -/
theorem Pieces.mem_of_mem_fill {pieces : Pieces} (h : c ∈ pieces.fill value) :
    c ∈ value ∨ c ∈ pieces.text := by
  simp only [fill, Pieces.text, List.mem_append, List.mem_flatMap] at h ⊢
  rcases h with ⟨piece, hpiece, hgap | hvalue⟩ | htail
  · exact .inr (.inl ⟨piece, hpiece, .inl hgap⟩)
  · exact .inl hvalue
  · exact .inr (.inr htail)

/-- The pieces of a text put together make the text. -/
theorem Needle.text_pieces (needle : Needle) (text : List Char) :
    (needle.pieces [] text).text = text := by
  have htext : ([] : List Char).reverse ++ text = text := rfl
  obtain ⟨spans, hspans, hpieces⟩ := needle.pieces_eq_cut htext
  obtain ⟨hbounds, hapart⟩ := hspans.bounds (Nat.zero_le _)
  rw [hpieces]
  exact Pieces.text_cut (fun span hspan => ⟨Nat.zero_le _, (hbounds span hspan).2.1⟩) hapart

/-- A text with matches replaced holds characters of the text and of the value. -/
theorem mem_of_mem_splice {needle : Needle} (h : c ∈ splice needle value text) :
    c ∈ value ∨ c ∈ text := by
  have hfill := Pieces.mem_of_mem_fill h
  rwa [needle.text_pieces] at hfill

/-- A header with a marked link holds the header's characters and those of the mark. -/
theorem mem_of_mem_markActive {header key : String} (h : c ∈ (markActive header key).toList) :
    c ∈ header.toList ∨ c ∈ (navigationToken key ++ " " ++ activeClass).toList := by
  rw [markActive, String.toList_ofList] at h
  exact (mem_of_mem_splice h).symm

/-! ### Indenting -/

/-- An indented line holds its characters, blanks and a line end. -/
theorem mem_of_mem_indentLine {width : Nat} {state : IndentState}
    (h : c ∈ (indentLine width state line).1) : c ∈ line ∨ c = ' ' ∨ c = '\n' := by
  cases hraw : state.raw with
  | some name =>
    rw [indentLine_of_raw hraw] at h
    rcases List.mem_append.mp h with h | h
    · exact .inl h
    · exact .inr (.inr (List.mem_singleton.mp h))
  | none =>
    by_cases hblank : trim line = []
    · rw [indentLine_of_blank hraw hblank] at h
      simp only at h
      split at h
      · cases h
      · exact .inr (.inr (List.mem_singleton.mp h))
    · rw [indentLine_of_text hraw hblank] at h
      rcases List.mem_append.mp h with h | h
      · rcases List.mem_append.mp h with h | h
        · exact .inr (.inl (List.eq_of_mem_replicate h))
        · exact .inl (mem_of_mem_keptText h)
      · exact .inr (.inr (List.mem_singleton.mp h))

/-- An indented text holds its characters, blanks and line ends. -/
theorem mem_of_mem_indentLines {width : Nat} {state : IndentState} {source : List (List Char)}
    (h : c ∈ indentLines width state source) :
    (∃ line ∈ source, c ∈ line) ∨ c = ' ' ∨ c = '\n' := by
  induction source generalizing state with
  | nil => cases h
  | cons line source ih =>
    rw [indentLines_cons] at h
    rcases List.mem_append.mp h with h | h
    · exact (mem_of_mem_indentLine h).imp_left fun hline => ⟨line, List.mem_cons_self, hline⟩
    · exact (ih h).imp_left fun ⟨other, hother, hmem⟩ =>
        ⟨other, List.mem_cons_of_mem _ hother, hmem⟩

/-- **Indenting.** An indented text holds the characters of the text, blanks and line ends. -/
theorem mem_of_mem_indent {width : Nat} (h : c ∈ indent width text) :
    c ∈ text ∨ c = ' ' ∨ c = '\n' :=
  (mem_of_mem_indentLines h).imp_left fun ⟨_, hline, hmem⟩ => mem_of_mem_lines hline hmem

/-! ### Documents -/

/-- What a document is put together from holds no opening brace. -/
structure Document.BraceFree (document : Document) : Prop where
  lang : '{' ∉ document.lang.toList
  head : '{' ∉ document.fragments.head.toList
  header : '{' ∉ document.fragments.header.toList
  sidebar : '{' ∉ document.fragments.sidebar.toList
  footer : '{' ∉ document.fragments.footer.toList
  script : '{' ∉ document.fragments.script.toList
  key : '{' ∉ document.key.toList
  content : '{' ∉ document.content.toList
  stamp : '{' ∉ document.stamp.toList

/-- The container of a page's content brings no opening brace into it. -/
theorem brace_not_mem_wrapContent {content : String} {sidebar : Option String}
    (hcontent : '{' ∉ content.toList) (hsidebar : ∀ text ∈ sidebar, '{' ∉ text.toList) :
    '{' ∉ (wrapContent content sidebar).toList := by
  unfold wrapContent
  cases sidebar with
  | none =>
    simp only [String.toList_append, List.mem_append, not_or, hcontent, not_false_eq_true, and_true]
    decide
  | some sidebar =>
    simp only [String.toList_append, List.mem_append, not_or, hcontent, hsidebar sidebar rfl,
      not_false_eq_true, and_true]
    decide

/-- The mark of a page's own link brings none into the header. -/
theorem brace_not_mem_markActive {header key : String} (hheader : '{' ∉ header.toList)
    (hkey : '{' ∉ key.toList) : '{' ∉ (markActive header key).toList := by
  intro hmem
  rcases mem_of_mem_markActive hmem with hmem | hmem
  · exact hheader hmem
  · refine absurd hmem ?_
    unfold activeClass
    simp only [String.toList_append, toList_navigationToken, List.mem_append, not_or, hkey,
      not_false_eq_true, and_true]
    decide

/-- **Documents.** The frame of a document brings no opening brace into it. -/
theorem Document.brace_not_mem_text {document : Document} (h : document.BraceFree) :
    '{' ∉ document.text.toList := by
  have hmarked := brace_not_mem_markActive h.header h.key
  have hwrapped : '{' ∉ (wrapContent document.content
      (if document.hasSidebar then some document.fragments.sidebar else none)).toList := by
    refine brace_not_mem_wrapContent h.content fun text htext => ?_
    split at htext
    · cases htext
      exact h.sidebar
    · cases htext
  unfold Document.text
  simp only [String.toList_append, List.mem_append, not_or, h.lang, h.head, hmarked, hwrapped,
    h.footer, h.script, h.stamp, not_false_eq_true, and_true]
  decide

end PageLoom
