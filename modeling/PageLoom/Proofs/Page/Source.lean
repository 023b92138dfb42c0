import Mathlib.Data.List.TakeWhile
import PageLoom.Page.Document
import PageLoom.Page.Source
import PageLoom.Proofs.Disk.Spelling

namespace PageLoom

/-!
# From the file of a page to its document

The name of a file says which page it is, and how its text is taken. The text then stands in a
document, as it is or put into markup.

* `extensionOf?_eq_some_iff` — the extension that stands in a name;
* `FileNamed`, `fileNamed_iff` — names with a key and an extension;
* `Path.IsNamed` — the same for the file at a path, and what it says of a page;
* `Document.text_eq` — where the content of a page stands in its document.
-/

/-! ### Names -/

/-- Up to the first dot a text has none. -/
theorem dot_not_mem_takeWhile (text : List Char) : '.' ∉ text.takeWhile (· ≠ '.') := by
  intro hmem
  simpa using List.mem_takeWhile_imp hmem

/-- Behind the text before the first dot comes the dot. -/
theorem eq_dot_of_dropWhile {text rest : List Char} {c : Char}
    (h : text.dropWhile (· ≠ '.') = c :: rest) : c = '.' := by
  have hhead := List.head?_dropWhile_not (· ≠ '.') text
  rw [h] at hhead
  simpa using hhead

/-- A name has an extension if it has a dot. The extension is what stands between the first dot and
    the second one, or the end. -/
theorem extensionOf?_eq_some_iff {name extension : String} :
    extensionOf? name = some extension ↔
      ∃ stem rest, name.toList = stem ++ '.' :: (extension.toList ++ rest) ∧ '.' ∉ stem ∧
        '.' ∉ extension.toList ∧ (rest = [] ∨ rest.head? = some '.') := by
  constructor
  · intro h
    have hsplit := List.takeWhile_append_dropWhile (p := (· ≠ '.')) (l := name.toList)
    rw [extensionOf?] at h
    cases hdrop : name.toList.dropWhile (· ≠ '.') with
    | nil =>
      rw [hdrop] at h
      cases h
    | cons c rest =>
      obtain rfl := eq_dot_of_dropWhile hdrop
      rw [hdrop] at h hsplit
      cases h
      refine ⟨name.toList.takeWhile (· ≠ '.'), rest.dropWhile (· ≠ '.'), ?_,
        dot_not_mem_takeWhile _, ?_, ?_⟩
      · rw [String.toList_ofList, List.takeWhile_append_dropWhile, hsplit]
      · rw [String.toList_ofList]
        exact dot_not_mem_takeWhile _
      · cases hmore : rest.dropWhile (· ≠ '.') with
        | nil => exact .inl rfl
        | cons d more => exact .inr (congrArg some (eq_dot_of_dropWhile hmore))
  · rintro ⟨stem, rest, hname, hstem, hextension, hrest⟩
    have hdrop : name.toList.dropWhile (· ≠ '.') = '.' :: (extension.toList ++ rest) := by
      rw [hname, List.dropWhile_append_of_pos fun c hc => by
        simpa using ne_of_mem_of_not_mem hc hstem]
      simp
    have hnone : rest.takeWhile (· ≠ '.') = [] := by
      rcases hrest with rfl | hrest
      · rfl
      · obtain ⟨more, rfl⟩ := List.head?_eq_some_iff.mp hrest
        simp
    have htake : (extension.toList ++ rest).takeWhile (· ≠ '.') = extension.toList := by
      rw [List.takeWhile_append_of_pos fun c hc => by
        simpa using ne_of_mem_of_not_mem hc hextension, hnone, List.append_nil]
    rw [extensionOf?, hdrop]
    simp only [htake, String.ofList_toList]

/-- The file name has this key and this extension: what stands before its first dot, and what stands
    from there to the next dot, or to the end. -/
def FileNamed (name key extension : String) : Prop :=
  ∃ rest, name.toList = key.toList ++ '.' :: (extension.toList ++ rest) ∧ '.' ∉ key.toList ∧
    '.' ∉ extension.toList ∧ (rest = [] ∨ rest.head? = some '.')

/-- The key is what stands before the first dot. -/
theorem FileNamed.keyOf_eq {name key extension : String} (h : FileNamed name key extension) :
    keyOf name = key := by
  obtain ⟨rest, hname, hkey, -⟩ := h
  rw [keyOf, hname, List.takeWhile_append_of_pos fun c hc => by
    simpa using ne_of_mem_of_not_mem hc hkey]
  simp

/-- **Names.** A name with a dot has just one key and one extension. -/
theorem fileNamed_iff {name key extension : String} :
    FileNamed name key extension ↔ keyOf name = key ∧ extensionOf? name = some extension := by
  constructor
  · intro h
    refine ⟨h.keyOf_eq, extensionOf?_eq_some_iff.mpr ?_⟩
    obtain ⟨rest, hname, hkey, hextension, hrest⟩ := h
    exact ⟨key.toList, rest, hname, hkey, hextension, hrest⟩
  · rintro ⟨rfl, hextension⟩
    obtain ⟨stem, rest, hname, hstem, hdot, hrest⟩ := extensionOf?_eq_some_iff.mp hextension
    have h : FileNamed name (String.ofList stem) extension := by
      refine ⟨rest, ?_, ?_, hdot, hrest⟩
      · rwa [String.toList_ofList]
      · rwa [String.toList_ofList]
    rwa [h.keyOf_eq]

/-! ### Paths -/

/-- The name of the file at the path has this key and this extension. -/
def Path.IsNamed (path : Path) (key extension : String) : Prop :=
  ∃ name, path.fileName? = some name ∧ FileNamed name key extension

/-- A path that was continued by a name leads to a file with that name. -/
theorem Path.fileName?_join (path : Path) {name : String} (h : IsName name) :
    (path.join name).fileName? = some name := by
  have hloud : ¬ (isSilent name.toList || name.toList = ['.', '.']) = true := by
    simp [isSilent, h.1, h.2.2.1, h.2.2.2]
  rw [fileName?, segments_join path h, trimSegments_append_name _ h, List.getLast?_concat]
  simp only [if_neg hloud, String.ofList_toList]

variable {path : Path} {key extension : String}

/-- The page at such a path has the key. -/
theorem Path.IsNamed.key_eq (h : path.IsNamed key extension) (output : Path) :
    (PageSource.of path output).key = key := by
  obtain ⟨name, hfile, hname⟩ := h
  simp only [PageSource.of, hfile, Option.getD_some, hname.keyOf_eq]

/-- How the text of the page is taken is told by the extension. -/
theorem Path.IsNamed.kind_eq (h : path.IsNamed key extension) (output : Path) :
    (PageSource.of path output).kind = .ofExtension (some extension) := by
  obtain ⟨name, hfile, hname⟩ := h
  simp only [PageSource.of, hfile, Option.getD_some, (fileNamed_iff.mp hname).2]

/-! ### Documents -/

/-- The text of a page in front of its content. -/
def Document.textBefore (document : Document) : String :=
  "<!DOCTYPE html>\n<html lang=\"" ++ document.lang ++ "\">\n" ++ document.fragments.head ++
    "\n<body>\n  " ++ markActive document.fragments.header document.key ++
    "\n  <div class=\"container\">\n    " ++
    if document.hasSidebar then
      "<div class=\"main\">\n    <div class=\"content-with-sidebar\">\n      "
    else "<div class=\"main\">\n      <div class=\"content-no-sidebar\">\n        "

/-- The text of a page behind its content. -/
def Document.textBehind (document : Document) : String :=
  (if document.hasSidebar then "\n    </div>" ++ document.fragments.sidebar ++ "\n  </div>"
    else "\n      </div>\n    </div>") ++
    "\n  </div>\n  " ++ document.fragments.footer ++ "\n  " ++ document.fragments.script ++
    "\n  <!-- Last updated: " ++ document.stamp ++ " -->\n</body>\n</html>\n"

/-- **Content.** The content of a page stands in it as it is. -/
theorem Document.text_eq (document : Document) :
    document.text = document.textBefore ++ (document.content ++ document.textBehind) := by
  unfold Document.text Document.textBefore Document.textBehind wrapContent
  cases document.hasSidebar
  all_goals
    simp only [if_true, Bool.false_eq_true, if_false]
    simp only [String.append_assoc]

end PageLoom
