import PageLoom.Proofs.Config.TomlLine
import PageLoom.Proofs.Config.Tree

namespace PageLoom

/-!
# Sections of TOML

A document is a series of sections with different names. A section is a table with values, a table
of tables, or a table with a list of tables. Each section adds one entry to the document, behind
those before it.

* `Toml.Section`, `Toml.Section.lines`, `Toml.Section.table` — sections, how they are written, and
  the tables that they add to a document;
* `Toml.Draft.openTable?_inner`, `Toml.Draft.finish?_inner`, … — how a header goes together with
  what came before it;
* `Toml.Section.exists_reads` — what reading one section does;
* `Toml.exists_reads_notedLines` — what reading sections with notes above them does;
* `Toml.document?_sections` — documents are read as their sections were written.
-/

namespace Toml

/-! ### Entries of tables -/

namespace Table

variable {implicit dotted : Bool} {before : List (String × Entry)} {key : String} {old : Entry}

/-- A key that is not there stands for nothing. -/
theorem find?_of_not_mem (h : key ∉ before.map Prod.fst) :
    (mk implicit dotted before).find? key = none := by
  rw [find?, entries, List.lookup_eq_none_iff]
  rintro ⟨other, entry⟩ hmem
  rw [bne_iff_ne]
  rintro rfl
  exact h (List.mem_map_of_mem hmem)

/-- The last key stands for its entry, if it is not there before. -/
theorem find?_last (h : key ∉ before.map Prod.fst) :
    (mk implicit dotted (before ++ [(key, old)])).find? key = some old := by
  have hnone : before.lookup key = none := @find?_of_not_mem implicit dotted before key h
  rw [find?, entries, List.lookup_append, hnone, List.lookup_cons_self]
  rfl

/-- A key that is not there is set behind all others. -/
theorem set_of_not_mem (h : key ∉ before.map Prod.fst) (new : Entry) :
    (mk implicit dotted before).set key new = mk implicit dotted (before ++ [(key, new)]) := by
  rw [set, if_neg]
  · rfl
  · rw [List.any_eq_true]
    rintro ⟨entry, hentry, hkey⟩
    exact h (List.mem_map.mpr ⟨entry, hentry, of_decide_eq_true hkey⟩)

/-- The last key is set in its place, if it is not there before. -/
theorem set_last (h : key ∉ before.map Prod.fst) (new : Entry) :
    (mk implicit dotted (before ++ [(key, old)])).set key new =
      mk implicit dotted (before ++ [(key, new)]) := by
  have hbefore : before.map (fun e => if e.1 = key then (key, new) else e) = before := by
    refine (List.map_congr_left fun e he => if_neg ?_).trans (List.map_id before)
    rintro rfl
    exact h (List.mem_map_of_mem he)
  rw [set, if_pos (by simp [entries])]
  simp only [entries, withEntries, List.map_append, hbefore, List.map_cons, List.map_nil, if_true]
  rfl

end Table

/-! ### Headers -/

/-- A table with entries that none of its lines defined. Without entries it is not there. -/
def implicitEntry (name : String) (entries : List (String × Entry)) : List (String × Entry) :=
  if entries.isEmpty then [] else [(name, .table (.mk true false entries))]

/-- A list of tables. Without tables it is not there. -/
def listEntry (key : String) (tables : List Table) : List (String × Entry) :=
  if tables.isEmpty then [] else [(key, .tables tables)]

namespace Draft

variable {draft : Draft} {before entries : List (String × Entry)} {name key : String}

/-- A table with a new name is started behind all others. -/
theorem openTable?_new (hdone : draft.finish? = some (.mk false false before))
    (hname : name ∉ before.map Prod.fst) :
    draft.openTable? [] name = some ⟨.mk false false before, .empty, [name], false⟩ := by
  rw [openTable?, hdone]
  simp [Table.modify?, openTable?.follow?, Table.find?_of_not_mem hname]

/-- A table is put behind all others. -/
theorem finish?_table (table : Table) (hname : name ∉ before.map Prod.fst) :
    (Draft.mk (.mk false false before) table [name] false).finish? =
      some (.mk false false (before ++ [(name, .table table)])) := by
  simp [finish?, Table.modify?, Table.find?_of_not_mem hname, Table.set_of_not_mem hname]

/-- A table with a new name inside another one is started behind those inside. -/
theorem openTable?_inner
    (hdone : draft.finish? = some (.mk false false (before ++ implicitEntry name entries)))
    (hname : name ∉ before.map Prod.fst) (hkey : key ∉ entries.map Prod.fst) :
    draft.openTable? [name] key = some
      ⟨.mk false false (before ++ [(name, .table (.mk true false entries))]), .empty,
        [name, key], false⟩ := by
  have hmade : (Table.mk false false (before ++ implicitEntry name entries)).modify? false some
      [name] = some (.mk false false (before ++ [(name, .table (.mk true false entries))])) := by
    rw [implicitEntry]
    cases entries with
    | nil => simp [Table.modify?, Table.find?_of_not_mem hname, Table.set_of_not_mem hname]
    | cons entry entries => simp [Table.modify?, Table.find?_last hname, Table.set_last hname]
  rw [openTable?, hdone]
  simp [hmade, openTable?.follow?, Table.find?_last hname, Table.find?_of_not_mem hkey]

/-- A table inside another one is put behind those inside. -/
theorem finish?_inner (table : Table) (hname : name ∉ before.map Prod.fst)
    (hkey : key ∉ entries.map Prod.fst) :
    (Draft.mk (.mk false false (before ++ [(name, .table (.mk true false entries))])) table
        [name, key] false).finish? =
      some (.mk false false (before ++ implicitEntry name (entries ++ [(key, .table table)]))) := by
  simp [finish?, Table.modify?, Table.find?_last hname, Table.find?_of_not_mem hkey,
    Table.set_of_not_mem hkey, Table.set_last hname, implicitEntry]

/-- One of a list of tables is put behind those in the list. -/
theorem finish?_item (key : String) (table : Table) (tables : List Table)
    (hname : name ∉ before.map Prod.fst) :
    (Draft.mk (.mk false false (before ++ implicitEntry name (listEntry key tables))) table
        [name, key] true).finish? =
      some (.mk false false
        (before ++ implicitEntry name (listEntry key (tables ++ [table])))) := by
  have hnone : key ∉ ([] : List (String × Entry)).map Prod.fst := by simp
  cases tables with
  | nil =>
    simp [finish?, Table.modify?, listEntry, implicitEntry, Table.find?_of_not_mem hname,
      Table.find?_of_not_mem hnone, Table.set_of_not_mem hnone, Table.set_of_not_mem hname]
  | cons first tables =>
    have hfound : (Table.mk true false [(key, .tables (first :: tables))]).find? key =
        some (.tables (first :: tables)) := Table.find?_last hnone
    have hset : ∀ new, (Table.mk true false [(key, .tables (first :: tables))]).set key new =
        .mk true false [(key, new)] := fun new => Table.set_last hnone new
    simp [finish?, Table.modify?, listEntry, implicitEntry, Table.find?_last hname, hfound, hset,
      Table.set_last hname]

end Draft

/-! ### Values -/

/-- The lines of some values. -/
def pairLines (wished : Char → Bool) (pairs : List (String × Scalar)) : List Char :=
  pairs.flatMap (pairLine wished)

/-- The table of some values. -/
def pairTable (pairs : List (String × Scalar)) : Table :=
  .mk false false (pairs.map fun pair => (pair.1, .value pair.2.datum))

/-- The keys of some values differ, and need no quotes. -/
structure PairsFine (pairs : List (String × Scalar)) : Prop where
  nodup : (pairs.map Prod.fst).Nodup
  isBare : ∀ pair ∈ pairs, IsBare pair.1

variable {root : Table} {path : List String}
  {isItem : Bool} {pairs : List (String × Scalar)}

/-- **Values.** The lines of some values fill the table that was started. -/
theorem reads_pairs (wished : Char → Bool) (h : PairsFine pairs) :
    Reads (pairLines wished pairs) ⟨root, .empty, path, isItem⟩
      ⟨root, pairTable pairs, path, isItem⟩ := by
  suffices hmore : ∀ done, ((done ++ pairs).map Prod.fst).Nodup →
      Reads (pairLines wished pairs) ⟨root, pairTable done, path, isItem⟩
        ⟨root, pairTable (done ++ pairs), path, isItem⟩ from hmore [] h.nodup
  have hbare := h.isBare
  clear h
  induction pairs with
  | nil =>
    intro done _
    rw [List.append_nil]
    exact .refl _
  | cons pair pairs ih =>
    intro done hnodup
    obtain ⟨hpair, hmore⟩ := List.forall_mem_cons.mp hbare
    -- A key that stands there already would end the reading.
    have hnew :
        pair.1 ∉ (done.map fun pair => (pair.1, Entry.value pair.2.datum)).map Prod.fst := by
      rw [List.map_map]
      exact key_not_mem_of_nodup hnodup
    have hfirst := reads_pair wished (Draft.mk root (pairTable done) path isItem) hpair rfl
      (Table.find?_of_not_mem hnew)
    have hrest := ih hmore (done ++ [pair]) (by simpa using hnodup)
    rw [pairTable, Table.set_of_not_mem hnew] at hfirst
    rw [pairTable, List.map_append, List.append_assoc] at hrest
    exact hfirst.trans hrest

/-! ### Sections -/

/-- A section: a table with values, a table of such tables, or a table with a list of them. -/
inductive Section where
  | plain (name : String) (pairs : List (String × Scalar))
  | tables (name : String) (inners : List (String × List (String × Scalar)))
  | items (name key : String) (items : List (List (String × Scalar)))

namespace Section

/-- The name of a section. -/
def name : Section → String
  | .plain name _ | .tables name _ | .items name _ _ => name

/-- The lines of a section. -/
def lines (wished : Char → Bool) (bare : String → Bool) : Section → List Char
  | .plain name pairs => tableLine name ++ pairLines wished pairs
  | .tables name inners => inners.flatMap fun inner =>
    innerLine wished bare name inner.1 ++ pairLines wished inner.2
  | .items name key entries => entries.flatMap fun pairs =>
    itemLine name key ++ pairLines wished pairs

/-- The table of a section. -/
def table : Section → Table
  | .plain _ pairs => pairTable pairs
  | .tables _ inners =>
    .mk true false (inners.map fun inner => (inner.1, .table (pairTable inner.2)))
  | .items _ key entries => .mk true false [(key, .tables (entries.map pairTable))]

/-- The names and keys of a section differ and need no quotes, except for those of inner tables. A
    section is not empty unless it has a header of its own. -/
def Fine : Section → Prop
  | .plain name pairs => IsBare name ∧ PairsFine pairs
  | .tables name inners => IsBare name ∧ inners ≠ [] ∧ (inners.map Prod.fst).Nodup ∧
    ∀ inner ∈ inners, PairsFine inner.2
  | .items name key entries =>
    IsBare name ∧ IsBare key ∧ entries ≠ [] ∧ ∀ pairs ∈ entries, PairsFine pairs

variable (wished : Char → Bool) (bare : String → Bool) {before : List (String × Entry)}
  {name key : String} {draft : Draft}

/-- Tables inside another one are read one after the other. -/
theorem exists_reads_inners (hname : IsBare name) (hnew : name ∉ before.map Prod.fst)
    {inners : List (String × List (String × Scalar))} (hfine : ∀ inner ∈ inners, PairsFine inner.2)
    (done : List (String × List (String × Scalar)))
    (hnodup : ((done ++ inners).map Prod.fst).Nodup)
    (hdone : draft.finish? = some (.mk false false (before ++ implicitEntry name
      (done.map fun inner => (inner.1, .table (pairTable inner.2)))))) :
    ∃ draft', Reads ((Section.tables name inners).lines wished bare) draft draft' ∧
      draft'.finish? = some (.mk false false (before ++ implicitEntry name
        ((done ++ inners).map fun inner => (inner.1, .table (pairTable inner.2))))) := by
  induction inners generalizing done draft with
  | nil => exact ⟨draft, .refl _, by rwa [List.append_nil]⟩
  | cons inner inners ih =>
    obtain ⟨hinner, hmore⟩ := List.forall_mem_cons.mp hfine
    have hkey : inner.1 ∉
        (done.map fun inner => (inner.1, Entry.table (pairTable inner.2))).map Prod.fst := by
      rw [List.map_map]
      exact key_not_mem_of_nodup hnodup
    have hopen := Draft.openTable?_inner hdone hnew hkey
    have hheader := reads_inner wished bare hname hopen
    -- The table is put in its place only by the header that follows it, or by the end of the text.
    have hfinish := Draft.finish?_inner (pairTable inner.2) hnew hkey
    obtain ⟨draft', hreads, hdraft⟩ := ih hmore (done ++ [inner]) (by simpa using hnodup)
      (by rw [hfinish, List.map_append]; rfl)
    rw [List.append_assoc] at hdraft
    exact ⟨draft', (hheader.trans (reads_pairs wished hinner)).trans hreads, hdraft⟩

/-- The tables of a list are read one after the other. -/
theorem exists_reads_items (hname : IsBare name) (hkey : IsBare key)
    (hnew : name ∉ before.map Prod.fst) {items : List (List (String × Scalar))}
    (hfine : ∀ pairs ∈ items, PairsFine pairs) (done : List (List (String × Scalar)))
    (hdone : draft.finish? = some (.mk false false (before ++ implicitEntry name
      (listEntry key (done.map pairTable))))) :
    ∃ draft', Reads ((Section.items name key items).lines wished bare) draft draft' ∧
      draft'.finish? = some (.mk false false (before ++ implicitEntry name
        (listEntry key ((done ++ items).map pairTable)))) := by
  induction items generalizing done draft with
  | nil => exact ⟨draft, .refl _, by rwa [List.append_nil]⟩
  | cons pairs items ih =>
    obtain ⟨hpairs, hmore⟩ := List.forall_mem_cons.mp hfine
    have hopen : draft.openItem? [name] key = some
        ⟨.mk false false (before ++ implicitEntry name (listEntry key (done.map pairTable))),
          .empty, [name, key], true⟩ := by
      rw [Draft.openItem?, hdone]
      rfl
    have hheader := reads_item hname hkey hopen
    have hfinish := Draft.finish?_item key (pairTable pairs) (done.map pairTable) hnew
    obtain ⟨draft', hreads, hdraft⟩ := ih hmore (done ++ [pairs])
      (by rw [hfinish, List.map_append]; rfl)
    rw [List.append_assoc] at hdraft
    exact ⟨draft', (hheader.trans (reads_pairs wished hpairs)).trans hreads, hdraft⟩

/-- **Sections.** A section with a new name adds its table behind all others. -/
theorem exists_reads {block : Section} (hfine : block.Fine)
    (hnew : block.name ∉ before.map Prod.fst)
    (hdone : draft.finish? = some (.mk false false before)) :
    ∃ draft', Reads (block.lines wished bare) draft draft' ∧
      draft'.finish? =
        some (.mk false false (before ++ [(block.name, .table block.table)])) := by
  cases block with
  | plain name pairs =>
    have hheader := reads_table hfine.1 (Draft.openTable?_new hdone hnew)
    exact ⟨_, hheader.trans (reads_pairs wished hfine.2), Draft.finish?_table _ hnew⟩
  | tables name inners =>
    obtain ⟨hname, hne, hnodup, hinners⟩ := hfine
    obtain ⟨draft', hreads, hdraft⟩ := exists_reads_inners wished bare hname hnew hinners []
      hnodup (by rw [hdone]; simp [implicitEntry])
    refine ⟨draft', hreads, ?_⟩
    -- With one inner table at least, the table around them is there.
    rw [hdraft, implicitEntry, if_neg (by simpa using hne)]
    rfl
  | items name key entries =>
    obtain ⟨hname, hkey, hne, hitems⟩ := hfine
    obtain ⟨draft', hreads, hdraft⟩ := exists_reads_items wished bare hname hkey hnew hitems []
      (by rw [hdone]; simp [implicitEntry, listEntry])
    refine ⟨draft', hreads, ?_⟩
    rw [hdraft, listEntry, if_neg (by simpa using hne)]
    rfl

/-- Notes may stand between the tables of a list. -/
theorem exists_reads_items_notes (hname : IsBare name) (hkey : IsBare key)
    (hnew : name ∉ before.map Prod.fst) {items more : List (List (String × Scalar))}
    (hne : items ≠ []) (hfine : ∀ pairs ∈ items ++ more, PairsFine pairs) {notes : List String}
    (hnotes : ∀ note ∈ notes, isNote note.toList = true)
    (hdone : draft.finish? = some (.mk false false before)) :
    ∃ draft', Reads ((Section.items name key items).lines wished bare ++
        (noteLines notes ++ (Section.items name key more).lines wished bare)) draft draft' ∧
      draft'.finish? = some (.mk false false
        (before ++ [(name, .table (Section.items name key (items ++ more)).table)])) := by
  obtain ⟨hitems, hmore⟩ := List.forall_mem_append.mp hfine
  obtain ⟨middle, hreads, hmiddle⟩ := exists_reads_items wished bare hname hkey hnew hitems []
    (by rw [hdone]; simp [implicitEntry, listEntry])
  obtain ⟨draft', hreads', hdraft⟩ := exists_reads_items wished bare hname hkey hnew hmore items
    hmiddle
  refine ⟨draft', hreads.trans ((reads_notes middle hnotes).trans hreads'), ?_⟩
  rw [hdraft, listEntry, if_neg (by simp [hne])]
  rfl

/-- A section starts with a bracket. -/
theorem exists_cons_of_lines {block : Section} (hfine : block.Fine) :
    ∃ more, block.lines wished bare = '[' :: more := by
  cases block with
  | plain name pairs => exact ⟨_, rfl⟩
  | tables name inners =>
    obtain ⟨inner, others, rfl⟩ := List.exists_cons_of_ne_nil hfine.2.1
    exact ⟨_, rfl⟩
  | items name key entries =>
    obtain ⟨pairs, others, rfl⟩ := List.exists_cons_of_ne_nil hfine.2.2.1
    exact ⟨_, rfl⟩

end Section

/-! ### Documents -/

/-- The lines of some sections, each with notes above it. -/
def notedLines (wished : Char → Bool) (bare : String → Bool)
    (sections : List (List String × Section)) : List Char :=
  sections.flatMap fun noted => noteLines noted.1 ++ noted.2.lines wished bare

/-- The sections of a document are read one after the other, whatever notes stand above them. -/
theorem exists_reads_notedLines (wished : Char → Bool) (bare : String → Bool)
    {sections : List (List String × Section)} {draft : Draft} {before : List (String × Entry)}
    (hfine : ∀ noted ∈ sections, (∀ note ∈ noted.1, isNote note.toList = true) ∧ noted.2.Fine)
    (hnodup : (before.map Prod.fst ++ sections.map fun noted => noted.2.name).Nodup)
    (hdone : draft.finish? = some (.mk false false before)) :
    ∃ draft', Reads (notedLines wished bare sections) draft draft' ∧
      draft'.finish? = some (.mk false false
        (before ++ sections.map fun noted => (noted.2.name, .table noted.2.table))) := by
  induction sections generalizing draft before with
  | nil => exact ⟨draft, .refl _, by rwa [List.map_nil, List.append_nil]⟩
  | cons first sections ih =>
    obtain ⟨⟨hnotes, hfirst⟩, hmore⟩ := List.forall_mem_cons.mp hfine
    have hnew : first.2.name ∉ before.map Prod.fst := by
      rw [List.nodup_append] at hnodup
      exact fun hmem => hnodup.2.2 _ hmem _ List.mem_cons_self rfl
    obtain ⟨middle, hreads, hmiddle⟩ :=
      Section.exists_reads wished bare hfirst hnew hdone
    obtain ⟨draft', hreads', hdraft⟩ := ih hmore (by simpa using hnodup) hmiddle
    rw [List.append_assoc] at hdraft
    exact ⟨draft', ((reads_notes draft hnotes).trans hreads).trans hreads', hdraft⟩

/-- The sections of a document are read one after the other. -/
theorem exists_reads_sections (wished : Char → Bool) (bare : String → Bool)
    {sections : List Section} {draft : Draft} {before : List (String × Entry)}
    (hfine : ∀ block ∈ sections, block.Fine)
    (hnodup : (before.map Prod.fst ++ sections.map Section.name).Nodup)
    (hdone : draft.finish? = some (.mk false false before)) :
    ∃ draft', Reads (sections.flatMap (Section.lines wished bare)) draft draft' ∧
      draft'.finish? = some (.mk false false
        (before ++ sections.map fun block => (block.name, .table block.table))) := by
  have hnoted := @exists_reads_notedLines wished bare (sections.map fun block => ([], block))
    draft before (by simpa using hfine) (by simpa [Function.comp_def] using hnodup) hdone
  simpa [notedLines, noteLines, List.flatMap_map, Function.comp_def] using hnoted

/-- A text that is read by lines, with no byte order mark in front, has the tree of the tables that
    its lines come to. -/
theorem document?_of_reads {text : List Char} {draft : Draft} {table : Table}
    (hmark : ∀ more, text ≠ '\uFEFF' :: more) (hreads : Reads text .start draft)
    (hdraft : draft.finish? = some table) : document? text = some table.datum := by
  -- With that draft the lines come to an end, and its last table is put in its place.
  have hlines := hreads.lines_eq
  rw [document?.eq_def]
  cases text with
  | nil =>
    simp only [hlines, Option.bind_eq_bind, Option.bind_some, hdraft]
    rfl
  | cons c rest =>
    have hc : c ≠ '\uFEFF' := by
      rintro rfl
      exact hmark rest rfl
    simp only [if_neg hc, hlines, Option.bind_eq_bind, Option.bind_some, hdraft]
    rfl

/-- **Documents.** Sections with different names are read as they were written. -/
theorem document?_sections (wished : Char → Bool) (bare : String → Bool) {sections : List Section}
    (hfine : ∀ block ∈ sections, block.Fine) (hnodup : (sections.map Section.name).Nodup) :
    document? (sections.flatMap (Section.lines wished bare)) = some (Table.mk false false
      (sections.map fun block => (block.name, .table block.table))).datum := by
  have hstart : Draft.start.finish? = some (.mk false false []) := rfl
  have hnames : (([] : List (String × Entry)).map Prod.fst ++ sections.map Section.name).Nodup :=
    hnodup
  obtain ⟨draft, hreads, hdraft⟩ := exists_reads_sections wished bare hfine hnames hstart
  -- The text starts with a bracket, so there is no byte order mark to be passed over.
  refine document?_of_reads (fun more heq => ?_) hreads hdraft
  cases sections with
  | nil => cases heq
  | cons first sections =>
    obtain ⟨others, hfirst⟩ :=
      Section.exists_cons_of_lines wished bare (hfine first List.mem_cons_self)
    rw [List.flatMap_cons, hfirst] at heq
    exact absurd (List.cons.inj heq).1 (by decide)

example : (Section.tables "pages" [("index", []), ("a b", [("sidebar", .bool false)])]).lines
    (fun _ => false) (fun _ => true) =
      "[pages.index]\n[pages.\"a b\"]\nsidebar = false\n".toList := by
  decide

end Toml

end PageLoom
