import PageLoom.Config.Shape

namespace PageLoom

/-!
# Configurations as trees

A configuration is written as a tree of tables. A field that has its default value may be left out,
and so may the table of a part or of the build that says nothing else. Whatever is left out, the
tree is read as the configuration that it was written for.

* `ConfigTree`, `ConfigTree.datum` — trees without faults;
* `Omission` — which fields are left out where they have their default;
* `SiteConfig.tree` — the tree of a configuration;
* `RecordShape.Fills`, `RecordShape.read_of_fills` — members that set the fields of a record in
  their declared order;
* `SiteConfig.ofDatum_tree` — what is written is read.
-/

/-- A tree as a configuration is written: nothing is missing in it, and it holds no numbers. -/
inductive ConfigTree where
  | null
  | bool (value : Bool)
  | text (value : String)
  | list (items : List ConfigTree)
  | table (members : List (String × ConfigTree))

namespace ConfigTree

mutual

/-- The tree as it is read from a text. -/
def datum : ConfigTree → Datum
  | .null => .null
  | .bool value => .bool value
  | .text value => .text value
  | .list items => .list (itemData items) none
  | .table members => .map (memberData members) none

/-- The items of a list as they are read. -/
def itemData : List ConfigTree → List Datum
  | [] => []
  | item :: items => item.datum :: itemData items

/-- The members of a table as they are read. -/
def memberData : List (String × ConfigTree) → List (Option String × Datum)
  | [] => []
  | (key, item) :: members => (some key, item.datum) :: memberData members

end

/-- The members as they are read, one by one. -/
theorem memberData_eq_map (members : List (String × ConfigTree)) :
    memberData members = members.map fun member => (some member.1, member.2.datum) := by
  induction members with
  | nil => rfl
  | cons member members ih => rw [memberData, ih, List.map_cons]

theorem memberData_append (members more : List (String × ConfigTree)) :
    memberData (members ++ more) = memberData members ++ memberData more := by
  rw [memberData_eq_map, memberData_eq_map, memberData_eq_map, List.map_append]

/-- The items as they are read, one by one. -/
theorem itemData_eq_map (items : List ConfigTree) : itemData items = items.map datum := by
  induction items with
  | nil => rfl
  | cons item items ih => rw [itemData, ih, List.map_cons]

end ConfigTree

/-! ### Trees of configurations -/

/-- What is written for a field of a record: nothing, if the field has its default and is to be left
    out then. -/
def omittable {α β : Type} [DecidableEq α] (skip : Bool) (name : String) (value default : α)
    (write : α → β) : List (String × β) :=
  if skip ∧ value = default then [] else [(name, write value)]

/-- Which fields are left out where they have their default: the pages and the settings of one, the
    section of a part and the directives in it, and the section of the build with its fields. -/
structure Omission where
  pages : Bool
  pageSidebar : String → Bool
  part : Part → Bool
  replacements : Part → Bool
  build : Bool
  source : Bool
  output : Bool
  stylesheet : Bool
  minify : Bool
  pretty : Bool

/-- A directive as a table. -/
def Directive.tree (directive : Directive) : ConfigTree :=
  .table [("symbol", .text directive.symbol), ("value", .text directive.value)]

/-- The settings of a page as a table. -/
def PageSettings.tree (skip : Bool) (settings : PageSettings) : ConfigTree :=
  .table (omittable skip "sidebar" settings.sidebar none fun
    | none => .null
    | some value => .bool value)

/-- The directives of a part as its section. -/
def sectionTree (skip : Bool) (directives : List Directive) : ConfigTree :=
  .table (omittable skip "replacements" directives []
    fun directives => .list (directives.map Directive.tree))

/-- What is written for the settings of the build, from texts and truth values. -/
def BuildSettings.members {β : Type} (text : String → β) (bool : Bool → β) (omission : Omission)
    (build : BuildSettings) : List (String × β) :=
  omittable omission.source "source" build.source BuildSettings.default.source
    (fun path => text path.text) ++
  (omittable omission.output "output" build.output BuildSettings.default.output
    (fun path => text path.text) ++
  (omittable omission.stylesheet "stylesheet" build.stylesheet BuildSettings.default.stylesheet
    (fun path => text path.text) ++
  (omittable omission.minify "minify" build.minify BuildSettings.default.minify bool ++
  omittable omission.pretty "pretty" build.pretty BuildSettings.default.pretty bool)))

/-- The settings of the build as a table. -/
def BuildSettings.tree (omission : Omission) (build : BuildSettings) : ConfigTree :=
  .table (build.members .text .bool omission)

/-- The pages with their settings as a table. -/
def pagesTree (omission : Omission) (pages : List (String × PageSettings)) : ConfigTree :=
  .table (pages.map fun page => (page.1, page.2.tree (omission.pageSidebar page.1)))

/-- A configuration as a table of its sections, in their declared order. -/
def SiteConfig.tree (omission : Omission) (config : SiteConfig) : ConfigTree :=
  .table (
    ("general", .table [("lang", .text config.lang)]) ::
    (omittable omission.pages "pages" config.pages [] (pagesTree omission) ++
    (omittable (omission.part .head) "head" config.head []
      (sectionTree (omission.replacements .head)) ++
    (omittable (omission.part .header) "header" config.header []
      (sectionTree (omission.replacements .header)) ++
    (omittable (omission.part .sidebar) "sidebar" config.sidebar []
      (sectionTree (omission.replacements .sidebar)) ++
    (omittable (omission.part .footer) "footer" config.footer []
      (sectionTree (omission.replacements .footer)) ++
    omittable omission.build "build" config.build .default (BuildSettings.tree omission)))))))

/-! ### Lists and maps -/

/-- Where keys differ, no key is among those in front of it. -/
theorem key_not_mem_of_nodup {α β : Type} {key : α → β} {done more : List α} {entry : α}
    (h : ((done ++ entry :: more).map key).Nodup) : key entry ∉ done.map key := by
  rw [List.map_append, List.map_cons, List.nodup_append] at h
  exact fun hmem => h.2.2 _ hmem _ List.mem_cons_self rfl

section Reading

variable {α : Type}

/-- A list is read as what its items were written for. -/
theorem readList_tree {item : Datum → Reading α} {write : α → ConfigTree} {values : List α}
    (h : ∀ value ∈ values, item (write value).datum = .ok value) :
    readList item (ConfigTree.list (values.map write)).datum = .ok values := by
  have hitems : (ConfigTree.itemData (values.map write)).mapM item = .ok values := by
    induction values with
    | nil => rfl
    | cons value values ih =>
      obtain ⟨hvalue, hmore⟩ := List.forall_mem_cons.mp h
      rw [List.map_cons, ConfigTree.itemData, List.mapM_cons, hvalue, ih hmore]
      rfl
  rw [ConfigTree.datum, readList, hitems]
  rfl

/-- A key that is not there is set behind all others. -/
theorem setKey_of_not_mem {pairs : List (String × α)} {key : String} (value : α)
    (h : key ∉ pairs.map Prod.fst) : setKey pairs key value = pairs ++ [(key, value)] := by
  rw [setKey, if_neg]
  rw [List.any_eq_true]
  rintro ⟨pair, hpair, hkey⟩
  exact h (List.mem_map.mpr ⟨pair, hpair, of_decide_eq_true hkey⟩)

/-- If each member of a table sets its key, then all of them do, in their order. -/
theorem foldlM_setKey {write : String × α → ConfigTree} {pairs : List (String × α)}
    {step : List (String × α) → Option String × Datum → Reading (List (String × α))}
    (hstep : ∀ done, ∀ pair ∈ pairs,
      step done (some pair.1, (write pair).datum) = .ok (setKey done pair.1 pair.2))
    (done : List (String × α)) (hnodup : ((done ++ pairs).map Prod.fst).Nodup) :
    (ConfigTree.memberData (pairs.map fun pair => (pair.1, write pair))).foldlM step done =
      .ok (done ++ pairs) := by
  induction pairs generalizing done with
  | nil =>
    rw [List.append_nil]
    rfl
  | cons pair pairs ih =>
    have hnew : pair.1 ∉ done.map Prod.fst := key_not_mem_of_nodup hnodup
    rw [List.map_cons, ConfigTree.memberData, List.foldlM_cons,
      hstep done pair List.mem_cons_self, setKey_of_not_mem _ hnew]
    have hmore := ih (fun done other hother => hstep done other (List.mem_cons_of_mem _ hother))
      (done ++ [(pair.1, pair.2)]) (by simpa using hnodup)
    rwa [List.append_assoc] at hmore

/-- A map with different keys is read as what its values were written for, in the same order. -/
theorem readMap_tree {item : Datum → Reading α} {write : String × α → ConfigTree}
    {pairs : List (String × α)} (hnodup : (pairs.map Prod.fst).Nodup)
    (h : ∀ pair ∈ pairs, item (write pair).datum = .ok pair.2) :
    readMap item (ConfigTree.table (pairs.map fun pair => (pair.1, write pair))).datum =
      .ok pairs := by
  rw [ConfigTree.datum, readMap, foldlM_setKey (fun done pair hpair => ?_) [] hnodup]
  · rfl
  · simp only [h pair hpair]
    rfl

end Reading

/-! ### Records -/

namespace RecordShape

variable {σ : Type} {field : Field σ} {fields done : List (Field σ)} {shape : RecordShape σ}
  {record next result defaults : σ} {members rest : List (String × ConfigTree)}

/-- Members that set some of the fields, in their declared order, take a record to another one. All
    required fields are set. -/
inductive Fills : List (Field σ) → List (String × ConfigTree) → σ → σ → Prop
  | nil (record : σ) : Fills [] [] record record
  | given {field : Field σ} {fields : List (Field σ)} {item : ConfigTree}
      {members : List (String × ConfigTree)} {record next result : σ} :
      field.set item.datum record = .ok next → Fills fields members next result →
      Fills (field :: fields) ((field.name, item) :: members) record result
  | omitted {field : Field σ} {fields : List (Field σ)} {members : List (String × ConfigTree)}
      {record result : σ} :
      field.required = false → Fills fields members record result →
      Fills (field :: fields) members record result

/-- A field that may be left out where it has its default is set, or has its value already. -/
theorem Fills.of_omittable {α : Type} [DecidableEq α] {skip : Bool} {value default : α}
    {write : α → ConfigTree} (next : σ) (hrequired : field.required = false)
    (hset : field.set (write value).datum record = .ok next)
    (hsame : value = default → next = record) (h : Fills fields members next result) :
    Fills (field :: fields) (omittable skip field.name value default write ++ members)
      record result := by
  rw [omittable]
  split
  · rename_i hleft
    rw [hsame hleft.2] at h
    exact .omitted hrequired h
  · exact .given hset h

/-- A field is found by its name. -/
theorem find?_field (hfields : shape.fields = done ++ field :: fields)
    (hnodup : (shape.fields.map (·.name)).Nodup) :
    shape.fields.find? (·.name = field.name) = some field := by
  have hnew : field.name ∉ done.map (·.name) := key_not_mem_of_nodup (hfields ▸ hnodup)
  have hdone : done.find? (·.name = field.name) = none := by
    rw [List.find?_eq_none]
    intro other hother hname
    exact hnew (List.mem_map.mpr ⟨other, hother, of_decide_eq_true hname⟩)
  rw [hfields, List.find?_append, hdone, List.find?_cons_of_pos (by simp)]
  rfl

/-- Members that fill the fields behind those that are done set them. -/
theorem setMembers_of_fills (done : List (Field σ)) (hfields : shape.fields = done ++ fields)
    (hnodup : (shape.fields.map (·.name)).Nodup) (h : Fills fields members record result)
    (set : List String) (hset : ∀ name ∈ set, name ∈ done.map (·.name)) :
    ∃ set', shape.setMembers set record (ConfigTree.memberData members) = .ok (set', result) ∧
      (∀ name ∈ set, name ∈ set') ∧
      ∀ field ∈ fields, field.required = true → field.name ∈ set' := by
  induction h generalizing done set with
  | nil record => exact ⟨set, rfl, fun _ => id, by simp⟩
  | @given field fields item members record next result hread h ih =>
    -- What was set so far are fields in front of this one, so it is not set twice.
    have hnew : set.contains field.name = false := by
      simp only [List.contains_eq_mem, decide_eq_false_iff_not]
      exact fun hmem => key_not_mem_of_nodup (hfields ▸ hnodup) (hset _ hmem)
    obtain ⟨set', hmembers, hkept, hrequired⟩ := ih (done ++ [field])
      (by rw [hfields]; simp) (field.name :: set) (by
        intro name hname
        rcases List.mem_cons.mp hname with rfl | hname
        · simp
        · simpa using .inl (by simpa using hset name hname))
    refine ⟨set', ?_, fun name hname => hkept name (List.mem_cons_of_mem _ hname), ?_⟩
    · rw [ConfigTree.memberData, setMembers, find?_field hfields hnodup]
      simp only [hnew, hread]
      exact hmembers
    · intro other hother hneeded
      rcases List.mem_cons.mp hother with rfl | hother
      · exact hkept _ List.mem_cons_self
      · exact hrequired other hother hneeded
  | @omitted field fields members record result hoptional h ih =>
    obtain ⟨set', hmembers, hkept, hrequired⟩ := ih (done ++ [field])
      (by rw [hfields]; simp) set fun name hname => by
        simpa using .inl (by simpa using hset name hname)
    refine ⟨set', hmembers, hkept, fun other hother hneeded => ?_⟩
    rcases List.mem_cons.mp hother with rfl | hother
    · rw [hoptional] at hneeded
      cases hneeded
    · exact hrequired other hother hneeded

/-- **Records.** A table whose members fill the fields of a record is read as that record. -/
theorem read_of_fills (exact : Bool) (hnodup : (shape.fields.map (·.name)).Nodup)
    (h : Fills shape.fields members defaults result) :
    shape.read exact defaults (ConfigTree.table members).datum = .ok result := by
  obtain ⟨set, hmembers, -, hrequired⟩ :=
    setMembers_of_fills [] rfl hnodup h [] (by simp)
  have hnone : shape.fields.find? (fun field => field.required && !set.contains field.name) =
      none := by
    rw [List.find?_eq_none]
    intro field hfield hmissing
    simp only [Bool.and_eq_true, Bool.not_eq_true', List.contains_eq_mem,
      decide_eq_false_iff_not] at hmissing
    exact hmissing.2 (hrequired field hfield hmissing.1)
  rw [ConfigTree.datum, read, hmembers]
  simp only [bind, Except.bind, hnone]
  rfl

end RecordShape

/-! ### Configurations -/

section Config

variable (exact : Bool)

/-- A directive is read as it was written. -/
theorem Directive.read_tree (directive : Directive) :
    Directive.shape.read exact ⟨"", ""⟩ directive.tree.datum = .ok directive :=
  RecordShape.read_of_fills exact (by decide) (.given rfl (.given rfl (.nil _)))

/-- The settings of a page are read as they were written: with a sidebar, without one, or with
    nothing said of it. -/
theorem PageSettings.read_tree (skip : Bool) (settings : PageSettings) :
    PageSettings.shape.read exact ⟨none⟩ (settings.tree skip).datum = .ok settings := by
  refine RecordShape.read_of_fills exact (by decide) ?_
  rw [← List.append_nil (omittable ..)]
  refine .of_omittable settings rfl ?_ ?_ (.nil _)
  · cases settings with
    | mk sidebar => cases sidebar <;> rfl
  · exact fun hnone => congrArg PageSettings.mk hnone

/-- The directives of a part are read in the order in which they were written. -/
theorem sectionTree_read (skip : Bool) (directives : List Directive) :
    (SiteConfig.partShape exact).read exact [] (sectionTree skip directives).datum =
      .ok directives := by
  refine RecordShape.read_of_fills exact (by decide +revert) ?_
  rw [← List.append_nil (omittable ..)]
  refine .of_omittable directives rfl ?_ id (.nil _)
  exact readList_tree fun directive _ => directive.read_tree exact

/-- The pages are read with their settings, in the order in which they were written. -/
theorem pagesTree_read (omission : Omission) {pages : List (String × PageSettings)}
    (hnodup : (pages.map Prod.fst).Nodup) :
    readMap (PageSettings.shape.read exact ⟨none⟩) (pagesTree omission pages).datum = .ok pages :=
  readMap_tree hnodup fun page _ => page.2.read_tree exact _

/-- The settings of the build are read as they were written. -/
theorem BuildSettings.read_tree (omission : Omission) (build : BuildSettings) :
    BuildSettings.shape.read exact .default (build.tree omission).datum = .ok build := by
  refine RecordShape.read_of_fills exact (by decide) ?_
  obtain ⟨source, output, stylesheet, minify, pretty⟩ := build
  rw [BuildSettings.members]
  rw [← List.append_nil (omittable omission.pretty ..)]
  refine .of_omittable { BuildSettings.default with source } rfl rfl ?_ ?_
  · rintro rfl
    rfl
  refine .of_omittable { BuildSettings.default with source, output } rfl rfl ?_ ?_
  · rintro rfl
    rfl
  refine .of_omittable { BuildSettings.default with source, output, stylesheet } rfl rfl ?_ ?_
  · rintro rfl
    rfl
  refine .of_omittable ⟨source, output, stylesheet, minify, true⟩ rfl rfl ?_ ?_
  · rintro rfl
    rfl
  refine .of_omittable ⟨source, output, stylesheet, minify, pretty⟩ rfl rfl ?_ (.nil _)
  rintro rfl
  rfl

/-- **Trees.** Whatever is left out, the tree of a configuration is read as that configuration. -/
theorem SiteConfig.ofDatum_tree (omission : Omission) {config : SiteConfig}
    (hpages : (config.pages.map Prod.fst).Nodup) :
    SiteConfig.ofDatum exact (config.tree omission).datum = .ok config := by
  have hnames : ((SiteConfig.shape exact).fields.map (·.name)).Nodup := by decide +revert
  refine RecordShape.read_of_fills exact hnames ?_
  obtain ⟨lang, pages, head, header, sidebar, footer, build⟩ := config
  have hpart : ∀ skip directives, (SiteConfig.partShape exact).read exact []
      (sectionTree skip directives).datum = .ok directives := sectionTree_read exact
  rw [← List.append_nil (omittable omission.build ..)]
  -- Each section sets its own field, and the others keep what they have.
  refine .given (show _ = Except.ok ⟨lang, [], [], [], [], [], .default⟩ from rfl) ?_
  refine .of_omittable ⟨lang, pages, [], [], [], [], .default⟩ rfl ?_ ?_ ?_
  · simp only [pagesTree_read exact omission hpages]
    rfl
  · rintro rfl
    rfl
  refine .of_omittable ⟨lang, pages, head, [], [], [], .default⟩ rfl ?_ ?_ ?_
  · simp only [hpart]
    rfl
  · rintro rfl
    rfl
  refine .of_omittable ⟨lang, pages, head, header, [], [], .default⟩ rfl ?_ ?_ ?_
  · simp only [hpart]
    rfl
  · rintro rfl
    rfl
  refine .of_omittable ⟨lang, pages, head, header, sidebar, [], .default⟩ rfl ?_ ?_ ?_
  · simp only [hpart]
    rfl
  · rintro rfl
    rfl
  refine .of_omittable ⟨lang, pages, head, header, sidebar, footer, .default⟩ rfl ?_ ?_ ?_
  · simp only [hpart]
    rfl
  · rintro rfl
    rfl
  refine .of_omittable ⟨lang, pages, head, header, sidebar, footer, build⟩ rfl ?_ ?_ (.nil _)
  · simp only [build.read_tree exact omission]
    rfl
  · rintro rfl
    rfl

end Config

end PageLoom
