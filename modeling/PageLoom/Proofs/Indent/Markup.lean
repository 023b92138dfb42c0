import Mathlib.Data.List.Basic
import PageLoom.Proofs.Indent.RawBody

namespace PageLoom

/-!
# Well-nested markup

A text is well nested if it is written from a tree of elements. Here are these trees, the texts they
are written as, and for each place of such a text the elements that are open there.

* `TagText` — a tag as it is written, its name and attributes;
* `Markup`, `Markup.toText` — trees of elements next to each other, and their text;
* `Markup.spots`, `Markup.docLines` — the characters and tags of the text, each with the number of
  elements open in front of it, and their cut into lines;
* `Runs` — how open elements follow from one spot to the next;
* `Markup.runs_spots` — behind a tree the same elements are open as in front of it.
-/

/-! ### Trees and their texts -/

/-- What a tag says. The name starts with a letter and goes up to the attributes, and these hold
    neither the end of the tag nor the end of a line. -/
structure TagText where
  name : List Char
  attributes : List Char
  name_head : name.head?.any Char.isAlpha = true
  name_chars : ∀ c ∈ name, isTagNameChar c = true
  attributes_head : ∀ c ∈ attributes.head?, isTagNameChar c = false
  attributes_angle : '>' ∉ attributes
  attributes_feed : '\n' ∉ attributes

namespace TagText

/-- The name of the element, in lower case. -/
def key (tag : TagText) : List Char :=
  tag.name.map Char.toLower

/-- The tag ends in `/>`. -/
def slashed (tag : TagText) : Bool :=
  tag.attributes.getLast? = some '/'

/-- The tag as the start of an element, or as all of it. -/
def opening (tag : TagText) : List Char :=
  '<' :: (tag.name ++ tag.attributes ++ ['>'])

/-- The end of the element that the tag starts. -/
def closing (tag : TagText) : List Char :=
  '<' :: '/' :: (tag.name ++ ['>'])

end TagText

/-- Nodes next to each other, each with those that follow it: texts without `<`, tags that are all
    of their element, elements with nodes inside, and raw elements, whose body is any text that does
    not hold their end. -/
inductive Markup where
  | nil
  | text (content : List Char) (plain : '<' ∉ content) (rest : Markup)
  | lone (tag : TagText) (bodiless : tag.key ∈ voidElements ∨ tag.slashed = true) (rest : Markup)
  | element (tag : TagText)
      (bodied : tag.key ∉ voidElements ∧ tag.key ∉ rawElements ∧ tag.slashed = false)
      (inside rest : Markup)
  | raw (tag : TagText) (bodied : tag.key ∈ rawElements ∧ tag.slashed = false) (body : List Char)
      (endless : holdsEnd tag.key body = false) (rest : Markup)

/-- The text that nodes are written as. -/
def Markup.toText : Markup → List Char
  | .nil => []
  | .text content _ rest => content ++ rest.toText
  | .lone tag _ rest => tag.opening ++ rest.toText
  | .element tag _ inside rest => tag.opening ++ inside.toText ++ tag.closing ++ rest.toText
  | .raw tag _ body _ rest => tag.opening ++ body ++ tag.closing ++ rest.toText

/-! ### Spots -/

/-- The elements that are open somewhere: how many, and the name of the raw one among them. -/
structure Nesting where
  depth : Nat
  raw : Option (List Char)
  deriving DecidableEq

/-- What stands at a spot: a character between two tags, or a tag. -/
inductive Symbol where
  | char (c : Char)
  | lone (tag : TagText)
  | opening (tag : TagText)
  | closing (tag : TagText)

/-- A character or a tag of a text, with the elements that are open in front of it. In front of its
    end an element is still open. -/
structure Spot where
  nesting : Nesting
  symbol : Symbol

/-- The text of a symbol. -/
def Symbol.toText : Symbol → List Char
  | .char c => [c]
  | .lone tag => tag.opening
  | .opening tag => tag.opening
  | .closing tag => tag.closing

/-- The text of spots. -/
def spotsText (spots : List Spot) : List Char :=
  spots.flatMap fun spot => spot.symbol.toText

/-- The spots of nodes in front of which `depth` elements are open. -/
def Markup.spots (depth : Nat) : Markup → List Spot
  | .nil => []
  | .text content _ rest =>
    content.map (fun c => ⟨⟨depth, none⟩, .char c⟩) ++ rest.spots depth
  | .lone tag _ rest => ⟨⟨depth, none⟩, .lone tag⟩ :: rest.spots depth
  | .element tag _ inside rest =>
    ⟨⟨depth, none⟩, .opening tag⟩ :: inside.spots (depth + 1) ++
      ⟨⟨depth + 1, none⟩, .closing tag⟩ :: rest.spots depth
  | .raw tag _ body _ rest =>
    ⟨⟨depth, none⟩, .opening tag⟩ :: body.map (fun c => ⟨⟨depth + 1, some tag.key⟩, .char c⟩) ++
      ⟨⟨depth + 1, some tag.key⟩, .closing tag⟩ :: rest.spots depth

/-- The spot ends a line. -/
def Spot.isFeed (spot : Spot) : Bool :=
  match spot.symbol with
  | .char c => c = '\n'
  | _ => false

/-- The lines of a text that is written from nodes, as the spots on them. -/
def Markup.docLines (markup : Markup) : List (List Spot) :=
  (markup.spots 0).splitOnP Spot.isFeed

@[simp] theorem spotsText_nil : spotsText [] = [] := rfl

@[simp] theorem spotsText_cons (spot : Spot) (rest : List Spot) :
    spotsText (spot :: rest) = spot.symbol.toText ++ spotsText rest := rfl

@[simp] theorem spotsText_append (front back : List Spot) :
    spotsText (front ++ back) = spotsText front ++ spotsText back := List.flatMap_append

/-- The text of characters. -/
@[simp] theorem spotsText_map_char (nesting : Nesting) (content : List Char) :
    spotsText (content.map fun c => ⟨nesting, .char c⟩) = content := by
  induction content with
  | nil => rfl
  | cons c content ih =>
    rw [List.map_cons, spotsText_cons, ih]
    rfl

/-- **Spots.** The spots of nodes make up their text. -/
theorem Markup.spotsText_spots (markup : Markup) (depth : Nat) :
    spotsText (markup.spots depth) = markup.toText := by
  induction markup generalizing depth with
  | nil => rfl
  | text content _ rest ih => rw [spots, spotsText_append, spotsText_map_char, ih, toText]
  | lone tag _ rest ih => rw [spots, spotsText_cons, ih, toText, Symbol.toText]
  | element tag _ inside rest ihInside ih =>
    rw [spots, spotsText_append, spotsText_cons, spotsText_cons, ihInside, ih, toText]
    simp only [Symbol.toText, List.append_assoc]
  | raw tag _ body _ rest ih =>
    rw [spots, spotsText_append, spotsText_cons, spotsText_cons, spotsText_map_char, ih, toText]
    simp only [Symbol.toText, List.append_assoc]

/-! ### Runs -/

/-- At the start of the text, in any case, the end of an element starts. -/
def startsEnd (name text : List Char) : Prop :=
  endMark name <+: text.map Char.toLower

/-- What a symbol does to the open elements. -/
inductive Moves : Nesting → Symbol → Nesting → Prop
  | char {c : Char} {depth : Nat} : c ≠ '<' → Moves ⟨depth, none⟩ (.char c) ⟨depth, none⟩
  | charRaw {c : Char} {name : List Char} {depth : Nat} :
      Moves ⟨depth, some name⟩ (.char c) ⟨depth, some name⟩
  | lone {tag : TagText} {depth : Nat} :
      tag.key ∈ voidElements ∨ tag.slashed = true → Moves ⟨depth, none⟩ (.lone tag) ⟨depth, none⟩
  | opening {tag : TagText} {depth : Nat} :
      tag.key ∉ voidElements ∧ tag.key ∉ rawElements ∧ tag.slashed = false →
      Moves ⟨depth, none⟩ (.opening tag) ⟨depth + 1, none⟩
  | openingRaw {tag : TagText} {depth : Nat} :
      tag.key ∈ rawElements ∧ tag.slashed = false →
      Moves ⟨depth, none⟩ (.opening tag) ⟨depth + 1, some tag.key⟩
  | closing {tag : TagText} {depth : Nat} :
      Moves ⟨depth + 1, none⟩ (.closing tag) ⟨depth, none⟩
  | closingRaw {tag : TagText} {depth : Nat} :
      Moves ⟨depth + 1, some tag.key⟩ (.closing tag) ⟨depth, none⟩

/-- Spots that follow one another, from the elements open in front of the first one to those open
    behind the last one. In a raw element no end of it starts but at the tag that closes it. -/
inductive Runs : Nesting → List Spot → Nesting → Prop
  | nil {nesting : Nesting} : Runs nesting [] nesting
  | cons {nesting next last : Nesting} {symbol : Symbol} {rest : List Spot} :
      Moves nesting symbol next →
      (∀ name, nesting.raw = some name → startsEnd name (symbol.toText ++ spotsText rest) →
        ∃ tag, symbol = .closing tag) →
      Runs next rest last → Runs nesting (⟨nesting, symbol⟩ :: rest) last

variable {nesting last : Nesting} {front back rest : List Spot} {text : List Char}

/-- Where the end of an element starts, it also does with more text behind it. -/
theorem startsEnd_append {name : List Char} (h : startsEnd name text) (more : List Char) :
    startsEnd name (text ++ more) := by
  unfold startsEnd
  rw [List.map_append]
  exact h.trans (List.prefix_append ..)

/-- **Two parts.** Where spots run, their two parts do one after the other. -/
theorem Runs.of_append (h : Runs nesting (front ++ back) last) :
    ∃ between, Runs nesting front between ∧ Runs between back last := by
  induction front generalizing nesting with
  | nil => exact ⟨nesting, .nil, h⟩
  | cons spot front ih =>
    rw [List.cons_append] at h
    cases h with
    | cons hmoves hend hrest =>
      obtain ⟨between, hfront, hback⟩ := ih hrest
      refine ⟨between, .cons hmoves (fun name hname hstarts => hend name hname ?_) hfront, hback⟩
      -- An end that starts in the first part starts in the whole text.
      rw [spotsText_append, ← List.append_assoc]
      exact startsEnd_append hstarts _

/-- A character changes nothing about the open elements. -/
theorem Runs.tail_char {c : Char} {spotNesting : Nesting}
    (h : Runs nesting (⟨spotNesting, .char c⟩ :: rest) last) : Runs nesting rest last := by
  cases h with
  | cons hmoves _ hrest => cases hmoves <;> exact hrest

/-- Nor does one at the end. -/
theorem Runs.dropLast_char {c : Char} {spotNesting : Nesting}
    (h : Runs nesting (front ++ [⟨spotNesting, .char c⟩]) last) : Runs nesting front last := by
  obtain ⟨between, hfront, hback⟩ := h.of_append
  cases hback.tail_char
  exact hfront

/-! ### Trees run -/

/-- Putting a character into lower case gives no `<`, unless it is one. -/
theorem eq_angle_of_toLower {c : Char} (h : c.toLower = '<') : c = '<' := by
  unfold Char.toLower at h
  split at h
  · rename_i hupper
    have hval := congrArg Char.toNat h
    have hlow : 65 ≤ c.toNat := hupper.1
    have hhigh : c.toNat ≤ 90 := hupper.2
    simp only [Char.isValue, Char.reduceVal, UInt32.reduceSub, Char.toNat_mk, UInt32.toNat_add,
      Char.toNat_val, UInt32.reduceToNat, Nat.reducePow, Char.reduceToNat] at hval
    omega
  · exact h

/-- The name of an element holds no `<`. -/
theorem angle_not_mem_key (tag : TagText) : '<' ∉ tag.key := by
  intro hmem
  obtain ⟨c, hc, hlower⟩ := List.mem_map.mp hmem
  have hname := tag.name_chars c hc
  rw [eq_angle_of_toLower hlower] at hname
  exact absurd hname (by decide)

/-- **No straddling.** The end of an element that starts in front of another tag lies in front of
    it as a whole. -/
theorem startsEnd_of_append {name : List Char} (hname : '<' ∉ name) (hfront : text ≠ [])
    {more : List Char} (h : startsEnd name (text ++ '<' :: more)) : startsEnd name text := by
  unfold startsEnd at h ⊢
  rw [List.map_append] at h
  rcases List.prefix_or_prefix_of_prefix h (List.prefix_append _ _) with hinside | ⟨tail, htail⟩
  · exact hinside
  -- Otherwise the mark goes on behind the text, with the angle of the other tag.
  rw [← htail, List.prefix_append_right_inj] at h
  cases tail with
  | nil =>
    rw [← htail, List.append_nil]
  | cons c tail =>
    obtain ⟨rfl, -⟩ : c = '<' ∧ _ := List.cons_prefix_cons.mp h
    obtain ⟨first, text, rfl⟩ := List.exists_cons_of_ne_nil hfront
    rw [endMark, List.map_cons, List.cons_append] at htail
    have hmem : '<' ∈ '/' :: name := by
      rw [← (List.cons.inj htail).2]
      simp
    exact absurd hmem (by simp [hname])

/-- A body without an end of its element runs up to the tag that closes it. -/
theorem runs_body {tag : TagText} {depth : Nat} (body : List Char)
    (hbody : holdsEnd tag.key body = false) (h : Runs ⟨depth, none⟩ rest last) :
    Runs ⟨depth + 1, some tag.key⟩
      (body.map (fun c => ⟨⟨depth + 1, some tag.key⟩, .char c⟩) ++
        ⟨⟨depth + 1, some tag.key⟩, .closing tag⟩ :: rest) last := by
  induction body with
  | nil => exact .cons .closingRaw (fun _ _ _ => ⟨tag, rfl⟩) h
  | cons c body ih =>
    have hnone : ¬ startsEnd tag.key (c :: body) ∧ holdsEnd tag.key body = false := by
      rw [← closeIndex?_eq_none_iff, closeIndex?, indexOf?_eq_none_iff_not_infix] at hbody ⊢
      exact ⟨fun hstarts => hbody hstarts.isInfix,
        fun hholds => hbody (hholds.trans (List.suffix_cons _ _).isInfix)⟩
    rw [List.map_cons, List.cons_append]
    refine .cons .charRaw (fun name hname hstarts => absurd ?_ hnone.1) (ih hnone.2)
    obtain rfl := Option.some.inj hname
    rw [spotsText_append, spotsText_map_char, ← List.append_assoc, spotsText_cons] at hstarts
    exact startsEnd_of_append (angle_not_mem_key tag) (List.cons_ne_nil c body) hstarts

/-- Characters between tags run where they are. -/
theorem runs_text {content : List Char} {depth : Nat} (hcontent : '<' ∉ content)
    (h : Runs ⟨depth, none⟩ rest last) :
    Runs ⟨depth, none⟩ (content.map (fun c => ⟨⟨depth, none⟩, .char c⟩) ++ rest) last := by
  induction content with
  | nil => exact h
  | cons c content ih =>
    obtain ⟨hc, hcontent⟩ := List.ne_and_not_mem_of_not_mem_cons hcontent
    exact .cons (.char hc.symm) (by simp) (ih hcontent)

/-- Behind nodes everything runs on as it would in front of them. -/
theorem Markup.runs_append (markup : Markup) {depth : Nat} (h : Runs ⟨depth, none⟩ rest last) :
    Runs ⟨depth, none⟩ (markup.spots depth ++ rest) last := by
  induction markup generalizing depth rest with
  | nil => exact h
  | text content hplain _ ih =>
    rw [spots, List.append_assoc]
    exact runs_text hplain (ih h)
  | lone tag hbodiless _ ih => exact .cons (.lone hbodiless) (by simp) (ih h)
  | element tag hbodied inside _ ihInside ih =>
    rw [spots, List.cons_append, List.cons_append, List.append_assoc]
    exact .cons (.opening hbodied) (by simp) (ihInside (.cons .closing (by simp) (ih h)))
  | raw tag hbodied body hendless _ ih =>
    rw [spots, List.cons_append, List.cons_append, List.append_assoc]
    exact .cons (.openingRaw hbodied) (by simp) (runs_body body hendless (ih h))

/-- **Trees run.** Behind nodes the same elements are open as in front of them. -/
theorem Markup.runs_spots (markup : Markup) (depth : Nat) :
    Runs ⟨depth, none⟩ (markup.spots depth) ⟨depth, none⟩ := by
  have hruns : Runs ⟨depth, none⟩ (markup.spots depth ++ []) ⟨depth, none⟩ :=
    markup.runs_append .nil
  rw [List.append_nil] at hruns
  exact hruns

end PageLoom
