import PageLoom.Config.Load
import PageLoom.Proofs.Config.Quote
import PageLoom.Proofs.Config.Tree

namespace PageLoom

/-!
# Configurations in JSON

A tree is written without blanks, and read as it was.

* `Json.write` — the text of a tree;
* `Json.value_write` — a value is read, whatever follows it;
* `Json.document_write` — so is a whole text;
* `SiteConfig.json`, `SiteConfig.ofText_json` — the text of a configuration, and what it is read as.
-/

namespace Json

mutual

/-- The text of a tree. -/
def write (wished : Char → Bool) : ConfigTree → List Char
  | .null => ['n', 'u', 'l', 'l']
  | .bool true => ['t', 'r', 'u', 'e']
  | .bool false => ['f', 'a', 'l', 's', 'e']
  | .text value => quote wished value
  | .list items => '[' :: (writeItems wished items ++ [']'])
  | .table members => '{' :: (writeMembers wished members ++ ['}'])

/-- The items of a list, with commas between them. -/
def writeItems (wished : Char → Bool) : List ConfigTree → List Char
  | [] => []
  | [item] => write wished item
  | item :: next :: items => write wished item ++ ',' :: writeItems wished (next :: items)

/-- The members of a table, with commas between them. -/
def writeMembers (wished : Char → Bool) : List (String × ConfigTree) → List Char
  | [] => []
  | [(key, item)] => quote wished key ++ ':' :: write wished item
  | (key, item) :: next :: members =>
    quote wished key ++ ':' :: (write wished item ++ ',' :: writeMembers wished (next :: members))

end

variable {wished : Char → Bool} {fuel : Nat} {rest : List Char}

/-- No blank is passed over in front of any other character. -/
theorem skipBlanks_cons {c : Char} (h : c ≠ ' ' ∧ c ≠ '\n' ∧ c ≠ '\t' ∧ c ≠ '\r') :
    skipBlanks (c :: rest) = c :: rest := by
  rw [skipBlanks, List.dropWhile_cons_of_neg]
  simp [h]

/-- The text of a tree has at least two characters, and starts with none that ends something. -/
theorem exists_cons_of_write (wished : Char → Bool) (tree : ConfigTree) :
    ∃ first more, write wished tree = first :: more ∧ more ≠ [] ∧
      (first ≠ ' ' ∧ first ≠ '\n' ∧ first ≠ '\t' ∧ first ≠ '\r') ∧ first ≠ ']' := by
  cases tree with
  | null => exact ⟨'n', _, rfl, by decide⟩
  | bool value => cases value <;> exact ⟨_, _, rfl, by decide⟩
  | text value => exact ⟨'"', _, rfl, by simp, by decide⟩
  | list items => exact ⟨'[', _, rfl, by simp, by decide⟩
  | table members => exact ⟨'{', _, rfl, by simp, by decide⟩

/-- The items of a list start as the first one of them. -/
theorem exists_cons_of_writeItems (wished : Char → Bool) (item : ConfigTree)
    (items : List ConfigTree) : ∃ first more, writeItems wished (item :: items) = first :: more ∧
      (first ≠ ' ' ∧ first ≠ '\n' ∧ first ≠ '\t' ∧ first ≠ '\r') ∧ first ≠ ']' := by
  obtain ⟨first, more, htext, -, hfirst⟩ := exists_cons_of_write wished item
  cases items with
  | nil => exact ⟨first, more, htext, hfirst⟩
  | cons next items =>
    rw [writeItems, htext]
    exact ⟨first, _, rfl, hfirst⟩

/-- The members of a table start with a quote. -/
theorem exists_cons_of_writeMembers (wished : Char → Bool) (member : String × ConfigTree)
    (members : List (String × ConfigTree)) :
    ∃ more, writeMembers wished (member :: members) = '"' :: more := by
  cases members with
  | nil => exact ⟨_, rfl⟩
  | cons next members => exact ⟨_, rfl⟩

mutual

/-- **Values.** The text of a tree is read as that tree, whatever follows. -/
theorem value_write (tree : ConfigTree) (fuel : Nat) (rest : List Char)
    (hfuel : 3 * (write wished tree).length ≤ fuel) :
    value fuel (write wished tree ++ rest) = (tree.datum, some rest) := by
  obtain ⟨less, rfl⟩ : ∃ less, fuel = less + 1 := by
    obtain ⟨first, more, htext, -⟩ := exists_cons_of_write wished tree
    rw [htext, List.length_cons] at hfuel
    exact Nat.exists_eq_add_one.mpr (by omega)
  -- From one value to the next inside it the fuel goes down by three, and the text by a bracket.
  match tree with
  | .null => rfl
  | .bool true => rfl
  | .bool false => rfl
  | .text text =>
    rw [write, quote, List.cons_append, List.append_assoc, value, skipBlanks_cons (by decide)]
    simp only [if_true, List.singleton_append, string_quote, ConfigTree.datum]
  | .list items =>
    simp only [write, List.length_cons, List.length_append, List.length_nil] at hfuel
    have hitems := items_write items less rest (by omega)
    rw [write, List.cons_append, List.append_assoc, value, skipBlanks_cons (by decide)]
    simp [hitems, ConfigTree.datum]
  | .table members =>
    simp only [write, List.length_cons, List.length_append, List.length_nil] at hfuel
    have hmembers := members_write members less rest (by omega)
    rw [write, List.cons_append, List.append_assoc, value, skipBlanks_cons (by decide)]
    simp [hmembers, ConfigTree.datum]
termination_by fuel

/-- The items of a list are read up to its bracket. -/
theorem items_write (trees : List ConfigTree) (fuel : Nat) (rest : List Char)
    (hfuel : 3 * (writeItems wished trees).length + 1 < fuel) :
    items fuel (skipBlanks (writeItems wished trees ++ ']' :: rest)) =
      (ConfigTree.itemData trees, none, some rest) := by
  obtain ⟨less, rfl⟩ : ∃ less, fuel = less + 1 := Nat.exists_eq_add_one.mpr (by omega)
  match trees with
  | [] => rfl
  | tree :: trees =>
    have hmore := moreItems_write tree trees less rest (by omega)
    -- The first item does not start like the end of an empty list.
    obtain ⟨first, more, htext, hblank, hfirst⟩ := exists_cons_of_writeItems wished tree trees
    rw [htext, List.cons_append] at hmore ⊢
    rw [skipBlanks_cons hblank, items, if_neg hfirst, hmore]
termination_by fuel

/-- The items of a list that is not empty are read one after the other. -/
theorem moreItems_write (tree : ConfigTree) (trees : List ConfigTree) (fuel : Nat)
    (rest : List Char) (hfuel : 3 * (writeItems wished (tree :: trees)).length < fuel) :
    moreItems fuel (writeItems wished (tree :: trees) ++ ']' :: rest) =
      (ConfigTree.itemData (tree :: trees), none, some rest) := by
  obtain ⟨less, rfl⟩ : ∃ less, fuel = less + 1 := Nat.exists_eq_add_one.mpr (by omega)
  match trees with
  | [] =>
    rw [writeItems] at hfuel ⊢
    rw [moreItems, value_write tree less _ (by omega)]
    simp only [skipBlanks_cons (by decide : (']' : Char) ≠ ' ' ∧ _), if_true]
    rfl
  | next :: trees =>
    rw [writeItems] at hfuel ⊢
    simp only [List.length_append, List.length_cons] at hfuel
    have hmore := moreItems_write next trees less rest (by omega)
    rw [List.append_assoc, moreItems, value_write tree less _ (by omega)]
    simp only [List.cons_append, skipBlanks_cons (by decide : (',' : Char) ≠ ' ' ∧ _), if_true,
      if_neg (by decide : (',' : Char) ≠ ']'), hmore]
    rfl
termination_by fuel

/-- The members of a table are read up to its brace. -/
theorem members_write (trees : List (String × ConfigTree)) (fuel : Nat) (rest : List Char)
    (hfuel : 3 * (writeMembers wished trees).length + 1 < fuel) :
    members fuel (skipBlanks (writeMembers wished trees ++ '}' :: rest)) =
      (ConfigTree.memberData trees, none, some rest) := by
  obtain ⟨less, rfl⟩ : ∃ less, fuel = less + 1 := Nat.exists_eq_add_one.mpr (by omega)
  match trees with
  | [] => rfl
  | member :: trees =>
    have hmore := moreMembers_write member trees less rest (by omega)
    obtain ⟨more, htext⟩ := exists_cons_of_writeMembers wished member trees
    rw [htext, List.cons_append] at hmore ⊢
    rw [skipBlanks_cons (by decide), members, if_neg (by decide), hmore]
termination_by fuel

/-- The members of a table that is not empty are read one after the other. -/
theorem moreMembers_write (member : String × ConfigTree) (trees : List (String × ConfigTree))
    (fuel : Nat) (rest : List Char)
    (hfuel : 3 * (writeMembers wished (member :: trees)).length < fuel) :
    moreMembers fuel (writeMembers wished (member :: trees) ++ '}' :: rest) =
      (ConfigTree.memberData (member :: trees), none, some rest) := by
  obtain ⟨less, rfl⟩ : ∃ less, fuel = less + 1 := Nat.exists_eq_add_one.mpr (by omega)
  match member, trees with
  | (key, tree), [] =>
    rw [writeMembers] at hfuel ⊢
    simp only [List.length_append, List.length_cons] at hfuel
    have hvalue := value_write tree less ('}' :: rest) (by omega)
    rw [quote]
    simp only [List.cons_append, List.append_assoc, List.nil_append, moreMembers, string_quote,
      skipBlanks_cons (by decide : (':' : Char) ≠ ' ' ∧ _), hvalue,
      skipBlanks_cons (by decide : ('}' : Char) ≠ ' ' ∧ _)]
    rfl
  | (key, tree), next :: trees =>
    rw [writeMembers] at hfuel ⊢
    simp only [List.length_append, List.length_cons] at hfuel
    have hvalue := value_write tree less
      (',' :: (writeMembers wished (next :: trees) ++ '}' :: rest)) (by omega)
    have hmore := moreMembers_write next trees less rest (by omega)
    -- Behind a comma there has to be another key.
    obtain ⟨more, htext⟩ := exists_cons_of_writeMembers wished next trees
    rw [quote]
    simp only [List.cons_append, List.append_assoc, List.nil_append, moreMembers, string_quote,
      skipBlanks_cons (by decide : (':' : Char) ≠ ' ' ∧ _), hvalue,
      skipBlanks_cons (by decide : (',' : Char) ≠ ' ' ∧ _)]
    rw [htext, List.cons_append] at hmore ⊢
    rw [skipBlanks_cons (by decide)]
    simp [hmore, ConfigTree.memberData]
termination_by fuel

end

/-- **Whole texts.** The text of a tree is read as that tree, and nothing is left over. -/
theorem document_write (wished : Char → Bool) (tree : ConfigTree) :
    document (write wished tree) = (tree.datum, none) := by
  have hvalue : value (3 * (write wished tree).length + 3) (write wished tree ++ []) =
      (tree.datum, some []) := value_write tree _ [] (Nat.le_add_right _ _)
  rw [List.append_nil] at hvalue
  rw [document, hvalue]
  rfl

example : write (fun _ => false) (.table [("a", .list [.text "\"", .null]), ("b", .bool true)]) =
    "\x7b\"a\":[\"\\\"\",null],\"b\":true\x7d".toList := by
  decide

end Json

namespace SiteConfig

/-- The text of a configuration in JSON. -/
def json (omission : Omission) (wished : Char → Bool) (config : SiteConfig) : String :=
  String.ofList (Json.write wished (config.tree omission))

/-- **JSON.** The text of a configuration in JSON gives that configuration. -/
theorem ofText_json (omission : Omission) (wished : Char → Bool) {config : SiteConfig}
    (hpages : (config.pages.map Prod.fst).Nodup) :
    ofText .json (config.json omission wished) = .ok config := by
  rw [ofText, json, String.toList_ofList, Json.document_write]
  simp only [ofDatum_tree true omission hpages]
  rfl

end SiteConfig

end PageLoom
