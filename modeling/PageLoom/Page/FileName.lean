namespace PageLoom

/-!
# File names

A file name is cut at its dots. What stands before the first dot is the key, and what stands
between the first and the second dot the extension.

* `keyOf`, `extensionOf?` — key and extension of a file name;
* `ExtensionFilter` — a choice of files by extension.
-/

/-- The file name up to its first dot. -/
def keyOf (name : String) : String :=
  String.ofList (name.toList.takeWhile (· ≠ '.'))

/-- The piece of the file name between its first and its second dot, if there is a dot. -/
def extensionOf? (name : String) : Option String :=
  match name.toList.dropWhile (· ≠ '.') with
  | [] => none
  | _ :: rest => some (String.ofList (rest.takeWhile (· ≠ '.')))

/-- A choice of files by extension: all files, or those with one of the given extensions. -/
inductive ExtensionFilter where
  | any
  | oneOf (extensions : List String)
  deriving DecidableEq, Repr

namespace ExtensionFilter

/-- The filter chooses files with this extension. Files without one are chosen only by
    `any`. -/
def accepts : ExtensionFilter → Option String → Bool
  | .any, _ => true
  | .oneOf _, none => false
  | .oneOf extensions, some extension => extensions.contains extension

end ExtensionFilter

end PageLoom
