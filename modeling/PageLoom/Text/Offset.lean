namespace PageLoom

/-!
# Byte offsets

Places in a text are counted in characters inside the library and in bytes of UTF-8 where
they are shown.

* `byteLength` — the number of bytes of a text;
* `charsBefore?` — the number of characters before a byte offset, if the offset is the start
  of a character or the end of the text.
-/

/-- The number of bytes that the text takes in UTF-8. -/
def byteLength (text : List Char) : Nat :=
  text.foldl (fun n c => n + c.utf8Size) 0

/-- The number of characters before a byte offset, or nothing inside a character or after
    the end. -/
def charsBefore? : Nat → List Char → Option Nat
  | 0, _ => some 0
  | _ + 1, [] => none
  | offset + 1, c :: rest =>
    if c.utf8Size ≤ offset + 1 then (charsBefore? (offset + 1 - c.utf8Size) rest).map (· + 1)
    else none
termination_by _ rest => rest.length

end PageLoom
