import PageLoom.Text.Punctuation

namespace PageLoom.Markdown

/-!
# Links written out

An address between angle brackets is a link to itself.

* `address?` — an address with a scheme;
* `mailAddress?` — an address of mail.
-/

/-- The character may stand in a scheme after the first one. -/
private def isSchemeChar (c : Char) : Bool :=
  c.isAlphanum || c = '.' || c = '-' || c = '+'

/-- Reads an address whose `<` was read: a scheme of 2 to 32 characters, a colon, and
    characters that are no blanks or brackets. Gives the address and the text after `>`. -/
def address? (text : List Char) : Option (List Char × List Char) :=
  let scheme := text.takeWhile isSchemeChar
  if !(text.head?.any Char.isAlpha) || scheme.length < 2 || 32 < scheme.length then none
  else
    match text.drop scheme.length with
    | ':' :: rest =>
      let tail := rest.takeWhile fun c => 0x20 < c.toNat && c ≠ '<' && c ≠ '>'
      match rest.drop tail.length with
      | '>' :: after => some (scheme ++ ':' :: tail, after)
      | _ => none
    | _ => none

/-- The character may stand in a mail address before the `@`. -/
private def isMailNameChar (c : Char) : Bool :=
  c.isAlphanum || ".!#$%&'*+/=?^_\x60\x7b|\x7d~-".toList.contains c

/-- Labels of a domain: letters, digits and inner hyphens, 1 to 63 of them. -/
private def isDomainLabel (label : List Char) : Bool :=
  label.head? ≠ some '-' && label.getLast? ≠ some '-' && 1 ≤ label.length && label.length ≤ 63

/-- The pieces of a text between dots. -/
private def dotPieces : List Char → List (List Char)
  | [] => [[]]
  | c :: rest =>
    if c = '.' then [] :: dotPieces rest
    else
      match dotPieces rest with
      | [] => [[c]]
      | first :: more => (c :: first) :: more

/-- Reads a mail address whose `<` was read. Gives the address and the text after `>`. -/
def mailAddress? (text : List Char) : Option (List Char × List Char) :=
  let name := text.takeWhile isMailNameChar
  match text.drop name.length with
  | '@' :: rest =>
    let domain := rest.takeWhile fun c => c.isAlphanum || c = '-' || c = '.'
    match rest.drop domain.length with
    | '>' :: after =>
      if name.isEmpty || !(dotPieces domain).all isDomainLabel then none
      else some (name ++ '@' :: domain, after)
    | _ => none
  | _ => none

end PageLoom.Markdown
