namespace PageLoom.Markdown

/-!
# Escapes of HTML

* `escapeText`, `escapeAttribute` — text and attribute values in HTML;
* `escapeHref` — an address in an attribute;
* `mem_escapeText`, `mem_escapeAttribute` — which characters are written.
-/

/-- A character of text. -/
private def textChar (c : Char) : List Char :=
  if c = '&' then "&amp;".toList
  else if c = '<' then "&lt;".toList
  else if c = '>' then "&gt;".toList
  else [c]

/-- Text in HTML. -/
def escapeText (text : List Char) : List Char :=
  text.flatMap textChar

/-- What stands for a character is the character itself or a reference, and has no angle. -/
private theorem mem_textChar {c d : Char} (h : c ∈ textChar d) :
    c ≠ '<' ∧ c ≠ '>' ∧ (c = d ∨ c ∈ "&amp;&lt;&gt;".toList) := by
  have hreference : '<' ∉ "&amp;&lt;&gt;".toList ∧ '>' ∉ "&amp;&lt;&gt;".toList := by decide
  have hmem : ∀ e ∈ "&amp;&lt;&gt;".toList, e ≠ '<' ∧ e ≠ '>' ∧ (e = d ∨ e ∈ "&amp;&lt;&gt;".toList) :=
    fun e he => ⟨ne_of_mem_of_not_mem he hreference.1, ne_of_mem_of_not_mem he hreference.2, .inr he⟩
  unfold textChar at h
  split at h
  · exact hmem c (List.mem_append_left "&lt;&gt;".toList h)
  split at h
  · exact hmem c (List.mem_append_right "&amp;".toList (List.mem_append_left "&gt;".toList h))
  split at h
  · exact hmem c (List.mem_append_right "&amp;&lt;".toList h)
  · rename_i hlt hgt
    rw [List.mem_singleton.mp h]
    exact ⟨hlt, hgt, .inl rfl⟩

/-- **Escaped text.** Escaped text has no angles, and its characters are those of the text and of
    references. -/
theorem mem_escapeText {c : Char} {text : List Char} (h : c ∈ escapeText text) :
    c ≠ '<' ∧ c ≠ '>' ∧ (c ∈ text ∨ c ∈ "&amp;&lt;&gt;".toList) := by
  obtain ⟨d, hd, hc⟩ := List.mem_flatMap.mp h
  obtain ⟨hlt, hgt, hmem⟩ := mem_textChar hc
  exact ⟨hlt, hgt, hmem.imp_left fun (heq : c = d) => heq ▸ hd⟩

/-- An attribute value in HTML. -/
def escapeAttribute (text : List Char) : List Char :=
  text.flatMap fun c => if c = '"' then "&quot;".toList else textChar c

/-- An attribute value has no angles. -/
theorem mem_escapeAttribute {c : Char} {text : List Char} (h : c ∈ escapeAttribute text) :
    c ≠ '<' ∧ c ≠ '>' := by
  obtain ⟨d, -, hc⟩ := List.mem_flatMap.mp h
  split at hc
  · have hquote : '<' ∉ "&quot;".toList ∧ '>' ∉ "&quot;".toList := by decide
    exact ⟨ne_of_mem_of_not_mem hc hquote.1, ne_of_mem_of_not_mem hc hquote.2⟩
  · exact ⟨(mem_textChar hc).1, (mem_textChar hc).2.1⟩

/-- The character stands for itself in an address. -/
private def isAddressChar (c : Char) : Bool :=
  c.isAlphanum || "!#$%()*+,-./:;=?@_~".toList.contains c

/-- A byte in base sixteen behind a percent sign. -/
private def percentByte (byte : UInt8) : List Char :=
  let digit (n : Nat) : Char := ("0123456789ABCDEF".toList[n]?).getD '0'
  ['%', digit (byte.toNat / 16), digit (byte.toNat % 16)]

/-- An address in an attribute. -/
def escapeHref (address : List Char) : List Char :=
  address.flatMap fun c =>
    if isAddressChar c then [c]
    else if c = '&' then "&amp;".toList
    else if c = '\'' then "&#x27;".toList
    else c.toString.toUTF8.toList.flatMap percentByte

end PageLoom.Markdown
