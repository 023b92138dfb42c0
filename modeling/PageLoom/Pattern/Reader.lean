import PageLoom.Pattern.Basic

namespace PageLoom

/-!
# Written patterns

Patterns are written as regular expressions: `.`, classes in brackets, `\w \s \d \b` and
their opposites, `^` and `$`, groups, `|`, and the repetitions `* + ? {m} {m,} {m,n}`, each
greedy or, with a further `?`, lazy. The flags `s`, `m` and `i` hold from where they are set
to the end of their group.

* `PatternFlags` — the flags in force;
* `Pattern.read?` — the pattern that a text denotes.
-/

/-- The flags of a written pattern: `.` passes line feeds, `^` and `$` match at lines, case is
    ignored. -/
structure PatternFlags where
  dotAll : Bool
  perLine : Bool
  foldCase : Bool
  deriving Repr, DecidableEq

namespace PatternFlags

/-- No flag is set. -/
def none : PatternFlags :=
  ⟨false, false, false⟩

/-- The flags after reading flag letters, with the sign that stopped them and what follows.
    A minus turns later letters off. -/
def read? (flags : PatternFlags) (value : Bool) : List Char → Option (PatternFlags × Char × List Char)
  | 's' :: rest => read? { flags with dotAll := value } value rest
  | 'm' :: rest => read? { flags with perLine := value } value rest
  | 'i' :: rest => read? { flags with foldCase := value } value rest
  | '-' :: rest => read? flags false rest
  | ':' :: rest => some (flags, ':', rest)
  | ')' :: rest => some (flags, ')', rest)
  | _ => Option.none

end PatternFlags

namespace Pattern

/-- The named class or the character that an escape stands for. -/
def escapedItem (c : Char) : CharItem :=
  match c with
  | 'w' => .word
  | 's' => .blank
  | 'd' => .digit
  | 'W' => .other .word
  | 'S' => .other .blank
  | 'D' => .other .digit
  | 'n' => .range '\n' '\n'
  | 't' => .range '\t' '\t'
  | 'r' => .range '\r' '\r'
  | c => .range c c

/-- The pattern that an escape stands for. -/
def escaped (flags : PatternFlags) (c : Char) : Pattern :=
  match c with
  | 'b' => .check .wordEdge
  | 'B' => .check .noWordEdge
  | 'A' => .check .textStart
  | 'z' => .check .textEnd
  | c => .one ⟨[escapedItem c], false, flags.foldCase⟩

/-- The single character of an item, if it has just one. -/
private def CharItem.single? : CharItem → Option Char
  | .range first last => if first = last then some first else none
  | _ => none

/-- One member of a class in brackets. -/
private def member? : List Char → Option (CharItem × List Char)
  | '\\' :: c :: rest => some (escapedItem c, rest)
  | c :: rest => some (.range c c, rest)
  | [] => none

/-- The members of a class up to its closing bracket. -/
private def members? : (fuel : Nat) → (items : List CharItem) → List Char →
    Option (List CharItem × List Char)
  | 0, _, _ => none
  | fuel + 1, items, text =>
    match text with
    | ']' :: rest =>
      if items.isEmpty then more fuel items text else some (items.reverse, rest)
    | _ => more fuel items text
where
  /-- Reads one member, with a range if a minus and a second character follow. -/
  more (fuel : Nat) (items : List CharItem) (text : List Char) :
      Option (List CharItem × List Char) := do
    let (item, rest) ← member? text
    match CharItem.single? item, rest with
    | some first, '-' :: after =>
      if after.head? = some ']' then members? fuel (item :: items) rest
      else
        let (other, rest) ← member? after
        match CharItem.single? other with
        | some last => members? fuel (.range first last :: items) rest
        | none => none
    | _, _ => members? fuel (item :: items) rest

/-- The number written at the start of the text. -/
private def number? (text : List Char) : Option (Nat × List Char) :=
  let digits := text.takeWhile Char.isDigit
  if digits.isEmpty then none
  else some (digits.foldl (fun n d => n * 10 + (d.toNat - '0'.toNat)) 0, text.drop digits.length)

/-- The bounds of a repetition, after its opening brace. -/
private def bounds? (text : List Char) : Option (Nat × Option Nat × List Char) := do
  let (least, rest) ← number? text
  match rest with
  | '}' :: after => some (least, some least, after)
  | ',' :: '}' :: after => some (least, none, after)
  | ',' :: after =>
    let (most, rest) ← number? after
    match rest with
    | '}' :: after => if least ≤ most then some (least, some most, after) else none
    | _ => none
  | _ => none

/-- A repetition sign: the least and the largest number of rounds, and what follows. -/
def repetition? : List Char → Option (Nat × Option Nat × List Char)
  | '*' :: rest => some (0, none, rest)
  | '+' :: rest => some (1, none, rest)
  | '?' :: rest => some (0, some 1, rest)
  | '{' :: rest => bounds? rest
  | _ => none

/-- The pattern with the repetitions written after it. -/
def quantified : (fuel : Nat) → Pattern → List Char → Pattern × List Char
  | 0, pattern, text => (pattern, text)
  | fuel + 1, pattern, text =>
    match repetition? text with
    | none => (pattern, text)
    | some (least, most, '?' :: rest) => quantified fuel (repeated false pattern most least) rest
    | some (least, most, rest) => quantified fuel (repeated true pattern most least) rest

/-- The sequence of the factors, which are given last one first. -/
def sequence (factors : List Pattern) : Pattern :=
  factors.foldl (fun tail factor => if tail = .empty then factor else .seq factor tail) .empty

/-- The alternatives, which are given last one first. -/
def alternatives (last : Pattern) (earlier : List Pattern) : Pattern :=
  earlier.foldl (fun tail branch => .either branch tail) last

/-- The pattern of a group up to its closing parenthesis or the end of the text. The branches
    read so far and the factors of the current one are given last one first. -/
def group? : (fuel : Nat) → PatternFlags → (branches factors : List Pattern) →
    List Char → Option (Pattern × List Char)
  | 0, _, _, _, _ => none
  | fuel + 1, flags, branches, factors, text =>
    let next (pattern : Pattern) (rest : List Char) :=
      let (pattern, rest) := quantified (rest.length + 1) pattern rest
      group? fuel flags branches (pattern :: factors) rest
    let nested (flags : PatternFlags) (rest : List Char) := do
      match ← group? fuel flags [] [] rest with
      | (pattern, ')' :: rest) => next pattern rest
      | _ => none
    match text with
    | [] => some (alternatives (sequence factors) branches, [])
    | ')' :: _ => some (alternatives (sequence factors) branches, text)
    | '|' :: rest => group? fuel flags (sequence factors :: branches) [] rest
    | '(' :: '?' :: rest => do
      match ← flags.read? true rest with
      | (flags, ':', rest) => nested flags rest
      | (flags, _, rest) => group? fuel flags branches factors rest
    | '(' :: rest => nested flags rest
    | '[' :: '^' :: rest => do
      let (items, rest) ← members? (rest.length + 1) [] rest
      next (.one ⟨items, true, flags.foldCase⟩) rest
    | '[' :: rest => do
      let (items, rest) ← members? (rest.length + 1) [] rest
      next (.one ⟨items, false, flags.foldCase⟩) rest
    | '.' :: rest => next (.one ⟨if flags.dotAll then [] else [.range '\n' '\n'], true, false⟩) rest
    | '^' :: rest => next (.check (if flags.perLine then .lineStart else .textStart)) rest
    | '$' :: rest => next (.check (if flags.perLine then .lineEnd else .textEnd)) rest
    | '\\' :: c :: rest => next (escaped flags c) rest
    | '\\' :: [] => none
    | c :: rest =>
      if (repetition? text).isSome then none
      else next (.one ⟨[.range c c], false, flags.foldCase⟩) rest

/-- The pattern that a text denotes. -/
def read? (text : List Char) : Option Pattern := do
  match ← group? (text.length + 1) .none [] [] text with
  | (pattern, []) => some pattern
  | _ => none

end Pattern

end PageLoom
