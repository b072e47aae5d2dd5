/-!
# The text of a TOML document

Line ends come as a line feed, with or without a carriage return in front, and count as the line
feed alone. Other control characters than tabs and line ends may not stand anywhere.

A string stands between quotes. It is first cut out of the text, up to the quotes that end it, and
then the escapes of its inside are resolved, if it is of the kind that has them: the strings between
double quotes, not those between single ones.
-/

namespace PartitionSnapshot.Toml

/-! ## Characters -/

/-- Whether a character may stand in a document whose line ends are line feeds. -/
def isAllowed (c : Char) : Bool :=
  c == '\t' || c == '\n' || (' ' ≤ c && c != '\x7f')

/-- The text with every line end as a line feed, unless it has characters that may not stand in a
document. -/
def unifyLineEnds? : List Char → Option (List Char)
  | [] => some []
  | '\r' :: '\n' :: rest => ('\n' :: ·) <$> unifyLineEnds? rest
  | c :: rest => if isAllowed c then (c :: ·) <$> unifyLineEnds? rest else none

/-- The characters of a document, without a byte order mark in front. -/
def characters? (text : String) : Option (List Char) :=
  match text.toList with
  | '\uFEFF' :: rest => unifyLineEnds? rest
  | cs => unifyLineEnds? cs

/-- The blanks inside a line: space and tab. -/
def isBlank (c : Char) : Bool := c == ' ' || c == '\t'

/-! ## Cutting strings out -/

/-- Cuts at the quote that ends a string of one line. `escapes` says whether a backslash keeps the
next character from ending it; the line ends all the same. -/
def cutLine? (quote : Char) (escapes : Bool) : List Char → Option (List Char × List Char)
  | [] => none
  | c :: rest =>
    if c = quote then some ([], rest)
    else if c = '\n' then none
    else if escapes && c == '\\' then
      match rest with
      | [] => none
      | d :: rest =>
        if d = '\n' then none
        else (cutLine? quote escapes rest).map fun (inside, after) => (c :: d :: inside, after)
    else (cutLine? quote escapes rest).map fun (inside, after) => (c :: inside, after)

/-- Cuts at the three quotes that end a string of several lines. Up to two more quotes in front of
them belong to the string. -/
def cutLines? (quote : Char) (escapes : Bool) : List Char → Option (List Char × List Char)
  | [] => none
  | c :: rest =>
    if c = quote ∧ rest.take 2 = [quote, quote] then
      let after := rest.drop 2
      let more := (after.takeWhile (· = quote)).take 2
      some (more, after.drop more.length)
    else if escapes && c == '\\' then
      match rest with
      | [] => none
      | d :: rest => (cutLines? quote escapes rest).map fun (inside, after) =>
          (c :: d :: inside, after)
    else (cutLines? quote escapes rest).map fun (inside, after) => (c :: inside, after)

/-! ## Resolving escapes -/

/-- Where a reader of escapes is. -/
inductive Unescaping where
  | plain
  /-- After a backslash. -/
  | escape
  /-- Inside a code point, of which so many more digits are owed. -/
  | code (owed value : Nat)
  /-- After a backslash and blanks, which only the end of the line may follow. -/
  | lineEnd
  /-- After an escaped line end, with the blanks and line ends that go with it. -/
  | margin

/-- The character that a one-letter escape stands for. -/
def shortEscape? (letter : Char) : Option Char :=
  match letter with
  | 'b' => some '\x08'
  | 't' => some '\t'
  | 'n' => some '\n'
  | 'f' => some '\x0c'
  | 'r' => some '\r'
  | '"' => some '"'
  | '\\' => some '\\'
  | _ => none

/-- The value of a hexadecimal digit of either case. -/
def hexDigit? (c : Char) : Option Nat :=
  if '0' ≤ c ∧ c ≤ '9' then some (c.toNat - 0x30)
  else if 'a' ≤ c ∧ c ≤ 'f' then some (c.toNat - 0x57)
  else if 'A' ≤ c ∧ c ≤ 'F' then some (c.toNat - 0x37)
  else none

/-- Takes one character outside an escape. -/
def takePlain (c : Char) : List Char × Unescaping :=
  if c = '\\' then ([], .escape) else ([c], .plain)

/-- Takes the first character of an escape. -/
def takeEscape? (c : Char) : Option (List Char × Unescaping) :=
  match shortEscape? c with
  | some d => some ([d], .plain)
  | none =>
    if c = 'u' then some ([], .code 4 0)
    else if c = 'U' then some ([], .code 8 0)
    else if c = '\n' then some ([], .margin)
    else if isBlank c then some ([], .lineEnd)
    else none

/-- Takes a digit of a code point, which has to be that of a character once it is complete. -/
def takeDigit? (owed value : Nat) (c : Char) : Option (List Char × Unescaping) := do
  let value := 16 * value + (← hexDigit? c)
  if owed ≤ 1 then
    if value.isValidChar then return ([Char.ofNat value], .plain) else none
  else return ([], .code (owed - 1) value)

/-- Takes one character, and says what it adds to the string. -/
def unescapeStep? : Unescaping → Char → Option (List Char × Unescaping)
  | .plain, c => some (takePlain c)
  | .escape, c => takeEscape? c
  | .code owed value, c => takeDigit? owed value c
  | .lineEnd, c =>
    if c = '\n' then some ([], .margin) else if isBlank c then some ([], .lineEnd) else none
  | .margin, c => if c = '\n' ∨ isBlank c then some ([], .margin) else some (takePlain c)

/-- Resolves the escapes in the rest of the inside of a string. -/
def unescapeFrom? : Unescaping → List Char → Option (List Char)
  | .plain, [] => some []
  | .margin, [] => some []
  | _, [] => none
  | state, c :: rest =>
    match unescapeStep? state c with
    | some (front, state) => (front ++ ·) <$> unescapeFrom? state rest
    | none => none

/-- Resolves the escapes of the inside of a string. -/
def unescape? (inside : List Char) : Option (List Char) :=
  unescapeFrom? .plain inside

/-! ## Strings -/

/-- The inside of a string with its escapes resolved, if it has them. -/
def resolve? (escapes : Bool) (inside : List Char) : Option String :=
  if escapes then String.ofList <$> unescape? inside else some (String.ofList inside)

/-- The string of one line that a text begins with, and what follows it. -/
def lineString? : List Char → Option (String × List Char)
  | c :: rest =>
    if c = '"' ∨ c = '\'' then do
      let (inside, after) ← cutLine? c (c == '"') rest
      return (← resolve? (c == '"') inside, after)
    else none
  | [] => none

/-- The string that a text begins with, of one line or of several, and what follows it. The line
end after the quotes that begin a string of several lines does not count. -/
def string? (cs : List Char) : Option (String × List Char) :=
  match cs with
  | a :: b :: c :: rest =>
    if (a = '"' ∨ a = '\'') ∧ b = a ∧ c = a then do
      let rest := if rest.head? = some '\n' then rest.tail else rest
      let (inside, after) ← cutLines? a (a == '"') rest
      return (← resolve? (a == '"') inside, after)
    else lineString? cs
  | _ => lineString? cs

end PartitionSnapshot.Toml
