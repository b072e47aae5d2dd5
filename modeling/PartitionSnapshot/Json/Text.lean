import PartitionSnapshot.Json.Fault

/-!
# JSON strings

Between the quotes of a JSON string stand bytes and escapes. A machine reads the inside of a string
one byte at a time and gives the UTF-8 bytes of its text; control characters have to be escaped, and
the halves of a surrogate pair have to follow each other.

A string that nobody reads is only passed over: its escapes have to be well formed, but it need not
be text.
-/

namespace PartitionSnapshot.Json

/-! ## Writing -/

/-- The byte of a hexadecimal digit below sixteen, in lower case. -/
def hexByte (digit : Nat) : UInt8 :=
  UInt8.ofNat (if digit < 10 then 0x30 + digit else 0x57 + digit)

/-- One byte of a string: quotes, backslashes and control characters are escaped. -/
def escapeByte (byte : UInt8) : Bytes :=
  if byte = 0x22 then [0x5C, 0x22]
  else if byte = 0x5C then [0x5C, 0x5C]
  else if byte = 0x08 then [0x5C, 0x62]
  else if byte = 0x0C then [0x5C, 0x66]
  else if byte = 0x0A then [0x5C, 0x6E]
  else if byte = 0x0D then [0x5C, 0x72]
  else if byte = 0x09 then [0x5C, 0x74]
  else if byte < 0x20 then
    [0x5C, 0x75, 0x30, 0x30, hexByte (byte.toNat / 16), hexByte (byte.toNat % 16)]
  else [byte]

/-- The inside of the string with the given UTF-8 bytes. -/
def escape (bytes : Bytes) : Bytes :=
  bytes.flatMap escapeByte

/-! ## Escapes -/

/-- The value of a hexadecimal digit of either case. -/
def hexDigit? (byte : UInt8) : Option Nat :=
  if 0x30 ≤ byte ∧ byte ≤ 0x39 then some (byte.toNat - 0x30)
  else if 0x61 ≤ byte ∧ byte ≤ 0x66 then some (byte.toNat - 0x57)
  else if 0x41 ≤ byte ∧ byte ≤ 0x46 then some (byte.toNat - 0x37)
  else none

/-- The number that hexadecimal digits write. -/
def hexValue? (digits : Bytes) : Option Nat :=
  digits.foldlM (fun value digit => (hexDigit? digit).map (value * 16 + ·)) 0

/-- The byte that a one-letter escape stands for. -/
def shortEscape? (letter : UInt8) : Option UInt8 :=
  if letter = 0x22 then some 0x22
  else if letter = 0x5C then some 0x5C
  else if letter = 0x2F then some 0x2F
  else if letter = 0x62 then some 0x08
  else if letter = 0x66 then some 0x0C
  else if letter = 0x6E then some 0x0A
  else if letter = 0x72 then some 0x0D
  else if letter = 0x74 then some 0x09
  else none

/-- Whether a UTF-16 unit is the first half of a surrogate pair. -/
def isFirstHalf (unit : Nat) : Bool := 0xD800 ≤ unit && unit < 0xDC00

/-- Whether a UTF-16 unit is the second half of a surrogate pair. -/
def isSecondHalf (unit : Nat) : Bool := 0xDC00 ≤ unit && unit < 0xE000

/-- The character of a surrogate pair. -/
def pairCode (first second : Nat) : Nat :=
  0x10000 + (first - 0xD800) * 0x400 + (second - 0xDC00)

/-! ## Reading -/

/-- Where the reader of a string is. -/
inductive Inside where
  | plain
  /-- Behind a backslash. -/
  | escape
  /-- Among the four digits of a UTF-16 unit, with those read so far in reverse; `first` is the
  first half that waits for this unit. -/
  | unit (first : Option Nat) (digits : Bytes)
  /-- Behind the first half of a surrogate pair. -/
  | half (first : Nat)
  /-- Behind the first half of a surrogate pair and a backslash. -/
  | halfEscape (first : Nat)
  deriving DecidableEq, Repr

/-- Takes a complete UTF-16 unit. -/
def takeUnit (first : Option Nat) (unit : Nat) : Except Cause (Bytes × Inside) :=
  match first with
  | none =>
    if isSecondHalf unit then .error .loneSurrogate
    else if isFirstHalf unit then .ok ([], .half unit)
    else .ok (String.utf8EncodeChar (Char.ofNat unit), .plain)
  | some first =>
    if isSecondHalf unit then
      .ok (String.utf8EncodeChar (Char.ofNat (pairCode first unit)), .plain)
    else .error .loneSurrogate

/-- Takes one byte, and says which bytes it adds to the text. -/
def Inside.take (byte : UInt8) : Inside → Except Cause (Bytes × Inside)
  | .plain =>
    if byte = 0x5C then .ok ([], .escape)
    else if byte < 0x20 then .error .controlCharacter
    else .ok ([byte], .plain)
  | .escape =>
    if byte = 0x75 then .ok ([], .unit none [])
    else
      match shortEscape? byte with
      | some value => .ok ([value], .plain)
      | none => .error .badEscape
  | .unit first digits =>
    if digits.length < 3 then .ok ([], .unit first (byte :: digits))
    else
      match hexValue? (byte :: digits).reverse with
      | some code => takeUnit first code
      | none => .error .badEscape
  | .half first => if byte = 0x5C then .ok ([], .halfEscape first) else .error .noSecondHalf
  | .halfEscape first =>
    if byte = 0x75 then .ok ([], .unit (some first) []) else .error .noSecondHalf

/-- Reads the rest of a string up to and with its closing quote; `done` are the bytes of its text so
far, in reverse. Gives the bytes of the text, and what follows the string. -/
def insideFrom (done : Bytes) (inside : Inside) : Bytes → Except Stop (Bytes × Bytes)
  | [] => .error ⟨.endInString, []⟩
  | byte :: rest =>
    if inside = .plain ∧ byte = 0x22 then .ok (done.reverse, rest)
    else
      match inside.take byte with
      | .ok (front, inside) => insideFrom (front.reverse ++ done) inside rest
      | .error cause => .error ⟨cause, rest⟩

/-- Passes over the rest of a string up to and with its closing quote, and gives what follows. -/
def passInside : Bytes → Except Stop Bytes
  | [] => .error ⟨.endInString, []⟩
  | byte :: rest =>
    if byte = 0x22 then .ok rest
    else if byte = 0x5C then
      match rest with
      | [] => .error ⟨.endInString, []⟩
      | letter :: rest =>
        if letter = 0x75 then
          match rest with
          | a :: b :: c :: d :: rest =>
            if (hexValue? [a, b, c, d]).isSome then passInside rest else .error ⟨.badEscape, rest⟩
          | _ => .error ⟨.endInString, []⟩
        else if (shortEscape? letter).isSome then passInside rest
        else .error ⟨.badEscape, rest⟩
    else if byte < 0x20 then .error ⟨.controlCharacter, byte :: rest⟩
    else passInside rest

end PartitionSnapshot.Json
