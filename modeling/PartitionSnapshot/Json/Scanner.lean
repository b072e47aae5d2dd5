import PartitionSnapshot.Binary64
import PartitionSnapshot.Json.Text

/-!
# Scanning JSON

A scanner reads something off the front of a text, or stops. This module holds the scanners of what
has no parts of its own: blanks, words, strings and numbers.

A number without fraction and exponent is an integer, if it fits into 64 bits; every other number
is a binary floating-point number. Of the digits of such a number only as many count as stay below
`2 ^ 64`; the others only move the point.
-/

namespace PartitionSnapshot.Json

/-- Reads something off the front of a text, or stops. A scanner of what may repeat or nest takes at
most as many steps as it is given. -/
abbrev Scanner := ReaderT Nat (StateT Bytes (Except Stop))

/-! ## Bytes -/

/-- The blanks of JSON: space, tab, line feed and carriage return. -/
def isBlankByte (byte : UInt8) : Bool :=
  byte == 0x20 || byte == 0x09 || byte == 0x0A || byte == 0x0D

/-- Whether a byte is a decimal digit. -/
def isDigitByte (byte : UInt8) : Bool := 0x30 ≤ byte && byte ≤ 0x39

/-- Whether a byte marks an exponent. -/
def isExponentMark (byte : UInt8) : Bool := byte == 0x65 || byte == 0x45

/-- What follows the blanks in front of a text. -/
def afterBlanks (text : Bytes) : Bytes := text.dropWhile isBlankByte

/-- Passes over the given letters. -/
def passLetters : (letters text : Bytes) → Except Stop Bytes
  | [], text => .ok text
  | _ :: _, [] => .error ⟨.endInValue, []⟩
  | letter :: letters, byte :: text =>
    if byte = letter then passLetters letters text else .error ⟨.unknownWord, text⟩

/-- Passes over a word, of which the first letter is next. -/
def passWord (name : String) (text : Bytes) : Except Stop Bytes :=
  passLetters (Bytes.ofString name).tail text.tail

namespace Scanner

/-- The next byte, which stays unread. -/
def head? : Scanner (Option UInt8) := fun _ text => .ok (text.head?, text)

/-- Passes over blanks, and shows the next byte, which stays unread. -/
def next? : Scanner (Option UInt8) := fun _ text =>
  let rest := afterBlanks text
  .ok (rest.head?, rest)

/-- Passes over one byte. -/
def skip : Scanner Unit := modify List.tail

/-- Passes over what a function cuts off the front of a text. -/
def pass (cut : Bytes → Except Stop Bytes) : Scanner Unit := fun _ text =>
  (cut text).map fun rest => ((), rest)

/-- Stops in front of the next byte. -/
def stop (cause : Cause) : Scanner α := fun _ text => .error ⟨cause, text⟩

/-- Stops behind the next byte, the one that shows the fault. -/
def stopBehind (cause : Cause) : Scanner α := fun _ text => .error ⟨cause, text.tail⟩

/-! ## Words and strings -/

/-- Reads a word, of which the first letter is next. -/
def word (name : String) : Scanner Unit := pass (passWord name)

/-- Reads a string, of which the opening quote is next. -/
def quoted : Scanner String := fun _ text =>
  match insideFrom [] .plain text.tail with
  | .error stop => .error stop
  | .ok (inside, rest) =>
    match Bytes.toString? inside with
    | some text => .ok (text, rest)
    | none => .error ⟨.notUtf8, rest⟩

/-! ## Numbers -/

/-- A number. -/
inductive Number where
  | natural (value : Nat)
  | negative (magnitude : Nat)
  | fraction (isNegative : Bool) (magnitude : Binary64)

/-- The number as what is found in place of another value. -/
def Number.found : Number → Found
  | .natural value => .natural value
  | .negative magnitude => .negative magnitude
  | .fraction isNegative magnitude =>
    .fraction (if isNegative then "-" ++ magnitude.text else magnitude.text)

/-- Reads the digits that come next. -/
def digits : Scanner Bytes := fun _ text =>
  .ok (text.takeWhile isDigitByte, text.dropWhile isDigitByte)

/-- The value of a digit. -/
def digitValue (digit : UInt8) : Nat := digit.toNat - 0x30

/-- Appends digits to a value as long as it stays below `2 ^ 64`; also gives how many digits are
left out. -/
def appendDigits (value : Nat) : Bytes → Nat × Nat
  | [] => (value, 0)
  | digit :: rest =>
    let longer := 10 * value + digitValue digit
    if longer < UInt64.size then appendDigits longer rest else (value, rest.length + 1)

/-- Reads the integer part of a number, which has no leading zeros. -/
def integerDigits : Scanner Bytes := do
  match ← head? with
  | none => stop .endInValue
  | some first =>
    if first = 0x30 then
      skip
      if (← head?).any isDigitByte then stopBehind .badNumber else return [first]
    else if isDigitByte first then digits
    else stopBehind .badNumber

/-- Reads the fraction of a number, behind the point. -/
def fractionDigits : Scanner Bytes := do
  let fraction ← digits
  if fraction.isEmpty then
    match ← head? with
    | none => stop .endInValue
    | some _ => stopBehind .badNumber
  else return fraction

/-- Reads on in the digits of an exponent; the value is none as soon as it has more than 31 bits. -/
def exponentFrom (value : Nat) : Bytes → Option Nat × Bytes
  | [] => (some value, [])
  | byte :: rest =>
    if isDigitByte byte then
      let longer := 10 * value + digitValue byte
      if longer < Nat.pow 2 31 then exponentFrom longer rest else (none, rest)
    else (some value, byte :: rest)

/-- Reads the exponent of a number, if there is one, and gives whether it is negative and its
magnitude, if that is not too large. -/
def exponent : Scanner (Bool × Option Nat) := do
  match ← head? with
  | none => return (false, some 0)
  | some mark =>
    if !isExponentMark mark then return (false, some 0)
    skip
    let isNegative := (← head?) == some 0x2D
    if isNegative || (← head?) == some 0x2B then skip
    match ← head? with
    | none => stop .endInValue
    | some digit =>
      if isDigitByte digit then
        let (magnitude, rest) := exponentFrom 0 (← get)
        set rest
        return (isNegative, magnitude)
      else stopBehind .badNumber

/-- The floating-point number with a significand and a power of ten. -/
def fractionOf (isNegative : Bool) (significand : Nat) (power : Int) : Scanner Number :=
  match Binary64.ofDecimal? significand power with
  | some magnitude => return .fraction isNegative magnitude
  | none => stop .numberTooLarge

/-- Reads the exponent of a floating-point number, if there is one, and completes the number. -/
def withExponent (isNegative : Bool) (significand : Nat) (power : Int) : Scanner Number := do
  match ← exponent with
  | (isShrinking, some magnitude) =>
    fractionOf isNegative significand (if isShrinking then power - magnitude else power + magnitude)
  | (isShrinking, none) =>
    if significand ≠ 0 ∧ !isShrinking then stop .numberTooLarge
    else
      let _ ← digits
      fractionOf isNegative 0 0

/-- The integer with a magnitude, or the floating-point number if there is no such integer. -/
def integerOf (isNegative : Bool) (magnitude : Nat) : Scanner Number :=
  if !isNegative then return .natural magnitude
  else if magnitude = 0 ∨ Nat.pow 2 63 < magnitude then fractionOf true magnitude 0
  else return .negative magnitude

/-- Reads a number, behind its sign. -/
def number (isNegative : Bool) : Scanner Number := do
  let (significand, left) := appendDigits 0 (← integerDigits)
  match ← head? with
  | some 0x2E =>
    skip
    let fraction ← fractionDigits
    let (significand, unused) := appendDigits significand fraction
    withExponent isNegative significand ((left : Int) - (fraction.length - unused : Nat))
  | some byte =>
    if isExponentMark byte ∨ left ≠ 0 then withExponent isNegative significand left
    else integerOf isNegative significand
  | none =>
    if left ≠ 0 then withExponent isNegative significand left
    else integerOf isNegative significand

end Scanner

/-! ## Numbers that are passed over -/

/-- Passes over the digits of an exponent, behind its mark and sign; there is at least one. -/
def passExponentDigits : Bytes → Except Stop Bytes
  | [] => .error ⟨.badNumber, []⟩
  | first :: rest =>
    if isDigitByte first then .ok (rest.dropWhile isDigitByte) else .error ⟨.badNumber, rest⟩

/-- Passes over the exponent of a number, if there is one. -/
def passExponent : Bytes → Except Stop Bytes
  | [] => .ok []
  | mark :: rest =>
    if isExponentMark mark then
      match rest with
      | sign :: digits =>
        passExponentDigits (if sign = 0x2B ∨ sign = 0x2D then digits else rest)
      | [] => .error ⟨.badNumber, []⟩
    else .ok (mark :: rest)

/-- Passes over the fraction and the exponent of a number, if there are any. -/
def passFraction : Bytes → Except Stop Bytes
  | 0x2E :: rest =>
    if rest.head?.any isDigitByte then passExponent (rest.dropWhile isDigitByte)
    else .error ⟨.badNumber, rest.tail⟩
  | rest => passExponent rest

/-- Passes over a number, behind its sign. -/
def passNumber : Bytes → Except Stop Bytes
  | [] => .error ⟨.badNumber, []⟩
  | first :: rest =>
    if first = 0x30 then
      if rest.head?.any isDigitByte then .error ⟨.badNumber, rest.tail⟩ else passFraction rest
    else if isDigitByte first then passFraction (rest.dropWhile isDigitByte)
    else .error ⟨.badNumber, rest⟩

end PartitionSnapshot.Json
