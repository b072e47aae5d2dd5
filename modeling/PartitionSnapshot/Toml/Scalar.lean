import PartitionSnapshot.Toml.Basic
import PartitionSnapshot.Toml.Text

/-!
# Words

A TOML value that is neither a string nor in brackets or braces is a word: a truth value, a number,
a date or a time. A word reaches as far as there are letters, digits and the marks of numbers and
times, and as a whole has to have one of the forms below. A date may be parted from its time by a
single space; the reader puts the two together with the letter that else stands there.
-/

namespace PartitionSnapshot.Toml

/-- Whether a character belongs to a word. -/
def isWordChar (c : Char) : Bool :=
  c.isAlphanum || c == '_' || c == '+' || c == '-' || c == '.' || c == ':'

/-- Splits an optional sign off. -/
def splitSign (cs : List Char) : Option Char × List Char :=
  match cs with
  | '+' :: rest => (some '+', rest)
  | '-' :: rest => (some '-', rest)
  | _ => (none, cs)

/-! ## Digits -/

/-- Removes the underscores from a run of digits. Each has to stand between two digits;
`afterDigit` says whether the last character was one. -/
def ungroup? (isDigit : Char → Bool) (afterDigit : Bool) : List Char → Option (List Char)
  | [] => if afterDigit then some [] else none
  | c :: rest =>
    if c = '_' then if afterDigit then ungroup? isDigit false rest else none
    else if isDigit c then (c :: ·) <$> ungroup? isDigit true rest
    else none

/-- The value of digits in a base. -/
def digitsValue (base : Nat) (digits : List Char) : Nat :=
  digits.foldl (fun value c => base * value + (hexDigit? c).getD 0) 0

/-- Whether a character is a digit in a base up to sixteen. -/
def isDigitIn (base : Nat) (c : Char) : Bool :=
  match hexDigit? c with
  | some value => value < base
  | none => false

/-- The decimal digits of an unsigned number without leading zeros. -/
def decimalDigits? (cs : List Char) : Option (List Char) := do
  let digits ← ungroup? Char.isDigit false cs
  if digits.head? = some '0' ∧ digits.length ≠ 1 then none else return digits

/-! ## Whole numbers -/

/-- A whole number, if it fits into 64 bits with a sign. -/
def fit? (value : Int) : Option Int :=
  if -Int.pow 2 63 ≤ value ∧ value < Int.pow 2 63 then some value else none

/-- The whole number that a word is: decimal with an optional sign, or without a sign in base
sixteen, eight or two. -/
def integer? (cs : List Char) : Option Int :=
  let based (base : Nat) (digits : List Char) : Option Int := do
    let digits ← ungroup? (isDigitIn base) false digits
    fit? (digitsValue base digits)
  match cs with
  | '0' :: 'x' :: digits => based 16 digits
  | '0' :: 'o' :: digits => based 8 digits
  | '0' :: 'b' :: digits => based 2 digits
  | _ => do
    let (sign, digits) := splitSign cs
    let value := digitsValue 10 (← decimalDigits? digits)
    fit? (if sign = some '-' then -value else value)

/-! ## Other numbers -/

/-- Whether the number with the given digits in front of and behind the point, times ten to the
power of `exponent`, rounds to infinity in the binary format of 64 bits. -/
def isHuge (front back : List Char) (exponent : Int) : Bool :=
  let digits := front ++ back
  let significant := digits.dropWhile (· = '0')
  -- the number of places that the first significant digit is in front of the point
  let magnitude := (front.length : Int) - (digits.length - significant.length : Nat) + exponent
  if significant.isEmpty || magnitude < 309 then false
  else if magnitude > 309 then true
  else
    let limit := Nat.pow 2 1024 - Nat.pow 2 970
    let value := digitsValue 10 significant
    -- the value is an integer of `significant.length` digits, and stands for one of 309
    if significant.length ≤ 309 then limit ≤ value * Nat.pow 10 (309 - significant.length)
    else limit * Nat.pow 10 (significant.length - 309) ≤ value

/-- The exponent that follows the letter of an exponent. -/
def exponent? (cs : List Char) : Option Int := do
  let (sign, digits) := splitSign cs
  let value := digitsValue 10 (← ungroup? Char.isDigit false digits)
  return if sign = some '-' then -value else value

/-- Splits a fraction or exponent at the letter of the exponent. -/
def splitExponent (cs : List Char) : List Char × Option (List Char) :=
  let isMark (c : Char) : Bool := c == 'e' || c == 'E'
  (cs.takeWhile fun c => !isMark c, (cs.dropWhile fun c => !isMark c).tail?)

/-- Whether a word is a number with a fraction, an exponent or both, or one of the words for
infinity and for no number. A number without a minus may not be so great that only infinity is
left for it. -/
def isFloat (cs : List Char) : Bool :=
  let (sign, unsigned) := splitSign cs
  if unsigned = ['i', 'n', 'f'] ∨ unsigned = ['n', 'a', 'n'] then true
  else
    let (mantissa, exponent) := splitExponent unsigned
    let whole := mantissa.takeWhile (· ≠ '.')
    let fraction := (mantissa.dropWhile (· ≠ '.')).tail?
    let parts : Option (List Char × List Char × Int) := do
      let front ← decimalDigits? whole
      let back ← match fraction with
        | some digits => ungroup? Char.isDigit false digits
        | none => some []
      let exponent ← match exponent with
        | some digits => exponent? digits
        | none => some 0
      return (front, back, exponent)
    match parts with
    | none => false
    | some (front, back, power) =>
      (fraction.isSome || exponent.isSome) && (sign == some '-' || !isHuge front back power)

/-! ## Dates and times -/

/-- The value of two decimal digits, if it lies between the bounds. -/
def twoDigits? (low high : Nat) (a b : Char) : Option Nat :=
  if a.isDigit ∧ b.isDigit then
    let value := digitsValue 10 [a, b]
    if low ≤ value ∧ value ≤ high then some value else none
  else none

/-- The number of days of a month. -/
def daysOfMonth (year month : Nat) : Nat :=
  if month = 2 then
    if year % 4 = 0 ∧ (year % 100 ≠ 0 ∨ year % 400 = 0) then 29 else 28
  else if month ∈ [4, 6, 9, 11] then 30
  else 31

/-- Whether characters are a date, and what follows it. -/
def date? : List Char → Option (List Char)
  | y :: e :: a :: r :: '-' :: m :: n :: '-' :: d :: c :: rest => do
    if !([y, e, a, r].all Char.isDigit) then none
    let month ← twoDigits? 1 12 m n
    let day ← twoDigits? 1 31 d c
    if day ≤ daysOfMonth (digitsValue 10 [y, e, a, r]) month then return rest else none
  | _ => none

/-- Whether characters are a time of day, with an optional fraction of a second, and what follows
it. -/
def time? : List Char → Option (List Char)
  | h :: o :: ':' :: m :: i :: ':' :: s :: e :: rest => do
    let _ ← twoDigits? 0 23 h o
    let _ ← twoDigits? 0 59 m i
    let _ ← twoDigits? 0 60 s e
    match rest with
    | '.' :: digits => if digits.head?.any Char.isDigit then return digits.dropWhile Char.isDigit
                       else none
    | _ => return rest
  | _ => none

/-- Whether characters are nothing, or the offset of a time from universal time. -/
def isOffset : List Char → Bool
  | [] => true
  | ['Z'] => true
  | ['z'] => true
  | [sign, h, o, ':', m, i] =>
    (sign == '+' || sign == '-') && (twoDigits? 0 23 h o).isSome && (twoDigits? 0 59 m i).isSome
  | _ => false

/-- Whether a word is a date, a time, or a date with a time. Only a time with a date has an
offset. -/
def isDatetime (cs : List Char) : Bool :=
  match date? cs with
  | some [] => true
  | some (mark :: rest) => (mark == 'T' || mark == 't') && (time? rest).any isOffset
  | none => time? cs == some []

/-! ## Words -/

/-- The value that a word is. -/
def word? (cs : List Char) : Option Toml :=
  if cs = ['t', 'r', 'u', 'e'] then some (.boolean true)
  else if cs = ['f', 'a', 'l', 's', 'e'] then some (.boolean false)
  else if isDatetime cs then some .datetime
  else if isFloat cs then some .float
  else .integer <$> integer? cs

end PartitionSnapshot.Toml
