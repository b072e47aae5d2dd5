/-!
# Decimal numbers and ASCII blanks

The small text files of a snapshot hold decimal numbers between blanks. A number is an optional
plus sign and at least one digit, leading zeros allowed, and has to stay below a bound. The blanks
are the five of ASCII: space, tab, line feed, form feed and carriage return.
-/

namespace PartitionSnapshot.Text

/-! ## Blanks -/

/-- The blanks of ASCII. -/
def isBlank (c : Char) : Bool :=
  c == ' ' || c == '\t' || c == '\n' || c == '\x0c' || c == '\r'

/-- The text without the blanks at its two ends. -/
def trim (cs : List Char) : List Char :=
  ((cs.dropWhile isBlank).reverse.dropWhile isBlank).reverse

/-- The non-empty fields between blanks; `field` holds the current one in reverse. -/
def fieldsFrom (field : List Char) : List Char → List (List Char)
  | [] => if field.isEmpty then [] else [field.reverse]
  | c :: rest =>
    if isBlank c then
      if field.isEmpty then fieldsFrom [] rest else field.reverse :: fieldsFrom [] rest
    else fieldsFrom (c :: field) rest

/-- The fields of a text: its longest runs of characters that are not blank. -/
def fields (cs : List Char) : List (List Char) :=
  fieldsFrom [] cs

/-! ## Numbers -/

/-- The value of a decimal digit. -/
def digit? (c : Char) : Option Nat :=
  if '0' ≤ c ∧ c ≤ '9' then some (c.toNat - '0'.toNat) else none

/-- Reads on after the digits whose value is `value`; fails at anything but a digit. -/
def digitsFrom? (value : Nat) : List Char → Option Nat
  | [] => some value
  | c :: rest => do digitsFrom? (10 * value + (← digit? c)) rest

/-- The value of a run of at least one digit. -/
def digits? : List Char → Option Nat
  | [] => none
  | cs => digitsFrom? 0 cs

/-- The number below `bound` that a text writes: an optional plus sign, then digits. -/
def number? (bound : Nat) (cs : List Char) : Option Nat := do
  let value ← digits? (match cs with | '+' :: rest => rest | _ => cs)
  if value < bound then some value else none

/-- A 64-bit number. -/
def number64? (cs : List Char) : Option UInt64 :=
  (number? UInt64.size cs).map UInt64.ofNat

/-- A 32-bit number. -/
def number32? (cs : List Char) : Option UInt32 :=
  (number? UInt32.size cs).map UInt32.ofNat

end PartitionSnapshot.Text
