/-!
# Binary floating-point numbers of 64 bits

The finite numbers of the format that are not negative, as a mantissa below `2 ^ 53` times a power
of two: rounding a ratio to the nearest one, multiplying and dividing, reading a decimal, and
writing a number in the fewest digits that read back as it. All is exact arithmetic on natural
numbers.
-/

namespace PartitionSnapshot

/-- The number `mantissa * 2 ^ exponent`. -/
structure Binary64 where
  mantissa : Nat
  exponent : Int
  deriving DecidableEq, Repr, Inhabited

namespace Binary64

/-! ## Rounding -/

/-- The least exponent, at which the mantissa may be below `2 ^ 52`. -/
def leastExponent : Int := -1074

/-- The greatest exponent. -/
def greatestExponent : Int := 971

/-- Zero. -/
def zero : Binary64 := ⟨0, leastExponent⟩

/-- The ratio `above / below` measured in units of `base ^ power`, as a ratio. -/
def inUnits (above below base : Nat) (power : Int) : Nat × Nat :=
  if 0 ≤ power then (above, below * base.pow power.toNat)
  else (above * base.pow (-power).toNat, below)

/-- The quotient rounded to the nearest natural number, a half to the even one. -/
def divideRounding (above below : Nat) : Nat :=
  let low := above / below
  let rest := above % below
  if below < 2 * rest ∨ (2 * rest = below ∧ low % 2 = 1) then low + 1 else low

/-- The exponent at which the mantissa of a ratio has 53 bits, or the least one. -/
def exponentOf (above below : Nat) : Int :=
  let guess : Int := (above.log2 : Int) - below.log2 - 52
  let (above, below) := inUnits above below 2 guess
  max (if above / below < Nat.pow 2 52 then guess - 1 else guess) leastExponent

/-- The number nearest to a ratio, a half going to the even mantissa; none when the ratio is too
large. -/
def ofRatio? (above below : Nat) : Option Binary64 :=
  if above = 0 then some zero
  else
    let exponent := exponentOf above below
    let (above, below) := inUnits above below 2 exponent
    let mantissa := divideRounding above below
    let rounded : Binary64 :=
      if mantissa = Nat.pow 2 53 then ⟨Nat.pow 2 52, exponent + 1⟩ else ⟨mantissa, exponent⟩
    if rounded.exponent ≤ greatestExponent then some rounded else none

/-! ## Arithmetic -/

/-- The product, rounded. -/
def times? (x y : Binary64) : Option Binary64 :=
  let (above, below) := inUnits (x.mantissa * y.mantissa) 1 2 (-(x.exponent + y.exponent))
  ofRatio? above below

/-- The quotient, rounded. -/
def dividedBy? (x y : Binary64) : Option Binary64 :=
  let (above, below) := inUnits x.mantissa y.mantissa 2 (y.exponent - x.exponent)
  ofRatio? above below

/-- The greatest power of ten that is a number. -/
def maxPower : Nat := 308

/-- A power of ten, rounded. -/
def powerOfTen? (power : Nat) : Option Binary64 := ofRatio? (Nat.pow 10 power) 1

/-- Divides by a power of ten, by as much of it at a time as is a number. -/
def shiftDown? (x : Binary64) (places : Nat) : Option Binary64 :=
  if _h : places ≤ maxPower then (powerOfTen? places).bind x.dividedBy?
  else if x.mantissa = 0 then some x
  else ((powerOfTen? maxPower).bind x.dividedBy?).bind (shiftDown? · (places - maxPower))
termination_by places
decreasing_by simp only [maxPower] at *; omega

/-- Reads `significand * 10 ^ power`: the significand is rounded first, and then multiplied or
divided by the power of ten. -/
def ofDecimal? (significand : Nat) (power : Int) : Option Binary64 := do
  let front ← ofRatio? significand 1
  if power < 0 then front.shiftDown? (-power).toNat
  else if power ≤ maxPower then front.times? (← powerOfTen? power.toNat)
  else if front.mantissa = 0 then return front
  else none

/-! ## Writing -/

/-- The number in quarters of the unit of its mantissa, and the ends of the interval of the ratios
that are rounded to it, all over one denominator. -/
def interval (x : Binary64) : Nat × Nat × Nat × Nat :=
  let below := if x.mantissa = Nat.pow 2 52 ∧ leastExponent < x.exponent then 1 else 2
  let unit := x.exponent - 2
  let factor := Nat.pow 2 unit.toNat
  ((4 * x.mantissa - below) * factor, 4 * x.mantissa * factor, (4 * x.mantissa + 2) * factor,
    Nat.pow 2 (-unit).toNat)

/-- The power of ten just above a ratio. -/
def magnitude (above below : Nat) : Int :=
  if below ≤ above then ((toString (above / below)).length : Int)
  else 1 - (((List.range 400).find? fun places => below ≤ above * Nat.pow 10 places).getD 0 : Int)

/-- The decimal nearest to a number among those that are multiples of a power of ten and read back
as the number, a half going to the even one. -/
def onGrid? (x : Binary64) (power : Int) : Option Nat :=
  let (low, middle, high, below) := x.interval
  let scale (above : Nat) : Nat := (inUnits above below 10 power).1
  let unit := (inUnits middle below 10 power).2
  let reads (count : Nat) : Bool :=
    if x.mantissa % 2 = 0 then scale low ≤ count * unit && count * unit ≤ scale high
    else scale low < count * unit && count * unit < scale high
  let nearest := divideRounding (scale middle) unit
  let floor := scale middle / unit
  if reads nearest then some nearest
  else if reads floor then some floor
  else if reads (floor + 1) then some (floor + 1)
  else none

/-- The digits with the zeros at their end cut off, and the power of ten of the last one left. -/
def trimZeros : (steps : Nat) → (digits : Nat) → (power : Int) → Nat × Int
  | 0, digits, power => (digits, power)
  | steps + 1, digits, power =>
    if digits ≠ 0 ∧ digits % 10 = 0 then trimZeros steps (digits / 10) (power + 1)
    else (digits, power)

/-- The fewest digits that read back as a number, and the power of ten of the last one. -/
def shortest (x : Binary64) : Nat × Int :=
  let (_, middle, _, below) := x.interval
  let top := magnitude middle below
  let found := (List.range 17).findSome? fun (count : Nat) =>
    let power := top - (count + 1)
    (x.onGrid? power).map fun digits => (digits, power)
  let (digits, power) := found.getD (0, 0)
  trimZeros 20 digits power

/-- The number in words: positional from `0.00001` up to sixteen digits before the point, with at
least one digit behind it, and otherwise with an exponent. -/
def text (x : Binary64) : String :=
  if x.mantissa = 0 then "0.0"
  else
    let (digits, power) := x.shortest
    let digits := (toString digits).toList
    let point : Int := digits.length + power
    let zeros (count : Int) : List Char := List.replicate count.toNat '0'
    String.ofList <|
      if 0 ≤ power ∧ point ≤ 16 then digits ++ zeros power ++ ['.', '0']
      else if 0 < point ∧ point ≤ 16 then
        digits.take point.toNat ++ '.' :: digits.drop point.toNat
      else if -5 < point ∧ point ≤ 0 then '0' :: '.' :: zeros (-point) ++ digits
      else
        let fraction := if digits.length = 1 then [] else '.' :: digits.tail
        digits.take 1 ++ fraction ++ 'e' :: (toString (point - 1)).toList

end Binary64

end PartitionSnapshot
