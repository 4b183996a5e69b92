/-!
# Numbers

Integers in decimal digits, and floating-point numbers of 64 bits as exact values. A finite one is
`significand * 2 ^ exponent` with at most 53 significant bits and an exponent from `minExponent` to
`maxExponent`; zero keeps its sign.

* `decimal`, `fixedDigits`, `hexValue`: digits, and what they stand for
* `digitCount`, `digitLimit`: how many digits an integer has, and how many the host writes
* `Binary64.ofDecimal`: the float nearest to `digits * 10 ^ exponent`, a tie going to the even significand
* `shortest`: the shortest decimal that reads back as a float
* `Binary64.text`: the text of a float
-/

namespace ApiStubs.Number

/-! ## Digits -/

/-- The last `width` digits of a number, for bases up to 16; hexadecimal digits are lower case. -/
def fixedDigits (base : Nat) : Nat → Nat → List Char
  | 0, _ => []
  | width + 1, n => fixedDigits base width (n / base) ++ [Nat.digitChar (n % base)]

/-- An integer in decimal digits, after a minus sign if it is negative. Integers of every size are
written here; the host refuses to write or to read one of more than `digitLimit` digits. -/
def decimal : Int → List Char
  | .ofNat n => Nat.toDigits 10 n
  | .negSucc n => '-' :: Nat.toDigits 10 (n + 1)

def digitCount (n : Nat) : Nat := (Nat.toDigits 10 n).length

/-- The most digits of an integer that the host writes or reads, as long as its setting is left
alone. -/
def digitLimit : Nat := 4300

/-- The value of a hexadecimal digit of either case. -/
def hexValue (c : Char) : Option Nat :=
  let n := c.toNat
  if 0x30 ≤ n ∧ n ≤ 0x39 then some (n - 0x30)
  else if 0x61 ≤ n ∧ n ≤ 0x66 then some (n - 0x57)
  else if 0x41 ≤ n ∧ n ≤ 0x46 then some (n - 0x37)
  else none

theorem hexValue_digitChar {d : Nat} (h : d < 16) : hexValue (Nat.digitChar d) = some d := by
  revert d; decide

/-! ## Exact quotients -/

/-- The natural number nearest to `num / den`; a tie goes to the even neighbour. -/
def roundDiv (num den : Nat) : Nat :=
  let q := num / den
  let r := num % den
  if 2 * r < den then q
  else if den < 2 * r then q + 1
  else if q % 2 = 0 then q else q + 1

/-- Whether `base ^ k` is at most `num / den`, for an exponent of either sign. -/
def powLe (base : Nat) (k : Int) (num den : Nat) : Bool :=
  den * Nat.pow base k.toNat ≤ num * Nat.pow base (-k).toNat

/-- The largest exponent whose power of the base is at most `num / den`, from an estimate that is
that exponent or one more. -/
def floorLog (base : Nat) (estimate : Int) (num den : Nat) : Int :=
  if powLe base estimate num den then estimate else estimate - 1

def floorLog2 (num den : Nat) : Int := floorLog 2 (num.log2 - den.log2) num den

def floorLog10 (num den : Nat) : Int := floorLog 10 (digitCount num - digitCount den) num den

/-! ## Binary64 numbers -/

inductive Binary64 where
  | nan
  | infinity (negative : Bool)
  | finite (negative : Bool) (significand : Nat) (exponent : Int)
deriving DecidableEq

namespace Binary64

def minExponent : Int := -1074

def maxExponent : Int := 971

def zero (negative : Bool) : Binary64 := .finite negative 0 minExponent

def isZero : Binary64 → Bool
  | .finite _ 0 _ => true
  | _ => false

/-- A rounded significand with its exponent; a carry into bit 53 moves the exponent by one, and what
is then too large is infinite. -/
def ofRounded (negative : Bool) (significand : Nat) (exponent : Int) : Binary64 :=
  let (m, e) :=
    if significand = Nat.pow 2 53 then (Nat.pow 2 52, exponent + 1) else (significand, exponent)
  if maxExponent < e then .infinity negative else .finite negative m e

def ofRatio (negative : Bool) (num den : Nat) : Binary64 :=
  if num = 0 then zero negative
  else
    let e := max (floorLog2 num den - 52) minExponent
    ofRounded negative (roundDiv (num * Nat.pow 2 (-e).toNat) (den * Nat.pow 2 e.toNat)) e

/-- The number nearest to `digits * 10 ^ exponent`; a value of 10^310 or more is infinite and one
below 10^(-330) is zero, whatever its digits. -/
def ofDecimal (negative : Bool) (digits : Nat) (exponent : Int) : Binary64 :=
  let magnitude := digitCount digits + exponent
  if digits = 0 then zero negative
  else if 310 < magnitude then .infinity negative
  else if magnitude < -330 then zero negative
  else ofRatio negative (digits * Nat.pow 10 exponent.toNat) (Nat.pow 10 (-exponent).toNat)

end Binary64

/-! ## The shortest decimal that reads back -/

/-- The decimal `significand * 10 ^ exponent`. -/
structure Decimal where
  significand : Nat
  exponent : Int
deriving DecidableEq

/-- Ten units of a place are one unit of the next. A point of a finer grid ends in a zero only if it
lies on a coarser one, so of the points chosen below only the ten of the coarsest grid does. -/
def Decimal.carry (d : Decimal) : Decimal :=
  if d.significand = 10 then ⟨1, d.exponent + 1⟩ else d

/-! ### The interval -/

/-- The interval around a number, in units of a quarter of its last binary place: the number itself,
the ends half-way to its neighbours, and whether the ends round to the number too. -/
structure Interval where
  low : Nat
  value : Nat
  high : Nat
  closed : Bool

/-- The interval of `m * 2 ^ e`. Below a power of two the numbers lie twice as close, so the lower
end is half as far; an even significand wins the ties at the ends. -/
def Interval.of (m : Nat) (e : Int) : Interval where
  low := if m = Nat.pow 2 52 ∧ -1074 < e then 4 * m - 1 else 4 * m - 2
  value := 4 * m
  high := 4 * m + 2
  closed := m % 2 = 0

/-- A grid of decimals laid over the interval: a quarter place measures `quarter` and a step of the
grid `step`, both in one small unit. -/
structure Grid where
  quarter : Nat
  step : Nat

/-- The grid of the multiples of `10 ^ place`, over a number whose last binary place is `2 ^ e`. -/
def Grid.of (e place : Int) : Grid where
  quarter := Nat.pow 2 (e - 2).toNat * Nat.pow 10 (-place).toNat
  step := Nat.pow 2 (2 - e).toNat * Nat.pow 10 place.toNat

def Interval.holds (i : Interval) (g : Grid) (d : Nat) : Bool :=
  let x := d * g.step
  let lo := i.low * g.quarter
  let hi := i.high * g.quarter
  if i.closed then lo ≤ x && x ≤ hi else lo < x && x < hi

/-- The point of the grid in the interval that is nearest to the number: one of the two neighbours of
the number on the grid, if any point is. -/
def Interval.nearest? (i : Interval) (g : Grid) : Option Nat :=
  let v := i.value * g.quarter
  let d := v / g.step
  match i.holds g d, i.holds g (d + 1) with
  | false, false => none
  | true, false => some d
  | false, true => some (d + 1)
  | true, true =>
    let below := v - d * g.step
    let above := (d + 1) * g.step - v
    if below < above then some d
    else if above < below then some (d + 1)
    else if d % 2 = 0 then some d else some (d + 1)

/-! ### The choice -/

def leadingPlace (m : Nat) (e : Int) : Int :=
  floorLog10 (m * Nat.pow 2 e.toNat) (Nat.pow 2 (-e).toNat)

/-- The shortest decimal that reads back as `m * 2 ^ e`: grids of 1, 2, … 17 digits are tried in
turn, and the last of them always has a point in the interval. -/
def shortest (m : Nat) (e : Int) : Decimal :=
  let lead := leadingPlace m e
  let onGrid (n : Nat) : Option Decimal :=
    let place := lead - n
    ((Interval.of m e).nearest? (Grid.of e place)).map (⟨·, place⟩)
  (((List.range 17).findSome? onGrid).getD ⟨m * Nat.pow 2 e.toNat, 0⟩).carry

/-! ## The text of a number -/

/-- The place of a decimal's first digit: 0 for ones, 1 for tens, -1 for tenths. -/
def Decimal.lead (d : Decimal) : Int := digitCount d.significand + d.exponent - 1

/-- The digits around a decimal point; a whole number keeps one zero after the point. -/
def positional (digits : List Char) (lead : Int) : List Char :=
  if lead < 0 then '0' :: '.' :: List.replicate (-lead - 1).toNat '0' ++ digits
  else
    let whole := lead.toNat + 1
    let after := digits.drop whole
    digits.take whole ++ List.replicate (whole - digits.length) '0'
      ++ '.' :: (if after = [] then ['0'] else after)

/-- A power of ten: its sign and at least two digits. -/
def exponentText (e : Int) : List Char :=
  (if e < 0 then '-' else '+')
    :: (if e.natAbs < 10 then '0' :: Nat.toDigits 10 e.natAbs else Nat.toDigits 10 e.natAbs)

/-- One digit, the others after a point if there are any, and the power of ten. -/
def scientific (digits : List Char) (lead : Int) : List Char :=
  let after := digits.drop 1
  digits.take 1 ++ (if after = [] then [] else '.' :: after) ++ 'e' :: exponentText lead

def Decimal.text (d : Decimal) : List Char :=
  let digits := Nat.toDigits 10 d.significand
  if -4 ≤ d.lead ∧ d.lead < 16 then positional digits d.lead else scientific digits d.lead

def signed (negative : Bool) (cs : List Char) : List Char :=
  if negative then '-' :: cs else cs

def Binary64.text : Binary64 → List Char
  | .nan => ['n', 'a', 'n']
  | .infinity negative => signed negative ['i', 'n', 'f']
  | .finite negative 0 _ => signed negative ['0', '.', '0']
  | .finite negative m e => signed negative (shortest m e).text

end ApiStubs.Number
