import Scaffold.Text.Basic

/-! Binary fractions of double precision and their shortest decimal text: of all decimals that
round to the same fraction, one of the fewest digits, and of those the nearest. -/

namespace Scaffold

/-- The quotient rounded to the nearest natural number, a half to the even one. -/
def roundDiv (num den : Nat) : Nat :=
  let low := num / den
  let twice := 2 * (num % den)
  if twice < den then low
  else if den < twice then low + 1
  else low + low % 2

inductive Double where
  | finite (negative : Bool) (mantissa : Nat) (exponent : Int)
  | infinite (negative : Bool)
  | nan
  deriving DecidableEq, Repr

namespace Double

def precision : Nat := 53
def leastExponent : Int := -1074
def greatestExponent : Int := 971

/-- `num / den` over two to the power of the exponent, as a quotient of naturals. -/
def scaled (num den : Nat) (exponent : Int) : Nat × Nat :=
  (num * Nat.pow 2 (-exponent).toNat, den * Nat.pow 2 exponent.toNat)

def exponentFor (num den : Nat) : Int :=
  let guess : Int := max ((num.log2 : Int) - den.log2 - (precision - 1 : Nat)) leastExponent
  let (n, d) := scaled num den guess
  if n / d < Nat.pow 2 (precision - 1) then max (guess - 1) leastExponent else guess

/-- The fraction nearest to a positive quotient, a tie going to the even mantissa. -/
def ofQuotient (negative : Bool) (num den : Nat) : Double :=
  let exponent := exponentFor num den
  let (n, d) := scaled num den exponent
  let mantissa := roundDiv n d
  let (mantissa, exponent) :=
    if mantissa = Nat.pow 2 precision then (Nat.pow 2 (precision - 1), exponent + 1)
    else (mantissa, exponent)
  if greatestExponent < exponent then infinite negative
  else finite negative mantissa exponent

/-- Beyond ten to this power, or below its reciprocal, a decimal is infinite or zero. -/
def reach : Int := 400

/-- `digits` times ten to the power of `power`, read as a double. -/
def ofDecimal (negative : Bool) (digits : Nat) (power : Int) : Double :=
  let point := (Nat.toDigits 10 digits).length + power
  if digits = 0 ∨ point < -reach then finite negative 0 leastExponent
  else if reach < point then infinite negative
  else ofQuotient negative (digits * Nat.pow 10 power.toNat) (Nat.pow 10 (-power).toNat)

/-- The decimals of `count` digits next to `num / den` that read back as the double, the nearer
one first, or of two as near the even one; a decimal is given by its digits and their power of ten. -/
def candidates (x : Double) (num den : Nat) (magnitude : Int) (count : Nat) :
    List (Nat × Int) :=
  let power := magnitude - count
  let n := num * Nat.pow 10 (-power).toNat
  let d := den * Nat.pow 10 power.toNat
  let low := n / d
  let ordered := if roundDiv n d = low then [low, low + 1] else [low + 1, low]
  (ordered.map fun digits => (digits, power)).filter fun (digits, power) =>
    ofDecimal false digits power = x

/-- The number of digits in front of the point: `num / den` is below ten to that power. -/
def magnitudeOf (num den : Nat) : Int :=
  let quotient := num / den
  if quotient = 0 then
    let places := (Nat.toDigits 10 (den / num)).length
    if num * Nat.pow 10 places < den * 10 then 1 - (places : Int) else 2 - (places : Int)
  else (Nat.toDigits 10 quotient).length

def shortest (mantissa : Nat) (exponent : Int) : Nat × Int :=
  let num := mantissa * Nat.pow 2 exponent.toNat
  let den := Nat.pow 2 (-exponent).toNat
  let magnitude := magnitudeOf num den
  let found := (List.range 17).findSome? fun n =>
    (candidates (finite false mantissa exponent) num den magnitude (n + 1)).head?
  found.getD (num, 0)

/-- Digits without zeros at the end, with the position of the point. -/
def normalised (digits : Nat) (power : Int) : Text × Int :=
  let written := Nat.toDigits 10 digits
  (Text.trimEnd (· == '0') written, written.length + power)

def exponentText (n : Int) : Text :=
  let written := Nat.toDigits 10 n.natAbs
  (if n < 0 then '-' else '+') :: List.replicate (2 - written.length) '0' ++ written

/-- Plain notation for a point from three zeros behind it to sixteen digits in front of it, and
an exponent of two digits or more outside. -/
def layOut (digits : Text) (point : Int) : Text :=
  if point ≤ -4 ∨ 16 < point then
    let tail := digits.drop 1
    digits.take 1 ++ (if tail = [] then [] else '.' :: tail) ++ 'e' :: exponentText (point - 1)
  else if point ≤ 0 then
    ['0', '.'] ++ List.replicate (-point).toNat '0' ++ digits
  else
    let whole := digits.take point.toNat
    let rest := digits.drop point.toNat
    whole ++ List.replicate (point.toNat - whole.length) '0' ++
      '.' :: (if rest = [] then ['0'] else rest)

def signText (negative : Bool) : Text :=
  if negative then ['-'] else []

def text : Double → Text
  | nan => "nan".toList
  | infinite negative => signText negative ++ "inf".toList
  | finite negative 0 _ => signText negative ++ "0.0".toList
  | finite negative mantissa exponent =>
    let (digits, power) := shortest mantissa exponent
    let (digits, point) := normalised digits power
    signText negative ++ layOut digits point

end Double
end Scaffold
