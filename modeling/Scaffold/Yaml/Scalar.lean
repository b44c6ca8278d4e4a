import Scaffold.Decimal.Shortest
import Scaffold.Fault

/-! The meaning of an unquoted scalar: nothing, a truth value, a whole number in one of five
notations, a decimal fraction, a date, or else the text itself. -/

namespace Scaffold.Yaml
open Text

inductive Scalar where
  | null
  | bool (b : Bool)
  | int (n : Int)
  | float (x : Double)
  | date (year month day : Nat)
  | text (t : Text)
  deriving DecidableEq, Repr

namespace Scalar

/-- The three ways to write a word: in lower case, with a capital, and in upper case. -/
def inCases (word : String) : List Text :=
  let t := word.toList
  [t, (t.take 1).map Char.toUpper ++ t.drop 1, t.map Char.toUpper]

def nullWords : List Text := [] :: ['~'] :: inCases "null"
def trueWords : List Text := ["yes", "true", "on"].flatMap inCases
def falseWords : List Text := ["no", "false", "off"].flatMap inCases

def infinityWords : List Text := ["inf".toList, "Inf".toList, "INF".toList]
def nanWords : List Text := [".nan".toList, ".NaN".toList, ".NAN".toList]

/-- Scalars with a meaning that no configuration has a use for. -/
def reserved : List Text := [['<', '<'], ['=']]

def signed (t : Text) : Bool × Text :=
  match t with
  | '-' :: rest => (true, rest)
  | '+' :: rest => (false, rest)
  | rest => (false, rest)

def digitValue (c : Char) : Nat :=
  if c.isDigit then c.toNat - '0'.toNat
  else if 'a' ≤ c then c.toNat - 'a'.toNat + 10
  else c.toNat - 'A'.toNat + 10

/-- The number that digits spell in a base, underscores aside. -/
def number (base : Nat) (digits : Text) : Nat :=
  (digits.filter (· ≠ '_')).foldl (fun n c => n * base + digitValue c) 0

def isDigitOrGap (c : Char) : Bool :=
  c.isDigit || c == '_'

def isHexDigit (c : Char) : Bool :=
  c.isDigit || 'a' ≤ c && c ≤ 'f' || 'A' ≤ c && c ≤ 'F'

def startsWithDigit : Text → Bool
  | [] => false
  | c :: _ => c.isDigit

/-- One or two digits, below sixty. -/
def isSixtieth (t : Text) : Bool :=
  match t with
  | [c] => c.isDigit
  | [c, e] => '0' ≤ c && c ≤ '5' && e.isDigit
  | _ => false

def isDecimal (t : Text) : Bool :=
  startsWithDigit t && t.all isDigitOrGap

/-- A number whose places to base sixty are set apart by colons. -/
def sexagesimal (places : List Text) : Nat :=
  places.foldl (fun n place => n * 60 + number 10 place) 0

def natural? (t : Text) : Option Nat :=
  match t with
  | ['0'] => some 0
  | '0' :: 'b' :: digits =>
    if digits ≠ [] ∧ digits.all fun c => c == '0' || c == '1' || c == '_' then
      some (number 2 digits)
    else none
  | '0' :: 'x' :: digits =>
    if digits ≠ [] ∧ digits.all fun c => isHexDigit c || c == '_' then some (number 16 digits)
    else none
  | '0' :: digits =>
    if digits.all fun c => '0' ≤ c && c ≤ '7' || c == '_' then some (number 8 digits) else none
  | _ =>
    match t.splitOn ':' with
    | first :: rest =>
      if isDecimal first && rest.all isSixtieth then some (sexagesimal (first :: rest)) else none
    | [] => none

def exponent? (t : Text) : Option Int :=
  match t with
  | [] => some 0
  | e :: sign :: digits =>
    if (e == 'e' || e == 'E') && (sign == '+' || sign == '-') && digits ≠ [] &&
        digits.all Char.isDigit then
      some (if sign = '-' then -(number 10 digits : Int) else number 10 digits)
    else none
  | _ => none

def fractionOf (negative : Bool) (whole fraction : Text) (power : Int) : Double :=
  let places := (fraction.filter (· ≠ '_')).length
  Double.ofDecimal negative (number 10 (whole ++ fraction)) (power - places)

/-- A fraction has a point, at least one digit in front of it unless it is unsigned, and the
exponent, if any, a sign. -/
def fraction? (t : Text) : Option Double :=
  let (negative, unsigned) := signed t
  match cut? ['.'] unsigned with
  | none => none
  | some (whole, rest) =>
    let fraction := rest.takeWhile isDigitOrGap
    match exponent? (rest.dropWhile isDigitOrGap) with
    | none =>
      if whole = [] ∧ infinityWords.contains rest then some (.infinite negative)
      else if nanWords.contains t then some .nan
      else none
    | some power =>
      if isDecimal whole then some (fractionOf negative whole fraction power)
      else if t.head? = some '.' ∧ startsWithDigit fraction then
        some (fractionOf false [] fraction power)
      else
        match whole.splitOn ':' with
        | first :: sixtieths =>
          if sixtieths ≠ [] ∧ isDecimal first ∧ sixtieths.all isSixtieth ∧ power = 0 ∧
              (rest.dropWhile isDigitOrGap) = [] then
            some (fractionOf negative (Nat.toDigits 10 (sexagesimal (first :: sixtieths)))
              fraction 0)
          else none
        | [] => none

def daysIn (year month : Nat) : Nat :=
  if month = 2 then
    if year % 4 = 0 ∧ (year % 100 ≠ 0 ∨ year % 400 = 0) then 29 else 28
  else if month ∈ [4, 6, 9, 11] then 30
  else 31

def date? (t : Text) : Option (Nat × Nat × Nat) :=
  match t with
  | [a, b, c, d, '-', e, f, '-', g, h] =>
    if [a, b, c, d, e, f, g, h].all Char.isDigit then
      some (number 10 [a, b, c, d], number 10 [e, f], number 10 [g, h])
    else none
  | _ => none

def ofDate (year month day : Nat) : Except Fault Scalar :=
  if year = 0 then .error (.badValue "year 0 is out of range".toList)
  else if month = 0 ∨ 12 < month then .error (.badValue "month must be in 1..12".toList)
  else if day = 0 ∨ daysIn year month < day then
    .error (.badValue "day is out of range for month".toList)
  else .ok (.date year month day)

def ofPlain (t : Text) : Except Fault Scalar :=
  if nullWords.contains t then .ok .null
  else if trueWords.contains t then .ok (.bool true)
  else if falseWords.contains t then .ok (.bool false)
  else if reserved.contains t then .error .malformedConfig
  else
    match date? t with
    | some (year, month, day) => ofDate year month day
    | none =>
      match fraction? t with
      | some x => .ok (.float x)
      | none =>
        let (negative, unsigned) := signed t
        match natural? unsigned with
        | some n => .ok (.int (if negative then -(n : Int) else n))
        | none => .ok (.text t)

def padded (width n : Nat) : Text :=
  let digits := Nat.toDigits 10 n
  List.replicate (width - digits.length) '0' ++ digits

def intText (n : Int) : Text :=
  (if n < 0 then ['-'] else []) ++ Nat.toDigits 10 n.natAbs

/-- The text of a scalar that stands by itself. -/
def shown : Scalar → Text
  | null => "None".toList
  | bool true => "True".toList
  | bool false => "False".toList
  | int n => intText n
  | float x => x.text
  | date year month day => padded 4 year ++ '-' :: padded 2 month ++ '-' :: padded 2 day
  | text t => t

/-- The text of a scalar within a list or a mapping. -/
def shownInside : Scalar → Text
  | date year month day =>
    "datetime.date(".toList ++
      ", ".toList.intercalate [intText year, intText month, intText day] ++ [')']
  | text t => t.quoted
  | s => s.shown

end Scalar
end Scaffold.Yaml
