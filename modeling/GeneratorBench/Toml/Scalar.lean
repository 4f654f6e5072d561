import GeneratorBench.Text.Line
import GeneratorBench.Toml.Value

/-!
Booleans, numbers and dates: everything in a TOML document that is written without brackets or
quotes.
-/

namespace GeneratorBench.Toml

/-- Digits with single underscores between them. -/
def isDigitRun (isDigit : Char → Bool) : List Char → Bool
  | [] => false
  | [c] => isDigit c
  | c :: '_' :: cs => isDigit c && isDigitRun isDigit cs
  | c :: cs => isDigit c && isDigitRun isDigit cs

def hexDigit? (c : Char) : Option Nat :=
  if c.isDigit then some (c.toNat - 48)
  else if 'a' ≤ c ∧ c ≤ 'f' then some (c.toNat - 87)
  else if 'A' ≤ c ∧ c ≤ 'F' then some (c.toNat - 55)
  else none

def digitsValue (base : Nat) (cs : List Char) : Nat :=
  cs.foldl (fun n c => match hexDigit? c with
    | some d => n * base + d
    | none => n) 0

def isDecimal (cs : List Char) : Bool :=
  isDigitRun Char.isDigit cs && (cs.length == 1 || cs.head? != some '0')

def dropSign (cs : List Char) : List Char :=
  match cs with
  | '+' :: cs | '-' :: cs => cs
  | cs => cs

/-! ### Integers

An integer converts if it has a place among those of 128 bits, with or without a sign. -/

/-- The digits of an integer after the name of its base. A base alone can be written, but it does
not convert. -/
def ofBase? (base : Nat) (cs : List Char) : Option Value :=
  if cs.isEmpty then some (.number false)
  else if isDigitRun (fun c => (hexDigit? c).any (· < base)) cs then
    some (.number (digitsValue base cs < Nat.pow 2 128))
  else none

def integer? (cs : List Char) : Option Value :=
  match cs with
  | '0' :: 'x' :: cs => ofBase? 16 cs
  | '0' :: 'o' :: cs => ofBase? 8 cs
  | '0' :: 'b' :: cs => ofBase? 2 cs
  | '-' :: cs => if isDecimal cs then some (.number (digitsValue 10 cs ≤ Nat.pow 2 127)) else none
  | cs =>
    let cs := dropSign cs
    if isDecimal cs then some (.number (digitsValue 10 cs < Nat.pow 2 128)) else none

/-! ### Floats

A float converts if it is nearer to a finite double than to infinity. -/

/-- The number `digits * 10 ^ exponent`. -/
structure Decimal where
  digits : Nat
  exponent : Int
  deriving Repr, DecidableEq, Inhabited

namespace Decimal

/-- The least number that is rounded to infinity: half a step above the largest finite double. -/
def overflow : Nat := Nat.pow 2 1024 - Nat.pow 2 970

/-- A number other than zero lies below ten to its `magnitude`, but not by a factor over ten. -/
def magnitude (d : Decimal) : Int := d.exponent + Text.decimalWidth d.digits

/-- The number is below `overflow`, which lies between the powers 308 and 309 of ten. Powers of
ten are only computed for numbers between these two. -/
def isFinite (d : Decimal) : Bool :=
  d.digits == 0 || d.magnitude ≤ 308 ||
    d.magnitude ≤ 309 &&
      d.digits * Nat.pow 10 d.exponent.toNat < overflow * Nat.pow 10 (-d.exponent).toNat

end Decimal

def isExponentMark (c : Char) : Bool := c == 'e' || c == 'E'

def exponent? (cs : List Char) : Option Int :=
  let size := digitsValue 10 (dropSign cs)
  if isDigitRun Char.isDigit (dropSign cs) then
    some (if cs.head? == some '-' then -(size : Int) else size)
  else none

def decimal? (cs : List Char) : Option Decimal :=
  let whole := cs.takeWhile fun c => c != '.' && !isExponentMark c
  if !isDecimal whole then none
  else
    match cs.drop whole.length with
    | [] => none
    | '.' :: cs =>
      let fraction := cs.takeWhile fun c => !isExponentMark c
      if !isDigitRun Char.isDigit fraction then none
      else
        let digits := digitsValue 10 (whole ++ fraction)
        let places := fraction.countP Char.isDigit
        match cs.drop fraction.length with
        | [] => some ⟨digits, -places⟩
        | _ :: cs => (exponent? cs).map fun e => ⟨digits, e - places⟩
    | _ :: cs => (exponent? cs).map fun e => ⟨digitsValue 10 whole, e⟩

def float? (cs : List Char) : Option Value :=
  let cs := dropSign cs
  if cs == ['i', 'n', 'f'] || cs == ['n', 'a', 'n'] then some (.number true)
  else (decimal? cs).map fun d => .number d.isFinite

def isTwoDigits (low high : Nat) (a b : Char) : Bool :=
  a.isDigit && b.isDigit && low ≤ digitsValue 10 [a, b] && digitsValue 10 [a, b] ≤ high

def isLeapYear (year : Nat) : Bool := year % 4 == 0 && (year % 100 != 0 || year % 400 == 0)

def daysIn (year month : Nat) : Nat :=
  if month == 2 then if isLeapYear year then 29 else 28
  else if [4, 6, 9, 11].contains month then 30 else 31

def isDate (cs : List Char) : Bool :=
  match cs with
  | [y, y', y'', y''', '-', m, m', '-', d, d'] =>
    let year := [y, y', y'', y''']
    year.all Char.isDigit && isTwoDigits 1 12 m m' &&
      isTwoDigits 1 (daysIn (digitsValue 10 year) (digitsValue 10 [m, m'])) d d'
  | _ => false

/-- A time of day; seconds and their fraction may be left out. -/
def isTime (cs : List Char) : Bool :=
  match cs with
  | h :: h' :: ':' :: m :: m' :: cs =>
    isTwoDigits 0 23 h h' && isTwoDigits 0 59 m m' && match cs with
      | [] => true
      | ':' :: s :: s' :: cs =>
        isTwoDigits 0 60 s s' && match cs with
          | [] => true
          | '.' :: fraction => !fraction.isEmpty && fraction.all Char.isDigit
          | _ => false
      | _ => false
  | _ => false

def isOffsetTime (cs : List Char) : Bool :=
  let time := cs.takeWhile fun c => c.isDigit || c == ':' || c == '.'
  isTime time && match cs.drop time.length with
    | [] | ['Z'] | ['z'] => true
    | sign :: h :: h' :: ':' :: [m, m'] =>
      (sign == '+' || sign == '-') && isTwoDigits 0 23 h h' && isTwoDigits 0 59 m m'
    | _ => false

def isDateTime (cs : List Char) : Bool :=
  isTime cs || isDate cs ||
    isDate (cs.take 10) && match cs.drop 10 with
      | delimiter :: time =>
        (delimiter == 'T' || delimiter == 't' || delimiter == ' ') && isOffsetTime time
      | [] => false

def isScalarChar (c : Char) : Bool :=
  c.isAlphanum || c == '_' || c == '+' || c == '-' || c == '.' || c == ':'

/-- The characters of a scalar and the text after it. A blank may stand between date and time. -/
def splitScalar (cs : List Char) : List Char × List Char :=
  let first := cs.takeWhile isScalarChar
  let rest := cs.drop first.length
  match isDate first, rest with
  | true, ' ' :: c :: cs =>
    if c.isDigit then
      let second := (c :: cs).takeWhile isScalarChar
      (first ++ ' ' :: second, (c :: cs).drop second.length)
    else (first, rest)
  | _, _ => (first, rest)

def scalar? (cs : List Char) : Option Value :=
  if cs == ['t', 'r', 'u', 'e'] then some (.boolean true)
  else if cs == ['f', 'a', 'l', 's', 'e'] then some (.boolean false)
  else if isDateTime cs then some .date
  else integer? cs <|> float? cs

end GeneratorBench.Toml
