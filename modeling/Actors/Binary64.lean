/-! Floating point numbers of 64 bits, held as their bits. Equality is the numeric one: no number
equals a `NaN`, and the two zeros are equal. The text of a finite number has the fewest digits that
read back as the same number. -/
namespace Actors

structure Binary64 where
  bits : UInt64
  deriving Repr, Inhabited

namespace Binary64

def magnitude (x : Binary64) : Nat := x.bits.toNat % Nat.pow 2 63
def isNegative (x : Binary64) : Bool := x.bits.toNat ≥ Nat.pow 2 63
def isNaN (x : Binary64) : Bool := x.magnitude > 2047 * Nat.pow 2 52
def isInfinite (x : Binary64) : Bool := x.magnitude == 2047 * Nat.pow 2 52
def isZero (x : Binary64) : Bool := x.magnitude == 0

instance : BEq Binary64 :=
  ⟨fun x y => !x.isNaN && !y.isNaN && (x.bits == y.bits || x.isZero && y.isZero)⟩

structure Decimal where
  digits : Nat
  scale : Int
  deriving Repr, Inhabited

structure Fraction where
  num : Nat
  den : Nat

namespace Fraction

def times2 (n : Nat) (exponent : Int) : Fraction :=
  if 0 ≤ exponent then ⟨n * Nat.pow 2 exponent.toNat, 1⟩ else ⟨n, Nat.pow 2 (-exponent).toNat⟩

def over10 (x : Fraction) (scale : Int) : Fraction :=
  if 0 ≤ scale then ⟨x.num, x.den * Nat.pow 10 scale.toNat⟩ else ⟨x.num * Nat.pow 10 (-scale).toNat, x.den⟩

def le (x y : Fraction) : Bool := x.num * y.den ≤ y.num * x.den
def lt (x y : Fraction) : Bool := x.num * y.den < y.num * x.den

/-- The number of digits before the decimal point, or the zeros after it as a negative number. -/
def magnitude10 (x : Fraction) : Int :=
  if x.den ≤ x.num then ((toString (x.num / x.den)).length : Int)
  else
    let zeros := ((List.range 400).find? fun j => x.den ≤ x.num * Nat.pow 10 (j + 1)).getD 0
    Int.negOfNat zeros

end Fraction

/-- The decimals on the grid of `count` significant digits next to `value` that lie in the interval
of numbers that round to it; the nearer one of two. -/
def Decimal.onGrid? (value low high : Fraction) (closed : Bool) (count : Nat) : Option Decimal :=
  let scale := value.magnitude10 - count
  let scaled := value.over10 scale
  let inside (d : Nat) : Bool :=
    let lower := low.over10 scale
    let upper := high.over10 scale
    let point : Fraction := ⟨d, 1⟩
    if closed then lower.le point && point.le upper else lower.lt point && point.lt upper
  let below := scaled.num / scaled.den
  let twice := 2 * (scaled.num % scaled.den)
  let nearBelow := twice < scaled.den || twice == scaled.den && below % 2 == 0
  match inside below, inside (below + 1) with
  | true, true => some ⟨if nearBelow then below else below + 1, scale⟩
  | true, false => some ⟨below, scale⟩
  | false, true => some ⟨below + 1, scale⟩
  | false, false => none

/-- The shortest decimal that rounds to the absolute value of a finite number other than zero. -/
def shortest (x : Binary64) : Decimal :=
  let biased := x.magnitude / Nat.pow 2 52
  let stored := x.magnitude % Nat.pow 2 52
  let significand := if biased = 0 then stored else stored + Nat.pow 2 52
  let exponent : Int := (max biased 1 : Nat) - 1075
  let below := if stored = 0 ∧ 1 < biased then 1 else 2
  let scaled (n : Nat) := Fraction.times2 n (exponent - 2)
  let value := scaled (4 * significand)
  let grids := (List.range 17).filterMap fun n =>
    Decimal.onGrid? value (scaled (4 * significand - below)) (scaled (4 * significand + 2))
      (significand % 2 == 0) (n + 1)
  grids.headD ⟨0, 0⟩

/-- Numbers from `10 ^ -4` up to `10 ^ 16` are written with a point and at least one place; the
others with one digit before the point and an exponent. -/
def Decimal.text (x : Decimal) : String :=
  let digits := (toString x.digits).toList
  let digits := (digits.reverse.dropWhile (· == '0')).reverse
  let point : Int := (toString x.digits).length + x.scale
  if -3 ≤ point ∧ point ≤ 16 then
    if point ≤ 0 then
      "0." ++ String.ofList (List.replicate (-point).toNat '0' ++ digits)
    else
      let whole := digits.take point.toNat ++ List.replicate (point.toNat - digits.length) '0'
      let places := digits.drop point.toNat
      String.ofList whole ++ "." ++ (if places.isEmpty then "0" else String.ofList places)
  else
    let places := digits.drop 1
    String.ofList (digits.take 1) ++ (if places.isEmpty then "" else "." ++ String.ofList places)
      ++ "e" ++ toString (point - 1)

def text (x : Binary64) : String :=
  if x.isNaN then "NaN"
  else
    (if x.isNegative then "-" else "") ++
      (if x.isInfinite then "inf" else if x.isZero then "0.0" else x.shortest.text)

def ofText? (text : String) : Option Binary64 :=
  let (negative, rest) := match text.toList with
    | '-' :: rest => (true, rest)
    | rest => (false, rest)
  let sign : UInt64 := if negative then 0x8000000000000000 else 0
  match String.ofList rest with
  | "NaN" => some ⟨0x7ff8000000000000⟩
  | "inf" => some ⟨sign ||| 0x7ff0000000000000⟩
  | _ =>
    let whole := rest.takeWhile Char.isDigit
    let places := match rest.dropWhile Char.isDigit with
      | [] => some []
      | '.' :: places => if places.all Char.isDigit then some places else none
      | _ => none
    places.bind fun places =>
      (String.ofList (whole ++ places)).toNat?.map fun digits =>
        ⟨sign ||| (Float.ofScientific digits true places.length).toBits⟩

end Binary64

end Actors
