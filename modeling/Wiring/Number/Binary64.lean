namespace Wiring.Number

/-- The number `digits * 10 ^ exponent`. -/
structure Decimal where
  digits : Nat
  exponent : Int

/-- The number `mantissa * 2 ^ exponent`. All arithmetic on it is exact. -/
structure Binary64 where
  mantissa : Nat
  exponent : Int

/-- `num / den * base ^ exponent` as a fraction. -/
def scale (base num den : Nat) (exponent : Int) : Nat × Nat :=
  if 0 ≤ exponent then (num * Nat.pow base exponent.toNat, den)
  else (num, den * Nat.pow base (-exponent).toNat)

/-- The nearest natural number, of two the even one. -/
def roundHalfEven (num den : Nat) : Nat :=
  let floor := num / den
  let twice := 2 * (num % den)
  if twice < den then floor
  else if den < twice then floor + 1
  else floor + floor % 2

/-- The nearest natural number, of two the larger. -/
def roundHalfUp (num den : Nat) : Nat := (2 * num + den) / (2 * den)

/-- The largest `e` with `2 ^ e ≤ num / den`, for a positive fraction. -/
def log2Fraction (num den : Nat) : Int :=
  let guess : Int := (Nat.log2 num : Int) - Nat.log2 den
  let (n, d) := scale 2 num den (-guess)
  if d ≤ n then guess else guess - 1

namespace Binary64

/-- The binary number nearest to a fraction; `none` if it is too large. -/
def ofFraction? (num den : Nat) : Option Binary64 :=
  if num = 0 then some ⟨0, -1074⟩
  else
    let exponent := max (log2Fraction num den - 52) (-1074)
    let (n, d) := scale 2 num den (-exponent)
    let mantissa := roundHalfEven n d
    let rounded : Binary64 :=
      if mantissa = Nat.pow 2 53 then ⟨Nat.pow 2 52, exponent + 1⟩ else ⟨mantissa, exponent⟩
    if rounded.exponent ≤ 971 then some rounded else none

/-- Numbers of more than 400 digits before or after the point need no arithmetic. -/
def ofDecimal? (x : Decimal) : Option Binary64 :=
  let magnitude : Int := (Nat.toDigits 10 x.digits).length + x.exponent
  if x.digits = 0 || magnitude < -400 then some ⟨0, -1074⟩
  else if 400 < magnitude then none
  else
    let (n, d) := scale 10 x.digits 1 x.exponent
    ofFraction? n d

/-- Four times the number and the two ends of the interval that is rounded to it, all over one
denominator. -/
def interval (x : Binary64) : Nat × Nat × Nat × Nat :=
  let below := if x.mantissa = Nat.pow 2 52 && x.exponent != -1074 then 1 else 2
  let (n, d) := scale 2 1 1 x.exponent
  ((4 * x.mantissa - below) * n, 4 * x.mantissa * n, (4 * x.mantissa + 2) * n, 4 * d)

/-- Whether the number `digits * 10 ^ exponent` is read as `x`. -/
def readsAs (x : Binary64) (digits : Nat) (exponent : Int) : Bool :=
  let (low, _, high, den) := x.interval
  let (n, d) := scale 10 digits 1 exponent
  if x.mantissa % 2 = 0 then low * d ≤ n * den && n * den ≤ high * d
  else low * d < n * den && n * den < high * d

/-- The best number with this exponent that is read as `x`, the nearer of the two next to `x`. -/
def onGrid? (x : Binary64) (exponent : Int) : Option Decimal :=
  let (_, num, _, den) := x.interval
  let (n, d) := scale 10 num den (-exponent)
  let floor := n / d
  let near := roundHalfUp n d
  let far := if near = floor then floor + 1 else floor
  if x.readsAs near exponent then some ⟨near, exponent⟩
  else if x.readsAs far exponent then some ⟨far, exponent⟩
  else none

/-- The coarsest of `count` grids, each ten times finer than the one before, with a hit. -/
def search (x : Binary64) (exponent : Int) : Nat → Decimal
  | 0 => ⟨0, 0⟩
  | count + 1 =>
    match x.onGrid? exponent with
    | some r => r
    | none => search x (exponent - 1) count

/-- The fewest digits that are read as `x`; seventeen always suffice. -/
def shortest (x : Binary64) : Decimal :=
  if x.mantissa = 0 then ⟨0, 0⟩
  else
    let (_, num, _, den) := x.interval
    let size : Int := (Nat.toDigits 10 (num / den)).length
    let leading := if den ≤ num then size else
      -((Nat.toDigits 10 (den / num)).length : Int) + 1
    x.search (leading + 1) 20

end Binary64

/-- A number in positional notation, with at least one digit on each side of the point. -/
def Decimal.positional (x : Decimal) : String :=
  let digits := Nat.toDigits 10 x.digits
  let point : Int := digits.length + x.exponent
  if 0 ≤ x.exponent then
    String.ofList (digits ++ List.replicate x.exponent.toNat '0') ++ ".0"
  else if point ≤ 0 then
    "0." ++ String.ofList (List.replicate (-point).toNat '0' ++ digits)
  else
    String.ofList (digits.take point.toNat) ++ "." ++ String.ofList (digits.drop point.toNat)

end Wiring.Number
