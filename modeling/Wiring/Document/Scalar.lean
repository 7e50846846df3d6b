import Wiring.Number.Binary64
import Wiring.Text.Layout

namespace Wiring.Document

open Number

/-- What a scalar without quotes means. -/
inductive Meaning where
  | unit
  | bool (b : Bool)
  | int (i : Int)
  /-- A floating-point number by its text. -/
  | float (written : String)
  | text (s : String)
  deriving DecidableEq

namespace Meaning

def isUnit (s : String) : Bool := s ∈ ["", "null", "Null", "NULL", "~"]

def bool? (s : String) : Option Bool :=
  if s ∈ ["true", "True", "TRUE"] then some true
  else if s ∈ ["false", "False", "FALSE"] then some false
  else none

def digit? (base : Nat) (c : Char) : Option Nat :=
  let value :=
    if '0' ≤ c && c ≤ '9' then c.toNat - '0'.toNat
    else if 'a' ≤ c && c ≤ 'z' then c.toNat - 'a'.toNat + 10
    else if 'A' ≤ c && c ≤ 'Z' then c.toNat - 'A'.toNat + 10
    else base
  if value < base then some value else none

def digits? (base : Nat) (value : Nat) : List Char → Option Nat
  | [] => some value
  | c :: r => do
    let d ← digit? base c
    digits? base (base * value + d) r

/-- A number without a sign, written with at least one digit. -/
def nat? (base : Nat) (chars : List Char) : Option Nat :=
  if chars.isEmpty then none else digits? base 0 chars

/-- Several digits that begin with a zero are a text. -/
def zeroFirst : List Char → Bool
  | '0' :: c :: r => (c :: r).all (·.isDigit)
  | _ => false

/-- A number without a sign, in a base that its first characters name. -/
def unsigned? : List Char → Option Nat
  | '0' :: 'x' :: r => nat? 16 r
  | '0' :: 'o' :: r => nat? 8 r
  | '0' :: 'b' :: r => nat? 2 r
  | r => if zeroFirst r then none else nat? 10 r

/-- An integer of at most 128 bits. -/
def int? (chars : List Char) : Option Int :=
  match chars with
  | '-' :: r => (unsigned? r).bind fun n => if n ≤ Nat.pow 2 127 then some (-(n : Int)) else none
  | '+' :: r => (unsigned? r).bind fun n => if n < Nat.pow 2 128 then some (n : Int) else none
  | r => (unsigned? r).bind fun n => if n < Nat.pow 2 128 then some (n : Int) else none

/-- A signed number of decimal digits. -/
def exponent? (chars : List Char) : Option Int :=
  match chars with
  | '-' :: r => (nat? 10 r).map fun n => -(n : Int)
  | '+' :: r => (nat? 10 r).map fun n => (n : Int)
  | r => (nat? 10 r).map fun n => (n : Int)

/-- Digits with at most one point among them, then possibly an exponent. -/
def decimal? (chars : List Char) : Option Decimal := do
  let isE := fun c => c == 'e' || c == 'E'
  let mantissa := chars.takeWhile (!isE ·)
  let whole := mantissa.takeWhile (· != '.')
  let fraction := (mantissa.dropWhile (· != '.')).tail
  let exponent ← match chars.dropWhile (!isE ·) with
    | [] => some 0
    | _ :: r => exponent? r
  let digits ← nat? 10 (whole ++ fraction)
  return ⟨digits, exponent - fraction.length⟩

/-- The text of a finite number, with the sign in front. -/
def finite? (sign : String) (chars : List Char) : Option String := do
  let x ← (← decimal? chars) |> Binary64.ofDecimal?
  return sign ++ x.shortest.positional

def float? (s : String) (chars : List Char) : Option String :=
  if s ∈ [".inf", ".Inf", ".INF", "+.inf", "+.Inf", "+.INF"] then some "inf"
  else if s ∈ ["-.inf", "-.Inf", "-.INF"] then some "-inf"
  else if s ∈ [".nan", ".NaN", ".NAN"] then some "NaN"
  else
    match chars with
    | '+' :: r => finite? "" r
    | '-' :: r => finite? "-" r
    | r => finite? "" r

def withoutSign : List Char → List Char
  | '-' :: r => r
  | '+' :: r => r
  | r => r

def ofPlain (s : String) : Meaning :=
  if isUnit s then .unit
  else
    match bool? s with
    | some b => .bool b
    | none =>
      match int? s.toList with
      | some i => .int i
      | none =>
        if zeroFirst (withoutSign s.toList) then .text s
        else
          match float? s s.toList with
          | some f => .float f
          | none => .text s

def of (s : String) (plain : Bool) : Meaning := if plain then ofPlain s else .text s

/-- The name of an integer; beyond 64 bits its width is told. -/
def describeInt (i : Int) : String :=
  let width :=
    if i < -(Nat.pow 2 63 : Int) then " as i128"
    else if (Nat.pow 2 64 : Int) ≤ i then " as u128"
    else ""
  "integer \x60" ++ toString i ++ "\x60" ++ width

def describe : Meaning → String
  | unit => "unit value"
  | bool b => "boolean \x60" ++ Text.truth b ++ "\x60"
  | int i => describeInt i
  | float written => "floating point \x60" ++ written ++ "\x60"
  | text s => "string " ++ Text.quote s

end Meaning

end Wiring.Document
