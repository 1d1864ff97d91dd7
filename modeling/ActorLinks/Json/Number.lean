import ActorLinks.Record.Value
import ActorLinks.Text.Digit

/-! # Numbers of JSON

A number is read as it is written, and is `unreadable` if binary64 has no place for it.
-/
namespace ActorLinks.Json

/-- Digits without a leading zero, and what follows them. -/
def wholePart? (cs : List Char) : Option (List Char × List Char) :=
  let ds := cs.takeWhile Char.isDigit
  match ds with
  | [] => none
  | '0' :: _ :: _ => none
  | _ => some (ds, cs.dropWhile Char.isDigit)

/-- A point or exponent sign must be followed by a digit. -/
def someDigits? (cs : List Char) : Option (List Char × List Char) :=
  let ds := cs.takeWhile Char.isDigit
  if ds.isEmpty then none else some (ds, cs.dropWhile Char.isDigit)

def fraction? : List Char → Option (List Char × List Char)
  | '.' :: cs => (someDigits? cs).map fun (ds, rest) => ('.' :: ds, rest)
  | cs => some ([], cs)

def exponent? : List Char → Option (List Char × List Char)
  | e :: s :: cs =>
    if e = 'e' || e = 'E' then
      if s = '+' || s = '-' then (someDigits? cs).map fun (ds, rest) => (e :: s :: ds, rest)
      else (someDigits? (s :: cs)).map fun (ds, rest) => (e :: ds, rest)
    else some ([], e :: s :: cs)
  | [e] => if e = 'e' || e = 'E' then none else some ([], [e])
  | [] => some ([], [])

/-- The value of an exponent with its sign, as it is written. -/
def exponentValue : List Char → Int
  | _ :: '-' :: ds => -Text.valueIn 10 ds
  | _ :: '+' :: ds | _ :: ds => Text.valueIn 10 ds
  | [] => 0

/-- The value of the digits in front that fit 64 bits, and the count of the digits behind them. -/
def leadingValue (n : Nat) : List Char → Nat × Nat
  | [] => (n, 0)
  | d :: ds =>
    let next := 10 * n + Text.valueIn 10 [d]
    if next < UInt64.size then leadingValue next ds else (n, ds.length + 1)

/-- The nearest number of 53 binary digits, and the even one of two that are as near. -/
def nearestBinary (n : Nat) : Nat :=
  let unit := 1 <<< (n.log2 - 52)
  let below := n / unit
  let rest := 2 * (n % unit)
  unit * if unit < rest || (unit = rest && below % 2 = 1) then below + 1 else below

/-- Whether `digits · 10 ^ exponent` is too large for binary64. The digits and the power are
rounded before they are multiplied, so that the largest numbers of all may be lost. -/
def overflows (digits : List Char) (exponent : Int) : Bool :=
  let (leading, dropped) := leadingValue 0 digits
  match exponent + dropped with
  | .ofNat e =>
    leading ≠ 0 &&
      (308 < e || 1 <<< 1024 - 1 <<< 970 ≤ nearestBinary leading * nearestBinary (Nat.pow 10 e))
  | .negSucc _ => false

/-- A whole number is kept as such, unless it is a negative zero. -/
def number? (cs : List Char) : Option (Value × List Char) := do
  let (sign, unsigned) := match cs with
    | '-' :: rest => (['-'], rest)
    | _ => ([], cs)
  let (whole, afterWhole) ← wholePart? unsigned
  let (fraction, afterFraction) ← fraction? afterWhole
  let (exponent, rest) ← exponent? afterFraction
  let n : Int := Text.valueIn 10 whole
  let decimals := fraction.drop 1
  if overflows (whole ++ decimals) (exponentValue exponent - decimals.length) then
    return (.unreadable, rest)
  else if fraction.isEmpty && exponent.isEmpty && (sign.isEmpty || n ≠ 0) then
    return (.int (if sign.isEmpty then n else -n), rest)
  else return (.scalar (String.ofList (sign ++ whole ++ fraction ++ exponent)), rest)

end ActorLinks.Json
