import ActorLinks.Record.Value
import ActorLinks.Text.Digit

/-! # Unquoted values of TOML

A truth value, a number or a date is one unbroken word; only a date and a time of day may be
written as two. Whole numbers have 64 bits.
-/
namespace ActorLinks.Toml

def isWordChar (c : Char) : Bool :=
  c.isAlphanum || c = '_' || c = '+' || c = '-' || c = '.' || c = ':'

/-- Digits without the underscores between them. -/
def ungrouped? (isDigit : Char → Bool) : List Char → Option (List Char)
  | [] => none
  | [c] => if isDigit c then some [c] else none
  | c :: '_' :: rest => if isDigit c then (ungrouped? isDigit rest).map (c :: ·) else none
  | c :: rest => if isDigit c then (ungrouped? isDigit rest).map (c :: ·) else none

/-- A sign, and what it stands before. -/
def signed : List Char → Bool × List Char
  | '-' :: rest => (true, rest)
  | '+' :: rest => (false, rest)
  | cs => (false, cs)

/-- Decimal digits without a leading zero. -/
def decimal? (cs : List Char) : Option (List Char) :=
  (ungrouped? Char.isDigit cs).filter fun ds => ds.length = 1 || ds.head? != some '0'

def inRange (n : Int) : Bool := Int64.minValue.toInt ≤ n && n ≤ Int64.maxValue.toInt

def unsigned? (base : Nat) (isDigit : Char → Bool) (cs : List Char) : Option Int :=
  (ungrouped? isDigit cs).map fun ds => Text.valueIn base ds

def int? (cs : List Char) : Option Int :=
  let n? := match cs with
    | '0' :: 'x' :: rest => unsigned? 16 (fun c => (Text.hexDigit? c).isSome) rest
    | '0' :: 'o' :: rest => unsigned? 8 (fun c => '0' ≤ c && c ≤ '7') rest
    | '0' :: 'b' :: rest => unsigned? 2 (fun c => c = '0' || c = '1') rest
    | _ =>
      let (isNegative, unsigned) := signed cs
      (decimal? unsigned).map fun ds =>
        let n : Int := Text.valueIn 10 ds
        if isNegative then -n else n
  n?.filter inRange

/-- What stands before the first character of a class, and what stands behind it if there is
one. -/
def splitAtFirst (p : Char → Bool) (cs : List Char) : List Char × Option (List Char) :=
  (cs.takeWhile fun c => !p c,
    match cs.dropWhile fun c => !p c with
    | [] => none
    | _ :: rest => some rest)

/-- Whether `digits · 10 ^ exponent` is below the point from which binary64 rounds to
infinity. -/
def isFinite (digits : Nat) (exponent : Int) : Bool :=
  let size : Int := (Nat.toDigits 10 digits).length + exponent
  let bound := 1 <<< 1024 - 1 <<< 970
  if digits = 0 || size < 300 then true
  else if 320 < size then false
  else match exponent with
    | .ofNat e => digits * Nat.pow 10 e < bound
    | .negSucc e => digits < bound * Nat.pow 10 (e + 1)

/-- A number with a fraction, an exponent or both. -/
def isFloat (cs : List Char) : Bool :=
  let (isNegative, unsigned) := signed cs
  unsigned = ['i', 'n', 'f'] || unsigned = ['n', 'a', 'n'] ||
    let (mantissa, exponent) := splitAtFirst (fun c => c = 'e' || c = 'E') unsigned
    let (whole, fraction) := splitAtFirst (· = '.') mantissa
    let digitsOf (part : Option (List Char)) : Option (List Char) :=
      match part with
      | none => some []
      | some ds => ungrouped? Char.isDigit ds
    let (expNegative, expDigits) := match exponent with
      | none => (false, none)
      | some e => ((signed e).1, some (signed e).2)
    match decimal? whole, digitsOf fraction, digitsOf expDigits with
    | some ws, some fs, some es =>
      let e : Int := Text.valueIn 10 es
      (fraction.isSome || exponent.isSome) && (isNegative ||
        isFinite (Text.valueIn 10 (ws ++ fs)) ((if expNegative then -e else e) - fs.length))
    | _, _, _ => false

/-- A number of a given count of digits, within bounds. -/
def field? (count low high : Nat) (cs : List Char) : Option Nat :=
  if cs.length = count && cs.all Char.isDigit then
    (some (Text.valueIn 10 cs)).filter fun n => low ≤ n && n ≤ high
  else none

def daysIn (year month : Nat) : Nat :=
  if month = 2 then
    if year % 4 = 0 && (year % 100 ≠ 0 || year % 400 = 0) then 29 else 28
  else if month = 4 || month = 6 || month = 9 || month = 11 then 30
  else 31

def isDate : List Char → Bool
  | [y, y', y'', y''', '-', m, m', '-', d, d'] =>
    match field? 4 0 9999 [y, y', y'', y'''], field? 2 1 12 [m, m'] with
    | some year, some month => (field? 2 1 (daysIn year month) [d, d']).isSome
    | _, _ => false
  | _ => false

/-- Hours and minutes. -/
def isClock : List Char → Bool
  | [h, h', ':', m, m'] => (field? 2 0 23 [h, h']).isSome && (field? 2 0 59 [m, m']).isSome
  | _ => false

def isTime (cs : List Char) : Bool :=
  match isClock (cs.take 5), cs.drop 5 with
  | true, [':', s, s'] => (field? 2 0 60 [s, s']).isSome
  | true, ':' :: s :: s' :: '.' :: fraction =>
    (field? 2 0 60 [s, s']).isSome && !fraction.isEmpty && fraction.all Char.isDigit
  | _, _ => false

/-- A time of day, which may tell its distance from universal time. -/
def isZonedTime (cs : List Char) : Bool :=
  let (time, zone) := cs.span fun c => c.isDigit || c = ':' || c = '.'
  isTime time && match zone with
    | [] | ['Z'] | ['z'] => true
    | sign :: offset => (sign = '+' || sign = '-') && isClock offset

def isDateTime (cs : List Char) : Bool :=
  match cs.drop 10 with
  | 't' :: time | 'T' :: time => isDate (cs.take 10) && isZonedTime time
  | _ => false

/-- A date stands for a table that no record has a field of. -/
def dateValue (cs : List Char) : Value := .table [("date", .text (String.ofList cs))]

def ofWord? (cs : List Char) : Option Value :=
  if cs = "true".toList then some (.bool true)
  else if cs = "false".toList then some (.bool false)
  else if isDate cs || isTime cs || isDateTime cs then some (dateValue cs)
  else if isFloat cs then some (.scalar (String.ofList cs))
  else (int? cs).map .int

/-- Reads an unquoted value; a date takes the word behind it if that is set off by one blank. -/
def unquoted? (cs : List Char) : Option (Value × List Char) :=
  let (word, rest) := cs.span isWordChar
  match isDate word, rest with
  | true, ' ' :: rest' =>
    let (next, after) := rest'.span isWordChar
    if next.isEmpty then some (dateValue word, rest)
    else if isZonedTime next then some (dateValue (word ++ ' ' :: next), after)
    else none
  | _, _ => (ofWord? word).map fun v => (v, rest)

end ActorLinks.Toml
