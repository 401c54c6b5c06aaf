import InkCompositor.Toml.Reader
import InkCompositor.Toml.Value

/-!
# TOML numbers, truth values and dates

Digits may be grouped by single underscores. An integer has to fit into 64
bits. Of numbers with a fraction, and of dates, only the text is kept.
-/

set_option autoImplicit false

namespace InkCompositor.Toml

def digitRun (base : Nat) : Reader (List Char) := fun cs =>
  (Reader.char (isDigit base) cs).map fun (first, rest) =>
    let (more, rest) := Reader.many (fun cs =>
      match cs with
      | '_' :: rest => Reader.char (isDigit base) rest
      | cs => Reader.char (isDigit base) cs) rest
    (first :: more, rest)

/-- Decimal digits; none comes behind a leading zero. -/
def decimalRun : Reader (List Char)
  | '0' :: rest => some (['0'], rest)
  | cs => digitRun 10 cs

def sign : List Char → Bool × List Char
  | '+' :: rest => (false, rest)
  | '-' :: rest => (true, rest)
  | cs => (false, cs)

def isInt64 (n : Int) : Bool := decide (-9223372036854775808 ≤ n ∧ n ≤ 9223372036854775807)

def integerOf (n : Int) (rest : List Char) : Option (Value × List Char) :=
  if isInt64 n then some (.integer n, rest) else none

def integer : Reader Value
  | '0' :: 'x' :: rest => (digitRun 16 rest).bind fun (ds, rest) => integerOf (ofDigits 16 ds) rest
  | '0' :: 'o' :: rest => (digitRun 8 rest).bind fun (ds, rest) => integerOf (ofDigits 8 ds) rest
  | '0' :: 'b' :: rest => (digitRun 2 rest).bind fun (ds, rest) => integerOf (ofDigits 2 ds) rest
  | cs =>
    let (negative, cs) := sign cs
    (decimalRun cs).bind fun (ds, rest) =>
      let n : Int := ofDigits 10 ds
      integerOf (if negative then -n else n) rest

def fraction : Reader (List Char)
  | '.' :: rest => digitRun 10 rest
  | _ => none

def exponent : Reader Int
  | c :: rest =>
    if c = 'e' ∨ c = 'E' then
      let (negative, rest) := sign rest
      (digitRun 10 rest).map fun (ds, rest) =>
        let n : Int := ofDigits 10 ds
        (if negative then -n else n, rest)
    else none
  | [] => none

/-- Whether `digits` times ten to the `scale` is nearer to two to the 1024 than
to the largest number of double precision. Numbers of more than 400 places, or
of none before the point, need no calculation. -/
def overflows (digits : List Char) (scale : Int) : Bool :=
  let n := ofDigits 10 digits
  let places := ((digits.dropWhile (· == '0')).length : Int) + scale
  if n = 0 ∨ places ≤ 0 then false
  else if 400 < places then true
  else decide
    (Nat.pow 2 1024 - Nat.pow 2 970 ≤ n * Nat.pow 10 scale.toNat / Nat.pow 10 (-scale).toNat)

def taken (cs rest : List Char) : String := .ofList (cs.take (cs.length - rest.length))

def float : Reader Value := fun cs =>
  let (negative, unsigned) := sign cs
  match "inf".toList.isPrefixOf? unsigned <|> "nan".toList.isPrefixOf? unsigned with
  | some rest => some (.float (taken cs rest), rest)
  | none =>
    match decimalRun unsigned with
    | none => none
    | some (whole, rest) =>
      let finish (places : List Char) (scale : Int) (rest : List Char) :=
        if !negative && overflows (whole ++ places) (scale - places.length) then none
        else some (.float (taken cs rest), rest)
      match fraction rest with
      | some (places, rest) =>
        match exponent rest with
        | some (scale, rest) => finish places scale rest
        | none => finish places 0 rest
      | none => (exponent rest).bind fun (scale, rest) => finish [] scale rest

def boolean : Reader Value := fun cs =>
  match "true".toList.isPrefixOf? cs with
  | some rest => some (.boolean true, rest)
  | none => ("false".toList.isPrefixOf? cs).map fun rest => (.boolean false, rest)

def bounded (width low high : Nat) : Reader Nat := fun cs =>
  let digits := cs.take width
  let n := ofDigits 10 digits
  if digits.length = width ∧ digits.all (isDigit 10) ∧ low ≤ n ∧ n ≤ high then
    some (n, cs.drop width)
  else none

def daysIn (year month : Nat) : Nat :=
  if month = 2 then
    if year % 4 = 0 ∧ (year % 100 ≠ 0 ∨ year % 400 = 0) then 29 else 28
  else if month = 4 ∨ month = 6 ∨ month = 9 ∨ month = 11 then 30
  else 31

def afterDate? (cs : List Char) : Option (List Char) := do
  let (year, cs) ← bounded 4 0 9999 cs
  let cs ← ['-'].isPrefixOf? cs
  let (month, cs) ← bounded 2 1 12 cs
  let cs ← ['-'].isPrefixOf? cs
  let (_, cs) ← bounded 2 1 (daysIn year month) cs
  return cs

/-- The text behind a time of the day. A minute may have 61 seconds. -/
def afterTime? (cs : List Char) : Option (List Char) := do
  let (_, cs) ← bounded 2 0 23 cs
  let cs ← [':'].isPrefixOf? cs
  let (_, cs) ← bounded 2 0 59 cs
  let cs ← [':'].isPrefixOf? cs
  let (_, cs) ← bounded 2 0 60 cs
  match cs with
  | '.' :: rest =>
    match Reader.many (Reader.char (isDigit 10)) rest with
    | ([], _) => return cs
    | (_, rest) => return rest
  | _ => return cs

def afterOffset? : List Char → Option (List Char)
  | 'Z' :: rest | 'z' :: rest => some rest
  | '+' :: rest | '-' :: rest => do
    let (_, cs) ← bounded 2 0 23 rest
    let cs ← [':'].isPrefixOf? cs
    let (_, cs) ← bounded 2 0 59 cs
    return cs
  | _ => none

def afterDatedTime? : List Char → Option (List Char)
  | c :: rest =>
    if c = 'T' ∨ c = 't' ∨ c = ' ' then
      (afterTime? rest).map fun rest => (afterOffset? rest).getD rest
    else none
  | [] => none

def dateTime : Reader Value := fun cs =>
  let rest? := match afterDate? cs with
    | some rest => some ((afterDatedTime? rest).getD rest)
    | none => afterTime? cs
  rest?.map fun rest => (.dateTime (taken cs rest), rest)

def scalar : Reader Value := boolean.or (dateTime.or (float.or integer))

end InkCompositor.Toml
