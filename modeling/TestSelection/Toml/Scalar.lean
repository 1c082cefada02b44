import TestSelection.Text.Hex
import TestSelection.Value

/-!
# Numbers, dates and truth values in TOML

A scalar without quotes is one word. Underscores may stand between the digits of a number. Integers
have 64 bits, and a float that is too large is refused. Dates and times have to exist; they are
given back as texts in their usual form, with `T` between date and time.
-/

namespace TestSelection.Toml

/-! ## Digits -/

/-- Whether a character is a decimal digit. -/
def isDigit (c : Char) : Bool := '0' ≤ c && c ≤ '9'

/-- More digits of a kind, with single underscores between them. -/
def moreDigits (isKind : Char → Bool) : List Char → List Char × List Char
  | '_' :: c :: rest =>
    if isKind c then let (ds, rest) := moreDigits isKind rest; (c :: ds, rest)
    else ([], '_' :: c :: rest)
  | c :: rest =>
    if isKind c then let (ds, rest) := moreDigits isKind rest; (c :: ds, rest)
    else ([], c :: rest)
  | [] => ([], [])

/-- One or more digits of a kind. -/
def digits? (isKind : Char → Bool) : List Char → Option (List Char × List Char)
  | c :: rest =>
    if isKind c then let (ds, rest) := moreDigits isKind rest; some (c :: ds, rest) else none
  | [] => none

/-- The number that digits spell in a base. -/
def numberOf (base : Nat) (digits : List Char) : Nat :=
  digits.foldl (fun n c => base * n + (Text.hexValue? c).getD 0) 0

/-- A sign, and what follows it. -/
def sign : List Char → Bool × List Char
  | '-' :: rest => (true, rest)
  | '+' :: rest => (false, rest)
  | text => (false, text)

/-- Whole digits, which do not start with zero unless zero is all there is. -/
def whole? (text : List Char) : Option (List Char × List Char) := do
  let (ds, rest) ← digits? isDigit text
  if ds.head? = some '0' ∧ 1 < ds.length then none else return (ds, rest)

/-! ## Integers -/

/-- An integer in a base that has a sign of its own. -/
def based? (base : Nat) (isKind : Char → Bool) (text : List Char) : Option Int := do
  let (ds, rest) ← digits? isKind text
  if rest.isEmpty then return (numberOf base ds : Int) else none

/-- An integer of any size. -/
def anyInteger? : List Char → Option Int
  | '0' :: 'x' :: rest => based? 16 (fun c => (Text.hexValue? c).isSome) rest
  | '0' :: 'o' :: rest => based? 8 (fun c => '0' ≤ c && c ≤ '7') rest
  | '0' :: 'b' :: rest => based? 2 (fun c => c = '0' || c = '1') rest
  | word => do
    let (negative, word) := sign word
    let (ds, rest) ← whole? word
    if rest.isEmpty then
      return if negative then -(numberOf 10 ds : Int) else numberOf 10 ds
    else none

/-- An integer of 64 bits. -/
def integer? (word : List Char) : Option Int := do
  let n ← anyInteger? word
  if Int64.minValue.toInt ≤ n ∧ n ≤ Int64.maxValue.toInt then return n else none

/-! ## Floats -/

/-- The float `n * 10 ^ e`, unless it is too large. -/
def floatOf? (n : Nat) (e : Int) : Option Float :=
  let size := (Nat.toDigits 10 n).length + e
  if n = 0 ∨ size < -400 then some 0.0
  else if 400 < size then none
  else
    let f := Float.ofScientific n (e < 0) e.natAbs
    if f.isFinite then some f else none

/-- The digits after a point; none if there is no point. -/
def fraction? : List Char → Option (List Char × List Char)
  | '.' :: rest => digits? isDigit rest
  | text => some ([], text)

/-- The number after an exponent mark; zero if there is no mark. -/
def exponent? : List Char → Option (Int × List Char)
  | c :: rest =>
    if c = 'e' ∨ c = 'E' then do
      let (negative, rest) := sign rest
      let (ds, rest) ← digits? isDigit rest
      let n : Int := numberOf 10 ds
      return (if negative then -n else n, rest)
    else some (0, c :: rest)
  | [] => some (0, [])

/-- A float without its sign. -/
def unsigned? (word : List Char) : Option Float :=
  if word = ['i', 'n', 'f'] then some (1.0 / 0.0)
  else if word = ['n', 'a', 'n'] then some (0.0 / 0.0)
  else do
    let (ds, rest) ← whole? word
    let (fs, rest) ← fraction? rest
    let (e, rest) ← exponent? rest
    if rest.isEmpty then floatOf? (numberOf 10 (ds ++ fs)) (e - fs.length) else none

/-- A float. -/
def float? (word : List Char) : Option Float := do
  let (negative, word) := sign word
  let f ← unsigned? word
  return if negative then -f else f

/-! ## Dates and times -/

/-- A number of exactly two digits. -/
def twoDigits? : List Char → Option (Nat × List Char)
  | a :: b :: rest =>
    if isDigit a && isDigit b then some (numberOf 10 [a, b], rest) else none
  | _ => none

/-- The days of a month. -/
def daysIn (year month : Nat) : Nat :=
  if month = 2 then
    if year % 4 = 0 ∧ (year % 100 ≠ 0 ∨ year % 400 = 0) then 29 else 28
  else if month = 4 ∨ month = 6 ∨ month = 9 ∨ month = 11 then 30
  else 31

/-- A date, as it was written. -/
def date? : List Char → Option (List Char × List Char)
  | a :: b :: c :: d :: '-' :: e :: f :: '-' :: g :: h :: rest =>
    if [a, b, c, d, e, f, g, h].all isDigit then
      let year := numberOf 10 [a, b, c, d]
      let month := numberOf 10 [e, f]
      let day := numberOf 10 [g, h]
      if 1 ≤ month ∧ month ≤ 12 ∧ 1 ≤ day ∧ day ≤ daysIn year month then
        some ([a, b, c, d, '-', e, f, '-', g, h], rest)
      else none
    else none
  | _ => none

/-- Drop the zeros at the end of a fraction, but keep one digit. -/
def trimFraction (digits : List Char) : List Char :=
  match (digits.reverse.dropWhile (· = '0')).reverse with
  | [] => ['0']
  | ds => ds

/-- Parts of a second: nine digits count. -/
def subsecond? : List Char → Option (List Char × List Char)
  | '.' :: rest =>
    match rest.takeWhile isDigit with
    | [] => none
    | ds => some ('.' :: trimFraction (ds.take 9), rest.dropWhile isDigit)
  | text => some ([], text)

/-- Seconds, which may be left out. -/
def second? : List Char → Option (List Char × List Char)
  | ':' :: rest => do
    let (s, after) ← twoDigits? rest
    let (fraction, after) ← subsecond? after
    if s ≤ 60 then return (':' :: rest.take 2 ++ fraction, after) else none
  | text => some ([], text)

/-- A time of a day. -/
def time? (text : List Char) : Option (List Char × List Char) := do
  let (hour, rest) ← twoDigits? text
  match rest with
  | ':' :: rest =>
    let (minute, after) ← twoDigits? rest
    let (seconds, after) ← second? after
    if hour ≤ 23 ∧ minute ≤ 59 then
      return (text.take 2 ++ ':' :: rest.take 2 ++ seconds, after)
    else none
  | _ => none

/-- The distance of a time from the zero meridian, if it is given. -/
def offset? : List Char → Option (List Char)
  | [] => some []
  | ['Z'] => some ['Z']
  | ['z'] => some ['Z']
  | [s, a, b, ':', c, d] =>
    if (s = '+' ∨ s = '-') ∧ [a, b, c, d].all isDigit ∧ numberOf 10 [a, b] ≤ 23 ∧
        numberOf 10 [c, d] ≤ 59 then
      some [if [a, b, c, d].all (· = '0') then '+' else s, a, b, ':', c, d]
    else none
  | _ => none

/-- A date, a time, or both with or without an offset. -/
def dateTime? (word : List Char) : Option (List Char) :=
  match date? word with
  | some (date, []) => some date
  | some (date, c :: rest) =>
    if c = 'T' ∨ c = 't' ∨ c = ' ' then do
      let (time, rest) ← time? rest
      let offset ← offset? rest
      return date ++ 'T' :: time ++ offset
    else none
  | none => do
    let (time, rest) ← time? word
    if rest.isEmpty then return time else none

/-! ## Words -/

/-- The value of a word. -/
def scalarOf? (word : List Char) : Option Value :=
  if word = ['t', 'r', 'u', 'e'] then some (.bool true)
  else if word = ['f', 'a', 'l', 's', 'e'] then some (.bool false)
  else
    match anyInteger? word with
    | some _ => (integer? word).map .int
    | none =>
      match float? word with
      | some f => some (.float f)
      | none => (dateTime? word).map fun cs => .string (String.ofList cs)

end TestSelection.Toml
