import DocTree.Toml.Text
import DocTree.Toml.Value

/-!
TOML numbers, dates and times. Numbers may have single underscores between their digits; whole
numbers have 64 bits, and no number but a negative one may be too large for a double. Dates are
days of the calendar, and seconds may be the sixtieth.
-/

namespace DocTree.Toml

def isDigit (c : Char) : Bool := '0' ≤ c && c ≤ '9'

def readRun (isDigit : Char → Bool) (afterDigit : Bool) : List Char → Option (List Char × List Char)
  | [] => if afterDigit then some ([], []) else none
  | c :: rest =>
    if isDigit c then (readRun isDigit true rest).map fun (run, rest) => (c :: run, rest)
    else if c = '_' && afterDigit then readRun isDigit false rest
    else if afterDigit then some ([], c :: rest)
    else none

def runValue (base : Nat) (run : List Char) : Nat :=
  run.foldl (fun n c => n * base + (hexDigit? c).getD 0) 0

def ofWhole? (negative : Bool) (n : Nat) : Option Toml :=
  let i : Int := if negative then -n else n
  if -9223372036854775808 ≤ i ∧ i ≤ 9223372036854775807 then some (.int (Int64.ofInt i)) else none

/-- The double nearest to `digits * 10 ^ exponent`. Powers that leave every double behind are not
computed. -/
def nearestFloat (digits : List Char) (exponent : Int) : Float :=
  let significand := runValue 10 digits
  let size : Int := (Nat.toDigits 10 significand).length + exponent
  if significand = 0 || size < -400 then 0
  else if 400 < size then 1 / 0
  else Float.ofScientific significand (exponent < 0) exponent.natAbs

/-- The power of ten behind a number, if there is one. -/
def readPower : List Char → Option (Option Int × List Char)
  | 'e' :: rest | 'E' :: rest => do
    let (negative, rest) := match rest with
      | '-' :: rest => (true, rest)
      | '+' :: rest => (false, rest)
      | rest => (false, rest)
    let (run, rest) ← readRun isDigit false rest
    let power : Int := runValue 10 run
    some (some (if negative then -power else power), rest)
  | rest => some (none, rest)

/-- A number to base ten after its sign. -/
def readDecimal (negative : Bool) (cs : List Char) : Option (Toml × List Char) := do
  let (whole, rest) ← readRun isDigit false cs
  if whole.head? = some '0' && whole.length ≠ 1 then none
  let (fraction, rest) ← match rest with
    | '.' :: rest => (readRun isDigit false rest).map fun (run, rest) => (some run, rest)
    | rest => some (none, rest)
  let (power, rest) ← readPower rest
  if fraction.isNone && power.isNone then
    (ofWhole? negative (runValue 10 whole)).map fun v => (v, rest)
  else
    let digits := fraction.getD []
    let x := nearestFloat (whole ++ digits) (power.getD 0 - digits.length)
    if x.isInf && !negative then none
    else some (.float (if negative then -x else x), rest)

def readUnsigned (negative : Bool) : List Char → Option (Toml × List Char)
  | 'i' :: 'n' :: 'f' :: rest => some (.float (if negative then -1 / 0 else 1 / 0), rest)
  | 'n' :: 'a' :: 'n' :: rest => some (.float (0 / 0), rest)
  | cs => readDecimal negative cs

def readBased (base : Nat) (isDigit : Char → Bool) (cs : List Char) :
    Option (Toml × List Char) := do
  let (run, rest) ← readRun isDigit false cs
  let v ← ofWhole? false (runValue base run)
  some (v, rest)

def readNumber : List Char → Option (Toml × List Char)
  | '0' :: 'x' :: rest => readBased 16 (fun c => (hexDigit? c).isSome) rest
  | '0' :: 'o' :: rest => readBased 8 (fun c => '0' ≤ c && c ≤ '7') rest
  | '0' :: 'b' :: rest => readBased 2 (fun c => c = '0' || c = '1') rest
  | '-' :: rest => readUnsigned true rest
  | '+' :: rest => readUnsigned false rest
  | cs => readUnsigned false cs

def readField (size : Nat) (cs : List Char) : Option (Nat × List Char) :=
  let digits := cs.take size
  if digits.length = size && digits.all isDigit then some (runValue 10 digits, cs.drop size)
  else none

def expect (c : Char) : List Char → Option (List Char)
  | d :: rest => if d = c then some rest else none
  | [] => none

def padded (size n : Nat) : String :=
  let digits := Nat.toDigits 10 n
  String.ofList (List.replicate (size - digits.length) '0' ++ digits)

def isLeapYear (year : Nat) : Bool := year % 4 = 0 && (year % 100 ≠ 0 || year % 400 = 0)

def daysInMonth (year month : Nat) : Nat :=
  match month with
  | 2 => if isLeapYear year then 29 else 28
  | 4 | 6 | 9 | 11 => 30
  | _ => 31

def readDate (cs : List Char) : Option (String × List Char) := do
  let (year, rest) ← readField 4 cs
  let (month, rest) ← readField 2 (← expect '-' rest)
  let (day, rest) ← readField 2 (← expect '-' rest)
  if 1 ≤ month && month ≤ 12 && 1 ≤ day && day ≤ daysInMonth year month then
    some (padded 4 year ++ "-" ++ padded 2 month ++ "-" ++ padded 2 day, rest)
  else none

/-- The fraction of a second: nine places count, and zeros at the end are not written. -/
def readFraction : List Char → Option (String × List Char)
  | '.' :: rest =>
    let digits := rest.takeWhile isDigit
    if digits.isEmpty then none
    else
      let places := ((digits.take 9).reverse.dropWhile (· = '0')).reverse
      let text := if places.isEmpty then "" else String.ofList ('.' :: places)
      some (text, rest.dropWhile isDigit)
  | rest => some ("", rest)

def readTime (cs : List Char) : Option (String × List Char) := do
  let (hour, rest) ← readField 2 cs
  let (minute, rest) ← readField 2 (← expect ':' rest)
  let (second, rest) ← readField 2 (← expect ':' rest)
  let (fraction, rest) ← readFraction rest
  if hour ≤ 23 && minute ≤ 59 && second ≤ 60 then
    some (padded 2 hour ++ ":" ++ padded 2 minute ++ ":" ++ padded 2 second ++ fraction, rest)
  else none

/-- The distance from universal time, if one is given. -/
def readOffset : List Char → Option (String × List Char)
  | 'Z' :: rest | 'z' :: rest => some ("Z", rest)
  | c :: rest =>
    if c = '+' || c = '-' then do
      let (hours, rest) ← readField 2 rest
      let (minutes, rest) ← readField 2 (← expect ':' rest)
      let sign := if c = '-' && hours + minutes ≠ 0 then "-" else "+"
      if hours ≤ 23 && minutes ≤ 59 then
        some (sign ++ padded 2 hours ++ ":" ++ padded 2 minutes, rest)
      else none
    else some ("", c :: rest)
  | [] => some ("", [])

/-- A date, a time, or a date and a time. A blank between them counts only when a time follows. -/
def readDatetime (cs : List Char) : Option (Toml × List Char) := do
  if (cs.drop 2).head? = some ':' then
    let (time, rest) ← readTime cs
    some (.datetime time, rest)
  else
    let (date, rest) ← readDate cs
    let separated := match rest with
      | 'T' :: _ | 't' :: _ => true
      | ' ' :: next => (readField 2 next).isSome
      | _ => false
    if separated then
      let (time, rest) ← readTime (rest.drop 1)
      let (offset, rest) ← readOffset rest
      some (.datetime (date ++ "T" ++ time ++ offset), rest)
    else some (.datetime date, rest)

def isDatetime (cs : List Char) : Bool :=
  match cs with
  | a :: b :: ':' :: _ => isDigit a && isDigit b
  | a :: b :: c :: d :: '-' :: _ => isDigit a && isDigit b && isDigit c && isDigit d
  | _ => false

end DocTree.Toml
