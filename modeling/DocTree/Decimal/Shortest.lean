/-!
The shortest decimal of a binary number. A finite double is `m * 2 ^ q`; the reals that round to
it form an interval around it, with its ends exactly when `m` is even. Among the decimals in that
interval those with the fewest digits win, and of these the nearest one.
-/

namespace DocTree

/-- The number `digits * 10 ^ exponent`. -/
structure Decimal where
  digits : Nat
  exponent : Int
  deriving DecidableEq

namespace Decimal

def trim (d : Decimal) : Decimal :=
  if h : d.digits ≠ 0 ∧ d.digits % 10 = 0 then trim ⟨d.digits / 10, d.exponent + 1⟩ else d
termination_by d.digits
decreasing_by exact Nat.div_lt_self (Nat.pos_of_ne_zero h.1) (by decide)

/-- A positive binary number `mantissa * 2 ^ exponent`. In a narrow one the next smaller number
of the same format is only half as far away as the next larger one. -/
structure Binary where
  mantissa : Nat
  exponent : Int
  narrow : Bool
  deriving DecidableEq

/-- The binary number that the 64 bits of a finite double hold, its sign left out; none for
zero. -/
def Binary.ofBits? (bits : Nat) : Option Binary :=
  let fraction : Nat := bits % Nat.pow 2 52
  let exponent : Nat := bits / Nat.pow 2 52 % Nat.pow 2 11
  if exponent = 0 then
    if fraction = 0 then none else some ⟨fraction, -1074, false⟩
  else
    some ⟨Nat.pow 2 52 + fraction, (exponent : Int) - 1075, fraction = 0 && 1 < exponent⟩

/-- Every binary number has a finite decimal expansion. -/
def Binary.exact (b : Binary) : Decimal :=
  match b.exponent with
  | .ofNat q => ⟨b.mantissa * Nat.pow 2 q, 0⟩
  | .negSucc q => ⟨b.mantissa * Nat.pow 5 (q + 1), .negSucc q⟩

/-- The reals between `low / unit` and `high / unit`, around `middle / unit`; the ends belong to
a closed one. -/
structure Interval where
  low : Nat
  middle : Nat
  high : Nat
  unit : Nat
  closed : Bool
  deriving DecidableEq

/-- The reals that round to a binary number. They reach half way to both neighbours. -/
def Binary.rounding (b : Binary) : Interval :=
  let low := 4 * b.mantissa - if b.narrow then 1 else 2
  let middle := 4 * b.mantissa
  let high := 4 * b.mantissa + 2
  let closed := b.mantissa % 2 = 0
  match b.exponent - 2 with
  | .ofNat q =>
    let scale := Nat.pow 2 q
    ⟨low * scale, middle * scale, high * scale, 1, closed⟩
  | .negSucc q => ⟨low, middle, high, Nat.pow 2 (q + 1), closed⟩

/-- The interval measured in multiples of `10 ^ k`. -/
def Interval.inTens (i : Interval) : Int → Interval
  | .ofNat k => ⟨i.low, i.middle, i.high, i.unit * Nat.pow 10 k, i.closed⟩
  | .negSucc k =>
    let scale := Nat.pow 10 (k + 1)
    ⟨i.low * scale, i.middle * scale, i.high * scale, i.unit, i.closed⟩

def Interval.contains (i : Interval) (n : Nat) : Bool :=
  if i.closed then i.low ≤ n * i.unit && n * i.unit ≤ i.high
  else i.low < n * i.unit && n * i.unit < i.high

inductive Tie where
  | toEven
  | up
  deriving DecidableEq

/-- Whether the lower one of two neighbours is taken when both are equally near. -/
def Tie.takesLower (t : Tie) (below : Nat) : Bool :=
  match t with
  | .toEven => below % 2 = 0
  | .up => false

/-- The whole number in the interval that lies nearest to its middle, if one of the middle's two
neighbours is inside. -/
def Interval.nearest? (i : Interval) (tie : Tie) : Option Nat :=
  let below := i.middle / i.unit
  let above := below + 1
  match i.contains below, i.contains above with
  | false, false => none
  | true, false => some below
  | false, true => some above
  | true, true =>
    let down := i.middle - below * i.unit
    let up := above * i.unit - i.middle
    if down < up || (down = up && tie.takesLower below) then some below else some above

/-- The place of the first digit of `i.middle / i.unit`: the greatest `e` with `10 ^ e` not above
it. -/
def Interval.magnitude (i : Interval) : Int :=
  let top := (Nat.toDigits 10 i.middle).length
  let bottom := (Nat.toDigits 10 i.unit).length
  let e : Int := (top : Int) - (bottom : Int)
  let scaled := i.inTens e
  if scaled.unit ≤ scaled.middle then e else e - 1

/-- The decimal with the fewest digits, at most seventeen, that rounds to the number; of several
the nearest. -/
def Binary.shortest (b : Binary) (tie : Tie) : Decimal :=
  let i := b.rounding
  let e := i.magnitude
  let found := (List.range 17).findSome? fun (n : Nat) =>
    ((i.inTens (e - n)).nearest? tie).map fun digits => Decimal.mk digits (e - n)
  (found.getD b.exact).trim

end Decimal

end DocTree
