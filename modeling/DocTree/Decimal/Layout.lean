import DocTree.Decimal.Shortest

/-!
Writing a decimal. A layout says which magnitudes are written with all their places and what the
text of a whole number ends in; every other number has one digit before its point and a power of
ten behind it.
-/

namespace DocTree.Decimal

structure Layout where
  /-- Numbers whose first digit stands below this place are written with a power of ten. -/
  lowest : Option Int
  /-- Numbers whose first digit stands above this place are written with a power of ten. -/
  highest : Option Int
  wholeEnd : String
  plus : Bool
  /-- Which of two equally near decimals is written. -/
  tie : Tie

def firstPlace (d : Decimal) : Int :=
  d.exponent + (Nat.toDigits 10 d.digits).length - 1

def Layout.isPositional (l : Layout) (place : Int) : Bool :=
  l.lowest.all (· ≤ place) && l.highest.all (place ≤ ·)

/-- All places of the number, from the first digit or the point to the last digit or the point. -/
def positional (wholeEnd : String) (d : Decimal) : String :=
  let digits := Nat.toDigits 10 d.digits
  match d.exponent with
  | .ofNat zeros => String.ofList (digits ++ List.replicate zeros '0') ++ wholeEnd
  | .negSucc k =>
    let places := k + 1
    let padded := List.replicate (places + 1 - digits.length) '0' ++ digits
    let split := padded.length - places
    String.ofList (padded.take split ++ '.' :: padded.drop split)

/-- One digit, the others behind a point, and the power of ten. -/
def scientific (plus : Bool) (d : Decimal) : String :=
  let place := d.firstPlace
  let power := (if plus && 0 ≤ place then "e+" else "e") ++ toString place
  match Nat.toDigits 10 d.digits with
  | first :: [] => String.ofList [first] ++ power
  | first :: rest => String.ofList (first :: '.' :: rest) ++ power
  | [] => power

def Layout.write (l : Layout) (d : Decimal) : String :=
  if l.isPositional d.firstPlace then positional l.wholeEnd d else scientific l.plus d

/-- A finite double in a layout. Zero keeps its sign and is a whole number. -/
def Layout.writeFloat (l : Layout) (x : Float) : String :=
  let bits := x.toBits.toNat
  let sign := if bits / Nat.pow 2 63 = 1 then "-" else ""
  match Binary.ofBits? bits with
  | none => sign ++ "0" ++ l.wholeEnd
  | some b => sign ++ l.write (b.shortest l.tie)

end DocTree.Decimal
