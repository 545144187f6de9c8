import DocTree.Json.Basic
import DocTree.Decimal.Layout

/-!
The value and the text of a JSON number. A whole number of 64 bits is kept exactly. Any other
spelling becomes a double by one multiplication or division: its leading digits are collected
while they fit 64 bits, and the power of ten that is left scales them. That double is the nearest
one for up to fifteen digits and may be a neighbour of it for more.
-/

namespace DocTree.Json

/-- A number as it is spelled. Digits stand for themselves, the most significant first; the
fraction is empty when there is no point. -/
structure Numeral where
  negative : Bool
  whole : List Nat
  fraction : List Nat
  exponent : Option Int
  deriving DecidableEq

/-- Appends digits to a number while it stays below `2 ^ 64`. The digits that are left over come
with it. -/
def absorb (n : Nat) : List Nat → Nat × List Nat
  | [] => (n, [])
  | d :: rest =>
    if n * 10 + d < 18446744073709551616 then absorb (n * 10 + d) rest else (n, d :: rest)

/-- The double next to a power of ten with an exponent of at most 308. -/
def powerOfTen (exponent : Nat) : Float := Float.ofScientific 1 false exponent

/-- A double times a power of ten. Powers that are no doubles are divided out in steps of
`10 ^ 308`, at most `steps` of them, until nothing is left of the number; there is no result where
the product is too large. -/
def scale? (x : Float) (exponent : Int) : (steps : Nat) → Option Float
  | 0 => some x
  | steps + 1 =>
    if exponent.natAbs ≤ 308 then
      if 0 ≤ exponent then
        let product := x * powerOfTen exponent.natAbs
        if product.isInf then none else some product
      else some (x / powerOfTen exponent.natAbs)
    else if x == 0 then some x
    else if 0 ≤ exponent then none
    else scale? (x / powerOfTen 308) (exponent + 308) steps

/-- The value of a numeral; none where it is larger than every double. -/
def Numeral.value? (n : Numeral) : Option Number :=
  let (head, dropped) := absorb 0 n.whole
  let signed (x : Float) : Number := .float (if n.negative then -x else x)
  if n.fraction.isEmpty && n.exponent.isNone && dropped.isEmpty then
    let exact := if n.negative then -(head : Int) else head
    match Integer.ofInt? exact with
    | some i => if n.negative && head = 0 then some (signed 0) else some (.int i)
    | none => some (signed (UInt64.ofNat head).toFloat)
  else
    let (significand, unused) := absorb head n.fraction
    let absorbed : Nat := n.fraction.length - unused.length
    let exponent : Int := n.exponent.getD 0 + dropped.length - absorbed
    -- a significand of twenty digits is gone after three divisions by `10 ^ 308`
    (scale? (UInt64.ofNat significand).toFloat exponent 5).map signed

/-- Doubles show at least one decimal place, and a power of ten below `0.00001` and from
`10 ^ 16` on. Of two equally near decimals the one with an even last digit is written. -/
def numberLayout : Decimal.Layout := ⟨some (-5), some 15, ".0", true, .toEven⟩

def Number.text : Number → String
  | .int n => toString n.val
  | .float x => numberLayout.writeFloat x

end DocTree.Json
