/-!
JSON values as ordered trees. An object is the list of its members in the order in which they
were written, so two objects with the same members in another order are different trees that
`Json.sameAs` identifies. That a key occurs once is not part of the type: `Json.UniqueKeys` says
it, and `Json.mergeRepeats` establishes it.
-/

namespace DocTree

/-- An integer that a JSON number holds exactly: one of 64 bits, with or without sign. -/
structure Json.Integer where
  val : Int
  lower : -9223372036854775808 ≤ val
  upper : val < 18446744073709551616
  deriving DecidableEq

namespace Json.Integer

def ofInt? (n : Int) : Option Integer :=
  if h : -9223372036854775808 ≤ n ∧ n < 18446744073709551616 then some ⟨n, h.1, h.2⟩ else none

def ofInt64 (n : Int64) : Integer :=
  ⟨n.toInt, Int64.le_toInt n, Int.lt_trans (Int64.toInt_lt n) (by decide)⟩

def ofUInt64 (n : UInt64) : Integer :=
  ⟨(n.toNat : Int), by omega, by have := n.toNat_lt; omega⟩

instance : Inhabited Integer := ⟨⟨0, by decide, by decide⟩⟩

end Json.Integer

/-- A JSON number: an integer of 64 bits, or a finite double for every other spelling. -/
inductive Json.Number where
  | int (n : Json.Integer)
  | float (x : Float)

/-- Numbers are compared within their kind, doubles by value: `-0.0` is the same as `0.0`. -/
def Json.Number.sameAs : Json.Number → Json.Number → Bool
  | .int m, .int n => m == n
  | .float x, .float y => x == y
  | _, _ => false

inductive Json where
  | null
  | bool (b : Bool)
  | num (n : Json.Number)
  | str (s : String)
  | arr (items : List Json)
  | obj (members : List (String × Json))
  deriving Inhabited

abbrev Json.Members := List (String × Json)

namespace Json

def ofNat (n : UInt64) : Json := .num (.int (.ofUInt64 n))

/-- Sets a key: a present key keeps its place and takes the new value, a new key comes last. -/
def Members.set (key : String) (value : Json) : Members → Members
  | [] => [(key, value)]
  | (k, v) :: rest =>
    if k = key then (k, value) :: rest else (k, v) :: Members.set key value rest

def Members.ofList (entries : Members) : Members :=
  entries.foldl (fun members entry => Members.set entry.1 entry.2 members) []

def Members.string? (key : String) (members : Members) : Option String :=
  match members.lookup key with
  | some (.str s) => some s
  | _ => none

mutual

/-- Merges the occurrences of a repeated key in every object: the key stays where it came first
and its last value counts. -/
def mergeRepeats : Json → Json
  | .arr items => .arr (mergeRepeatsList items)
  | .obj members => .obj (Members.ofList (mergeRepeatsMembers members))
  | .null => .null
  | .bool b => .bool b
  | .num n => .num n
  | .str s => .str s

def mergeRepeatsList : List Json → List Json
  | [] => []
  | v :: rest => mergeRepeats v :: mergeRepeatsList rest

def mergeRepeatsMembers : Members → Members
  | [] => []
  | (k, v) :: rest => (k, mergeRepeats v) :: mergeRepeatsMembers rest

end

mutual

/-- No object in the value repeats a key. -/
def UniqueKeys : Json → Prop
  | .arr items => UniqueKeysList items
  | .obj members => (members.map Prod.fst).Nodup ∧ UniqueKeysMembers members
  | .null | .bool _ | .num _ | .str _ => True

def UniqueKeysList : List Json → Prop
  | [] => True
  | v :: rest => UniqueKeys v ∧ UniqueKeysList rest

def UniqueKeysMembers : Members → Prop
  | [] => True
  | (_, v) :: rest => UniqueKeys v ∧ UniqueKeysMembers rest

end

mutual

/-- Equality up to the order of members, for values without repeated keys. -/
def sameAs : Json → Json → Bool
  | .null, .null => true
  | .bool a, .bool b => a == b
  | .num m, .num n => m.sameAs n
  | .str s, .str t => s == t
  | .arr xs, .arr ys => sameList xs ys
  | .obj ms, .obj ns => ms.length == ns.length && sameMembers ms ns
  | _, _ => false

def sameList : List Json → List Json → Bool
  | [], [] => true
  | x :: xs, y :: ys => sameAs x y && sameList xs ys
  | _, _ => false

/-- Every member of the first list has the same value in the second. -/
def sameMembers : Members → Members → Bool
  | [], _ => true
  | (k, v) :: rest, others =>
    (match others.lookup k with
      | some w => sameAs v w
      | none => false) && sameMembers rest others

end

mutual

/-- How deep arrays and objects nest: none in a scalar, one more in a container than in its
deepest element. -/
def depth : Json → Nat
  | .arr items => depthList items + 1
  | .obj members => depthMembers members + 1
  | .null | .bool _ | .num _ | .str _ => 0

def depthList : List Json → Nat
  | [] => 0
  | v :: rest => max (depth v) (depthList rest)

def depthMembers : Members → Nat
  | [] => 0
  | (_, v) :: rest => max (depth v) (depthMembers rest)

end

mutual

/-- No number in the value is a double. -/
def FloatFree : Json → Prop
  | .num (.float _) => False
  | .arr items => FloatFreeList items
  | .obj members => FloatFreeMembers members
  | .num (.int _) | .null | .bool _ | .str _ => True

def FloatFreeList : List Json → Prop
  | [] => True
  | v :: rest => FloatFree v ∧ FloatFreeList rest

def FloatFreeMembers : Members → Prop
  | [] => True
  | (_, v) :: rest => FloatFree v ∧ FloatFreeMembers rest

end

end Json

end DocTree
