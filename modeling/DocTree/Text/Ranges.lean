/-!
Sets of code points that are given as closed ranges in increasing order.
-/

namespace DocTree.Text

/-- Whether one of the increasing ranges between two indices holds the code point. -/
def inRanges (ranges : Array (Nat × Nat)) (code low high : Nat) : Bool :=
  if _h : low < high then
    let middle := (low + high) / 2
    match ranges[middle]? with
    | none => false
    | some (first, last) =>
      if code < first then inRanges ranges code low middle
      else if last < code then inRanges ranges code (middle + 1) high
      else true
  else false
termination_by high - low

def holds (ranges : Array (Nat × Nat)) (c : Char) : Bool :=
  inRanges ranges c.toNat 0 ranges.size

end DocTree.Text
