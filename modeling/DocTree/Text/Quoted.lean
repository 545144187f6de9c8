import DocTree.Text.Invisible

/-!
Text quoted for a reader: between double quotes, with everything that would not show escaped.
-/

namespace DocTree.Text

/-- The digits of a number to base sixteen, in lower case. -/
def hex (n : Nat) : String := String.ofList (Nat.toDigits 16 n)

def quoteChar (c : Char) : String :=
  if c = '"' then "\\\""
  else if c = '\\' then "\\\\"
  else if c = '\n' then "\\n"
  else if c = '\r' then "\\r"
  else if c = '\t' then "\\t"
  else if c = '\x00' then "\\0"
  else if c.toNat < 32 || (126 < c.toNat && isInvisible c) then
    "\\u\x7b" ++ hex c.toNat ++ "\x7d"
  else c.toString

def quote (s : String) : String :=
  "\"" ++ String.join (s.toList.map quoteChar) ++ "\""

end DocTree.Text
