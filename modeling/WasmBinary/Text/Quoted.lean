import WasmBinary.Text.Unprintable
import WasmBinary.Text.CombiningMark

/-!
# Quoted texts

How a text of unknown contents is shown inside a message: in double quotes, with everything that a reader could not tell apart by
eye written as an escape.
-/

namespace WasmBinary.Text

/-- A number in lowercase hexadecimal digits, without leading zeros. -/
def hex (n : Nat) : String :=
  String.ofList (Nat.toDigits 16 n)

/-- One character of a quoted text. -/
def quoteChar (c : Char) : String :=
  if c = '\x00' then "\\0"
  else if c = '\t' then "\\t"
  else if c = '\r' then "\\r"
  else if c = '\n' then "\\n"
  else if c = '"' then "\\\""
  else if c = '\\' then "\\\\"
  else if isCombiningMark c || isUnprintable c then "\\u\x7b" ++ hex c.toNat ++ "\x7d"
  else c.toString

/-- A text in double quotes, with escapes. -/
def quote (s : String) : String :=
  "\"" ++ String.join (s.toList.map quoteChar) ++ "\""

end WasmBinary.Text
