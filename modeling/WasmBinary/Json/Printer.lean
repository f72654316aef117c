import WasmBinary.Json.Basic

/-!
# Printing JSON

The compact text of a value, without blanks. In strings, quotes, backslashes and control characters are escaped and nothing else.
-/

namespace WasmBinary.Json

/-- The hexadecimal digit of a number below 16. -/
def hexChar (n : Nat) : Char :=
  if n < 10 then Char.ofNat (48 + n) else Char.ofNat (87 + n)

/-- One character inside a string. -/
def escapeChar (c : Char) : List Char :=
  if c = '"' then ['\\', '"']
  else if c = '\\' then ['\\', '\\']
  else if c = '\x08' then ['\\', 'b']
  else if c = '\t' then ['\\', 't']
  else if c = '\n' then ['\\', 'n']
  else if c = '\x0c' then ['\\', 'f']
  else if c = '\r' then ['\\', 'r']
  else if c.toNat < 0x20 then ['\\', 'u', '0', '0', hexChar (c.toNat / 16), hexChar (c.toNat % 16)]
  else [c]

/-- A string; without a text, one with an unpaired surrogate. -/
def stringChars : Option String → List Char
  | some s => '"' :: (s.toList.flatMap escapeChar ++ ['"'])
  | none => ['"', '\\', 'u', 'd', '8', '0', '0', '"']

/-- A number; a fraction or an exponent is shown as an exponent of zero. -/
def numeralChars (n : Numeral) : List Char :=
  (if n.negative then ['-'] else []) ++ (Nat.toDigits 10 n.whole ++ if n.fractional then ['e', '0'] else [])

mutual

/-- The characters of a value. -/
def chars : Json → List Char
  | null => ['n', 'u', 'l', 'l']
  | bool true => ['t', 'r', 'u', 'e']
  | bool false => ['f', 'a', 'l', 's', 'e']
  | num n => numeralChars n
  | str text => stringChars text
  | arr [] => ['[', ']']
  | arr (v :: vs) => '[' :: (chars v ++ itemChars vs)
  | obj [] => ['\x7b', '\x7d']
  | obj ((k, v) :: ms) => '\x7b' :: (stringChars k ++ ':' :: (chars v ++ memberChars ms))

/-- The characters of an array from after its first item. -/
def itemChars : List Json → List Char
  | [] => [']']
  | v :: vs => ',' :: (chars v ++ itemChars vs)

/-- The characters of an object from after its first member. -/
def memberChars : List (Option String × Json) → List Char
  | [] => ['\x7d']
  | (k, v) :: ms => ',' :: (stringChars k ++ ':' :: (chars v ++ memberChars ms))

end

/-- The compact text of a value. -/
def print (j : Json) : String :=
  String.ofList j.chars

end WasmBinary.Json
