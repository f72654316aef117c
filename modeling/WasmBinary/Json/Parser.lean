import WasmBinary.Json.Basic

/-!
# Parsing JSON

A strict reading of JSON texts: no comments, no trailing commas, no leading zeros, no bare control characters in strings, nothing
but blanks around the one value. Nesting may be of any depth.
-/

namespace WasmBinary.Json

/-- The characters that may stand between tokens. -/
def isBlank (c : Char) : Bool :=
  c = ' ' || c = '\t' || c = '\n' || c = '\r'

/-- What is left of a text after the blanks at its start. -/
def skipBlank (s : List Char) : List Char :=
  s.dropWhile isBlank

/-! ## Strings -/

/-- A character of a string as it is written: plainly or by a short escape, or as a 16-bit unit in hexadecimal. -/
inductive Piece where
  | char (c : Char)
  | unit (u : Nat)
  deriving DecidableEq, Repr

/-- The value of a hexadecimal digit. -/
def hexDigit? (c : Char) : Option Nat :=
  if '0' ≤ c ∧ c ≤ '9' then some (c.toNat - 48)
  else if 'a' ≤ c ∧ c ≤ 'f' then some (c.toNat - 87)
  else if 'A' ≤ c ∧ c ≤ 'F' then some (c.toNat - 55)
  else none

/-- The value of four hexadecimal digits. -/
def hexUnit? (a b c d : Char) : Option Nat := do
  return 4096 * (← hexDigit? a) + 256 * (← hexDigit? b) + 16 * (← hexDigit? c) + (← hexDigit? d)

/-- The character that a short escape stands for. -/
def shortEscape? (c : Char) : Option Char :=
  if c = '"' then some '"'
  else if c = '\\' then some '\\'
  else if c = '/' then some '/'
  else if c = 'b' then some '\x08'
  else if c = 'f' then some '\x0c'
  else if c = 'n' then some '\n'
  else if c = 'r' then some '\r'
  else if c = 't' then some '\t'
  else none

/-- The pieces of a string from after its opening quote, and what follows its closing quote. -/
def pieces : List Char → Option (List Piece × List Char)
  | [] => none
  | '"' :: rest => some ([], rest)
  | '\\' :: 'u' :: a :: b :: c :: d :: rest => do
    let u ← hexUnit? a b c d
    let (ps, rest) ← pieces rest
    return (.unit u :: ps, rest)
  | '\\' :: e :: rest => do
    let c ← shortEscape? e
    let (ps, rest) ← pieces rest
    return (.char c :: ps, rest)
  | c :: rest =>
    if c.toNat < 0x20 then none
    else do
      let (ps, rest) ← pieces rest
      return (.char c :: ps, rest)

/-- Whether a 16-bit unit is the first half of a pair. -/
def isLeading (u : Nat) : Bool := 0xd800 ≤ u && u < 0xdc00

/-- Whether a 16-bit unit is the second half of a pair. -/
def isTrailing (u : Nat) : Bool := 0xdc00 ≤ u && u < 0xe000

/-- The characters that the pieces of a string denote, if every half of a pair has its other half beside it. -/
def denoted : List Piece → Option (List Char)
  | [] => some []
  | .char c :: ps => (denoted ps).map (c :: ·)
  | .unit u :: ps =>
    if isTrailing u then none
    else if isLeading u then
      match ps with
      | .unit v :: ps =>
        if isTrailing v then (denoted ps).map (Char.ofNat (0x10000 + 1024 * (u - 0xd800) + (v - 0xdc00)) :: ·) else none
      | _ => none
    else (denoted ps).map (Char.ofNat u :: ·)

/-- The text of a string from after its opening quote, and what follows its closing quote. -/
def stringTail (s : List Char) : Option (Option String × List Char) := do
  let (ps, rest) ← pieces s
  return ((denoted ps).map String.ofList, rest)

/-! ## Numbers -/

/-- The digits at the start of a text, if there are any, and what follows them. -/
def digits (s : List Char) : Option (List Char × List Char) :=
  let ds := s.takeWhile Char.isDigit
  if ds.isEmpty then none else some (ds, s.dropWhile Char.isDigit)

/-- The number that decimal digits stand for. -/
def digitsValue (ds : List Char) : Nat :=
  ds.foldl (fun n d => 10 * n + (d.toNat - 48)) 0

/-- What follows the fraction at the start of a text, if one is there, and whether it is. -/
def fraction (s : List Char) : Option (Bool × List Char) :=
  match s with
  | '.' :: rest => (digits rest).map fun p => (true, p.2)
  | _ => some (false, s)

/-- What is left of a text after the sign at its start. -/
def skipSign (s : List Char) : List Char :=
  match s with
  | '+' :: rest => rest
  | '-' :: rest => rest
  | _ => s

/-- What follows the exponent at the start of a text, if one is there, and whether it is. -/
def exponent (s : List Char) : Option (Bool × List Char) :=
  match s with
  | 'e' :: rest => (digits (skipSign rest)).map fun p => (true, p.2)
  | 'E' :: rest => (digits (skipSign rest)).map fun p => (true, p.2)
  | _ => some (false, s)

/-- Whether digits are the whole part of a number: a zero stands first only by itself. -/
def isWhole : List Char → Bool
  | '0' :: _ :: _ => false
  | _ => true

/-- The number at the start of a text without sign, and what follows it. -/
def unsignedNumeral (negative : Bool) (s : List Char) : Option (Numeral × List Char) := do
  let (ds, s) ← digits s
  if isWhole ds then
    let (hasFraction, s) ← fraction s
    let (hasExponent, s) ← exponent s
    return (⟨negative, digitsValue ds, hasFraction || hasExponent⟩, s)
  else
    none

/-- The number at the start of a text, and what follows it. -/
def numeral (s : List Char) : Option (Numeral × List Char) :=
  match s with
  | '-' :: rest => unsignedNumeral true rest
  | _ => unsignedNumeral false s

/-! ## Values -/

mutual

/-- The value at the start of a text, and what follows it. -/
def value : Nat → List Char → Option (Json × List Char)
  | 0, _ => none
  | fuel + 1, s =>
    match skipBlank s with
    | 'n' :: 'u' :: 'l' :: 'l' :: rest => some (null, rest)
    | 't' :: 'r' :: 'u' :: 'e' :: rest => some (bool true, rest)
    | 'f' :: 'a' :: 'l' :: 's' :: 'e' :: rest => some (bool false, rest)
    | '"' :: rest => (stringTail rest).map fun p => (str p.1, p.2)
    | '[' :: rest =>
      match skipBlank rest with
      | ']' :: rest => some (arr [], rest)
      | rest => do
        let (v, rest) ← value fuel rest
        let (vs, rest) ← itemsTail fuel rest
        return (arr (v :: vs), rest)
    | '\x7b' :: rest =>
      match skipBlank rest with
      | '\x7d' :: rest => some (obj [], rest)
      | rest => do
        let (m, rest) ← member fuel rest
        let (ms, rest) ← membersTail fuel rest
        return (obj (m :: ms), rest)
    | rest => (numeral rest).map fun p => (num p.1, p.2)

/-- The items of an array from after its first one, and what follows the closing bracket. -/
def itemsTail : Nat → List Char → Option (List Json × List Char)
  | 0, _ => none
  | fuel + 1, s =>
    match skipBlank s with
    | ']' :: rest => some ([], rest)
    | ',' :: rest => do
      let (v, rest) ← value fuel rest
      let (vs, rest) ← itemsTail fuel rest
      return (v :: vs, rest)
    | _ => none

/-- The member of an object at the start of a text, and what follows it. -/
def member : Nat → List Char → Option ((Option String × Json) × List Char)
  | 0, _ => none
  | fuel + 1, s =>
    match skipBlank s with
    | '"' :: rest => do
      let (k, rest) ← stringTail rest
      match skipBlank rest with
      | ':' :: rest => do
        let (v, rest) ← value fuel rest
        return ((k, v), rest)
      | _ => none
    | _ => none

/-- The members of an object from after its first one, and what follows the closing brace. -/
def membersTail : Nat → List Char → Option (List (Option String × Json) × List Char)
  | 0, _ => none
  | fuel + 1, s =>
    match skipBlank s with
    | '\x7d' :: rest => some ([], rest)
    | ',' :: rest => do
      let (m, rest) ← member fuel rest
      let (ms, rest) ← membersTail fuel rest
      return (m :: ms, rest)
    | _ => none

end

/-- The value of a text. Every call of `value` and its companions takes a character or is followed by one that does, within two
calls, which bounds their depth. -/
def parse? (text : String) : Option Json := do
  let s := text.toList
  let (v, rest) ← value (3 * s.length + 3) s
  if (skipBlank rest).isEmpty then some v else none

end WasmBinary.Json
