import ShardIndex.Chain.Hash
import ShardIndex.Json
/-!
# JSON text

A value is written without any space in it. Strings keep all characters but quotes, backslashes and
control characters.
-/
namespace ShardIndex.Json

/-- A character as it stands in a string. -/
def escapeChar (c : Char) : List Char :=
  if c = '"' then ['\\', '"']
  else if c = '\\' then ['\\', '\\']
  else if c = '\n' then ['\\', 'n']
  else if c = '\r' then ['\\', 'r']
  else if c = '\t' then ['\\', 't']
  else if c.toNat < 0x20 then '\\' :: 'u' :: (hexText 4 c.toNat).toList
  else [c]

/-- A string between quotes. -/
def stringText (s : String) : List Char :=
  '"' :: s.toList.flatMap escapeChar ++ ['"']

/-- The digits of a number with so many places. -/
def numberText (mantissa : Int) (places : Nat) : List Char :=
  let sign := if mantissa < 0 then ['-'] else []
  let digits (n : Nat) : List Char := (toString n).toList
  let n := mantissa.natAbs
  if places = 0 then sign ++ digits n
  else
    let unit := Nat.pow 10 places
    let fraction := digits (n % unit)
    sign ++ digits (n / unit) ++ '.' ::
      (List.replicate (places - fraction.length) '0' ++ fraction)

mutual

/-- The text of a value. -/
def chars : Json → List Char
  | .null => ['n', 'u', 'l', 'l']
  | .bool true => ['t', 'r', 'u', 'e']
  | .bool false => ['f', 'a', 'l', 's', 'e']
  | .number mantissa places => numberText mantissa places
  | .string s => stringText s
  | .array items => '[' :: itemChars items ++ [']']
  | .object fields => '{' :: fieldChars fields ++ ['}']

/-- The items of an array. -/
def itemChars : List Json → List Char
  | [] => []
  | [x] => chars x
  | x :: y :: rest => chars x ++ ',' :: itemChars (y :: rest)

/-- The fields of an object. -/
def fieldChars : List (String × Json) → List Char
  | [] => []
  | [(name, x)] => stringText name ++ ':' :: chars x
  | (name, x) :: y :: rest => stringText name ++ ':' :: chars x ++ ',' :: fieldChars (y :: rest)

end

/-- The text of a value. -/
def text (j : Json) : String :=
  String.ofList j.chars

/-- A whole number. -/
def ofNat (n : Nat) : Json :=
  .number n 0

/-- `null` or the value of something that is there. -/
def ofOption {α : Type} (f : α → Json) : Option α → Json
  | none => .null
  | some a => f a

end ShardIndex.Json
