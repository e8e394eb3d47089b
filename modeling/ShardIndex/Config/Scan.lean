import ShardIndex.Config.DurationText
/-!
# Scanning JSON text

A configuration is read from left to right, value by value, and the first thing that is wrong is
reported. Wrong can be the text (`malformed`), its end (`incomplete`), or a well-formed value where
another one is expected (`mismatch`, with the path to it).

There are two ways over a value. A value that somebody wants is decoded: the escapes of a string
have to be characters, and a number has to be in the range of double-precision floats. A value that
nobody wants is skipped (`Scan.skipValue`) and only has to look like one.
-/
namespace ShardIndex

/-- A step on the way to a value. -/
inductive PathStep where
  | key (name : String)
  | index (i : Nat)
deriving DecidableEq, Repr

/-- Why a text was not read. -/
inductive ReadFault where
  | malformed
  | incomplete
  /-- A value is not what it should be. A text that should be a duration is kept. -/
  | mismatch (path : List PathStep) (notDuration : Option String)
deriving DecidableEq, Repr

/-- Puts a step in front of the path of a fault. -/
def ReadFault.within (step : PathStep) : ReadFault → ReadFault
  | .mismatch path text => .mismatch (step :: path) text
  | fault => fault

/-- Reads a value at the start of a text; the result has the text after it. -/
abbrev Scan (α : Type) := List Char → Except ReadFault (α × List Char)

namespace Scan

/-- A value of the wrong kind at the place where the reader stands. -/
def wrong : ReadFault := .mismatch [] none

/-- Whether a character may stand between tokens. -/
def isSpace (c : Char) : Bool :=
  c == ' ' || c == '\n' || c == '\t' || c == '\r'

/-- The text after the blanks at its start. -/
def skipSpace (cs : List Char) : List Char :=
  cs.dropWhile isSpace

/-- Reads the rest of a word. -/
def word : List Char → List Char → Except ReadFault (List Char)
  | [], cs => .ok cs
  | _ :: _, [] => .error .incomplete
  | w :: ws, c :: cs => if c = w then word ws cs else .error .malformed

/-! ## Strings -/

/-- The value of a hexadecimal digit. -/
def hexValue? (c : Char) : Option Nat :=
  if '0' ≤ c ∧ c ≤ '9' then some (c.toNat - '0'.toNat)
  else if 'a' ≤ c ∧ c ≤ 'f' then some (c.toNat - 'a'.toNat + 10)
  else if 'A' ≤ c ∧ c ≤ 'F' then some (c.toNat - 'A'.toNat + 10)
  else none

/-- The bytes that a text takes. -/
def byteCount (cs : List Char) : Nat :=
  cs.foldl (fun n c => n + c.utf8Size) 0

/-- Reads four hexadecimal digits. With less than four bytes left the text is incomplete. -/
def fourDigits (cs : List Char) : Except ReadFault (Nat × List Char) :=
  match cs with
  | a :: b :: c :: d :: rest =>
    match hexValue? a, hexValue? b, hexValue? c, hexValue? d with
    | some a, some b, some c, some d => .ok (((a * 16 + b) * 16 + c) * 16 + d, rest)
    | _, _, _, _ => .error .malformed
  | _ => if byteCount (cs.take 4) < 4 then .error .incomplete else .error .malformed

/-- Reads one character that has to be there. -/
def expect (c : Char) : List Char → Except ReadFault (List Char)
  | [] => .error .incomplete
  | d :: rest => if d = c then .ok rest else .error .malformed

/-- Reads a code point that is written as one code unit or as a pair of surrogates. -/
def codePoint (cs : List Char) : Except ReadFault (Char × List Char) := do
  let (unit, rest) ← fourDigits cs
  if unit < 0xd800 ∨ 0xe000 ≤ unit then
    return (Char.ofNat unit, rest)
  else if 0xdc00 ≤ unit then
    throw .malformed
  else
    let rest ← expect 'u' (← expect '\\' rest)
    let (second, rest) ← fourDigits rest
    if second < 0xdc00 ∨ 0xe000 ≤ second then
      throw .malformed
    else
      return (Char.ofNat (0x10000 + (unit - 0xd800) * 0x400 + (second - 0xdc00)), rest)

/-- What stands for one character after a backslash. -/
def shortEscape? : Char → Option Char
  | '"' => some '"'
  | '\\' => some '\\'
  | '/' => some '/'
  | 'b' => some (Char.ofNat 8)
  | 'f' => some (Char.ofNat 12)
  | 'n' => some '\n'
  | 'r' => some '\r'
  | 't' => some '\t'
  | _ => none

/-- Reads an escape, after its backslash. -/
def escape : List Char → Except ReadFault (Char × List Char)
  | [] => .error .incomplete
  | c :: rest =>
    match shortEscape? c with
    | some d => .ok (d, rest)
    | none => if c = 'u' then codePoint rest else .error .malformed

/-- Reads a string after its opening quote, of at most so many characters. -/
def characters : Nat → List Char → Except ReadFault (List Char × List Char)
  | 0, _ => .error .incomplete
  | _ + 1, [] => .error .incomplete
  | n + 1, c :: cs =>
    if c = '"' then .ok ([], cs)
    else if c = '\\' then do
      let (d, rest) ← escape cs
      let (s, rest) ← characters n rest
      return (d :: s, rest)
    else if c.toNat < 0x20 then .error .malformed
    else do
      let (s, rest) ← characters n cs
      return (c :: s, rest)

/-- Reads a string after its opening quote. -/
def string (cs : List Char) : Except ReadFault (String × List Char) := do
  let (s, rest) ← characters (cs.length + 1) cs
  return (String.ofList s, rest)

/-- Skips an escape, after its backslash. It need not stand for a character. -/
def skipEscape : List Char → Except ReadFault (List Char)
  | [] => .error .incomplete
  | c :: rest =>
    if c = 'u' then (fourDigits rest).map Prod.snd
    else if (shortEscape? c).isSome then .ok rest
    else .error .malformed

/-- Skips a string after its opening quote, of at most so many characters. -/
def skipCharacters : Nat → List Char → Except ReadFault (List Char)
  | 0, _ => .error .incomplete
  | _ + 1, [] => .error .incomplete
  | n + 1, c :: cs =>
    if c = '"' then .ok cs
    else if c = '\\' then do skipCharacters n (← skipEscape cs)
    else if c.toNat < 0x20 then .error .malformed
    else skipCharacters n cs

/-- Skips a string after its opening quote. -/
def skipString (cs : List Char) : Except ReadFault (List Char) :=
  skipCharacters (cs.length + 1) cs

/-! ## Numbers -/

/-- Takes digits into a word as long as it holds them. The result counts the digits that are
left. -/
def significand : List Char → Nat → Nat × Nat
  | [], s => (s, 0)
  | c :: cs, s =>
    let next := s * 10 + (c.toNat - '0'.toNat)
    if next < UInt64.size then significand cs next else (s, cs.length + 1)

/-- The nearest number with 53 significant bits; of two nearest ones the even one. -/
def nearestFloat (n : Nat) : Nat :=
  let shift := n.log2 - 52
  let quotient := n >>> shift
  let double := 2 * (n - quotient <<< shift)
  let unit := 1 <<< shift
  let up := decide (unit < double) || (double == unit && quotient % 2 == 1)
  (if up then quotient + 1 else quotient) <<< shift

/-- Whether `s` times a power of ten is in the range of floats. The product is the one of the
nearest floats. -/
def inFloatRange (s : Nat) (exponent : Int) : Bool :=
  if s = 0 ∨ exponent ≤ 0 then true
  else if 308 < exponent then false
  else
    let power := Nat.pow 10 exponent.toNat
    decide (nearestFloat s * nearestFloat power < ((1 <<< 54) - 1) <<< 970)

/-- Reads an exponent after its letter. -/
def exponent (cs : List Char) : Except ReadFault (Int × List Char) :=
  let (negative, cs) :=
    match cs with
    | '+' :: rest => (false, rest)
    | '-' :: rest => (true, rest)
    | _ => (false, cs)
  match cs with
  | [] => .error .incomplete
  | c :: _ =>
    if c.isDigit then
      let n : Int := Duration.ofDigits (cs.takeWhile Char.isDigit)
      .ok (if negative then -n else n, cs.dropWhile Char.isDigit)
    else .error .malformed

/-- Reads the decimal places after their point, into a significand that is there already. The
result has the significand and the exponent that go with the places. -/
def places (s : Nat) (cs : List Char) : Except ReadFault ((Nat × Int) × List Char) :=
  let digits := cs.takeWhile Char.isDigit
  let rest := cs.dropWhile Char.isDigit
  match digits, rest with
  | [], [] => .error .incomplete
  | [], _ :: _ => .error .malformed
  | _ :: _, _ =>
    let (s, left) := significand digits s
    .ok ((s, (left : Int) - digits.length), rest)

/-- Reads what follows the whole part of a number. The result tells whether the number is a whole
one, as written. -/
def fraction (s : Nat) (left : Nat) (cs : List Char) : Except ReadFault (Bool × List Char) := do
  let (s, shift, plain, rest) ←
    match cs with
    | '.' :: rest => do
      let ((s, shift), rest) ← places s rest
      pure (s, shift, false, rest)
    | _ => pure (s, (0 : Int), true, cs)
  let (exponent, plain, rest) ←
    match rest with
    | c :: more =>
      if c = 'e' ∨ c = 'E' then do
        let (e, rest) ← exponent more
        pure (e, false, rest)
      else pure (0, plain, rest)
    | [] => pure (0, plain, rest)
  if inFloatRange s (left + shift + exponent) then
    return (plain, rest)
  else
    throw .malformed

/-- Reads a number without its sign. A whole number that fits a word is a result, any other number
is none. -/
def magnitude : List Char → Except ReadFault (Option Nat × List Char)
  | [] => .error .incomplete
  | c :: cs =>
    if c.isDigit then
      let digits := c :: cs.takeWhile Char.isDigit
      if c = '0' ∧ 1 < digits.length then .error .malformed
      else do
        let (s, left) := significand digits 0
        let (plain, rest) ← fraction s left (cs.dropWhile Char.isDigit)
        return (if plain ∧ left = 0 then some s else none, rest)
    else .error .malformed

/-- Reads a number. Behind a sign it is none that anybody wants. -/
def number : List Char → Except ReadFault (Option Nat × List Char)
  | '-' :: cs => do
    let (_, rest) ← magnitude cs
    return (none, rest)
  | cs => magnitude cs

/-- Skips digits of which there has to be one. -/
def skipDigits : List Char → Except ReadFault (List Char)
  | c :: cs => if c.isDigit then .ok (cs.dropWhile Char.isDigit) else .error .malformed
  | [] => .error .malformed

/-- Skips an exponent, if there is one. -/
def skipExponent : List Char → Except ReadFault (List Char)
  | c :: cs =>
    if c = 'e' ∨ c = 'E' then
      match cs with
      | '+' :: rest => skipDigits rest
      | '-' :: rest => skipDigits rest
      | _ => skipDigits cs
    else .ok (c :: cs)
  | [] => .ok []

/-- Skips a number without its sign. -/
def skipMagnitude : List Char → Except ReadFault (List Char)
  | c :: cs => do
    let rest ←
      if c = '0' then
        if cs.head?.any Char.isDigit then throw .malformed else pure cs
      else skipDigits (c :: cs)
    match rest with
    | '.' :: rest => skipExponent (← skipDigits rest)
    | _ => skipExponent rest
  | [] => .error .malformed

/-! ## Values that nobody wants -/

/-- What a value stands in. -/
inductive Frame where
  | array
  | object
deriving DecidableEq, Repr

/-- Skips a value that holds no others, or the bracket that opens one which does. -/
def skipToken : List Char → Except ReadFault (Option Frame × List Char)
  | [] => .error .incomplete
  | c :: cs =>
    if c = 'n' then (word ['u', 'l', 'l'] cs).map (none, ·)
    else if c = 't' then (word ['r', 'u', 'e'] cs).map (none, ·)
    else if c = 'f' then (word ['a', 'l', 's', 'e'] cs).map (none, ·)
    else if c = '"' then (skipString cs).map (none, ·)
    else if c = '-' then (skipMagnitude cs).map (none, ·)
    else if c.isDigit then (skipMagnitude (c :: cs)).map (none, ·)
    else if c = '[' then .ok (some .array, cs)
    else if c = '{' then .ok (some .object, cs)
    else .error .malformed

/-- Skips the key of a field and the colon after it. -/
def skipKey (cs : List Char) : Except ReadFault (List Char) := do
  let rest ← expect '"' (skipSpace cs)
  expect ':' (skipSpace (← skipString rest))

/-- Where a skipped value goes on. -/
inductive Place where
  /-- Before a value. -/
  | value
  /-- Before the first item of a frame, or its end. -/
  | opened
  /-- Behind an item of a frame. -/
  | behind

/-- Goes over the rest of a value that stands in frames, the innermost first, in so many steps. -/
def skipFrom : Nat → Place → List Frame → List Char → Except ReadFault (List Char)
  | 0, _, _, _ => .error .incomplete
  | n + 1, .value, frames, cs => do
    match ← skipToken (skipSpace cs) with
    | (some frame, rest) => skipFrom n .opened (frame :: frames) rest
    | (none, rest) => skipFrom n .behind frames rest
  | _ + 1, _, [], cs => .ok cs
  | n + 1, place, frame :: frames, cs =>
    let next (cs : List Char) : Except ReadFault (List Char) :=
      match frame with
      | .array => skipFrom n .value (frame :: frames) cs
      | .object => do skipFrom n .value (frame :: frames) (← skipKey cs)
    match skipSpace cs with
    | [] => .error .incomplete
    | c :: rest =>
      if c = (match frame with | .array => ']' | .object => '}') then skipFrom n .behind frames rest
      else
        match place with
        | .behind => if c = ',' then next rest else .error .malformed
        | _ => next (c :: rest)

/-- Skips a value. -/
def skipValue (cs : List Char) : Except ReadFault (List Char) :=
  skipFrom (3 * cs.length + 3) .value [] cs

/-! ## Values that somebody wants -/

/-- What is wrong with a value of another kind than the wanted one. -/
def refuse : List Char → ReadFault
  | [] => .incomplete
  | c :: cs =>
    let after {α : Type} (r : Except ReadFault α) : ReadFault :=
      match r with
      | .ok _ => wrong
      | .error fault => fault
    if c = 'n' then after (word ['u', 'l', 'l'] cs)
    else if c = 't' then after (word ['r', 'u', 'e'] cs)
    else if c = 'f' then after (word ['a', 'l', 's', 'e'] cs)
    else if c = '"' then after (string cs)
    else if c = '-' ∨ c.isDigit then after (number (c :: cs))
    else if c = '[' ∨ c = '{' then wrong
    else .malformed

/-- Reads a whole number up to a limit. -/
def natural (limit : Nat) (cs : List Char) : Except ReadFault (Nat × List Char) :=
  match skipSpace cs with
  | [] => .error .incomplete
  | c :: rest =>
    if c = '-' ∨ c.isDigit then do
      let (n, rest) ← number (c :: rest)
      match n with
      | some n => if n ≤ limit then return (n, rest) else throw wrong
      | none => throw wrong
    else .error (refuse (c :: rest))

/-- Reads a whole number up to a limit, other than zero. -/
def positive (limit : Nat) (cs : List Char) : Except ReadFault (Nat × List Char) := do
  let (n, rest) ← natural limit cs
  if n = 0 then throw wrong else return (n, rest)

def boolean (cs : List Char) : Except ReadFault (Bool × List Char) :=
  match skipSpace cs with
  | 't' :: rest => (word ['r', 'u', 'e'] rest).map (true, ·)
  | 'f' :: rest => (word ['a', 'l', 's', 'e'] rest).map (false, ·)
  | rest => .error (refuse rest)

/-- Reads `null` or a value. -/
def optional {α : Type} (p : Scan α) (cs : List Char) : Except ReadFault (Option α × List Char) :=
  match skipSpace cs with
  | 'n' :: rest => (word ['u', 'l', 'l'] rest).map (none, ·)
  | rest => (p rest).map fun r => (some r.1, r.2)

/-- Reads a duration in its text form. -/
def duration (cs : List Char) : Except ReadFault (Duration × List Char) :=
  match skipSpace cs with
  | '"' :: rest => do
    let (s, rest) ← string rest
    match Duration.ofText? s with
    | some d => return (d, rest)
    | none => throw (.mismatch [] (some s))
  | rest => .error (refuse rest)

/-! ## Records -/

/-- A field of a record: its name, and how its value is read into the record. -/
structure RecordField (σ : Type) where
  name : String
  read : σ → Scan σ

/-- A field that is read on its own. -/
def RecordField.of {σ α : Type} (name : String) (p : Scan α) (set : σ → α → σ) :
    RecordField σ where
  name := name
  read s cs := (p cs).map fun r => (set s r.1, r.2)

section

variable {σ : Type}

/-- Puts a step in front of the path of a failure. -/
def within {α : Type} (step : PathStep) (r : Except ReadFault α) : Except ReadFault α :=
  r.mapError (·.within step)

/-- The text after the opening quote of the next key; `none` behind the end of the object. -/
def nextKey (first : Bool) (cs : List Char) : Except ReadFault (Option (List Char) × List Char) :=
  match skipSpace cs with
  | [] => .error .incomplete
  | c :: rest =>
    if c = '}' then .ok (none, rest)
    else if first then
      if c = '"' then .ok (some rest, rest) else .error .malformed
    else if c = ',' then (expect '"' (skipSpace rest)).map fun rest => (some rest, rest)
    else .error .malformed

/-- Reads the fields of a record by their names, in at most so many steps. No field may stand twice,
and unknown ones are skipped. -/
def namedFields (fields : List (RecordField σ)) :
    Nat → Bool → List String → σ → List Char → Except ReadFault (σ × List Char)
  | 0, _, _, _, _ => .error .incomplete
  | n + 1, first, seen, s, cs => do
    match ← nextKey first cs with
    | (none, rest) => return (s, rest)
    | (some key, _) =>
      let (name, rest) ← string key
      match fields.find? fun f => f.name == name with
      | none =>
        let rest ← expect ':' (skipSpace rest)
        namedFields fields n false seen s (← skipValue rest)
      | some f =>
        if seen.contains name then throw wrong
        let rest ← expect ':' (skipSpace rest)
        let (s, rest) ← within (.key name) (f.read s rest)
        namedFields fields n false (name :: seen) s rest

/-- Reads the fields of a record in their order. Fields at the end may be missing. -/
def listedFields :
    List (RecordField σ) → Nat → σ → List Char → Except ReadFault (σ × List Char)
  | fields, i, s, cs =>
    match skipSpace cs with
    | [] => .error .incomplete
    | c :: rest =>
      if c = ']' then .ok (s, rest)
      else
        match fields with
        | [] => .error .malformed
        | f :: fields => do
          let rest ←
            if i = 0 then pure (c :: rest)
            else if c = ',' then
              match skipSpace rest with
              | ']' :: _ => throw .malformed
              | rest => pure rest
            else throw .malformed
          let (s, rest) ← within (.index i) (f.read s rest)
          listedFields fields (i + 1) s rest

/-- Reads a record whose missing fields are those of `s`: an object, or an array of its fields. -/
def record (fields : List (RecordField σ)) (s : σ) (cs : List Char) :
    Except ReadFault (σ × List Char) :=
  match skipSpace cs with
  | '{' :: rest => namedFields fields (rest.length + 1) true [] s rest
  | '[' :: rest => listedFields fields 0 s rest
  | rest => .error (refuse rest)

end

end Scan

end ShardIndex
