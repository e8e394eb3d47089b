import ShardIndex.Config.Duration
import ShardIndex.Text.Blank
/-!
# Durations as text

A duration is written as a list of amounts with units, such as `1h 30m` or `2days 250ms`.

* `Duration.text` writes the amounts of all units down to nanoseconds that are not zero, the largest
  unit first.
* `Duration.ofText?` reads amounts in any order, adds them up and knows more names of units. Blanks
  may stand between the digits of an amount, before its unit and between amounts. An amount may have
  decimal places if it comes to whole nanoseconds (units up to the minute) or whole seconds (longer
  units).
-/
namespace ShardIndex

/-- The units of durations. A month is a twelfth of a year, and a year has 365.25 days. -/
inductive TimeUnit where
  | nanosecond
  | microsecond
  | millisecond
  | second
  | minute
  | hour
  | day
  | week
  | month
  | year
deriving DecidableEq, Repr

namespace TimeUnit

/-- The unit with the name. -/
def ofName? : String → Option TimeUnit
  | "nanos" | "nsec" | "ns" => some .nanosecond
  | "usec" | "us" | "µs" => some .microsecond
  | "millis" | "msec" | "ms" => some .millisecond
  | "seconds" | "second" | "secs" | "sec" | "s" => some .second
  | "minutes" | "minute" | "min" | "mins" | "m" => some .minute
  | "hours" | "hour" | "hrs" | "hr" | "h" => some .hour
  | "days" | "day" | "d" => some .day
  | "weeks" | "week" | "wks" | "wk" | "w" => some .week
  | "months" | "month" | "M" => some .month
  | "years" | "year" | "yrs" | "yr" | "y" => some .year
  | _ => none

/-- The nanoseconds of one unit. -/
def nanos : TimeUnit → Nat
  | .nanosecond => 1
  | .microsecond => 1000
  | .millisecond => 1000000
  | .second => 1000000000
  | .minute => 60 * 1000000000
  | .hour => 3600 * 1000000000
  | .day => 86400 * 1000000000
  | .week => 604800 * 1000000000
  | .month => 2630016 * 1000000000
  | .year => 31557600 * 1000000000

/-- The nanoseconds in which whole amounts of the unit are counted: single ones below a second,
seconds otherwise. -/
def wholeGrain : TimeUnit → Nat
  | .nanosecond | .microsecond | .millisecond => 1
  | _ => 1000000000

/-- The nanoseconds to which decimal places of the unit have to come: single ones up to the minute,
seconds otherwise. -/
def fractionGrain : TimeUnit → Nat
  | .nanosecond | .microsecond | .millisecond | .second | .minute => 1
  | _ => 1000000000

end TimeUnit

namespace Duration

/-! ## Writing -/

/-- The amount of a unit that is not zero. -/
def amount (n : Nat) (unit : String) : List String :=
  if n = 0 then [] else [toString n ++ unit]

/-- The amount of a unit whose name has a plural. -/
def amountOf (n : Nat) (unit : String) : List String :=
  amount n (if n = 1 then unit else unit ++ "s")

/-- The amounts of a duration. -/
def amounts (d : Duration) : List String :=
  let inYear := d.seconds.toNat % 31557600
  let inMonth := inYear % 2630016
  let inDay := inMonth % 86400
  let nanos := d.nanos.toNat
  amountOf (d.seconds.toNat / 31557600) "year" ++ amountOf (inYear / 2630016) "month"
    ++ amountOf (inMonth / 86400) "day" ++ amount (inDay / 3600) "h"
    ++ amount (inDay % 3600 / 60) "m" ++ amount (inDay % 60) "s"
    ++ amount (nanos / 1000000) "ms" ++ amount (nanos / 1000 % 1000) "us"
    ++ amount (nanos % 1000) "ns"

/-- The written form of a duration. -/
def text (d : Duration) : String :=
  match d.amounts with
  | [] => "0s"
  | amounts => String.intercalate " " amounts

/-! ## Reading -/

/-- The number that decimal digits spell. -/
def ofDigits (cs : List Char) : Nat :=
  cs.foldl (fun n c => n * 10 + (c.toNat - '0'.toNat)) 0

/-- Characters of which the names of units consist. -/
def isUnitLetter (c : Char) : Bool :=
  c.isAlpha || c == 'µ'

/-- Characters of which numbers consist. -/
def isNumeral (c : Char) : Bool :=
  c.isDigit || Text.isBlank c

/-- One amount, as written. -/
structure Amount where
  whole : List Char
  places : Option (List Char)
  unit : List Char
deriving DecidableEq, Repr

/-- Splits an amount off, up to the end of its unit. -/
def splitAmount (cs : List Char) : Amount × List Char :=
  let whole := (cs.takeWhile isNumeral).filter Char.isDigit
  let rest := cs.dropWhile isNumeral
  let (places, rest) :=
    match rest with
    | '.' :: rest =>
      (some ((rest.takeWhile isNumeral).filter Char.isDigit), rest.dropWhile isNumeral)
    | _ => (none, rest)
  ({ whole := whole, places := places, unit := rest.takeWhile isUnitLetter },
    rest.dropWhile isUnitLetter)

/-- A number that fits a word. -/
def word? (n : Nat) : Option Nat :=
  if n < UInt64.size then some n else none

/-- Adds so many grains of one nanosecond or one second each. The nanoseconds are added up as a
word. -/
def addGrains (d : Duration) (n grain : Nat) : Option Duration := do
  if grain = 1 then
    let _ ← word? (d.nanos.toNat + n)
  ofNanos? (d.toNanos + n * grain)

/-- Adds a whole number of units. -/
def addWhole (d : Duration) (n : Nat) (unit : TimeUnit) : Option Duration := do
  let grains ← word? ((← word? n) * (unit.nanos / unit.wholeGrain))
  d.addGrains grains unit.wholeGrain

/-- Adds the decimal places of an amount. A nanosecond has none. -/
def addPlaces (d : Duration) (digits : List Char) (unit : TimeUnit) : Option Duration := do
  if digits.isEmpty || unit == .nanosecond then
    none
  let denominator ← word? (Nat.pow 10 digits.length)
  let product ← word? (ofDigits digits * (unit.nanos / unit.fractionGrain))
  if product % denominator = 0 then
    d.addGrains (product / denominator) unit.fractionGrain
  else
    none

/-- Adds an amount. -/
def addAmount (d : Duration) (a : Amount) : Option Duration := do
  let unit ← TimeUnit.ofName? (String.ofList a.unit)
  let d ← d.addWhole (ofDigits a.whole) unit
  match a.places with
  | none => return d
  | some digits => d.addPlaces digits unit

/-- An amount that begins with a digit is not empty. -/
theorem length_splitAmount_lt {c : Char} (rest : List Char) (hc : c.isDigit = true) :
    (splitAmount (c :: rest)).2.length < (c :: rest).length := by
  have drop (p : Char → Bool) (l : List Char) : (l.dropWhile p).length ≤ l.length :=
    (List.dropWhile_sublist p).length_le
  have hd : (c :: rest).dropWhile isNumeral = rest.dropWhile isNumeral := by
    simp [isNumeral, hc]
  have hr := drop isNumeral rest
  simp only [splitAmount, hd, List.length_cons]
  split
  · rename_i tail heq
    have ht := drop isNumeral tail
    have hl := drop isUnitLetter (tail.dropWhile isNumeral)
    simp only [heq, List.length_cons] at hr
    dsimp only
    omega
  · have hl := drop isUnitLetter (rest.dropWhile isNumeral)
    dsimp only
    omega

/-- Adds up amounts. Each one begins with a digit, and what follows its unit is a blank, the next
amount or nothing. -/
def addAmounts (d : Duration) (cs : List Char) : Option Duration :=
  match _hs : cs.dropWhile Text.isBlank with
  | [] => some d
  | c :: rest =>
    if _hc : c.isDigit then
      match d.addAmount (splitAmount (c :: rest)).1 with
      | none => none
      | some d =>
        match _hr : (splitAmount (c :: rest)).2 with
        | [] => some d
        | c' :: rest' =>
          if c'.isDigit || Text.isBlank c' then d.addAmounts (c' :: rest') else none
    else none
termination_by cs.length
decreasing_by
  have hle := (List.dropWhile_sublist (l := cs) Text.isBlank).length_le
  have hlt := length_splitAmount_lt rest _hc
  rw [_hs] at hle
  rw [_hr] at hlt
  omega

/-- Reads a duration. Without a unit only zero can be written, as a single digit. -/
def ofText? (s : String) : Option Duration :=
  if s = "0" then some zero
  else if s.toList.all Text.isBlank then none
  else zero.addAmounts s.toList

end Duration

end ShardIndex
