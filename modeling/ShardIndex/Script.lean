import ShardIndex.Table
/-!
# Scripted answers

A collaborator can be told to answer some of its calls from a script. A rule belongs to one call
with one key; it lets a number of calls pass, then answers a number of calls (or all that follow),
and lets the rest pass again.
-/
namespace ShardIndex

/-- One scripted answer. -/
structure Rule (ρ : Type) where
  answer : ρ
  /-- Calls that still pass before the rule answers. -/
  skip : Nat := 0
  /-- Calls that the rule still answers; without a number it answers forever. -/
  times : Option Nat := none

/-- The rules in force, at most one for a call and a key. -/
abbrev Script (ρ : Type) := Table (String × String) (Rule ρ)

namespace Rule

variable {ρ : Type}

/-- What the rule says to one call, and the rule for the next call. -/
def apply (r : Rule ρ) : Option ρ × Rule ρ :=
  match r.skip with
  | n + 1 => (none, { r with skip := n })
  | 0 =>
    match r.times with
    | none => (some r.answer, r)
    | some 0 => (none, r)
    | some (n + 1) => (some r.answer, { r with times := some n })

end Rule

/-- The scripted answer to a call, if there is one, and the script for the next calls. -/
def Script.consult {ρ : Type} (s : Script ρ) (call key : String) : Option ρ × Script ρ :=
  match Table.get? s (call, key) with
  | none => (none, s)
  | some rule =>
    let (answer, rule) := rule.apply
    (answer, Table.set s (call, key) rule)

end ShardIndex
