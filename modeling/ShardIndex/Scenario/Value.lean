import ShardIndex.Chain.Synthetic
import ShardIndex.Config.Scan
import ShardIndex.Entity.Names
/-!
# Values in scenarios

A scenario describes chain objects, indexed rows and definitions in JSON, in the forms that reports
use. Most fields have a default and may be left out or be null (`orElse`, `optional`, `list`); where
the default is something, an explicit null may stand for nothing (`clearable`).

Names are given in their written forms. A digest may be given by the one byte that it repeats, and a
block without its digests, which are then those of `Synthetic.blockId`.
-/
namespace ShardIndex.Scenario

/-- Why a description is not understood. -/
inductive Misfit where
  | missing (name : String)
  /-- A value is not of the wanted form. -/
  | unexpected (wanted : String)
deriving DecidableEq, Repr

/-- Reads a value from its description. -/
abbrev Read (α : Type) := Json → Except Misfit α

section

variable {α : Type}

/-- What an object says about a name; without the name, nothing. -/
def value? : Json → String → Option Json
  | .object fields, name => (fields.find? fun f => f.1 == name).map (·.2)
  | _, _ => none

/-- The value of a field; null counts as none. -/
def field? (j : Json) (name : String) : Option Json :=
  (value? j name).filter (· ≠ .null)

/-- A field that has to be there. -/
def required (read : Read α) (j : Json) (name : String) : Except Misfit α :=
  match field? j name with
  | some v => read v
  | none => .error (.missing name)

/-- A field that may be left out. -/
def optional (read : Read α) (j : Json) (name : String) : Except Misfit (Option α) :=
  match field? j name with
  | some v => (read v).map some
  | none => .ok none

/-- A field with a default. -/
def orElse (read : Read α) (j : Json) (name : String) (default : α) : Except Misfit α :=
  match field? j name with
  | some v => read v
  | none => .ok default

/-- A field whose default is something, which null clears. -/
def clearable (read : Read α) (j : Json) (name : String) (default : Option α) :
    Except Misfit (Option α) :=
  match value? j name with
  | some .null => .ok none
  | some v => (read v).map some
  | none => .ok default

/-- The items of an array. -/
def items (read : Read α) : Read (List α)
  | .array xs => xs.mapM read
  | _ => .error (.unexpected "array")

/-- A field with an array; without the field there are no items. -/
def list (read : Read α) (j : Json) (name : String) : Except Misfit (List α) :=
  orElse (items read) j name []

/-- The fields of an object with their values. -/
def entries (read : Read α) : Read (List (String × α))
  | .object fields => fields.mapM fun f => (read f.2).map (f.1, ·)
  | _ => .error (.unexpected "object")

/-- A value that has a form of its own. -/
def known (wanted : String) : Option α → Except Misfit α
  | some a => .ok a
  | none => .error (.unexpected wanted)

end

def json : Read Json := .ok

def str : Read String
  | .string s => .ok s
  | _ => .error (.unexpected "string")

def bool : Read Bool
  | .bool b => .ok b
  | _ => .error (.unexpected "truth value")

def int : Read Int
  | .number n 0 => .ok n
  | _ => .error (.unexpected "whole number")

/-- A natural number, as a number or as a decimal string. -/
def nat : Read Nat
  | .number n 0 => .ok n.toNat
  | .string s => known "natural number" s.toNat?
  | _ => .error (.unexpected "natural number")

def word32 : Read UInt32 := fun j => (nat j).map UInt32.ofNat

def word64 : Read UInt64 := fun j => (nat j).map UInt64.ofNat

def int32 : Read Int32 := fun j => (int j).map Int32.ofInt

/-- The number that hexadecimal digits spell. -/
def hexNat (cs : List Char) : Nat :=
  cs.foldl (fun n c => n * 16 + (Scan.hexValue? c).getD 0) 0

/-- The bytes that pairs of hexadecimal digits spell. -/
def bytesOf : List Char → Bytes
  | a :: b :: rest => UInt8.ofNat (hexNat [a, b]) :: bytesOf rest
  | _ => []

def bytes : Read Bytes := fun j => (str j).map fun s => bytesOf s.toList

/-- The digest with the written form; two digits stand for the byte that the digest repeats. -/
def hashOf (s : String) : Hash :=
  let cs := s.toList
  if cs.length = 2 then Hash.repeated (UInt8.ofNat (hexNat cs)) else BitVec.ofNat 256 (hexNat cs)

def hash : Read Hash := fun j => (str j).map hashOf

def address : Read Address := fun j => do
  match (← str j).splitOn ":" with
  | [workchain, account] =>
    let workchain ← known "workchain" workchain.toInt?
    return { workchain := Int8.ofInt workchain, account := hashOf account }
  | _ => throw (.unexpected "address")

/-- The shard with these parts in their written form; no shard if there is none. -/
def shardOf (workchain path : String) : Except Misfit (Option Shard) := do
  let workchain ← known "workchain" workchain.toInt?
  return Shard.ofParts? (Int32.ofInt workchain) (UInt64.ofNat (hexNat path.toList))

/-- A shard; a path that is none of a shard is no misfit. -/
def shard? : Read (Option Shard) := fun j => do
  match (← str j).splitOn ":" with
  | [workchain, path] => shardOf workchain path
  | _ => throw (.unexpected "shard")

/-- A block in its full or its short written form. -/
def blockId : Read BlockId := fun j => do
  match (← str j).splitOn ":" with
  | [workchain, path, seqno] =>
    let shard ← known "shard" (← shardOf workchain path)
    return Synthetic.blockId shard (UInt32.ofNat (← known "seqno" seqno.toNat?))
  | [workchain, path, seqno, rootHash, fileHash] =>
    let shard ← known "shard" (← shardOf workchain path)
    let seqno ← known "seqno" seqno.toNat?
    return {
      shard := shard
      seqno := UInt32.ofNat seqno
      rootHash := hashOf rootHash
      fileHash := hashOf fileHash }
  | _ => throw (.unexpected "block id")

def blockRef : Read BlockRef := fun j => (blockId j).map (·.ref)

def status : Read AccountStatus := fun j => known "status" (AccountStatus.ofJson? j)

def messageKind : Read MessageKind := fun j => known "message kind" (MessageKind.ofJson? j)

def rescanKind : Read RescanKind := fun j => known "rescan kind" (RescanKind.ofJson? j)

/-- Whether the direction is the one of senders. -/
def direction : Read Direction := fun j =>
  (bool j).map fun outgoing => if outgoing then .outgoing else .incoming

end ShardIndex.Scenario
