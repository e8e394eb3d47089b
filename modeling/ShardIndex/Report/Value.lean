import ShardIndex.Chain.Address
import ShardIndex.Chain.BlockId
import ShardIndex.Json.Printer
/-!
# Values in reports

Reports show indexed data as JSON. Counts and 32-bit words are numbers; logical times and amounts,
which may be too large for readers of JSON numbers, are decimal strings; bytes are hexadecimal.
-/
namespace ShardIndex.Json

def ofWord (n : UInt32) : Json :=
  ofNat n.toNat

/-- A natural number as a decimal string. -/
def decimal (n : Nat) : Json :=
  .string (toString n)

/-- A logical time. -/
def ofTime (lt : UInt64) : Json :=
  decimal lt.toNat

def ofList {α : Type} (f : α → Json) (xs : List α) : Json :=
  .array (xs.map f)

def ofBytes (b : Bytes) : Json :=
  .string (b.foldl (fun s x => s ++ hexText 2 x.toNat) "")

def ofHash (h : Hash) : Json :=
  .string h.text

def ofAddress (a : Address) : Json :=
  .string a.text

def ofRef (b : BlockRef) : Json :=
  .string b.text

def ofId (b : BlockId) : Json :=
  .string b.text

end ShardIndex.Json
