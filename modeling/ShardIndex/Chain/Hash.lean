/-!
# Digests and bytes

A digest is a 256-bit word. The order of words is the byte-wise order of digests, since the first
byte is the most significant one, and `Hash.text` is the usual form: 64 hexadecimal digits.
-/
namespace ShardIndex

/-- The contents of a cell. -/
abbrev Bytes := List UInt8

/-- A 256-bit digest, first byte most significant. -/
abbrev Hash := BitVec 256

/-- The lowest `width` hexadecimal digits of `n`, most significant first. -/
def hexText (width n : Nat) : String :=
  String.ofList ((List.range width).reverse.map fun i => Nat.digitChar (n >>> (4 * i) % 16))

namespace Hash

/-- The digest as 64 hexadecimal digits. -/
def text (h : Hash) : String :=
  hexText 64 h.toNat

/-- The digest made of 32 copies of one byte. -/
def repeated (b : UInt8) : Hash :=
  b.toBitVec.replicate 32

end Hash

end ShardIndex
