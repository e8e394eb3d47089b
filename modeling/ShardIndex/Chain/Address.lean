import ShardIndex.Chain.Hash
/-!
# Account addresses

An account lives in a workchain under a 256-bit identifier. Three masterchain addresses belong to
the system itself (`Address.isSystem`); messages they send have no sending transaction to be found.
-/
namespace ShardIndex

/-- An account address: the workchain and the account's identifier in it. -/
structure Address where
  workchain : Int8
  account : Hash
deriving DecidableEq, Repr, Inhabited

namespace Address

/-- The zero, elector and configuration contracts of the masterchain. -/
def isSystem (a : Address) : Bool :=
  a.workchain == -1 && [0x00, 0x33, 0x55].any fun b => a.account == Hash.repeated b

/-- The written form, `workchain:identifier`. -/
def text (a : Address) : String :=
  toString a.workchain.toInt ++ ":" ++ a.account.text

end Address

end ShardIndex
