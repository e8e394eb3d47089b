import ShardIndex.Fetch.Reader
/-!
# Discovery of shard blocks

A master block refers to the newest block of every shard. The blocks it newly finalises are found
by walking from there to the parents, until the walk meets a block that the previous master block
has covered: its shard was listed there with the same or a later number. Splits and merges change
the shards along the way, so a block can be met twice; it is visited once.

| here | in the indexer |
| --- | --- |
| `Discovery.maxUnseen` | `MAX_UNSEEN_BLOCKS` |
| `Discovery.frontier` | `last_seen` in `Fetcher.unseen_blocks` |
| `Discovery.covered`, `Discovery.walk` | the loop over the stack in `Fetcher.unseen_blocks` |
| `Reader.unseenBlocks` | `Fetcher.unseen_blocks` |
-/
namespace ShardIndex

/-- A master block with every shard block that it newly finalises. -/
structure UnseenBlocks where
  master : Header
  /-- In increasing order of numbers, workchains and paths. -/
  shards : List Header
deriving DecidableEq, Inhabited

namespace Discovery

/-- The most shard blocks that one master block may finalise. -/
def maxUnseen : Nat := 1024

/-- The newest block of each shard in a list of top blocks; the last entry of a shard counts. -/
def frontier (tops : List BlockId) : Table Shard UInt32 :=
  Table.ofEntries (tops.map fun b => (b.shard, b.seqno))

/-- Whether a block was covered before: it is a first block, or its shard was seen at its number or
later. -/
def covered (seen : Table Shard UInt32) (b : BlockId) : Bool :=
  b.seqno == 0 || (seen.get? b.shard).any fun n => decide (b.seqno ≤ n)

section

variable {M : Type → Type} [Monad M]

/-- Walks the blocks on the stack and their uncovered parents, depth first, the last parent first:
the loop of `Fetcher.unseen_blocks`, whose stack has its top at the end. `found` holds the headers
so far, the latest first. -/
def walk (header : BlockId → ExceptT Fault M Header) (seen : Table Shard UInt32) (master : UInt32)
    (stack visited : List BlockId) (found : List Header) : ExceptT Fault M (List Header) :=
  match stack with
  | [] => return found
  | id :: rest =>
    if visited.contains id then walk header seen master rest visited found
    else if covered seen id then walk header seen master rest (id :: visited) found
    else if found.length < maxUnseen then do
      let h ← header id
      walk header seen master (h.parents.reverse ++ rest) (id :: visited) (h :: found)
    else throw (.tooManyUnseen master)
termination_by (maxUnseen - found.length, stack.length)
decreasing_by
  all_goals simp_wf
  · exact Prod.Lex.right _ (Nat.lt_succ_self _)
  · exact Prod.Lex.right _ (Nat.lt_succ_self _)
  · exact Prod.Lex.left _ _ (by omega)

end

end Discovery

namespace Reader

variable {M : Type → Type} [Monad M] [MonadStateOf ReadCache M]

/-- What the master block before the one with the number has covered; before the first there is
none. -/
def coveredBefore (r : Reader M) (seqno : UInt32) : ExceptT Fault M (Table Shard UInt32) :=
  if seqno = 0 then pure []
  else do
    let before ← r.masterBlock (seqno - 1)
    return Discovery.frontier (← r.topShards before)

/-- The master block with the number and the shard blocks it newly finalises. -/
def unseenBlocks (r : Reader M) (seqno : UInt32) : ExceptT Fault M UnseenBlocks := do
  let masterId ← r.masterBlock seqno
  let master ← r.node.header masterId
  let tops ← r.topShards masterId
  let seen ← r.coveredBefore seqno
  let found ← Discovery.walk r.node.header seen seqno tops [] []
  return { master := master, shards := found.reverse.mergeSort fun a b => a.id.le b.id }

end Reader

end ShardIndex
