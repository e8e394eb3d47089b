/-!
# Ordered publication of concurrent fetches

Master heights are fetched in windows. The fetches of a window run at the same time and complete in
any order; what is complete is published strictly in the order of heights, and the next window
opens when the whole window is published. The last height of the number range is never fetched.

The pipeline itself neither fetches nor waits. It says what happens at each of three events: a
window opens (`openWindow`), a height is fetched (`complete`), the next height is published
(`publish`).

| here | in the indexer |
| --- | --- |
| `Pipeline.openWindow` | the head of the outer loop of `MasterFetchPipeline.run` |
| `Pipeline.complete` | the body of its middle loop, before anything is sent |
| `Pipeline.head?`, `Pipeline.publish` | its inner loop |
| `Pipeline.exhausted` | its check for the end of the range |
-/
namespace ShardIndex

/-- The last number of the range. -/
def lastHeight : UInt32 := UInt32.ofNat (UInt32.size - 1)

/-- The heights from `start` on that are below `stop`, in order. -/
def heightsBetween (start stop : UInt32) : List UInt32 :=
  if start < stop then (List.range (stop - start).toNat).map fun i => start + UInt32.ofNat i else []

/-- The state of the publication; `β` is what a fetch results in. -/
structure Pipeline (β : Type) where
  /-- Heights of a window. -/
  workers : UInt32
  /-- The next height to publish. -/
  next : UInt32
  /-- Heights of the window that are not fetched yet. -/
  running : List UInt32 := []
  /-- Heights that are fetched and not published, in increasing order. -/
  fetched : List (UInt32 × β) := []

namespace Pipeline

variable {β : Type}

/-- The end of a window that starts at `next`: the numbers do not wrap around. -/
def windowEnd (p : Pipeline β) : UInt32 :=
  if lastHeight - p.next < p.workers then lastHeight else p.next + p.workers

/-- Opens the window that starts at `next`. -/
def openWindow (p : Pipeline β) : Pipeline β :=
  { p with running := heightsBetween p.next p.windowEnd }

/-- Adds a fetched height in its place. -/
def insertFetched (height : UInt32) (b : β) : List (UInt32 × β) → List (UInt32 × β)
  | [] => [(height, b)]
  | (h, x) :: rest =>
    if height < h then (height, b) :: (h, x) :: rest
    else if h = height then (height, b) :: rest
    else (h, x) :: insertFetched height b rest

/-- A fetch has completed. -/
def complete (p : Pipeline β) (height : UInt32) (b : β) : Pipeline β :=
  { p with
    running := p.running.filter fun h => decide (h ≠ height)
    fetched := insertFetched height b p.fetched }

/-- What can be published: the result for the next height, once it is there. -/
def head? (p : Pipeline β) : Option β :=
  match p.fetched with
  | (h, b) :: _ => if h = p.next then some b else none
  | [] => none

/-- The next height was published. -/
def publish (p : Pipeline β) : Pipeline β :=
  { p with next := p.next + 1, fetched := p.fetched.tail }

/-- Whether the whole window is published. -/
def windowDone (p : Pipeline β) : Bool :=
  p.running.isEmpty && p.head?.isNone

/-- Whether the number range is used up. -/
def exhausted (p : Pipeline β) : Bool :=
  p.next == lastHeight

end Pipeline

end ShardIndex
