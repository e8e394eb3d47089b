/-!
# Durations

A span of time in whole seconds and nanoseconds. Waiting happens in whole milliseconds: a wait ends
with the first millisecond at or after its end (`Duration.waitMillis`).
-/
namespace ShardIndex

/-- A span of time; `nanos` is the part below a second. -/
structure Duration where
  seconds : UInt64
  nanos : UInt32
  nanos_lt : nanos < 1000000000 := by decide
deriving DecidableEq

namespace Duration

def zero : Duration := { seconds := 0, nanos := 0 }

instance : Inhabited Duration := ⟨zero⟩

/-- So many seconds. -/
def ofSeconds (n : UInt64) : Duration := { seconds := n, nanos := 0 }

/-- The span in nanoseconds. -/
def toNanos (d : Duration) : Nat :=
  d.seconds.toNat * 1000000000 + d.nanos.toNat

/-- The span of so many nanoseconds, if the seconds fit a word. -/
def ofNanos? (n : Nat) : Option Duration :=
  let nanos := n % 1000000000
  if n / 1000000000 < UInt64.size then
    some { seconds := UInt64.ofNat (n / 1000000000), nanos := UInt32.ofNat nanos,
           nanos_lt := by
             have h : nanos < 1000000000 := Nat.mod_lt _ (by decide)
             rw [UInt32.lt_iff_toNat_lt, UInt32.toNat_ofNat_of_lt' (Nat.lt_trans h (by decide))]
             exact h }
  else none

/-- The milliseconds that a wait of this length takes. -/
def waitMillis (d : Duration) : Nat :=
  (d.toNanos + 999999) / 1000000

end Duration

end ShardIndex
