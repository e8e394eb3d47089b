import ShardIndex.Config.Reader
import ShardIndex.Fault
import ShardIndex.Report.Value
/-!
# Reports on failures

A failure is reported with its kind and its wording. A fault that stops the forward path also tells
the master block at which it did.
-/
namespace ShardIndex

open Json

/-- The fields of a report. -/
abbrev Report := List (String × Json)

/-- The kind of a fault, with what else is known about it. -/
def Fault.details (f : Fault) : String × Report :=
  match f with
  | .blockNotFound => ("block_not_found", [("retryable", .bool f.isRetryable)])
  | .blockNotApplied => ("not_applied", [("retryable", .bool f.isRetryable)])
  | .unknownSource _ hash destination =>
    ("unknown_message_source",
      [("hash", ofHash hash), ("dst", ofOption ofAddress destination)])
  | .commitFailed _ attempts cause =>
    ("commit_failed", [("attempts", ofNat attempts), ("source", .string cause.message)])
  | .outOfOrder seqno expected =>
    ("out_of_order", [("seqno", ofWord seqno), ("expected", ofWord expected)])
  | _ => ("other", [])

def Fault.report (f : Fault) : Report :=
  let (kind, details) := f.details
  let master := f.fatalMaster?.toList.map fun seqno => ("master_seqno", ofWord seqno)
  [("error", .string kind), ("message", .string f.message)] ++ details ++ master

def ParseFault.report (f : ParseFault) : Report :=
  match f with
  | .notAvailable => [("error", .string "not_available"), ("message", .string f.message)]
  | .impossible _ => [("error", .string "impossible_parsing"), ("message", .string f.message)]
  | .other fault => fault.report

/-- A failure to read a value that is reached by a path. -/
def ReadFault.report (root : List PathStep) : ReadFault → Report
  | .malformed => [("error", .string "syntax")]
  | .incomplete => [("error", .string "eof")]
  | .mismatch path notDuration =>
    [("error", .string "data"), ("path", .string (PathStep.pathText (root ++ path)))] ++
      notDuration.toList.map fun s => ("message", .string (notDurationMessage s))

def LoadFault.report : LoadFault → Report
  | .missing => [("error", .string "io"), ("kind", .string "NotFound")]
  | .notText => [("error", .string "io"), ("kind", .string "InvalidData")]
  | .unreadable fault => fault.report []

end ShardIndex
