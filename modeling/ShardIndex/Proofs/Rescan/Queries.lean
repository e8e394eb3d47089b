import ShardIndex.Proofs.Rescan.Erasure
import ShardIndex.Proofs.Rescan.WindowSize
/-!
# What a rescan is told about accounts

While a task works on its rows it asks for the states of accounts just before logical times: the parser does
for siblings, and the messages do for the accounts of their sides. The answers come from windows that were
loaded for earlier questions, some of them before rows were rewritten. Here every question is noted down with
its answer and with the store of that moment (`recorded`). The notes apart, such a step is a step of the
scheduler (`recordedStep_erases`).

No answer is stale (`Queried.never_stale`): it is what the store itself says at that moment. A commit forgets the
windows of the accounts that it rewrites and leaves the rows of the others alone; a step that fails leaves rows
and windows in accord; and what other commits write is not before anything that was asked for.
-/
namespace ShardIndex

/-- A question about an account, the store when it was asked, and the answer. -/
structure Query where
  address : Address
  beforeLt : UInt64
  store : Store
  answer : Option AccountState

namespace Rescan

variable {σ : Type}

instance : MonadStateOf (List Query) (RescanM (σ × List Query)) := attached

/-- Looks accounts up as the scheduler does, and notes down what was asked and answered. -/
def recorded : Lookup (RescanM (σ × List Query)) := fun address beforeLt => do
  let store ← getThe Store
  let answer ← Snapshots.lookup address beforeLt
  modifyThe (List Query) (· ++ [⟨address, beforeLt, store, answer⟩])
  return answer

/-- A step of the scheduler that notes down what is asked and answered on the way. -/
abbrev recordedStep (parser : Parser (RescanM (σ × List Query))) (batch : UInt32) :
    ExceptT Fault (RescanM (σ × List Query)) (Option RescanTask) :=
  stepBy (carryOutWith parser recorded) batch

/-- The notes apart, nothing is different from looking the account up. -/
theorem exec_recorded (address : Address) (beforeLt : UInt64) (w : Context (σ × List Query)) :
    exec (recorded address beforeLt).run w =
      (.ok (w.evict.snapshots.stateBefore w.store address beforeLt).1,
        { (exec (Snapshots.lookup address beforeLt : ExceptT Fault (RescanM (σ × List Query)) _).run w).2 with
          parser := (w.parser.1, w.parser.2 ++
            [⟨address, beforeLt, w.store, (w.evict.snapshots.stateBefore w.store address beforeLt).1⟩]) }) :=
  rfl

theorem recorded_erases (address : Address) (beforeLt : UInt64) :
    Erases (recorded address beforeLt).run ((Snapshots.lookup : Lookup (RescanM σ)) address beforeLt).run :=
  fun _ => rfl

/-- With the notes dropped, a step that takes notes ends as a step of the scheduler does and leaves the same
behind. -/
theorem recordedStep_erases {parser : Parser (RescanM (σ × List Query))} {bare : Parser (RescanM σ)}
    (h : Attaches parser bare) (batch : UInt32) :
    Erases (recordedStep parser batch).run (step bare batch).run :=
  stepBy_erases (carryOutWith_erases h recorded_erases) batch

/-! ## The invariant -/

/-- The windows agree with the store, each of them goes back to a question, and every answer was the one of
the store. -/
structure Answering (w : Context (σ × List Query)) : Prop where
  coherent : w.snapshots.Coherent w.store
  asked : ∀ address h, w.snapshots.histories.get? address = some h →
    ∃ q ∈ w.parser.2, q.address = address ∧ h.loadedBefore = q.beforeLt
  answered : ∀ q ∈ w.parser.2, q.answer = q.store.stateBefore q.address q.beforeLt

theorem answering_indifferent : Indifferent (Answering (σ := σ)) :=
  fun _ _ h => ⟨h.coherent, h.asked, h.answered⟩

namespace Answering

variable {w v : Context (σ × List Query)}

theorem evict (h : Answering w) : Answering w.evict where
  coherent := Context.coherent_evict h.coherent
  asked address window hw := h.asked address window (w.evict_restOf.windows address window hw)
  answered := h.answered

/-- A question is answered by the store, and its window is about the question. -/
theorem recorded_keeps (P : σ → Prop) (address : Address) (beforeLt : UInt64) :
    Keeps (Within Answering P) (recorded address beforeLt).run := by
  rintro w ⟨hw, hp⟩
  rw [exec_recorded]
  obtain ⟨hanswer, hcoherent⟩ := hw.evict.coherent.stateBefore address beforeLt
  have hwindows := (w.evict.snapshots.windows_stateBefore w.store address beforeLt).2
  refine ⟨⟨hcoherent, fun a h hh => ?_, fun q hq => ?_⟩, hp⟩
  · rcases hwindows a h hh with hh | ⟨rfl, rfl⟩
    · obtain ⟨q, hq, hasked⟩ := hw.evict.asked a h hh
      exact ⟨q, List.mem_append_left _ hq, hasked⟩
    · exact ⟨_, List.mem_append_right _ (List.mem_singleton_self _), rfl, rfl⟩
  · rcases List.mem_append.1 hq with hq | hq
    · exact hw.answered q hq
    · obtain rfl := List.mem_singleton.1 hq
      exact hanswer

/-- Rows that are not before anything that was asked for do not show in the windows. -/
theorem write (hw : Answering w) {rows : List AccountState}
    (hstore : v.store.accounts = rows.foldl Store.putAccount w.store.accounts)
    (hrows : ∀ r ∈ rows, ∀ q ∈ w.parser.2, q.address = r.address → q.beforeLt ≤ r.lastTxLt)
    (hrest : v.snapshots.RestOf w.snapshots) (hlog : v.parser.2 = w.parser.2) : Answering v where
  coherent := by
    have hcoherent := hw.coherent.rest hrest
    refine ⟨hcoherent.depth, fun address h hh => ?_⟩
    obtain ⟨q, hq, hasked, hloaded⟩ := hw.asked address h (hrest.windows address h hh)
    refine (hcoherent.faithful address h hh).write hstore fun r hr haddress => ?_
    exact hloaded ▸ hrows r hr q hq (hasked.trans haddress.symm)
  asked address h hh := by
    rw [hlog]
    exact hw.asked address h (hrest.windows address h hh)
  answered := by
    rw [hlog]
    exact hw.answered

/-- A commit forgets the windows of the accounts that it rewrites. -/
theorem commit (hw : Answering w) (rows : List AccountState) (messages : List Message) (t : RescanTask) :
    Answering (w.commit rows messages t) where
  coherent := by
    rw [Context.store_commit]
    refine Context.coherent_commit hw.coherent fun address beforeLt hothers => ?_
    rw [Store.stateBefore, Store.stateBefore, Store.statesBefore_putAccount rows (by rw [committed_writes])
      fun r hr haddress => absurd haddress (hothers r hr)]
  asked address h hh := by
    rw [Context.parser_commit]
    exact hw.asked address h ((w.commit_restOf rows messages t).windows address h hh)
  answered := by
    rw [Context.parser_commit]
    exact hw.answered

/-- However a step ends, the windows agree with the store, and every question on the way was answered by
it. -/
theorem step {parser : Parser (RescanM (σ × List Query))} (hparser : Confined parser) (batch : UInt32)
    (hw : Answering w) : Answering (exec (recordedStep parser batch).run w).2 := by
  have hlookup := recorded_keeps (σ := σ) fun _ => True
  have hcarry : ∀ {t : RescanTask} {pl : Plan} {r : Except Fault (List AccountState × List Message)}
      {v : Context (σ × List Query)}, exec (carryOutWith parser recorded t pl).run w = (r, v) →
        Answering v := by
    intro t pl r v h
    have hkept := carryOutWith_keeps (hparser.callsKeep answering_indifferent hlookup) hlookup t pl w
      ⟨hw, trivial⟩
    rw [h] at hkept
    exact hkept.1
  have hspec : Stepped (carryOutWith parser recorded) batch w (exec (recordedStep parser batch).run w) :=
    stepBy_spec batch w
  generalize exec (recordedStep parser batch).run w = r at hspec ⊢
  cases hspec with
  | idle h => exact hw
  | stuck hjob h => exact hcarry h
  | @refused t first last rows v n hjob h hrefusals =>
    have hv := hcarry h
    exact ⟨hv.coherent.congr rfl, hv.asked, hv.answered⟩
  | @committed t first last rows v hjob h hrefusals => exact (hcarry h).commit rows.1 rows.2 _

end Answering

/-! ## Any course of steps -/

/-- What steps with any batch size lead to, from windows of any depth. In between, commits may write
snapshots that are not before anything that was asked for about their accounts; windows may get lost, the
parser may change its own state, and so may every other table of the store. -/
inductive Queried (parser : Parser (RescanM (σ × List Query))) : Context (σ × List Query) → Prop
  | start {w : Context (σ × List Query)} (depth : Nat) (hwindows : w.snapshots = .empty depth)
      (hlog : w.parser.2 = []) : Queried parser w
  | step {w : Context (σ × List Query)} (h : Queried parser w) (batch : UInt32) :
      Queried parser (exec (recordedStep parser batch).run w).2
  | between {w v : Context (σ × List Query)} (h : Queried parser w) (rows : List AccountState)
      (hstore : v.store.accounts = rows.foldl Store.putAccount w.store.accounts)
      (hrows : ∀ r ∈ rows, ∀ q ∈ w.parser.2, q.address = r.address → q.beforeLt ≤ r.lastTxLt)
      (hwindows : v.snapshots.RestOf w.snapshots) (hlog : v.parser.2 = w.parser.2) : Queried parser v

/-- No state that the rescan is told is stale: it is the one of the store at that moment, with the greatest
logical time before the one asked for. -/
theorem Queried.never_stale {parser : Parser (RescanM (σ × List Query))} (hparser : Confined parser)
    {w : Context (σ × List Query)} (h : Queried parser w) :
    (∀ q ∈ w.parser.2, q.answer = q.store.stateBefore q.address q.beforeLt ∧
      q.store.LatestBefore q.address q.beforeLt q.answer) ∧
    ∀ address beforeLt, (exec (Snapshots.lookup address beforeLt :
      ExceptT Fault (RescanM (σ × List Query)) _).run w).1 = .ok (w.store.stateBefore address beforeLt) := by
  have hinv : Answering w := by
    induction h with
    | start depth hwindows hlog =>
      refine ⟨?_, fun address h hh => ?_, by simp [hlog]⟩
      · rw [hwindows]
        exact .empty depth _
      · rw [hwindows] at hh
        cases hh
    | step h batch ih => exact ih.step hparser batch
    | between h rows hstore hrows hwindows hlog ih => exact ih.write hstore hrows hwindows hlog
  refine ⟨fun q hq => ?_, fun address beforeLt => ?_⟩
  · rw [hinv.answered q hq]
    exact ⟨rfl, q.store.latestBefore_stateBefore q.address q.beforeLt⟩
  · exact congrArg Except.ok (hinv.evict.coherent.stateBefore address beforeLt).1

/-! ## A sample -/

namespace Sample

/-- Nothing was asked yet. -/
def unasked : Context (Registry × List Query) where
  store := mintedStore
  snapshots := .empty 4
  parser := (itemRegistry, [])
  evictions := fun _ _ => false

/-- The minter is labelled in the first step; it was asked for before. -/
def asked : Context (Registry × List Query) :=
  (exec (recordedStep Registry.parser 1).run unasked).2

/-- Another snapshot of the minter is committed. -/
def grown : Context (Registry × List Query) :=
  { asked with store := { asked.store with accounts := Store.putAccount asked.store.accounts (wallet 40 7) } }

/-- The item is read in the second step. -/
def askedAgain : Context (Registry × List Query) :=
  (exec (recordedStep Registry.parser 1).run grown).2

end Sample

/-- The second question finds the minter with the label that it got in between. Without notes the steps are
those of the scheduler. -/
theorem Queried.never_stale_sample :
    Confined (Registry.parser : Parser (RescanM (Registry × List Query))) ∧
      Queried Registry.parser Sample.askedAgain ∧
      Sample.asked.bare = (exec (Rescan.step registry 1).run Sample.unasked.bare).2 ∧
      Sample.askedAgain.bare = (exec (Rescan.step registry 1).run Sample.grown.bare).2 ∧
      Sample.askedAgain.parser.2.map (fun q => (q.address, q.beforeLt, q.answer.map (·.types))) =
        [(Sample.minter.address, 10, none), (Sample.minter.address, 20, some ["nft_item"])] ∧
      ∀ q ∈ Sample.askedAgain.parser.2, q.answer = q.store.stateBefore q.address q.beforeLt := by
  have hasked : Queried Registry.parser Sample.asked := .step (.start 4 rfl rfl) 1
  have hbounds : ∀ q ∈ Sample.asked.parser.2, q.beforeLt ≤ (Sample.wallet 40 7).lastTxLt := by
    have hlog : Sample.asked.parser.2.map (·.beforeLt) = [10] := by cbv
    intro q hq
    have hmem := List.mem_map_of_mem (f := (·.beforeLt)) hq
    rw [hlog] at hmem
    rw [List.mem_singleton.1 hmem]
    decide
  have hgrown : Queried Registry.parser Sample.grown := by
    refine .between hasked [Sample.wallet 40 7] rfl (fun r hr q hq _ => ?_) ⟨rfl, fun _ _ h => h⟩ rfl
    obtain rfl := List.mem_singleton.1 hr
    exact hbounds q hq
  have hagain : Queried Registry.parser Sample.askedAgain := .step hgrown 1
  have hsteps : Erases (recordedStep Registry.parser 1).run (Rescan.step registry 1).run :=
    recordedStep_erases registry_attaches 1
  refine ⟨registry_confined, hagain, congrArg Prod.snd (hsteps Sample.unasked),
    congrArg Prod.snd (hsteps Sample.grown), by cbv, fun q hq => ?_⟩
  exact ((Queried.never_stale registry_confined hagain).1 q hq).1

end Rescan

end ShardIndex
