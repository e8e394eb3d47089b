import ShardIndex.Rescan.Scheduler
/-!
# Programs of the rescan, side by side

What a task does is made of calls of a parser, lookups, reads of the store and results. A relation between
programs that holds of these and runs through sequences (`Congruence`) holds of all that a task does, for one
parser and its lookups on either side (`Congruence.carryOutWith`). If it holds of commits and of changes to the
windows as well, it holds of steps (`Congruence.stepBy`).

The programs may run in different monads. A property of single programs is a relation that ignores one side.
-/
namespace ShardIndex.Rescan

variable {M N : Type → Type} [Monad M] [MonadStateOf Store M] [Monad N] [MonadStateOf Store N]

/-- The relation holds of results, faults and reads of the store, and runs through sequences. -/
structure Congruence (R : ∀ {α : Type}, ExceptT Fault M α → ExceptT Fault N α → Prop) : Prop where
  result : ∀ {α : Type} (r : Except Fault α), R (ExceptT.mk (pure r)) (ExceptT.mk (pure r))
  bind : ∀ {α β : Type} {x : ExceptT Fault M α} {y : ExceptT Fault N α} {f : α → ExceptT Fault M β}
    {g : α → ExceptT Fault N β}, R x y → (∀ a, R (f a) (g a)) → R (x >>= f) (y >>= g)
  getStore : R (getThe Store) (getThe Store)

/-- The relation holds of the calls that a task makes. -/
structure RelatesCalls (R : ∀ {α : Type}, ExceptT Fault M α → ExceptT Fault N α → Prop)
    (parser : Parser M) (lookup : Lookup M) (parser' : Parser N) (lookup' : Lookup N) : Prop where
  readAccount : ∀ s types, R (ExceptT.lift (parser.readAccount s types lookup).run)
    (ExceptT.lift (parser'.readAccount s types lookup').run)
  callMethod : ∀ s contract method, R (ExceptT.lift (parser.callMethod s contract method lookup).run)
    (ExceptT.lift (parser'.callMethod s contract method lookup').run)
  readPayload : ∀ m, R (ExceptT.lift (parser.readPayload m).run) (ExceptT.lift (parser'.readPayload m).run)

namespace Congruence

variable {R : ∀ {α : Type}, ExceptT Fault M α → ExceptT Fault N α → Prop} (hR : Congruence R)

include hR

theorem pure {α : Type} (a : α) : R (Pure.pure a) (Pure.pure a) :=
  hR.result (.ok a)

variable {parser : Parser M} {lookup : Lookup M} {parser' : Parser N} {lookup' : Lookup N}

section

variable (hc : RelatesCalls R parser lookup parser' lookup')

include hc

/-! ## Accounts -/

theorem rewriteAccount (t : RescanTask) (interface : Option ContractInterface) (s : AccountState) :
    R (rewriteAccount parser lookup t interface s) (rewriteAccount parser' lookup' t interface s) := by
  unfold Rescan.rewriteAccount
  split
  · split
    · exact hR.bind (hc.readAccount _ _) fun _ => hR.result _
    · exact hR.pure _
  · split
    · exact hR.bind (hc.readAccount _ _) fun _ => hR.result _
    · exact hR.pure _
  · exact hR.pure _
  · exact hR.bind (hR.result _) fun _ => hR.bind (hc.callMethod _ _ _) fun _ => hR.result _
  · exact hR.bind (hR.result _) fun _ => hR.bind (hc.callMethod _ _ _) fun _ => hR.result _
  · exact hR.bind (hR.result _) fun _ => hR.pure _
  · exact hR.pure _
  · exact hR.pure _

theorem rewriteAccounts (t : RescanTask) (interface : Option ContractInterface) : ∀ states,
    R (rewriteAccounts parser lookup t interface states) (rewriteAccounts parser' lookup' t interface states)
  | [] => hR.pure _
  | s :: rest => by
    rw [Rescan.rewriteAccounts, Rescan.rewriteAccounts]
    exact hR.bind (hR.rewriteAccount hc t interface s) fun _ =>
      hR.bind (rewriteAccounts t interface rest) fun _ => hR.pure _

theorem accounts (t : RescanTask) (first last : UInt32) :
    R (accounts parser lookup t first last) (accounts parser' lookup' t first last) := by
  unfold Rescan.accounts
  exact hR.bind hR.getStore fun _ => hR.bind (hR.result _) fun _ => hR.bind hR.getStore fun _ =>
    hR.rewriteAccounts hc t _ _

/-! ## Messages -/

theorem fillMessage (m : Message) : R (parser.fillMessage m) (parser'.fillMessage m) :=
  hR.bind (hc.readPayload m) fun _ => hR.result _

variable (hl : ∀ address beforeLt, R (lookup address beforeLt) (lookup' address beforeLt))

include hl

omit hc in
theorem relabelSide (contract : ContractName) (m : Message) (d : Direction) :
    R (relabelSide lookup contract m d) (relabelSide lookup' contract m d) := by
  unfold Rescan.relabelSide sideState
  refine hR.bind ?_ fun found => ?_
  · split
    · exact hl _ _
    · exact hR.pure _
  · split
    · exact hR.pure _
    · dsimp only
      split <;> exact hR.pure _

theorem rewriteOperations (t : RescanTask) : ∀ ms,
    R (rewriteOperations parser lookup t ms) (rewriteOperations parser' lookup' t ms)
  | [] => hR.pure _
  | m :: rest => by
    have hside : R (sideHasInterface lookup (m.side t.direction) t.contract)
        (sideHasInterface lookup' (m.side t.direction) t.contract) := by
      unfold sideHasInterface
      split
      · exact hR.pure _
      · refine hR.bind (hl _ _) fun found => ?_
        cases found <;> exact hR.pure _
    have hrewrite : R (rewriteOperation parser t m) (rewriteOperation parser' t m) := by
      unfold rewriteOperation
      split
      · exact hR.fillMessage hc _
      · exact hR.pure _
    have hrest := rewriteOperations t rest
    rw [Rescan.rewriteOperations, Rescan.rewriteOperations]
    refine hR.bind hside fun concerned => ?_
    cases concerned with
    | false => exact hR.bind (hR.pure m) fun _ => hR.bind hrest fun _ => hR.pure _
    | true => exact hR.bind hrewrite fun _ => hR.bind hrest fun _ => hR.pure _

theorem relabelAll (contract : ContractName) : ∀ ms,
    R (relabelAll parser lookup contract ms) (relabelAll parser' lookup' contract ms)
  | [] => hR.pure _
  | m :: rest => by
    have hm : R (relabel parser lookup contract m) (relabel parser' lookup' contract m) := by
      unfold relabel
      refine hR.bind (hR.relabelSide hl contract m .outgoing) fun _ =>
        hR.bind (hR.relabelSide hl contract _ .incoming) fun _ => ?_
      split
      · exact hR.pure _
      · exact hR.bind (hR.fillMessage hc _) fun _ => hR.pure _
    rw [Rescan.relabelAll, Rescan.relabelAll]
    exact hR.bind hm fun _ => hR.bind (relabelAll contract rest) fun _ => hR.pure _

theorem messages (t : RescanTask) (first last : UInt32) :
    R (messages parser lookup t first last) (messages parser' lookup' t first last) := by
  unfold Rescan.messages
  split
  · exact hR.bind (hR.result _) fun _ => hR.bind hR.getStore fun _ => hR.bind (hR.result _) fun _ =>
      hR.bind hR.getStore fun _ => hR.rewriteOperations hc hl t _
  · exact hR.bind (hR.result _) fun _ => hR.bind hR.getStore fun _ => hR.bind (hR.result _) fun _ =>
      hR.bind hR.getStore fun _ => hR.rewriteOperations hc hl t _
  all_goals
    first
    | exact hR.bind hR.getStore fun _ => hR.relabelAll hc hl _ _
    | exact hR.pure _

/-! ## Plans and steps -/

theorem carryOutWith (t : RescanTask) (plan : Plan) :
    R (carryOutWith parser lookup t plan) (carryOutWith parser' lookup' t plan) := by
  unfold Rescan.carryOutWith
  split
  · exact hR.bind (hR.accounts hc t _ _) fun _ => hR.pure _
  · exact hR.bind (hR.messages hc hl t _ _) fun _ => hR.pure _
  · exact hR.pure _

end

variable [MonadStateOf Snapshots M] [MonadStateOf Snapshots N]
  {act : RescanTask → Plan → ExceptT Fault M (List AccountState × List Message)}
  {act' : RescanTask → Plan → ExceptT Fault N (List AccountState × List Message)}

theorem stepBy
    (hcommit : ∀ writes, R (ExceptT.mk (modifyGetThe Store (·.commit writes)))
      (ExceptT.mk (modifyGetThe Store (·.commit writes))))
    (hforget : ∀ f, R (modifyThe Snapshots f) (modifyThe Snapshots f))
    (hact : ∀ t plan, R (act t plan) (act' t plan)) (batch : UInt32) :
    R (stepBy act batch) (stepBy act' batch) := by
  unfold Rescan.stepBy
  refine hR.bind hR.getStore fun s => ?_
  split
  · exact hR.pure _
  · refine hR.bind hR.getStore fun _ => hR.bind hR.getStore fun _ => ?_
    split
    · refine hR.bind (hact _ _) fun rows => hR.bind (hcommit _) fun _ => hR.bind (hforget _) fun _ => ?_
      dsimp only
      split
      · exact hR.bind (hforget _) fun _ => hR.pure _
      · exact hR.pure _
    · exact hR.pure _

end Congruence

end ShardIndex.Rescan
