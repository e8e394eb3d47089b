import ShardIndex.Proofs.Rescan.Registry
/-!
# What is attached does not show

Next to a program that runs with something attached to the state of its parser there is the program that
runs without it. `Erases` says that both end alike and leave the same behind, what is attached apart. A
parser `Attaches` another one if its calls erase to the calls of that one, given lookups that do; the
registry with anything attached to it attaches the registry (`registry_attaches`).

The steps of the scheduler are made of such calls, of lookups and of accesses to the store and the windows,
and erasing runs through sequences (`erases_congruence`). So steps erase to steps (`stepBy_erases`).
-/
namespace ShardIndex.Rescan

variable {σ τ α β : Type}

/-- The context without what is attached. -/
def Context.bare (w : Context (σ × τ)) : Context σ where
  store := w.store
  snapshots := w.snapshots
  parser := w.parser.1
  evictions := w.evictions

/-- The program ends as the one without anything attached does, and leaves the same behind. -/
def Erases (x : RescanM (σ × τ) α) (y : RescanM σ α) : Prop :=
  ∀ w, ((exec x w).1, (exec x w).2.bare) = exec y w.bare

/-! ## Programs -/

namespace Erases

variable {ε ε' : Type}

theorem pure (a : α) : Erases (Pure.pure a : RescanM (σ × τ) α) (Pure.pure a) := fun _ => rfl

theorem bind {x : RescanM (σ × τ) α} {y : RescanM σ α} {f : α → RescanM (σ × τ) β} {g : α → RescanM σ β}
    (hx : Erases x y) (hf : ∀ a, Erases (f a) (g a)) : Erases (x >>= f) (y >>= g) := by
  intro w
  rw [exec_bind, exec_bind, ← hx w]
  exact hf _ _

theorem run_pure (a : α) :
    Erases (Pure.pure a : ExceptT ε (RescanM (σ × τ)) α).run (Pure.pure a : ExceptT ε (RescanM σ) α).run :=
  fun _ => rfl

theorem run_mk (r : Except ε α) :
    Erases (ExceptT.mk (Pure.pure r) : ExceptT ε (RescanM (σ × τ)) α).run
      (ExceptT.mk (Pure.pure r) : ExceptT ε (RescanM σ) α).run :=
  fun _ => rfl

theorem run_throw (e : ε) :
    Erases (throw e : ExceptT ε (RescanM (σ × τ)) α).run (throw e : ExceptT ε (RescanM σ) α).run :=
  fun _ => rfl

theorem run_lift {x : RescanM (σ × τ) α} {y : RescanM σ α} (h : Erases x y) :
    Erases (ExceptT.lift x : ExceptT ε (RescanM (σ × τ)) α).run
      (ExceptT.lift y : ExceptT ε (RescanM σ) α).run :=
  bind h fun a => pure (Except.ok a)

theorem run_bind {x : ExceptT ε (RescanM (σ × τ)) α} {y : ExceptT ε (RescanM σ) α}
    {f : α → ExceptT ε (RescanM (σ × τ)) β} {g : α → ExceptT ε (RescanM σ) β}
    (hx : Erases x.run y.run) (hf : ∀ a, Erases (f a).run (g a).run) : Erases (x >>= f).run (y >>= g).run := by
  rw [ExceptT.run_bind, ExceptT.run_bind]
  refine bind hx fun r => ?_
  cases r with
  | ok a => exact hf a
  | error e => exact pure (Except.error e)

theorem run_getStore :
    Erases (getThe Store : ExceptT ε (RescanM (σ × τ)) Store).run
      (getThe Store : ExceptT ε (RescanM σ) Store).run :=
  fun _ => rfl

theorem run_commit (writes : List Write) :
    Erases (ExceptT.mk (modifyGetThe Store (·.commit writes)) : ExceptT Fault (RescanM (σ × τ)) Unit).run
      (ExceptT.mk (modifyGetThe Store (·.commit writes)) : ExceptT Fault (RescanM σ) Unit).run :=
  fun _ => rfl

theorem run_modifySnapshots (f : Snapshots → Snapshots) :
    Erases (modifyThe Snapshots f : ExceptT ε (RescanM (σ × τ)) Unit).run
      (modifyThe Snapshots f : ExceptT ε (RescanM σ) Unit).run :=
  fun _ => rfl

end Erases

/-! ## Steps -/

/-- The calls that a rescan makes erase to those of the other parser, if the lookups do. -/
structure Attaches (parser : Parser (RescanM (σ × τ))) (bare : Parser (RescanM σ)) : Prop where
  readAccount : ∀ {lookup : Lookup (RescanM (σ × τ))} {lookup' : Lookup (RescanM σ)},
    (∀ address beforeLt, Erases (lookup address beforeLt).run (lookup' address beforeLt).run) → ∀ s types,
      Erases (parser.readAccount s types lookup).run (bare.readAccount s types lookup').run
  callMethod : ∀ {lookup : Lookup (RescanM (σ × τ))} {lookup' : Lookup (RescanM σ)},
    (∀ address beforeLt, Erases (lookup address beforeLt).run (lookup' address beforeLt).run) →
      ∀ s contract method,
        Erases (parser.callMethod s contract method lookup).run (bare.callMethod s contract method lookup').run
  readPayload : ∀ m, Erases (parser.readPayload m).run (bare.readPayload m).run

theorem erases_congruence : Congruence fun {α} (x : ExceptT Fault (RescanM (σ × τ)) α)
    (y : ExceptT Fault (RescanM σ) α) => Erases x.run y.run where
  result := Erases.run_mk
  bind := Erases.run_bind
  getStore := Erases.run_getStore

theorem carryOutWith_erases {parser : Parser (RescanM (σ × τ))} {bare : Parser (RescanM σ)}
    (h : Attaches parser bare) {lookup : Lookup (RescanM (σ × τ))} {lookup' : Lookup (RescanM σ)}
    (hl : ∀ address beforeLt, Erases (lookup address beforeLt).run (lookup' address beforeLt).run)
    (t : RescanTask) (plan : Plan) :
    Erases (carryOutWith parser lookup t plan).run (carryOutWith bare lookup' t plan).run := by
  have hcalls : RelatesCalls (fun {α} (x : ExceptT Fault (RescanM (σ × τ)) α)
      (y : ExceptT Fault (RescanM σ) α) => Erases x.run y.run) parser lookup bare lookup' :=
    ⟨fun s types => .run_lift (h.readAccount hl s types),
      fun s contract method => .run_lift (h.callMethod hl s contract method),
      fun m => .run_lift (h.readPayload m)⟩
  exact erases_congruence.carryOutWith hcalls hl t plan

/-- A step erases to a step, if what carries out its plans does. -/
theorem stepBy_erases
    {act : RescanTask → Plan → ExceptT Fault (RescanM (σ × τ)) (List AccountState × List Message)}
    {act' : RescanTask → Plan → ExceptT Fault (RescanM σ) (List AccountState × List Message)}
    (hact : ∀ t plan, Erases (act t plan).run (act' t plan).run) (batch : UInt32) :
    Erases (stepBy act batch).run (stepBy act' batch).run :=
  erases_congruence.stepBy Erases.run_commit Erases.run_modifySnapshots hact batch

/-! ## The registry -/

theorem getRegistry_erases {ε : Type} :
    Erases (getThe Registry : ExceptT ε (RescanM (Registry × τ)) Registry).run
      (getThe Registry : ExceptT ε (RescanM Registry) Registry).run :=
  fun _ => rfl

theorem modifyRegistry_erases {ε : Type} (f : Registry → Registry) :
    Erases (modifyThe Registry f : ExceptT ε (RescanM (Registry × τ)) Unit).run
      (modifyThe Registry f : ExceptT ε (RescanM Registry) Unit).run :=
  fun _ => rfl

theorem consult_erases {ε : Type} (call key : String) :
    Erases (liftM (Registry.consult call key : RescanM (Registry × τ) _) :
        ExceptT ε (RescanM (Registry × τ)) _).run
      (liftM (Registry.consult call key : RescanM Registry _) : ExceptT ε (RescanM Registry) _).run :=
  fun _ => rfl

section

variable {lookup : Lookup (RescanM (Registry × τ))} {lookup' : Lookup (RescanM Registry)}
  (hl : ∀ address beforeLt, Erases (lookup address beforeLt).run (lookup' address beforeLt).run)

include hl

theorem callMethod_erases (s : AccountState) (contract : ContractName) (method : String) :
    Erases (Registry.callMethod s contract method lookup).run
      (Registry.callMethod s contract method lookup').run := by
  unfold Registry.callMethod
  refine .run_bind getRegistry_erases fun r => ?_
  split
  · exact .run_throw _
  · refine .run_bind (modifyRegistry_erases _) fun _ => ?_
    dsimp only
    split
    · exact .run_bind (.run_pure _) fun _ => .run_pure _
    · refine .run_bind (modifyRegistry_erases _) fun _ => .run_bind (.run_lift (hl _ _)) fun found => ?_
      cases found with
      | error fault => exact .run_bind (.run_throw _) fun _ => .run_pure _
      | ok found => exact .run_bind (.run_pure _) fun _ => .run_pure _

theorem callMethods_erases (s : AccountState) :
    ∀ (calls : List (ContractName × String)) (found : Option AccountData),
      Erases (Registry.callMethods s lookup calls found).run (Registry.callMethods s lookup' calls found).run
  | [], found => .run_pure _
  | (contract, method) :: rest, found => by
    rw [Registry.callMethods, Registry.callMethods]
    refine .run_bind (.run_lift (callMethod_erases hl s contract method)) fun outcome => ?_
    split
    · exact callMethods_erases s rest _
    · exact callMethods_erases s rest found
    · exact .run_throw _

theorem readAccount_erases (s : AccountState) (types : List ContractName) :
    Erases (Registry.readAccount s types lookup).run (Registry.readAccount s types lookup').run := by
  unfold Registry.readAccount
  refine .run_bind getRegistry_erases fun r => .run_bind (callMethods_erases hl s _ _) fun found => ?_
  split
  · exact .run_pure _
  · exact .run_throw _

end

/-- The registry does not see what is attached to it. -/
theorem registry_attaches : Attaches (Registry.parser : Parser (RescanM (Registry × τ))) registry where
  readAccount hl s types := by
    refine .run_bind (consult_erases _ _) fun answer => ?_
    split
    · exact .run_mk _
    · exact readAccount_erases hl s types
  callMethod hl s contract method := by
    refine .run_bind (consult_erases _ _) fun answer => ?_
    split
    · exact .run_mk _
    · exact callMethod_erases hl s contract method
  readPayload m := by
    refine .run_bind (consult_erases _ _) fun answer => ?_
    split
    · exact .run_throw _
    · exact .run_bind getRegistry_erases fun r => .run_mk _

end ShardIndex.Rescan
