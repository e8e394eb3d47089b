import ShardIndex.Contract.Registry
import ShardIndex.Proofs.Rescan.Behaviour
/-!
# The registry as the parser of a rescan

The registry changes nothing but its own state, apart from what its lookups do (`registry_keeps`), and its
results go by its definitions and canned results (`registry_behaves`). So it has no access to the store
(`registry_leavesStore`). Without a script it answers by its definitions and canned results, which stay as
they are: it is determined by them (`registry_determined`).
-/
namespace ShardIndex.Rescan

instance : MonadStateOf Registry (RescanM Registry) := parserState

/-- The parser that the registry is. -/
abbrev registry : Parser (RescanM Registry) := Registry.parser

/-! ## What its calls do -/

/-- Counting calls and answering from the script keep the property. -/
structure Steady (P : Registry → Prop) : Prop where
  counted : ∀ p calls lookups, P p → P { p with methodCalls := calls, lookups := lookups }
  answered : ∀ p q call key, P p → P q → P { q with script := (p.script.consult call key).2 }

theorem Steady.trivial : Steady fun _ => True where
  counted _ _ _ _ := True.intro
  answered _ _ _ _ _ _ := True.intro

/-- What the call of a get-method finds, going by a registry that satisfies `P`: the canned result of the
method with an execution of it, and with a flag of its own if a minter was looked up. -/
def CannedFinding (P : Registry → Prop) (contract : ContractName) (method : String) (d : AccountData) :
    Prop :=
  ∃ p data fake, P p ∧ p.methodResults.get? (contract, method) = some data ∧
    (data.minter = none → fake = data.fake) ∧
      d = { data with fake := fake, executed := [(contract, [{ method := method }])] }

section

variable {σ : Type} [MonadStateOf Registry (RescanM σ)]

/-- The context holds a registry that satisfies `P`, and the property is kept if another one that does
takes its place. -/
structure Hosts (I : Context σ → Prop) (P : Registry → Prop) : Prop where
  get : Ends I (getThe Registry : RescanM σ Registry) P
  modify : ∀ f : Registry → Registry, (∀ p, P p → P (f p)) →
    Keeps I (modifyThe Registry f : RescanM σ Unit)

variable {I : Context σ → Prop} {P : Registry → Prop} (h : Hosts I P) (hP : Steady P)
  {lookup : Lookup (RescanM σ)} (hl : ∀ address beforeLt, Keeps I (lookup address beforeLt).run)
  {F : AccountData → Prop}

include h

theorem Hosts.run_get {ε : Type} :
    Ends I (getThe Registry : ExceptT ε (RescanM σ) Registry).run (Yields P) :=
  Ends.yields_lift h.get

theorem Hosts.run_modify {ε : Type} {f : Registry → Registry} (hf : ∀ p, P p → P (f p)) :
    Keeps I (modifyThe Registry f : ExceptT ε (RescanM σ) Unit).run :=
  Keeps.run_lift (h.modify f hf)

include hP

theorem Hosts.run_consult {ε : Type} (call key : String) :
    Ends I (liftM (Registry.consult call key : RescanM σ _) : ExceptT ε (RescanM σ) _).run
      (Yields fun answer => ∃ p, P p ∧ (p.script.consult call key).1 = answer) := by
  refine Ends.yields_lift fun w hw => ?_
  obtain ⟨hp, hv⟩ := h.get w hw
  refine ⟨⟨_, hp, rfl⟩, ?_⟩
  exact h.modify _ (fun q hq => hP.answered _ q call key hp hq) _ hv

include hl

theorem Hosts.callMethod (s : AccountState) (contract : ContractName) (method : String) :
    Ends I (Registry.callMethod s contract method lookup).run
      (Yields (CannedFinding P contract method)) := by
  unfold Registry.callMethod
  refine h.run_get.yields_bind fun p hp => ?_
  split
  · exact .yields_error _
  · rename_i data hdata
    refine .yields_then (h.run_modify fun q hq => hP.counted q _ _ hq) fun _ => ?_
    dsimp only
    split
    · refine (Ends.yields_pure (Q := (· = data.fake)) rfl).yields_bind fun fake hfake => ?_
      exact .yields_pure ⟨p, data, fake, hp, hdata, fun _ => hfake, rfl⟩
    · rename_i minter hminter
      refine .yields_then (h.run_modify fun q hq => hP.counted q _ _ hq) fun _ =>
        .yields_then (.run_lift (hl _ _)) fun found => ?_
      have hfound : ∀ fake, CannedFinding P contract method
          { data with fake := fake, executed := [(contract, [{ method := method }])] } := by
        refine fun fake => ⟨p, data, fake, hp, hdata, fun hnone => ?_, rfl⟩
        rw [hnone] at hminter
        cases hminter
      cases found with
      | error fault => exact .yields_then (.run_mk _) fun _ => .yields_pure (hfound _)
      | ok found => exact .yields_then (.run_pure _) fun _ => .yields_pure (hfound _)

theorem Hosts.callMethods (s : AccountState) (hempty : F {}) : ∀ (calls : List (ContractName × String))
    (found : Option AccountData),
    (∀ call ∈ calls, ∀ d d', F d → CannedFinding P call.1 call.2 d' → F (d.add d')) →
      (∀ d, found = some d → F d) →
        Ends I (Registry.callMethods s lookup calls found).run (Yields fun found => ∀ d, found = some d → F d)
  | [], found, _, hfound => .yields_pure hfound
  | (contract, method) :: rest, found, hadd, hfound => by
    obtain ⟨hcall, hrest⟩ := List.forall_mem_cons.1 hadd
    rw [Registry.callMethods]
    refine (Ends.yields_lift (h.callMethod hP hl s contract method)).yields_bind fun outcome houtcome => ?_
    split
    · rename_i data
      refine Hosts.callMethods s hempty rest _ hrest fun d hd => ?_
      obtain rfl := Option.some.inj hd
      refine hcall _ _ ?_ (houtcome data rfl)
      cases found with
      | none => exact hempty
      | some d => exact hfound d rfl
    · exact Hosts.callMethods s hempty rest found hrest hfound
    · exact .yields_error _

theorem Hosts.readAccount (s : AccountState) {types : List ContractName} (hempty : F {})
    (hadd : ∀ contract ∈ types, ∀ method d d', F d → CannedFinding P contract method d' → F (d.add d')) :
    Ends I (Registry.readAccount s types lookup).run (Yields F) := by
  unfold Registry.readAccount
  refine h.run_get.yields_bind fun r hr =>
    (h.callMethods hP hl s hempty _ none ?_ (by simp)).yields_bind fun found hfound => ?_
  · rintro ⟨contract, method⟩ hcall
    obtain ⟨c, hc, hcall⟩ := List.mem_flatMap.1 hcall
    obtain ⟨m, -, heq⟩ := List.mem_map.1 hcall
    cases heq
    exact hadd contract hc method
  · cases found with
    | none => exact .yields_error _
    | some data => exact .yields_pure (hfound data rfl)

omit hl in
theorem Hosts.parser_interfacesOf {labels : List ContractName → Prop} {s : AccountState}
    (hlabels : ∀ p, P p → labels (p.interfacesOf s)) :
    Ends I ((Registry.parser : Parser (RescanM σ)).interfacesOf s).run (Yields labels) := by
  refine (h.run_consult hP _ _).yields_bind fun answer _ => ?_
  split
  · exact .yields_error _
  · exact h.run_get.yields_bind fun p hp => .yields_pure (hlabels p hp)

theorem Hosts.parser_readAccount
    (hscript : ∀ p call key d, P p → (p.script.consult call key).1 = some (.ok d) → F d) (s : AccountState)
    {types : List ContractName} (hempty : F {})
    (hadd : ∀ contract ∈ types, ∀ method d d', F d → CannedFinding P contract method d' → F (d.add d')) :
    Ends I ((Registry.parser : Parser (RescanM σ)).readAccount s types lookup).run (Yields F) := by
  refine (h.run_consult hP _ _).yields_bind fun answer hanswer => ?_
  obtain ⟨p, hp, hanswer⟩ := hanswer
  cases answer with
  | some answer => exact .yields_mk fun d hd => hscript p _ _ d hp (hanswer.trans (congrArg some hd))
  | none => exact h.readAccount hP hl s hempty hadd

theorem Hosts.parser_callMethod
    (hscript : ∀ p call key d, P p → (p.script.consult call key).1 = some (.ok d) → F d) (s : AccountState)
    {contract : ContractName} {method : String} (hfound : ∀ d, CannedFinding P contract method d → F d) :
    Ends I ((Registry.parser : Parser (RescanM σ)).callMethod s contract method lookup).run (Yields F) := by
  refine (h.run_consult hP _ _).yields_bind fun answer hanswer => ?_
  obtain ⟨p, hp, hanswer⟩ := hanswer
  cases answer with
  | some answer => exact .yields_mk fun d hd => hscript p _ _ d hp (hanswer.trans (congrArg some hd))
  | none => exact (h.callMethod hP hl s contract method).yields_weaken hfound

omit hl in
theorem Hosts.parser_readPayload (m : Message) :
    Keeps I ((Registry.parser : Parser (RescanM σ)).readPayload m).run := by
  refine .run_bind (h.run_consult hP _ _).keeps fun answer => ?_
  split
  · exact .run_mk _
  · exact .run_bind h.run_get.keeps fun _ => .run_mk _

end

/-- The registry keeps what its lookups keep and what does not depend on its own state. -/
theorem registry_keeps {I : Context Registry → Prop} (hI : ∀ w p, I w → I { w with parser := p })
    (hl : ∀ address beforeLt,
      Keeps I ((Snapshots.lookup : Lookup (RescanM Registry)) address beforeLt).run) :
    ParserKeeps I registry := by
  have h : Hosts I fun _ => True :=
    ⟨fun _ hw => ⟨True.intro, hw⟩, fun _ _ w hw => hI w _ hw⟩
  refine ⟨fun s types => ?_, fun s contract method => ?_, h.parser_readPayload .trivial⟩
  · exact (h.parser_readAccount (F := fun _ => True) .trivial hl (by simp) s True.intro (by simp)).keeps
  · exact (h.parser_callMethod (F := fun _ => True) .trivial hl (by simp) s (by simp)).keeps

/-- A registry with something attached to it. -/
instance {τ : Type} : MonadStateOf Registry (RescanM (Registry × τ)) := ownState

theorem Hosts.within {τ : Type} {P : Registry → Prop} {I : Context (Registry × τ) → Prop} (hI : Indifferent I) :
    Hosts (Within I P) P :=
  ⟨fun _ hw => ⟨hw.2, hw⟩, fun _ hf w hw => ⟨hI w _ hw.1, hf _ hw.2⟩⟩

/-- What is known of a registry that satisfies `P` is known of its results. -/
theorem registry_behaves {τ : Type} {P : Registry → Prop} (hP : Steady P)
    {labels : List ContractName → Prop} (hlabels : ∀ p, P p → ∀ s, labels (p.interfacesOf s))
    {findings : List ContractName → AccountData → Prop}
    (hscript : ∀ p call key d types, P p → (p.script.consult call key).1 = some (.ok d) → findings types d)
    (hempty : ∀ types, findings types {})
    (hadd : ∀ types, ∀ contract ∈ types, ∀ method d d', findings types d →
      CannedFinding P contract method d' → findings types (d.add d'))
    (hfound : ∀ contract method d, CannedFinding P contract method d → findings [contract] d) :
    Behaves P labels findings (Registry.parser : Parser (RescanM (Registry × τ))) := by
  refine ⟨fun I hI s => ?_, fun I lookup hI hl s types => ?_, fun I lookup hI hl s contract method => ?_,
    fun I hI => ?_⟩
  · exact (Hosts.within hI).parser_interfacesOf hP fun p hp => hlabels p hp s
  · exact (Hosts.within hI).parser_readAccount hP hl (fun p call key d => hscript p call key d types) s
      (hempty types) (hadd types)
  · exact (Hosts.within hI).parser_callMethod hP hl (fun p call key d => hscript p call key d [contract]) s
      (hfound contract method)
  · exact (Hosts.within hI).parser_readPayload hP

/-- The registry acts through its lookups only. -/
theorem registry_confined {τ : Type} : Confined (Registry.parser : Parser (RescanM (Registry × τ))) :=
  registry_behaves .trivial (fun _ _ _ => True.intro) (fun _ _ _ _ _ _ _ => True.intro)
    (fun _ => True.intro) (fun _ _ _ _ _ _ _ _ => True.intro) fun _ _ _ _ => True.intro

theorem registry_leavesStore : LeavesStore registry :=
  fun s => registry_keeps (fun _ _ h => h) (lookup_leavesStore s)

/-! ## Answers -/

/-- What a get-method comes to by its canned result. -/
def cannedMethod (r : Registry) (s : AccountState) (contract : ContractName) (method : String)
    (labels : Labels) : Except ParseFault AccountData :=
  match r.methodResults.get? (contract, method) with
  | none => .error .notAvailable
  | some data =>
    .ok { data with
      fake := match data.minter with
        | none => data.fake
        | some minter => (labels minter s.lastTxLt).all List.isEmpty
      executed := [(contract, [{ method := method }])] }

/-- What the canned results of methods add up to. -/
def cannedMethods (r : Registry) (s : AccountState) (labels : Labels) :
    List (ContractName × String) → Option AccountData → Option AccountData
  | [], found => found
  | (contract, method) :: rest, found =>
    match cannedMethod r s contract method labels with
    | .ok data => cannedMethods r s labels rest (some ((found.getD {}).add data))
    | .error _ => cannedMethods r s labels rest found

/-- The answers of a registry without a script. -/
def cannedAnswers (r : Registry) : Answers where
  readAccount s types labels :=
    match cannedMethods r s labels (types.flatMap fun contract =>
      (r.methodsOf contract).map (contract, ·)) none with
    | some data => .ok data
    | none => .error .notAvailable
  callMethod s contract method labels := cannedMethod r s contract method labels
  readPayload m := r.decode m

/-- The registry has the definitions and the canned results of `r`, and no script. -/
structure Canned (r p : Registry) : Prop where
  interfaces : p.interfaces = r.interfaces
  methodResults : p.methodResults = r.methodResults
  operations : p.operations = r.operations
  script : p.script = []

section

variable {I : Context Registry → Prop} (hI : ∀ w p, I w → I { w with parser := p }) {r : Registry}
  {lookup : Lookup (RescanM Registry)} {labels : Labels}

theorem getRegistry_ends {ε : Type} :
    Ends (fun w => I w ∧ Canned r w.parser)
      (getThe Registry : ExceptT ε (RescanM Registry) Registry).run
      fun x => ∃ p, x = .ok p ∧ Canned r p :=
  fun w hw => ⟨⟨w.parser, rfl, hw.2⟩, hw⟩

include hI

theorem modifyRegistry_ends {ε : Type} {f : Registry → Registry} (hf : ∀ p, Canned r p → Canned r (f p)) :
    Ends (fun w => I w ∧ Canned r w.parser)
      (modifyThe Registry f : ExceptT ε (RescanM Registry) Unit).run (Comes False (.ok ())) :=
  fun w hw => ⟨.inl rfl, hI w _ hw.1, hf _ hw.2⟩

theorem consult_ends (call key : String) :
    Ends (fun w => I w ∧ Canned r w.parser) (Registry.consult call key : RescanM Registry _)
      (· = none) := by
  intro w hw
  have hscript : w.parser.script.consult call key = (none, []) := by
    rw [hw.2.script]
    rfl
  refine ⟨congrArg Prod.fst hscript, hI w _ hw.1, ?_⟩
  exact ⟨hw.2.interfaces, hw.2.methodResults, hw.2.operations, congrArg Prod.snd hscript⟩

variable (hl : LooksUp (fun w => I w ∧ Canned r w.parser) lookup labels) (s : AccountState)

include hl

theorem callMethod_ends (contract : ContractName) (method : String) :
    Ends (fun w => I w ∧ Canned r w.parser) (Registry.callMethod s contract method lookup).run
      (Comes False (cannedMethod r s contract method labels)) := by
  unfold Registry.callMethod cannedMethod
  refine getRegistry_ends.run_bind ?_ (by simp)
  rintro p ⟨p', hp', hp⟩
  obtain rfl := Except.ok.inj hp'
  rw [hp.methodResults]
  cases r.methodResults.get? (contract, method) with
  | none => exact .comes_mk _
  | some data =>
    dsimp only
    refine .comes_then (modifyRegistry_ends hI fun p hp =>
      ⟨hp.interfaces, hp.methodResults, hp.operations, hp.script⟩) ?_
    cases data.minter with
    | none => exact .comes_then (.comes_pure _) (.comes_pure _)
    | some minter =>
      refine .comes_then (modifyRegistry_ends hI fun p hp =>
        ⟨hp.interfaces, hp.methodResults, hp.operations, hp.script⟩) ?_
      refine (Ends.run_lift (Q := fun x => ∃ found, x = .ok (.ok found) ∧
        found.map (·.types) = labels minter s.lastTxLt) ?_).run_bind ?_ (by simp)
      · refine (hl minter s.lastTxLt).weaken ?_
        rintro x ⟨found, hx, hlabels⟩
        exact ⟨found, by rw [hx], hlabels⟩
      · rintro x ⟨found, hx, hlabels⟩
        obtain rfl := Except.ok.inj hx
        refine .comes_then (.comes_pure _) (.run_pure (.inl ?_))
        dsimp only
        rw [← hlabels]
        cases found <;> rfl

theorem callMethods_ends : ∀ calls found,
    Ends (fun w => I w ∧ Canned r w.parser) (Registry.callMethods s lookup calls found).run
      (Comes False (.ok (cannedMethods r s.chain labels calls found)))
  | [], found => .comes_pure _
  | (contract, method) :: rest, found => by
    rw [Registry.callMethods, cannedMethods]
    refine (Ends.run_lift (Q := fun x => x = .ok (cannedMethod r s.chain contract method labels))
      ?_).run_bind ?_ (by simp)
    · refine (callMethod_ends hI hl s contract method).weaken fun x hx => ?_
      rw [hx.resolve_right (by simp)]
      rfl
    · intro x hx
      obtain rfl := Except.ok.inj hx
      cases h : cannedMethod r s.chain contract method labels with
      | ok data => exact callMethods_ends rest _
      | error e =>
        obtain rfl : e = .notAvailable := by
          unfold cannedMethod at h
          split at h
          · exact (Except.error.inj h).symm
          · cases h
        exact callMethods_ends rest _

theorem readAccount_ends (types : List ContractName) :
    Ends (fun w => I w ∧ Canned r w.parser) (Registry.readAccount s types lookup).run
      (Comes False ((cannedAnswers r).readAccount s.chain types labels)) := by
  unfold Registry.readAccount cannedAnswers
  refine getRegistry_ends.run_bind ?_ (by simp)
  rintro p ⟨p', hp', hp⟩
  obtain rfl := Except.ok.inj hp'
  have hmethods : p.methodsOf = r.methodsOf := by
    funext contract
    rw [Registry.methodsOf, hp.interfaces, Registry.methodsOf]
  rw [hmethods]
  refine .comes_then (callMethods_ends hI hl s _ _) ?_
  dsimp only
  cases cannedMethods r s.chain labels (types.flatMap fun contract =>
      (r.methodsOf contract).map (contract, ·)) none with
  | none => exact .comes_mk _
  | some data => exact .comes_pure _

end

/-- A registry without a script answers by its definitions and canned results, and never fails. -/
theorem registry_determined (r : Registry) :
    Determined registry (Canned r) (cannedAnswers r) False where
  leavesStore := registry_leavesStore
  calls I lookup labels hI hl := by
    have hconsult : ∀ call key : String, Ends (fun w => I w ∧ Canned r w.parser)
        (liftM (Registry.consult call key : RescanM Registry _) :
          ExceptT ParseFault (RescanM Registry) _).run (Comes False (.ok none)) :=
      fun call key => Ends.run_lift
        ((consult_ends hI call key).weaken fun y hy => .inl (congrArg Except.ok hy))
    have hanswered : ∀ {α : Type} {x : ExceptT ParseFault (RescanM Registry) α}
        {expected : Except ParseFault α},
        Ends (fun w => I w ∧ Canned r w.parser) x.run (Comes False expected) →
          Ends (fun w => I w ∧ Canned r w.parser) x.run (Answered False expected) :=
      fun hx => hx.weaken fun y hy => .inl (hy.resolve_right (by simp))
    refine ⟨fun s types => ?_, fun s contract method => ?_, fun m => ?_⟩
    · exact hanswered (.comes_then (hconsult _ _) (readAccount_ends hI hl s types))
    · exact hanswered (.comes_then (hconsult _ _) (callMethod_ends hI hl s contract method))
    · refine hanswered (.comes_then (hconsult _ _) (getRegistry_ends.run_bind ?_ (by simp)))
      rintro p ⟨p', hp', hp⟩
      obtain rfl := Except.ok.inj hp'
      refine .run_mk (.inl ?_)
      change p.decode m = r.decode m
      rw [Registry.decode, hp.operations, Registry.decode]

end ShardIndex.Rescan
