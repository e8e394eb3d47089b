import ShardIndex.Proofs.Rescan.Answers
/-!
# Parsers with something attached

Whatever else a program works on stands beside the parser's own state: contexts are about pairs, the parser
owns the first component and has no part in the second one (`Indifferent`). So a parser acts on the rest of
the context through its lookups only, and all that remains to be said about it are its results
(`Behaves`): which labels it may give, and what it may find out about the contracts that it was asked for.
-/
namespace ShardIndex.Rescan

variable {σ τ α β : Type}

/-! ## Results -/

/-- The result, if there is one, satisfies `Q`. -/
def Yields {ε : Type} (Q : α → Prop) (r : Except ε α) : Prop :=
  ∀ a, r = .ok a → Q a

theorem Ends.keeps {I : Context σ → Prop} {x : RescanM σ α} {Q : α → Prop} (h : Ends I x Q) : Keeps I x :=
  fun w hw => (h w hw).2

theorem Keeps.yields {I : Context σ → Prop} {ε : Type} {x : ExceptT ε (RescanM σ) α} (h : Keeps I x.run) :
    Ends I x.run (Yields fun _ => True) :=
  fun w hw => ⟨fun _ _ => trivial, h w hw⟩

namespace Ends

variable {I : Context σ → Prop} {ε : Type} {Q R : α → Prop}

theorem yields_pure {a : α} (h : Q a) : Ends I (pure a : ExceptT ε (RescanM σ) α).run (Yields Q) :=
  .run_pure fun _ hb => Except.ok.inj hb ▸ h

theorem yields_mk {r : Except ε α} (h : ∀ a, r = .ok a → Q a) :
    Ends I (ExceptT.mk (pure r) : ExceptT ε (RescanM σ) α).run (Yields Q) :=
  .run_mk h

theorem yields_error (e : ε) :
    Ends I (ExceptT.mk (pure (.error e)) : ExceptT ε (RescanM σ) α).run (Yields Q) :=
  .yields_mk (by simp)

theorem yields_lift {x : RescanM σ α} (h : Ends I x Q) :
    Ends I (ExceptT.lift x : ExceptT ε (RescanM σ) α).run (Yields Q) :=
  .run_lift (h.weaken fun _ ha _ hb => Except.ok.inj hb ▸ ha)

theorem yields_bind {R : β → Prop} {x : ExceptT ε (RescanM σ) α} {f : α → ExceptT ε (RescanM σ) β}
    (hx : Ends I x.run (Yields Q)) (hf : ∀ a, Q a → Ends I (f a).run (Yields R)) :
    Ends I (x >>= f).run (Yields R) :=
  hx.run_bind (fun a ha => hf a (ha a rfl)) fun e _ => by simp [Yields]

/-- What follows a program of which only the effects matter. -/
theorem yields_then {R : β → Prop} {x : ExceptT ε (RescanM σ) α} {f : α → ExceptT ε (RescanM σ) β}
    (hx : Keeps I x.run) (hf : ∀ a, Ends I (f a).run (Yields R)) : Ends I (x >>= f).run (Yields R) :=
  hx.yields.yields_bind fun a _ => hf a

theorem yields_weaken {x : ExceptT ε (RescanM σ) α} (hx : Ends I x.run (Yields Q)) (h : ∀ a, Q a → R a) :
    Ends I x.run (Yields R) :=
  hx.weaken fun _ hr a ha => h a (hr a ha)

theorem yields_mapM {R : β → Prop} {f : α → ExceptT ε (RescanM σ) β} : ∀ {l : List α},
    (∀ a ∈ l, Ends I (f a).run (Yields R)) → Ends I (l.mapM f).run (Yields fun bs => ∀ b ∈ bs, R b)
  | [], _ => by
    rw [List.mapM_nil]
    exact .yields_pure (by simp)
  | a :: l, h => by
    obtain ⟨ha, hl⟩ := List.forall_mem_cons.1 h
    rw [List.mapM_cons]
    exact ha.yields_bind fun b hb => (yields_mapM hl).yields_bind fun bs hbs =>
      .yields_pure (List.forall_mem_cons.2 ⟨hb, hbs⟩)

theorem yields_getStore {R : Store → Prop} (h : ∀ w, I w → R w.store) :
    Ends I (getThe Store : ExceptT ε (RescanM σ) Store).run (Yields R) :=
  fun w hw => ⟨fun _ ha => Except.ok.inj ha ▸ h w hw, hw⟩

end Ends

/-! ## Own and attached states -/

/-- The parser's own state. -/
@[reducible] def ownState : MonadStateOf σ (RescanM (σ × τ)) where
  get w := (w.parser.1, w)
  set p w := ((), { w with parser := (p, w.parser.2) })
  modifyGet f w := ((f w.parser.1).1, { w with parser := ((f w.parser.1).2, w.parser.2) })

/-- What is attached to it. -/
@[reducible] def attached : MonadStateOf τ (RescanM (σ × τ)) where
  get w := (w.parser.2, w)
  set p w := ((), { w with parser := (w.parser.1, p) })
  modifyGet f w := ((f w.parser.2).1, { w with parser := (w.parser.1, (f w.parser.2).2) })

/-- The parser's own state has no part in the property. -/
def Indifferent (I : Context (σ × τ) → Prop) : Prop :=
  ∀ w p, I w → I { w with parser := (p, w.parser.2) }

/-- The property, and a property of the parser's own state. -/
def Within (I : Context (σ × τ) → Prop) (P : σ → Prop) (w : Context (σ × τ)) : Prop :=
  I w ∧ P w.parser.1

/-- As long as its own state satisfies `P`, the parser changes nothing else, apart from what its lookups do;
it labels accounts as `labels` says, and `findings` says what it finds out about contracts. -/
structure Behaves (P : σ → Prop) (labels : List ContractName → Prop)
    (findings : List ContractName → AccountData → Prop) (parser : Parser (RescanM (σ × τ))) : Prop where
  interfacesOf : ∀ I : Context (σ × τ) → Prop, Indifferent I → ∀ s,
    Ends (Within I P) (parser.interfacesOf s).run (Yields labels)
  readAccount : ∀ (I : Context (σ × τ) → Prop) (lookup : Lookup (RescanM (σ × τ))), Indifferent I →
    (∀ address beforeLt, Keeps (Within I P) (lookup address beforeLt).run) → ∀ s types,
      Ends (Within I P) (parser.readAccount s types lookup).run (Yields (findings types))
  callMethod : ∀ (I : Context (σ × τ) → Prop) (lookup : Lookup (RescanM (σ × τ))), Indifferent I →
    (∀ address beforeLt, Keeps (Within I P) (lookup address beforeLt).run) → ∀ s contract method,
      Ends (Within I P) (parser.callMethod s contract method lookup).run (Yields (findings [contract]))
  readPayload : ∀ I : Context (σ × τ) → Prop, Indifferent I → ∀ m,
    Keeps (Within I P) (parser.readPayload m).run

/-- The parser acts through its lookups only, whatever its results are. -/
def Confined (parser : Parser (RescanM (σ × τ))) : Prop :=
  Behaves (fun _ => True) (fun _ => True) (fun _ _ => True) parser

theorem Behaves.callsKeep {P : σ → Prop} {labels : List ContractName → Prop}
    {findings : List ContractName → AccountData → Prop} {parser : Parser (RescanM (σ × τ))}
    (h : Behaves P labels findings parser) {I : Context (σ × τ) → Prop} (hI : Indifferent I)
    {lookup : Lookup (RescanM (σ × τ))}
    (hl : ∀ address beforeLt, Keeps (Within I P) (lookup address beforeLt).run) :
    CallsKeep (Within I P) parser lookup where
  readAccount s types := (h.readAccount I lookup hI hl s types).keeps
  callMethod s contract method := (h.callMethod I lookup hI hl s contract method).keeps
  readPayload m := h.readPayload I hI m

end ShardIndex.Rescan
