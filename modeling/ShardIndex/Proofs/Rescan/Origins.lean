import ShardIndex.Proofs.Rescan.Behaviour
import ShardIndex.Proofs.Rescan.Pointwise
/-!
# Where rewritten rows come from

However a plan is carried out, each row that it changes was made from a row of the store that its range
query has read: a row of the plan's window, from which only what contracts said was taken or replaced
(`Origins`). Nothing else is assumed about the store than what is known of every read of it, so it may be
another one at each read (`carryOut_origins`).
-/
namespace ShardIndex.Rescan

/-! ## Windows of plans -/

/-- The window that a plan takes. -/
def Plan.window? : Plan → Option (UInt32 × UInt32)
  | .accounts window => window
  | .messages window => window
  | .nothing => none

/-- The master block belongs to the window of the plan. -/
def Plan.Covers (pl : Plan) (n : UInt32) : Prop :=
  ∃ start stop, pl.window? = some (start, stop) ∧ start ≤ n ∧ n ≤ stop

/-- A window stays within the committed range. -/
theorem window_within {batch first last start stop : UInt32} {t : RescanTask}
    (h : (plan batch t first last).window? = some (start, stop)) : first ≤ start ∧ stop ≤ last := by
  have hwindow : ∀ checkpoint, nextWindow batch checkpoint first last = some (start, stop) →
      first ≤ start ∧ stop ≤ last := by
    intro checkpoint hnext
    cases hnext ▸ nextWindow_spec batch first last checkpoint with
    | window hstart hstop _ =>
      have hfirst := le_resumeAt checkpoint first
      rw [UInt32.le_iff_toNat_le, UInt32.le_iff_toNat_le]
      omega
  unfold plan at h
  split at h
  · exact hwindow _ h
  · split at h
    · exact hwindow _ h
    · cases h

theorem Plan.Covers.within {batch first last n : UInt32} {t : RescanTask}
    (h : (plan batch t first last).Covers n) : first ≤ n ∧ n ≤ last := by
  obtain ⟨start, stop, hwindow, hstart, hstop⟩ := h
  obtain ⟨hfirst, hlast⟩ := window_within hwindow
  exact ⟨UInt32.le_trans hfirst hstart, UInt32.le_trans hstop hlast⟩

/-! ## Rows -/

/-- The rows that a plan changes were made from rows of stores that satisfy `R`. -/
structure Origins (R : Store → Prop) (t : RescanTask) (pl : Plan)
    (rows : List AccountState × List Message) : Prop where
  accounts : ∀ b ∈ rows.1, ∃ s, R s ∧ ∃ a ∈ s.accounts, b.chain = a.chain ∧
    (RowwiseKind t.kind → b.types = a.types) ∧ pl.Covers a.masterSeqno
  messages : ∀ b ∈ rows.2, ∃ s, R s ∧ ∃ a ∈ s.messages, b.chain = a.chain ∧
    ∃ n, a.masterSeqno? = some n ∧ pl.Covers n
  noAccounts : t.kind.rescansAccounts = false → rows.1 = []
  noMessages : t.kind.rescansMessages = false → rows.2 = []

/-- What a task may make of a snapshot. -/
structure Descends (t : RescanTask) (a b : AccountState) : Prop where
  chain : b.chain = a.chain
  types : RowwiseKind t.kind → b.types = a.types
  same : t.kind.rescansAccounts = false → b = a

theorem Origins.none (R : Store → Prop) (t : RescanTask) (pl : Plan) : Origins R t pl ([], []) :=
  ⟨by simp, by simp, fun _ => rfl, fun _ => rfl⟩

section

variable {σ : Type} {I : Context σ → Prop} {parser : Parser (RescanM σ)} {lookup : Lookup (RescanM σ)}
  (hcalls : CallsKeep I parser lookup) (hl : ∀ address beforeLt, Keeps I (lookup address beforeLt).run)
  (t : RescanTask)

/-! ### Snapshots -/

theorem descends_of_interface {t : RescanTask} (hkind : t.kind = .addInterface ∨ t.kind = .updInterface ∨
    t.kind = .delInterface) {a b : AccountState} (h : b.chain = a.chain) : Descends t a b := by
  refine ⟨h, fun hrow => ?_, fun hskip => ?_⟩ <;>
    rcases hkind with hkind | hkind | hkind <;> simp_all [RowwiseKind, RescanKind.rescansAccounts]

theorem descends_of_method {t : RescanTask} (hkind : t.kind = .addMethod ∨ t.kind = .updMethod ∨
    t.kind = .delMethod) {a b : AccountState} (h : b.chain = a.chain ∧ b.types = a.types) :
    Descends t a b := by
  refine ⟨h.1, fun _ => h.2, fun hskip => ?_⟩
  rcases hkind with hkind | hkind | hkind <;> simp_all [RescanKind.rescansAccounts]

include hcalls

theorem rereadInterface_descends (i : ContractInterface) (s : AccountState) :
    Ends I (rereadInterface parser lookup i s).run (Yields fun b => b.chain = s.chain) := by
  refine .yields_then (.run_lift (hcalls.readAccount _ _)) fun outcome => .yields_mk fun b hb => ?_
  exact (AccountState.of_absorb hb).1.trans
    ((AccountState.chain_addInterface _ _).trans (s.chain_clearContract _ _))

theorem rereadMethod_descends (contract : ContractName) (method : String) (s : AccountState) :
    Ends I (rereadMethod parser lookup contract method s).run
      (Yields fun b => b.chain = s.chain ∧ b.types = s.types) := by
  refine .yields_then (.run_lift (hcalls.callMethod _ _ _)) fun outcome => .yields_mk fun b hb => ?_
  obtain ⟨hchain, htypes⟩ := AccountState.of_absorb hb
  exact ⟨hchain.trans (s.chain_clearMethod _ _), htypes.trans (s.types_clearMethod _ _)⟩

theorem rewriteAccount_descends (interface : Option ContractInterface) (s : AccountState) :
    Ends I (rewriteAccount parser lookup t interface s).run (Yields (Descends t s)) := by
  have hcleared : ∀ {b : AccountState}, t.kind = .addInterface ∨ t.kind = .updInterface ∨
      t.kind = .delInterface → b.chain = s.chain → Ends I (pure b : ExceptT Fault (RescanM σ) _).run
        (Yields (Descends t s)) :=
    fun hkind hb => .yields_pure (descends_of_interface hkind hb)
  unfold rewriteAccount
  split
  all_goals rename_i hkind
  · split
    · exact (rereadInterface_descends hcalls _ s).yields_weaken fun b hb =>
        descends_of_interface (.inl hkind) hb
    · exact hcleared (.inl hkind) (s.chain_clearContract _ _)
  · split
    · exact (rereadInterface_descends hcalls _ s).yields_weaken fun b hb =>
        descends_of_interface (.inr (.inl hkind)) hb
    · exact hcleared (.inr (.inl hkind)) (s.chain_clearContract _ _)
  · exact hcleared (.inr (.inr hkind)) (s.chain_clearContract _ _)
  · exact .yields_then (.run_mk _) fun method =>
      (rereadMethod_descends hcalls t.contract method s).yields_weaken fun b hb =>
        descends_of_method (.inl hkind) hb
  · exact .yields_then (.run_mk _) fun method =>
      (rereadMethod_descends hcalls t.contract method s).yields_weaken fun b hb =>
        descends_of_method (.inr (.inl hkind)) hb
  · exact .yields_then (.run_mk _) fun method => .yields_pure
      (descends_of_method (.inr (.inr hkind)) ⟨s.chain_clearMethod _ _, s.types_clearMethod _ _⟩)
  · exact .yields_pure ⟨rfl, fun _ => rfl, fun _ => rfl⟩
  · exact .yields_pure ⟨rfl, fun _ => rfl, fun _ => rfl⟩

/-- Only rows that differ from what was read are written back. -/
theorem rewriteAccounts_descends (interface : Option ContractInterface) : ∀ states : List AccountState,
    Ends I (rewriteAccounts parser lookup t interface states).run
      (Yields fun rows => ∀ b ∈ rows, ∃ a ∈ states, Descends t a b ∧ b ≠ a)
  | [] => .yields_pure (by simp)
  | s :: rest => by
    rw [rewriteAccounts]
    refine (rewriteAccount_descends hcalls t interface s).yields_bind fun b hb => ?_
    refine (rewriteAccounts_descends interface rest).yields_bind fun rows hrows => .yields_pure ?_
    have hrest : ∀ r ∈ rows, ∃ a ∈ s :: rest, Descends t a r ∧ r ≠ a := by
      intro r hr
      obtain ⟨a, ha, hdescends⟩ := hrows r hr
      exact ⟨a, List.mem_cons_of_mem _ ha, hdescends⟩
    split
    · exact hrest
    · rename_i hne
      exact List.forall_mem_cons.2 ⟨⟨s, List.mem_cons_self, hb, hne⟩, hrest⟩

/-! ### Messages -/

theorem fillMessage_chain (m : Message) :
    Ends I (parser.fillMessage m).run (Yields fun b => b.chain = m.chain) :=
  .yields_then (.run_lift (hcalls.readPayload m)) fun _ => .yields_mk fun _ hb => Message.chain_of_absorb hb

omit hcalls

include hl in
theorem relabelSide_chain (contract : ContractName) (m : Message) (d : Direction) :
    Ends I (relabelSide lookup contract m d).run (Yields fun b => b.chain = m.chain) := by
  unfold relabelSide sideState
  refine .yields_then ?_ fun found => ?_
  · split
    · exact hl _ _
    · exact .run_pure _
  · split
    · exact .yields_pure rfl
    · dsimp only
      split
      · exact .yields_pure (m.chain_relabel d _)
      · exact .yields_pure rfl

include hcalls hl

theorem relabelAll_chain (contract : ContractName) : ∀ ms : List Message,
    Ends I (relabelAll parser lookup contract ms).run
      (Yields fun rows => ∀ b ∈ rows, ∃ a ∈ ms, b.chain = a.chain)
  | [] => .yields_pure (by simp)
  | m :: rest => by
    have hrelabel : Ends I (relabel parser lookup contract m).run
        (Yields fun changed => ∀ b ∈ changed, b.chain = m.chain) := by
      unfold relabel
      refine (relabelSide_chain hl contract m .outgoing).yields_bind fun r hr => ?_
      refine (relabelSide_chain hl contract r .incoming).yields_bind fun r' hr' => ?_
      split
      · exact .yields_pure (by simp)
      · refine (fillMessage_chain hcalls _).yields_bind fun b hb => .yields_pure ?_
        rintro _ ⟨⟩
        exact hb.trans (hr'.trans hr)
    rw [relabelAll]
    refine hrelabel.yields_bind fun changed hchanged => ?_
    refine (relabelAll_chain contract rest).yields_bind fun rows hrows => .yields_pure fun b hb => ?_
    rcases List.mem_append.1 hb with hb | hb
    · exact ⟨m, List.mem_cons_self, hchanged b (Option.mem_toList.1 hb)⟩
    · obtain ⟨a, ha, hchain⟩ := hrows b hb
      exact ⟨a, List.mem_cons_of_mem _ ha, hchain⟩

theorem rewriteOperations_chain : ∀ ms : List Message,
    Ends I (rewriteOperations parser lookup t ms).run
      (Yields fun rows => ∀ b ∈ rows, ∃ a ∈ ms, b.chain = a.chain)
  | [] => .yields_pure (by simp)
  | m :: rest => by
    have hside : Keeps I (sideHasInterface lookup (m.side t.direction) t.contract).run := by
      unfold sideHasInterface
      split
      · exact .run_pure _
      · refine .run_bind (hl _ _) fun found => ?_
        cases found <;> exact .run_pure _
    have hrewrite : ∀ concerned : Bool, Ends I
        (if concerned then rewriteOperation parser t m else pure m :
          ExceptT Fault (RescanM σ) Message).run (Yields fun b => b.chain = m.chain) := by
      intro concerned
      cases concerned with
      | false => exact .yields_pure rfl
      | true =>
        rw [if_pos rfl]
        unfold rewriteOperation
        split
        · exact fillMessage_chain hcalls m.clearPayload
        · exact .yields_pure rfl
    rw [rewriteOperations]
    refine .yields_then hside fun concerned => ?_
    have hrest : ∀ b : Message, b.chain = m.chain → Ends I (do
          let changed ← rewriteOperations parser lookup t rest
          return if b = m then changed else b :: changed : ExceptT Fault (RescanM σ) _).run
        (Yields fun rows => ∀ b ∈ rows, ∃ a ∈ m :: rest, b.chain = a.chain) := by
      intro b hb
      refine (rewriteOperations_chain rest).yields_bind fun rows hrows => .yields_pure ?_
      have hrows' : ∀ r ∈ rows, ∃ a ∈ m :: rest, r.chain = a.chain := fun r hr =>
        (hrows r hr).imp fun a ha => ⟨List.mem_cons_of_mem _ ha.1, ha.2⟩
      split
      · exact hrows'
      · exact List.forall_mem_cons.2 ⟨⟨m, List.mem_cons_self, hb⟩, hrows'⟩
    cases concerned with
    | false => exact (hrewrite false).yields_bind hrest
    | true => exact (hrewrite true).yields_bind hrest

/-! ### Plans -/

variable [MonadStateOf Store (RescanM σ)] {R : Store → Prop}
  (hget : Ends I (getThe Store : RescanM σ Store) R)

omit hcalls hl in
theorem getStore_yields {ε : Type} (hget : Ends I (getThe Store : RescanM σ Store) R) :
    Ends I (getThe Store : ExceptT ε (RescanM σ) Store).run (Yields R) :=
  .yields_lift hget

include hget

omit hl in
theorem accounts_origins (start stop : UInt32) :
    Ends I (accounts parser lookup t start stop).run
      (Yields fun rows => Origins R t (.accounts (some (start, stop))) (rows, [])) := by
  have hstore := getStore_yields (ε := Fault) hget
  unfold accounts
  refine .yields_then hstore.keeps fun _ => .yields_then (.run_mk _) fun interface => ?_
  refine hstore.yields_bind fun s hs => ?_
  refine (rewriteAccounts_descends hcalls t interface _).yields_weaken fun rows hrows => ?_
  refine ⟨fun b hb => ?_, by simp, fun hskip => ?_, fun _ => rfl⟩
  · obtain ⟨a, ha, hdescends, -⟩ := hrows b hb
    simp only [Store.statesInRange, List.mem_mergeSort, List.mem_filter, Bool.and_eq_true,
      decide_eq_true_eq] at ha
    exact ⟨s, hs, a, ha.1, hdescends.chain, hdescends.types, start, stop, rfl, ha.2.1⟩
  · refine List.eq_nil_iff_forall_not_mem.2 fun b hb => ?_
    obtain ⟨a, -, hdescends, hne⟩ := hrows b hb
    exact hne (hdescends.same hskip)

omit hcalls hl hget in
theorem mem_of_mem_messagesInRange {s : Store} {f : MessageFilter} {start stop : UInt32} {a : Message}
    (h : a ∈ s.messagesInRange f start stop) :
    a ∈ s.messages ∧ ∃ n, a.masterSeqno? = some n ∧ start ≤ n ∧ n ≤ stop := by
  simp only [Store.messagesInRange, List.mem_mergeSort, List.mem_filter, Bool.and_eq_true] at h
  obtain ⟨ha, hn, -⟩ := h
  obtain ⟨n, hn, hrange⟩ := (Option.any_eq_true _ _).1 hn
  simp only [Bool.and_eq_true, decide_eq_true_eq] at hrange
  exact ⟨ha, n, hn, hrange⟩

theorem messages_origins (start stop : UInt32) :
    Ends I (messages parser lookup t start stop).run
      (Yields fun rows => Origins R t (.messages (some (start, stop))) ([], rows)) := by
  have hstore := getStore_yields (ε := Fault) hget
  -- what is made of the messages that the range query has read
  have hread : ∀ {x : List Message → ExceptT Fault (RescanM σ) (List Message)} {f : MessageFilter},
      t.kind.rescansMessages = true →
      (∀ ms, Ends I (x ms).run (Yields fun rows => ∀ b ∈ rows, ∃ a ∈ ms, b.chain = a.chain)) →
        Ends I (getThe Store >>= fun s => x (s.messagesInRange f start stop)).run
          (Yields fun rows => Origins R t (.messages (some (start, stop))) ([], rows)) := by
    intro x f hkind hx
    refine hstore.yields_bind fun s hs => (hx _).yields_weaken fun rows hrows => ?_
    refine ⟨by simp, fun b hb => ?_, fun _ => rfl, by simp [hkind]⟩
    obtain ⟨a, ha, hchain⟩ := hrows b hb
    obtain ⟨ha, n, hn, hrange⟩ := mem_of_mem_messagesInRange ha
    exact ⟨s, hs, a, ha, hchain, n, hn, start, stop, rfl, hrange⟩
  unfold messages
  split
  all_goals rename_i hkind
  · refine .yields_then (.run_mk _) fun id => .yields_then hstore.keeps fun _ =>
      .yields_then (.run_mk _) fun kind => ?_
    exact hread (by rw [hkind]; rfl) fun ms => rewriteOperations_chain hcalls hl t ms
  · refine .yields_then (.run_mk _) fun id => .yields_then hstore.keeps fun _ =>
      .yields_then (.run_mk _) fun kind => ?_
    exact hread (by rw [hkind]; rfl) fun ms => rewriteOperations_chain hcalls hl t ms
  · exact hread (by rw [hkind]; rfl) fun ms => relabelAll_chain hcalls hl t.contract ms
  · exact hread (by rw [hkind]; rfl) fun ms => relabelAll_chain hcalls hl t.contract ms
  · exact hread (by rw [hkind]; rfl) fun ms => relabelAll_chain hcalls hl t.contract ms
  all_goals exact .yields_pure (.none R t _)

end

/-- Whatever the rows that a plan changes are made of, they were made from rows of its window. -/
theorem carryOut_origins {σ : Type} [MonadStateOf Store (RescanM σ)] [MonadStateOf Snapshots (RescanM σ)]
    {I : Context σ → Prop} {R : Store → Prop} {parser : Parser (RescanM σ)}
    (hcalls : CallsKeep I parser Snapshots.lookup)
    (hl : ∀ address beforeLt, Keeps I ((Snapshots.lookup : Lookup (RescanM σ)) address beforeLt).run)
    (hget : Ends I (getThe Store : RescanM σ Store) R) (t : RescanTask) (pl : Plan) :
    Ends I (carryOut parser t pl).run (Yields (Origins R t pl)) := by
  match pl with
  | .accounts (some (start, stop)) =>
    exact (accounts_origins hcalls t hget start stop).yields_bind fun rows hrows => .yields_pure hrows
  | .messages (some (start, stop)) =>
    exact (messages_origins hcalls hl t hget start stop).yields_bind fun rows hrows => .yields_pure hrows
  | .accounts none => exact .yields_pure (.none R t _)
  | .messages none => exact .yields_pure (.none R t _)
  | .nothing => exact .yields_pure (.none R t _)

end ShardIndex.Rescan
