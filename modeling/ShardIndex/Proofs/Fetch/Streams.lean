import ShardIndex.Proofs.Fetch.Transparency
/-!
# Requests under way at the same time

A block is fetched with many requests under way at the same time. They start in the order of a list, and some
bounded number of them is under way; they finish in any order, and their results are handed out in the order
of the list (`buffered`). Each request runs in whatever context the others have left by then, so what they
have in common is only what all of them keep.

For a reader with fixed answers this does not show. A program `Reads` a function if it keeps a property of the
context and ends with a result exactly if the function does, and with the same. What is gathered from requests
that read is read, whatever their number and order (`buffered_inOrder`); only which fault shows may differ.
-/
namespace ShardIndex

/-! ## Streams -/

/-- A request for an item, with its result once it is finished. -/
structure Request (α β : Type) where
  item : α
  result : Option (Except Fault β) := none

section

variable {M : Type → Type} [Monad M] {α β : Type}

/-- A request with a result is one less without. -/
theorem countP_finished_lt {width i : Nat} {requests : List (Request α β)} {item : α}
    (h : (requests.take width)[i]? = some ⟨item, none⟩) (outcome : Except Fault β) :
    (requests.set i ⟨item, some outcome⟩).countP (·.result.isNone) <
      requests.countP (·.result.isNone) := by
  obtain ⟨htake, hget⟩ := List.getElem?_eq_some_iff.1 h
  have hi : i < requests.length := by
    rw [List.length_take] at htake
    omega
  rw [List.getElem_take] at hget
  have hpos : 0 < requests.countP (·.result.isNone) :=
    List.countP_pos_iff.2 ⟨requests[i], List.getElem_mem hi, by rw [hget]; rfl⟩
  rw [List.countP_set hi, hget]
  simpa using hpos

theorem map_item_set {i : Nat} {requests : List (Request α β)} {item : α} {result : Option (Except Fault β)}
    (h : requests[i]? = some ⟨item, result⟩) (outcome : Except Fault β) :
    (requests.set i ⟨item, some outcome⟩).map (·.item) = requests.map (·.item) := by
  obtain ⟨hi, hget⟩ := List.getElem?_eq_some_iff.1 h
  have hi' : i < (requests.map (·.item)).length := by simpa using hi
  have hitem : (requests.map (·.item))[i] = item := by simp [hget]
  rw [List.map_set, ← hitem, List.set_getElem_self]

/-- Works on requests until the first fault in their order, or until all results are handed out. The first
`width` of those without a result handed out are under way, and `turns` tells which of them finishes next: one
after the first, or else the first. -/
def stream (width : Nat) (turns : Nat → Nat) (f : α → ExceptT Fault M β) (turn : Nat)
    (requests : List (Request α β)) : ExceptT Fault M (List β) :=
  match requests with
  | [] => return []
  | ⟨_, some (.ok b)⟩ :: rest => do return b :: (← stream width turns f turn rest)
  | ⟨_, some (.error fault)⟩ :: _ => throw fault
  | ⟨a, none⟩ :: rest =>
    match h : (rest.take (width - 1))[turns turn]? with
    | some ⟨other, none⟩ => do
      let outcome ← ExceptT.lift (f other).run
      stream width turns f (turn + 1) (⟨a, none⟩ :: rest.set (turns turn) ⟨other, some outcome⟩)
    | _ => do
      let outcome ← ExceptT.lift (f a).run
      stream width turns f (turn + 1) (⟨a, some outcome⟩ :: rest)
termination_by requests.length + requests.countP (·.result.isNone)
decreasing_by
  · simp
  · simpa using countP_finished_lt h outcome
  · simp

/-- At most `width` requests are under way. -/
def buffered (width : Nat) (turns : Nat → Nat) : Gather M :=
  fun f items => stream width turns f 0 (items.map fun a => { item := a })

end

namespace Rescan

variable {σ α β : Type} {I : Context σ → Prop} {ε : Type}

/-! ## Programs that read -/

/-- The program keeps a property of the context, and it ends with a result if the function does, and with the
same. Of several faults any one may show. -/
def Reads (I : Context σ → Prop) (x : ExceptT ε (RescanM σ) α) (y : ExceptT ε Id α) : Prop :=
  Ends I x.run fun r => ∀ a, r = .ok a ↔ y = Pure.pure a

theorem Mirrors.reads {x : ExceptT ε (RescanM σ) α} {y : ExceptT ε Id α} (h : Mirrors I x y) :
    Reads I x y :=
  h.weaken fun _ hr _ => hr ▸ Iff.rfl

namespace Reads

theorem pure (a : α) : Reads I (Pure.pure a : ExceptT ε (RescanM σ) α) (Pure.pure a) :=
  (Mirrors.pure a).reads

theorem error (e : ε) {y : ExceptT ε Id α} (hy : ∀ a, y ≠ Pure.pure a) :
    Reads I (throw e : ExceptT ε (RescanM σ) α) y := by
  refine .run_mk fun a => ⟨fun h => ?_, fun h => absurd h (hy a)⟩
  cases h

theorem bind {x : ExceptT ε (RescanM σ) α} {y : ExceptT ε Id α} {f : α → ExceptT ε (RescanM σ) β}
    {g : α → ExceptT ε Id β} (hx : Reads I x y) (hf : ∀ a, y = Pure.pure a → Reads I (f a) (g a)) :
    Reads I (x >>= f) (y >>= g) := by
  refine Ends.run_bind hx (fun a ha => ?_) fun e he b => ?_
  · have hy : y = Pure.pure a := (ha a).1 rfl
    have hnext := hf a hy
    rwa [hy, pure_bind]
  · constructor
    · intro h
      cases h
    · intro h
      obtain ⟨a, ha, -⟩ := exists_of_bind_eq_pure h
      cases (he a).2 ha

/-- A program whose outcome is looked at, whatever it is. -/
theorem outcome_bind {x : ExceptT ε (RescanM σ) α} {y : ExceptT ε Id α}
    {f : Except ε α → ExceptT ε (RescanM σ) β} {z : ExceptT ε Id β} (hx : Reads I x y)
    (hf : ∀ r, (∀ a, r = .ok a ↔ y = Pure.pure a) → Reads I (f r) z) :
    Reads I (ExceptT.lift x.run >>= f) z := by
  have hlift : Ends I (ExceptT.lift x.run : ExceptT ε (RescanM σ) (Except ε α)).run fun r =>
      ∃ outcome, r = .ok outcome ∧ ∀ a, outcome = .ok a ↔ y = Pure.pure a :=
    .run_lift (hx.weaken fun r hr => ⟨r, rfl, hr⟩)
  refine hlift.run_bind (fun r hr => ?_) (by simp)
  obtain ⟨outcome, hr, houtcome⟩ := hr
  obtain rfl := Except.ok.inj hr
  exact hf r houtcome

end Reads

/-! ## Streams read -/

/-- A request reads its function, and a result that is there is that of the function. -/
def Request.Reads (I : Context σ → Prop) (f : α → ExceptT Fault (RescanM σ) β) (g : α → ExceptT Fault Id β)
    (r : Request α β) : Prop :=
  Rescan.Reads I (f r.item) (g r.item) ∧
    ∀ outcome, r.result = some outcome → ∀ b, outcome = .ok b ↔ g r.item = pure b

/-- Whatever finishes first, what is handed out are the results of the functions, in the order of the
requests. -/
theorem stream_reads {f : α → ExceptT Fault (RescanM σ) β} {g : α → ExceptT Fault Id β} (width : Nat)
    (turns : Nat → Nat) (turn : Nat) (requests : List (Request α β))
    (h : ∀ r ∈ requests, Request.Reads I f g r) :
    Reads I (stream width turns f turn requests) ((requests.map (·.item)).mapM g) := by
  induction turn, requests using stream.induct width turns with
  | case1 turn =>
    rw [stream]
    exact .pure []
  | case2 turn a b rest ih =>
    obtain ⟨hfirst, hrest⟩ := List.forall_mem_cons.1 h
    have hb : g a = pure b := (hfirst.2 _ rfl b).1 rfl
    rw [stream, List.map_cons, List.mapM_cons, hb, pure_bind]
    exact (ih hrest).bind fun _ _ => .pure _
  | case3 turn a fault rest =>
    have hfirst := (List.forall_mem_cons.1 h).1
    rw [stream, List.map_cons, List.mapM_cons]
    refine .error fault fun bs hbs => ?_
    obtain ⟨b, hb, -⟩ := exists_of_bind_eq_pure hbs
    cases (hfirst.2 _ rfl b).2 hb
  | case4 turn a rest other hother ih =>
    obtain ⟨hfirst, hrest⟩ := List.forall_mem_cons.1 h
    rw [stream]
    split
    case h_1 other' hother' =>
      obtain rfl : other = other' := by simpa [hother] using hother'
      have hget : rest[turns turn]? = some ⟨other, none⟩ := by
        rw [List.getElem?_take] at hother
        split at hother
        · exact hother
        · cases hother
      have hother : Request.Reads I f g ⟨other, none⟩ := hrest _ (List.mem_of_getElem? hget)
      refine hother.1.outcome_bind fun outcome houtcome => ?_
      have hitems : (rest.set (turns turn) ⟨other, some outcome⟩).map (·.item) = rest.map (·.item) :=
        map_item_set hget outcome
      have hnext := ih outcome (List.forall_mem_cons.2 ⟨hfirst, fun r hr => ?_⟩)
      · rwa [List.map_cons, hitems] at hnext
      · rcases List.mem_or_eq_of_mem_set hr with hr | rfl
        · exact hrest r hr
        · exact ⟨hother.1, fun r hr => Option.some.inj hr ▸ houtcome⟩
    case h_2 hno => exact absurd hother (hno other)
  | case5 turn a rest hother ih =>
    obtain ⟨hfirst, hrest⟩ := List.forall_mem_cons.1 h
    rw [stream]
    split
    case h_1 other hother' => exact absurd hother' (hother other)
    case h_2 =>
      refine hfirst.1.outcome_bind fun outcome houtcome => ih outcome (List.forall_mem_cons.2 ⟨?_, hrest⟩)
      exact ⟨hfirst.1, fun r hr => Option.some.inj hr ▸ houtcome⟩

/-- Results that are gathered are those of the functions, in order. -/
def InOrder (I : Context σ → Prop) (gather : Gather (RescanM σ)) : Prop :=
  ∀ {α β : Type} {f : α → ExceptT Fault (RescanM σ) β} {g : α → ExceptT Fault Id β} {l : List α},
    (∀ a ∈ l, Reads I (f a) (g a)) → Reads I (gather f l) (l.mapM g)

/-- Neither the number of requests that are under way nor the order in which they finish shows. -/
theorem buffered_inOrder (I : Context σ → Prop) (width : Nat) (turns : Nat → Nat) :
    InOrder I (buffered width turns) := by
  intro α β f g l h
  have hitems : (l.map fun a => ({ item := a } : Request α β)).map (·.item) = l := by
    rw [List.map_map]
    exact List.map_id l
  have hread := stream_reads (I := I) (f := f) (g := g) width turns 0 (l.map fun a => { item := a }) ?_
  · rwa [hitems] at hread
  · intro r hr
    obtain ⟨a, ha, rfl⟩ := List.mem_map.1 hr
    exact ⟨h a ha, by simp⟩

theorem oneByOne_inOrder (I : Context σ → Prop) : InOrder I oneByOne := by
  intro α β f g l h
  change Reads I (l.mapM f) (l.mapM g)
  induction l with
  | nil =>
    rw [List.mapM_nil, List.mapM_nil]
    exact .pure []
  | cons a l ih =>
    obtain ⟨ha, hl⟩ := List.forall_mem_cons.1 h
    rw [List.mapM_cons, List.mapM_cons]
    exact ha.bind fun _ _ => (ih hl).bind fun _ _ => .pure _

/-! ## Fetches read -/

namespace Fixed

variable {P : σ → Prop} {r : Reader (RescanM (σ × LossyCache))} {p : Reader Id} (hr : Fixed P r p)
  (hp : p.Consistent) {gather shards : Gather (RescanM (σ × LossyCache))}
  (hgather : InOrder (Recalls P p) gather)

include hr hp hgather

theorem fetchBlockBy_reads {n : UInt32} {header master : Header} (hheader : p.Covers n header)
    (hmaster : p.Covers n master) (hn : master.id.seqno = n) (masterRef : Option BlockRef) :
    Reads (Recalls P p) (r.fetchBlockBy gather header masterRef master)
      (p.fetchBlock header masterRef master) := by
  dsimp only [Reader.fetchBlock, Reader.fetchBlockBy, oneByOne]
  rw [hr.pageLimit]
  refine (hr.listTransactions_mirrors header.id _ none).reads.bind fun keys _ => ?_
  refine Reads.bind (hgather fun key _ =>
    (hr.transaction _ (remembers_indifferent p) _ _ _).reads) fun raws _ => ?_
  refine Reads.bind (hgather fun address _ => ?_) fun accounts _ => .pure _
  subst hn
  exact (hr.account_mirrors hp hheader address).reads.bind fun s _ =>
    (hr.fillAccount_mirrors (hr.lookupAt_mirrors hp hmaster rfl) s).reads

/-- A bundle that is fetched with streams is the one that the functions tell. -/
theorem fetchMasterBy_reads (hshards : InOrder (Recalls P p) shards) (n : UInt32) :
    Reads (Recalls P p) (r.fetchMasterBy gather shards n) (p.fetchMaster n) := by
  dsimp only [Reader.fetchMaster, Reader.fetchMasterBy, oneByOne]
  refine (hr.unseenBlocks_mirrors hp n).reads.bind fun u hu => ?_
  obtain ⟨hmaster, hn⟩ := hp.covers_master hu
  refine (hr.fetchBlockBy_reads hp hgather hmaster hmaster hn none).bind fun master _ => ?_
  refine Reads.bind (hshards fun header hheader => ?_) fun shards _ => .pure _
  exact hr.fetchBlockBy_reads hp hgather (.shard hu hheader) hmaster hn _

end Fixed

end Rescan

end ShardIndex
