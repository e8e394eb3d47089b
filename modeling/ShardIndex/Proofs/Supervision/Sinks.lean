import ShardIndex.Proofs.Forward.Run
import ShardIndex.Proofs.Pipeline.Window
import ShardIndex.Proofs.Supervision.Reads
import ShardIndex.Simulation.Line
/-!
# A sink among others

The programs of a line, with all that may happen while they wait. Others may write to the store as long as
they leave its last master block and the log of commits alone (`Store.At`); the node stays honest.

What a sink holds goes on where the store ends (`Sink.Holds`): the numbers of its master blocks follow one
another and follow the last committed one. When they come in this way, no bundle is out of order. Handling
one ends in one of three ways (`Sink.HandleEnds`): it waits with the others, it completes a batch that is
committed as a whole, or the line fails and nothing was committed.
-/
namespace ShardIndex

open Timed (Gives Safe)

/-! ## Numbers that go on -/

namespace IndexerConfig

variable (c : IndexerConfig)

/-- The number after the last master block, or the configured one if there is none. Without either
indexing may start anywhere. -/
def firstAfter : Option UInt32 → Option Nat
  | some last => some (last.toNat + 1)
  | none => c.fromMaster.map UInt32.toNat

/-- The master block may come after the last one. -/
def Follows (last : Option UInt32) (n : UInt32) : Prop :=
  ∀ k, c.firstAfter last = some k → n.toNat = k

/-- The master blocks come one after the other, the first one after the last one before. -/
def Succession (last : Option UInt32) (ns : List UInt32) : Prop :=
  ∃ start, ns.map UInt32.toNat = List.range' start ns.length ∧ ∀ k, c.firstAfter last = some k → start = k

variable {c} {last : Option UInt32} {ms ns : List UInt32} {n : UInt32}

namespace Succession

theorem nil : c.Succession last [] := by
  refine ⟨(c.firstAfter last).getD 0, rfl, ?_⟩
  intro k hk
  rw [hk, Option.getD_some]

theorem singleton (h : c.Follows last n) : c.Succession last [n] :=
  ⟨n.toNat, rfl, h⟩

theorem append (hm : c.Succession last ms) (hn : c.Succession (ms.getLast?.or last) ns) :
    c.Succession last (ms ++ ns) := by
  rcases List.eq_nil_or_concat' ms with rfl | ⟨front, m, rfl⟩
  · exact hn
  · obtain ⟨start, hms, hstart⟩ := hm
    obtain ⟨next, hns, hnext⟩ := hn
    refine ⟨start, ?_, hstart⟩
    rw [List.length_append] at hms
    have hlast : m.toNat = start + front.length := by
      have := congrArg List.getLast? hms
      rw [List.length_singleton, List.range'_concat, List.map_append, List.map_singleton,
        List.getLast?_concat, List.getLast?_concat] at this
      simpa using this
    have hgo : next = start + (front.length + 1) := by
      refine (hnext (m.toNat + 1) ?_).trans (by omega)
      rw [List.getLast?_concat]
      rfl
    rw [List.map_append, hms, hns, hgo, List.length_append, List.length_append, List.length_singleton,
      List.range'_append_1]

theorem snoc (hm : c.Succession last ms) (hn : c.Follows (ms.getLast?.or last) n) :
    c.Succession last (ms ++ [n]) :=
  hm.append (.singleton hn)

theorem le_getLast (h : c.Succession last ms) (hl : ms.getLast? = some n) : ∀ m ∈ ms, m ≤ n := by
  obtain ⟨start, hms, -⟩ := h
  obtain ⟨front, rfl⟩ := List.getLast?_eq_some_iff.mp hl
  have hsorted : ((front ++ [n]).map UInt32.toNat).Pairwise (· < ·) := by
    rw [hms]
    exact List.pairwise_lt_range'
  rw [List.pairwise_map, List.pairwise_append] at hsorted
  intro m hm
  rcases List.mem_append.mp hm with hm | hm
  · exact UInt32.le_iff_toNat_le.mpr (Nat.le_of_lt (hsorted.2.2 m hm n List.mem_cons_self))
  · exact List.mem_singleton.mp hm ▸ UInt32.le_refl n

theorem lt_of_some {l : UInt32} (h : c.Succession (some l) ms) : ∀ m ∈ ms, l < m := by
  obtain ⟨start, hms, hstart⟩ := h
  intro m hm
  have hmem : m.toNat ∈ List.range' start ms.length := hms ▸ List.mem_map_of_mem hm
  have hk := hstart _ rfl
  rw [List.mem_range'_1] at hmem
  exact UInt32.lt_iff_toNat_lt.mpr (by omega)

end Succession

end IndexerConfig

/-! ## The last master block of the store -/

/-- A row with the name of a row that was written is in the table in the end. -/
theorem Rows.Keeps.exists_mem_foldl {ρ κ : Type} [DecidableEq κ] {key : ρ → κ}
    {put : List ρ → ρ → List ρ} (h : Rows.Keeps key put) (table : List ρ) {rows : List ρ} {r : ρ}
    (hr : r ∈ rows) :
    ∃ x ∈ rows.foldl put table, key x = key r := by
  have hmem : key r ∈ rows.map key := List.mem_map_of_mem hr
  obtain ⟨x, -, -, hx⟩ := Rows.exists_last hmem
  have hfind : (rows.foldl put table).find? (fun y => key y == key r) = some x := by
    rw [h.find?_foldl, hx, Option.some_or]
  exact ⟨x, List.mem_of_find?_eq_some hfind, by simpa using List.find?_some hfind⟩

namespace Store

variable {store : Store} {n : UInt32}

theorem mem_of_mem_foldl_putBlock {rows table : List Block} {b : Block}
    (h : b ∈ rows.foldl putBlock table) : b ∈ rows ∨ b ∈ table := by
  induction rows generalizing table with
  | nil => exact .inr h
  | cons r rows ih =>
    rcases ih h with h | h
    · exact .inl (List.mem_cons_of_mem r h)
    · rcases List.mem_append.mp h with h | h
      · exact .inr (List.mem_filter.mp h).1
      · exact .inl (List.mem_singleton.mp h ▸ List.mem_cons_self)

/-- The number of the last committed master block. -/
def lastSeqno (store : Store) : Option UInt32 :=
  store.lastMaster.map (·.id.seqno)

theorem lastSeqno_eq_none (h : store.lastSeqno = none) : ∀ b ∈ store.blocks, ¬ b.isMasterchain := by
  have hnil := lastGreatest_eq_none.mp (Option.map_eq_none_iff.mp h)
  rwa [List.filter_eq_nil_iff] at hnil

theorem le_lastSeqno (h : store.lastSeqno = some n) :
    ∀ b ∈ store.blocks, b.isMasterchain → b.id.seqno ≤ n := by
  obtain ⟨last, hlast, rfl⟩ := Option.map_eq_some_iff.mp h
  intro b hb hm
  have hle := (lastGreatest_spec (fun _ _ => UInt32.lt_iff_toNat_lt) hlast).2 b
    (List.mem_filter.mpr ⟨hb, hm⟩)
  exact UInt32.le_iff_toNat_le.mpr hle

theorem lastSeqno_eq_some {b : Block} (hb : b ∈ store.blocks) (hm : b.isMasterchain)
    (hle : ∀ x ∈ store.blocks, x.isMasterchain → x.id.seqno ≤ b.id.seqno) :
    store.lastSeqno = some b.id.seqno := by
  cases hl : store.lastSeqno with
  | none => exact absurd hm (lastSeqno_eq_none hl b hb)
  | some n =>
    have hge := le_lastSeqno hl b hb hm
    obtain ⟨last, hlast, rfl⟩ := Option.map_eq_some_iff.mp hl
    have hmem := List.mem_filter.mp (lastGreatest_spec (fun _ _ => UInt32.lt_iff_toNat_lt) hlast).1
    rw [UInt32.le_antisymm (hle last hmem.1 hmem.2) hge]

theorem mastersOf_blocks_append (rows rows' : List Block) :
    mastersOf (.blocks (rows ++ rows')) = mastersOf (.blocks rows) ++ mastersOf (.blocks rows') := by
  simp [mastersOf]

/-- The end of the store, as far as a line looks at it: the last master block and the log. -/
structure At (last : Option UInt32) (commits : List (List UInt32)) (store : Store) : Prop where
  last : store.lastSeqno = last
  commits : store.commits = commits

/-- The end of the store after the commit of a batch. -/
theorem At.committed {c : IndexerConfig} {last : Option UInt32} {commits : List (List UInt32)}
    {batch : Batch} (h : store.At last commits) (hbatch : c.Succession last batch.masters)
    (hrows : mastersOf (.blocks batch.blocks) = batch.masters) (hl : batch.masters.getLast? = some n) :
    (store.committed batch.writes).At (some n) (commits ++ [batch.masters]) := by
  have hmasters : batch.writes.flatMap mastersOf = batch.masters := by
    show mastersOf (.blocks batch.blocks) ++ ([] ++ ([] ++ ([] ++ []))) = batch.masters
    rw [hrows]
    simp
  have hne : batch.masters ≠ [] := by
    intro hnil
    rw [hnil] at hl
    cases hl
  have hlog : store.committed batch.writes =
      { batch.writes.foldl Store.write { store with refusals := 0 } with
        commits := store.commits ++ [batch.masters] } := by
    unfold Store.committed Store.logCommit
    rw [hmasters, if_neg (by simpa using hne)]
    rfl
  have hblocks : (store.committed batch.writes).blocks = batch.blocks.foldl putBlock store.blocks := by
    rw [hlog]
    rfl
  refine ⟨?_, by rw [hlog, h.commits]⟩
  -- the rows of the batch are the greatest ones
  have hnew : ∀ x ∈ batch.blocks, x.isMasterchain → x.id.seqno ≤ n := by
    intro x hx hm
    refine hbatch.le_getLast hl _ ?_
    rw [← hrows]
    exact List.mem_map_of_mem (List.mem_filter.mpr ⟨hx, hm⟩)
  have hold : ∀ x ∈ store.blocks, x.isMasterchain → x.id.seqno ≤ n := by
    intro x hx hm
    cases hlast : last with
    | none => exact absurd hm (lastSeqno_eq_none (h.last.trans hlast) x hx)
    | some l =>
      have hlt := (hlast ▸ hbatch).lt_of_some n (List.mem_of_getLast? hl)
      have hle := le_lastSeqno (h.last.trans hlast) x hx hm
      exact UInt32.le_trans hle (UInt32.le_of_lt hlt)
  obtain ⟨r, hr, hrn⟩ := List.mem_map.mp (hrows ▸ List.mem_of_getLast? hl)
  obtain ⟨hrmem, hrm⟩ := List.mem_filter.mp hr
  obtain ⟨x, hx, hid⟩ := keeps_putBlock.exists_mem_foldl store.blocks hrmem
  have hxn : x.id.seqno = n := by rw [hid, hrn]
  rw [← hxn]
  refine lastSeqno_eq_some (hblocks ▸ hx) ?_ ?_
  · rw [Block.isMasterchain, hid]
    exact hrm
  · intro y hy hm
    rw [hxn]
    rcases mem_of_mem_foldl_putBlock (hblocks ▸ hy) with hy | hy
    · exact hnew y hy hm
    · exact hold y hy hm

theorem At.refused {last : Option UInt32} {commits : List (List UInt32)} (h : store.At last commits)
    (refusals : Nat) : { store with refusals := refusals }.At last commits :=
  ⟨h.last, h.commits⟩

end Store

/-! ## Committing -/

namespace Linker

theorem resolve_inOrder {history : Hash → Option MessageSource} {historyStart : Option UInt64}
    {master : UInt32} {ms : List Message} {e : Fault}
    (h : resolve history historyStart master ms = .error e) : e.InOrder := by
  induction ms with
  | nil => cases h
  | cons m ms ih =>
    cases hr : resolve history historyStart master ms with
    | error fault =>
      rw [hr] at ih
      rw [resolve, hr] at h
      split at h
      · cases h
        exact ih rfl
      · split at h
        · cases h
          exact ih rfl
        · cases h
          exact fun _ _ => Fault.noConfusion
    | ok rest =>
      rw [resolve, hr] at h
      split at h
      · cases h
      · split at h
        · cases h
        · cases h
          exact fun _ _ => Fault.noConfusion

/-- After a bundle no inbound record is left, and no fault is about the order of master blocks. -/
theorem handle_spec (l : Linker) (history : Hash → Option MessageSource) (b : MasterBundle) :
    (l.handle history b).2.unresolved = [] ∧
      ∀ e, (l.handle history b).1 = .error e → e.InOrder := by
  refine ⟨rfl, ?_⟩
  intro e he
  unfold handle at he
  dsimp only at he
  cases hr : resolve history _ b.seqno _ with
  | error fault =>
    rw [hr] at he
    cases he
    exact resolve_inOrder hr
  | ok ms =>
    rw [hr] at he
    cases he

end Linker

namespace Sink

variable {c : IndexerConfig} {last : Option UInt32} {commits : List (List UInt32)}

/-- What programs of a line rely on. -/
abbrev Quiet (last : Option UInt32) (commits : List (List UInt32)) : World → Prop :=
  World.Kept (Store.At last commits)

/-- A line may change all of the store. -/
abbrev free : World → Unit :=
  fun _ => ()

/-- The sink goes on where the store ends. -/
structure Holds (c : IndexerConfig) (last : Option UInt32) (s : Sink) : Prop where
  config : s.config = c.batch
  masters : c.Succession last s.batch.masters
  lastSeqno : s.lastSeqno = s.batch.masters.getLast?.or last
  blocks : Store.mastersOf (.blocks s.batch.blocks) = s.batch.masters
  resolved : s.linker.unresolved = []

section

variable {α : Type} {R : α → World → Prop} {writes : List Write} {last' : Option UInt32}
  {commits' : List (List UInt32)}

/-- One attempt to commit. -/
theorem commit_safe {f : Except Fault Unit → Timed World α}
    (hcommit : ∀ store : Store, store.At last commits → (store.committed writes).At last' commits')
    (hok : ∀ v, Quiet last' commits' v → (f (.ok ())).Safe (Quiet last commits) free R v)
    (herror : ∀ v, Quiet last commits v →
      (f (.error .commitRefused)).Safe (Quiet last commits) free R v)
    {w : World} (hw : Quiet last commits w) :
    (modifyGetThe Store (·.commit writes) >>= f : Timed World α).Safe (Quiet last commits) free R w := by
  refine ⟨rfl, ?_⟩
  show (f (w.site.store.commit writes).1).Safe (Quiet last commits) free R
    { w with site := { w.site with store := (w.site.store.commit writes).2 } }
  cases hr : w.site.store.refusals with
  | zero =>
    rw [commit_of_no_refusals hr]
    exact hok _ ⟨⟨hw.site.ledger, hw.site.registry⟩, hw.cache, hcommit _ hw.store⟩
  | succ n =>
    rw [commit_of_refusals hr]
    exact herror _ ⟨⟨hw.site.ledger, hw.site.registry⟩, hw.cache, hw.store.refused n⟩

/-- What attempts to commit come to: after a success the store ends somewhere else. -/
theorem attempt_safe
    (hcommit : ∀ store : Store, store.At last commits → (store.committed writes).At last' commits')
    (pause retries attempts : Nat) {w : World} (hw : Quiet last commits w) :
    (attempt writes pause retries attempts : Timed World _).Safe (Quiet last commits) free
      (fun r v => (r.2 = .ok () ∧ Quiet last' commits' v) ∨
        (r.2 = .error .commitRefused ∧ Quiet last commits v)) w := by
  induction retries generalizing attempts w with
  | zero =>
    unfold attempt
    refine commit_safe hcommit ?_ ?_ hw
    · exact fun v hv => .inl ⟨rfl, hv⟩
    · exact fun v hv => .inr ⟨rfl, hv⟩
  | succ retries ih =>
    unfold attempt
    refine commit_safe hcommit ?_ ?_ hw
    · exact fun v hv => .inl ⟨rfl, hv⟩
    · exact fun v hv => ⟨hv, fun u hu => ih (attempts + 1) hu⟩

end

/-- What flushing can end with. -/
inductive FlushEnds (s : Sink) (last : Option UInt32) (commits : List (List UInt32)) :
    Except Fault Unit × Sink → World → Prop
  | nothing {w : World} (h : s.batch.masters = []) (hw : Quiet last commits w) :
      FlushEnds s last commits (.ok (), s) w
  | committed {w : World} (n : UInt32) (hn : s.batch.masters.getLast? = some n)
      (hw : Quiet (some n) (commits ++ [s.batch.masters]) w) :
      FlushEnds s last commits (.ok (), { s with batch := {}, linker := s.linker.prune n }) w
  | failed {w : World} (e : Fault) (he : e.InOrder) (hw : Quiet last commits w) :
      FlushEnds s last commits (.error e, s) w

theorem flush_safe {s : Sink} (hs : s.Holds c last) {w : World} (hw : Quiet last commits w) :
    (flush s : Timed World _).Safe (Quiet last commits) free (FlushEnds s last commits) w := by
  unfold flush
  cases hl : s.batch.masters.getLast? with
  | none => exact .nothing (List.getLast?_eq_none_iff.mp hl) hw
  | some n =>
    have hcommit := fun (store : Store) (h : store.At last commits) =>
      h.committed hs.masters hs.blocks hl
    refine (attempt_safe hcommit _ _ 0 hw).bind ?_
    rintro ⟨attempts, answer⟩ v (⟨rfl, hv⟩ | ⟨rfl, hv⟩)
    · exact .committed n hl hv
    · exact .failed _ (fun _ _ => Fault.noConfusion) hv

/-! ## Taking bundles in -/

/-- What handling a bundle can end with. -/
inductive HandleEnds (c : IndexerConfig) (s : Sink) (b : MasterBundle) (last : Option UInt32)
    (commits : List (List UInt32)) : Except Fault Unit × Sink → World → Prop
  | waits {w : World} (s' : Sink) (hs : s'.Holds c last)
      (hmasters : s'.batch.masters = s.batch.masters ++ [b.seqno])
      (hshort : s'.batch.masters.length < c.fullBatch) (hw : Quiet last commits w) :
      HandleEnds c s b last commits (.ok (), s') w
  | commits {w : World} (s' : Sink) (hs : s'.Holds c (some b.seqno)) (hempty : s'.batch.masters = [])
      (hfull : (s.batch.masters ++ [b.seqno]).length = c.fullBatch)
      (hw : Quiet (some b.seqno) (commits ++ [s.batch.masters ++ [b.seqno]]) w) :
      HandleEnds c s b last commits (.ok (), s') w
  | failed {w : World} (s' : Sink) (e : Fault) (he : e.InOrder) (hw : Quiet last commits w) :
      HandleEnds c s b last commits (.error e, s') w

theorem Holds.taken {s : Sink} (hs : s.Holds c last) {b : MasterBundle} (hb : b.Sound)
    (hnext : c.Follows s.lastSeqno b.seqno) {linker : Linker} (hl : linker.unresolved = [])
    (rows : List Message) : (s.taken b linker rows).Holds c last where
  config := hs.config
  masters := hs.masters.snoc (hs.lastSeqno ▸ hnext)
  lastSeqno := by
    show some b.seqno = (s.batch.masters ++ [b.seqno]).getLast?.or last
    rw [List.getLast?_concat, Option.some_or]
  blocks := by
    show Store.mastersOf (.blocks (s.batch.blocks ++ b.records.map (·.block.headerOnly))) =
      s.batch.masters ++ [b.seqno]
    rw [Store.mastersOf_blocks_append, hs.blocks, hb]
  resolved := hl

/-- A bundle that comes in its turn is taken in or stopped, and its batch committed or refused. -/
theorem takeIn_safe {s : Sink} (hs : s.Holds c last) (hshort : s.batch.masters.length < c.fullBatch)
    {b : MasterBundle} (hb : b.Sound) (hnext : c.Follows s.lastSeqno b.seqno) {w : World}
    (hw : Quiet last commits w) :
    (takeIn World.parser s b : Timed World _).Safe (Quiet last commits) free
      (HandleEnds c s b last commits) w := by
  unfold takeIn
  refine ⟨rfl, ?_⟩
  have hlink := s.linker.handle_spec w.site.store.findSource b
  rcases hl : s.linker.handle w.site.store.findSource b with ⟨fault | messages, linker⟩
  · rw [hl] at hlink
    simp only [Timed.bind, hl]
    exact .failed _ fault (hlink.2 fault rfl) hw
  · rw [hl] at hlink
    have hresolved : linker.unresolved = [] := hlink.1
    simp only [Timed.bind, hl]
    have hfill : ∀ m, World.Gives (Store.At last commits) (fun _ => ()) (fun _ => True) Fault.InOrder
        (World.parser.fillMessage m) := World.gives_fillMessage
    have hread : Gives (Quiet last commits) free _ Fault.InOrder (readPayloads World.parser messages) :=
      Gives.mapM messages fun m _ => hfill m
    refine (hread w hw).bind ?_
    rintro (fault | rows) v ⟨hv, hr⟩
    · exact .failed _ fault hr hv
    · have htaken := hs.taken hb hnext hresolved rows
      show Safe _ _ _ (if _ then _ else _) v
      split
      · rename_i hfull
        have hge : s.config.masters ≤ (s.batch.masters ++ [b.seqno]).length :=
          of_decide_eq_true (Bool.and_eq_true_iff.mp hfull).1
        refine (flush_safe htaken hv).mono ?_
        rintro ⟨r, s'⟩ u hend
        cases hend with
        | nothing hnil => exact absurd hnil (List.concat_ne_nil b.seqno s.batch.masters)
        | failed e he hu => exact .failed _ e he hu
        | committed n hn hu =>
          obtain rfl : b.seqno = n := Option.some.inj (List.getLast?_concat.symm.trans hn)
          refine .commits _ ⟨htaken.config, .nil, rfl, rfl, hresolved⟩ rfl ?_ hu
          rw [hs.config] at hge
          exact Nat.le_antisymm (by rw [List.length_append]; exact hshort) hge
      · rename_i hfull
        refine .waits _ htaken rfl ?_ hv
        refine Nat.lt_of_not_le fun hge => hfull ?_
        have hge : s.config.masters ≤ (s.batch.masters ++ [b.seqno]).length := by
          rw [hs.config]
          exact hge
        rw [Bool.and_eq_true_iff, hresolved]
        exact ⟨decide_eq_true hge, rfl⟩

theorem handle_safe {s : Sink} (hs : s.Holds c last) (hshort : s.batch.masters.length < c.fullBatch)
    {b : MasterBundle} (hb : b.Sound) (hnext : c.Follows s.lastSeqno b.seqno) {w : World}
    (hw : Quiet last commits w) :
    (handle World.parser s b : Timed World _).Safe (Quiet last commits) free
      (HandleEnds c s b last commits) w := by
  have htake := takeIn_safe hs hshort hb hnext hw
  unfold handle
  cases he : s.expected with
  | none => exact htake
  | some n =>
    obtain ⟨l, hl, rfl⟩ := Option.map_eq_some_iff.mp he
    have hseqno : b.seqno = successor l := (toNat_successor (hnext _ (by rw [hl]; rfl))).symm
    simp only [hseqno, ne_eq, not_true_eq_false, if_false]
    exact htake

end Sink

/-! ## Opening -/

/-- A feed whose next bundle is `n` goes on after `last`. The last number of the range is never
fetched. -/
def IndexerConfig.Awaits (c : IndexerConfig) (last : Option UInt32) (n : Nat) : Prop :=
  ∀ b : UInt32, b < lastHeight → b.toNat = n → c.Follows last b

theorem IndexerConfig.awaits_successor {c : IndexerConfig} (last : UInt32) :
    c.Awaits (some last) (Sink.successor last).toNat := by
  intro b hb hn k hk
  obtain rfl := Option.some.inj hk
  rw [UInt32.lt_iff_toNat_lt, toNat_lastHeight] at hb
  unfold Sink.successor at hn
  split at hn
  · rename_i htop
    rw [htop] at hn
    exact absurd hn (Nat.ne_of_lt hb)
  · have hlast := last.toNat_lt
    rename_i hne
    have : last.toNat ≠ 4294967295 := fun h => hne (UInt32.toNat_inj.mp h)
    rw [UInt32.toNat_add] at hn
    have hone : (1 : UInt32).toNat = 1 := rfl
    omega

namespace Line

variable {c : IndexerConfig} {last : Option UInt32} {commits : List (List UInt32)}

/-- What a line can open with: a sink that holds nothing, and a feed that goes on after the store. -/
inductive OpeningEnds (c : IndexerConfig) (last : Option UInt32) (commits : List (List UInt32)) :
    Except Fault (Sink × UInt32) → World → Prop
  | opened {w : World} (s : Sink) (start : UInt32) (hs : s.Holds c last) (hempty : s.batch.masters = [])
      (hstart : c.Awaits last start.toNat) (hw : Sink.Quiet last commits w) :
      OpeningEnds c last commits (.ok (s, start)) w
  | failed {w : World} (e : Fault) (he : e.InOrder) (hw : Sink.Quiet last commits w) :
      OpeningEnds c last commits (.error e) w

theorem opening_safe (c : IndexerConfig) {w : World} (hw : Sink.Quiet last commits w) :
    (opening c).Safe (Sink.Quiet last commits) Sink.free (OpeningEnds c last commits) w := by
  refine ⟨rfl, ?_⟩
  have hsink : (Sink.resume c.batch c.linker.retainedCapacity.toNat w.site.store).Holds c last :=
    ⟨rfl, .nil, hw.store.last, rfl, rfl⟩
  have hlast : w.site.store.lastMaster.map (·.id.seqno) = last := hw.store.last
  simp only [Timed.bind, Function.comp, ExceptT.bindCont, hlast]
  cases last with
  | some l => exact .opened _ _ hsink rfl (IndexerConfig.awaits_successor l) hw
  | none =>
    cases hfrom : c.fromMaster with
    | some first =>
      refine .opened _ _ hsink rfl ?_ hw
      intro b _ hn k hk
      rw [IndexerConfig.firstAfter, hfrom] at hk
      rw [hn, Option.some.inj hk]
    | none =>
      have hanswer : World.Gives (Store.At none commits) (fun _ => ()) (fun _ => True) Fault.InOrder
          World.node.lastMaster := World.gives_lastMaster
      refine (hanswer w hw).bind ?_
      rintro (fault | start) v ⟨hv, hr⟩
      · exact .failed fault hr hv
      · refine .opened _ _ hsink rfl ?_ hv
        intro b _ _ k hk
        rw [IndexerConfig.firstAfter, hfrom] at hk
        cases hk

end Line

end ShardIndex
