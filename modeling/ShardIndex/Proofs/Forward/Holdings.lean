import ShardIndex.Proofs.Forward.Sink
import ShardIndex.Proofs.Forward.Tables
import ShardIndex.Proofs.Store.Transactions
/-!
# What a batch and a store hold

A batch and a store hold the data of a list of bundles, whatever path it took. Three of the tables
are plain: they have the rows of the bundles in order. The message rows need a word, since an inbound
record gets its source in one of several ways.

* From its outbound record, if the linker has it. Then it is `complete`.
* From history (`recover`), if the outbound record was committed and forgotten. What the store
  remembers of it may be less than `complete`; `view` says what of a record is compared, and
  `Recovers` that nothing of that is lost.
* Not at all, if the history has no outbound record. Then it has to be exempt (`Accepted`).

So a message row is made of a record with the view of the completed one (`Stored`), and the rows of
some bundles are `Covers`. All of this adds up over bundles.
-/
namespace ShardIndex

open Message Bundles

/-! ## Message rows -/

theorem exists_of_forall₂ {α β : Type} {R : α → β → Prop} {xs : List α} {ys : List β}
    (h : List.Forall₂ R xs ys) {x : α} (hx : x ∈ xs) : ∃ y ∈ ys, R x y := by
  induction h with
  | nil => cases hx
  | cons hxy _ ih =>
    rcases List.mem_cons.1 hx with rfl | hx
    · exact ⟨_, List.mem_cons_self, hxy⟩
    · obtain ⟨y, hy, hxy⟩ := ih hx
      exact ⟨y, List.mem_cons_of_mem _ hy, hxy⟩

section

variable {σ : Type} (read : PayloadReader σ) (view : Message → Message) (H : List MasterBundle)

/-- The row `m` was made of a record that looks like `e`. -/
def Stored (e m : Message) : Prop :=
  ∃ e', view e' = view e ∧ Sink.Yields read e' m

/-- What history knows of a source is as much as the view shows. -/
structure Recovers : Prop where
  hash : ∀ m, (view m).hash = m.hash
  recovered : ∀ {c : Nat} {s : Store} {i o : Message}, s.Tables (H.take c) → i ∈ inbound H →
    o ∈ outbound (H.take c) → o.hash = i.hash →
      view (Linker.recover s.findSource i) = view (complete H i)

/-- Rows for the messages of bundles: one for every external record and one for every inbound one. -/
def Covers (P : List MasterBundle) (rows : List Message) : Prop :=
  ∃ records, Linker.Lists records (externals P) ((inbound P).map (complete H)) ∧
    List.Forall₂ (Stored read view) records rows

/-- Inbound records without a source in the history are exempt. -/
def Accepted (P : List MasterBundle) : Prop :=
  ∀ i ∈ inbound P, (∀ o ∈ outbound H, o.hash ≠ i.hash) → Linker.exempt (firstLt H) i

/-- The batch with the data of bundles. -/
structure Batch.Holds (b : Batch) (P : List MasterBundle) : Prop where
  masters : b.masters = P.map (·.seqno)
  blocks : b.blocks = Bundles.blocks P
  accounts : b.accounts = Bundles.accounts P
  transactions : b.transactions = (Bundles.transactions P).map (·.withoutMessages)
  messages : Covers read view H P b.messages
  accepted : Accepted H P

/-- The store with the data of bundles. -/
structure Store.Holds (s : Store) (P : List MasterBundle) : Prop where
  tables : s.Tables P
  messages : ∃ rows, Covers read view H P rows ∧ s.messages = rows.foldl putMessage []
  accepted : Accepted H P

end

section holdings

variable {σ : Type} {read : PayloadReader σ} {view : Message → Message} {H P Q : List MasterBundle}

theorem Linker.Lists.append {xs ys ex ey ix iy : List Message} (hx : Linker.Lists xs ex ix)
    (hy : Linker.Lists ys ey iy) : Linker.Lists (xs ++ ys) (ex ++ ey) (ix ++ iy) where
  externals := by rw [List.filter_append, hx.externals, hy.externals]
  internals := by
    rw [List.filter_append]
    exact hx.internals.append hy.internals

theorem Covers.nil : Covers read view H [] [] :=
  ⟨[], ⟨rfl, .refl _⟩, .nil⟩

theorem Covers.append {rows rows' : List Message} (h : Covers read view H P rows)
    (h' : Covers read view H Q rows') : Covers read view H (P ++ Q) (rows ++ rows') := by
  obtain ⟨records, hl, hr⟩ := h
  obtain ⟨records', hl', hr'⟩ := h'
  refine ⟨records ++ records', ?_, List.rel_append hr hr'⟩
  rw [externals_append, inbound_append, List.map_append]
  exact hl.append hl'

theorem Accepted.append (h : Accepted H P) (h' : Accepted H Q) : Accepted H (P ++ Q) := by
  intro i hi
  rw [inbound_append, List.mem_append] at hi
  exact hi.elim (h i) (h' i)

theorem Accepted.nil : Accepted H [] := by
  intro i hi
  cases hi

namespace Batch.Holds

theorem empty : ({} : Batch).Holds read view H [] :=
  ⟨rfl, rfl, rfl, rfl, .nil, .nil⟩

/-- A batch takes one more bundle. -/
theorem add {b : Batch} (h : b.Holds read view H P) {x : MasterBundle} {rows : List Message}
    (hrows : Covers read view H [x] rows) (hx : Accepted H [x]) :
    (b.add x rows).Holds read view H (P ++ [x]) where
  masters := by simp [Batch.add, h.masters]
  blocks := by simp [Batch.add, h.blocks, Bundles.blocks]
  accounts := by simp [Batch.add, h.accounts, Bundles.accounts]
  transactions := by simp [Batch.add, h.transactions, Bundles.transactions]
  messages := h.messages.append hrows
  accepted := h.accepted.append hx

end Batch.Holds

namespace Store

@[simp] theorem logCommit_blocks (s : Store) (ms : List UInt32) : (s.logCommit ms).blocks = s.blocks :=
  StoreTable.blocks.rows_logCommit s ms

@[simp] theorem logCommit_accounts (s : Store) (ms : List UInt32) :
    (s.logCommit ms).accounts = s.accounts :=
  StoreTable.snapshots.rows_logCommit s ms

@[simp] theorem logCommit_messages (s : Store) (ms : List UInt32) :
    (s.logCommit ms).messages = s.messages :=
  StoreTable.messages.rows_logCommit s ms

@[simp] theorem logCommit_transactions (s : Store) (ms : List UInt32) :
    (s.logCommit ms).transactions = s.transactions :=
  StoreTable.transactions.rows_logCommit s ms

end Store

namespace Store.Holds

theorem empty (refusals : Nat) : ({ refusals := refusals } : Store).Holds read view H [] :=
  ⟨⟨rfl, rfl, rfl⟩, ⟨[], .nil, rfl⟩, .nil⟩

/-- Refused commits leave the tables alone. -/
theorem withRefusals {s : Store} (h : s.Holds read view H P) (n : Nat) :
    ({ s with refusals := n } : Store).Holds read view H P :=
  ⟨⟨h.tables.blocks, h.tables.accounts, h.tables.transactions⟩, h.messages, h.accepted⟩

/-- A commit adds what the batch holds. -/
theorem commit {s : Store} {b : Batch} (hs : s.Holds read view H P) (hb : b.Holds read view H Q) :
    (s.committed b.writes).Holds read view H (P ++ Q) where
  tables := {
    blocks := by
      simp [committed, Batch.writes, write, hs.tables.blocks, hb.blocks]
    accounts := by
      simp [committed, Batch.writes, write, hs.tables.accounts, hb.accounts]
    transactions := by
      simp [committed, Batch.writes, write, hs.tables.transactions, hb.transactions] }
  messages := by
    obtain ⟨rows, hrows, e⟩ := hs.messages
    refine ⟨rows ++ b.messages, hrows.append hb.messages, ?_⟩
    simp [committed, Batch.writes, write, e]
  accepted := hs.accepted.append hb.accepted

end Store.Holds

end holdings

end ShardIndex
