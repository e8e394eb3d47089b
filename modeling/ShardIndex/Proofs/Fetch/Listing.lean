import ShardIndex.Chain.Ledger
import ShardIndex.Proofs.Fetch.Faithful
/-!
# Transaction listings

A node lists the transactions of a block page by page (`ChainNode.Lists`): after the last name of one page
comes the next page, and as long as some name is left, pages are not empty and more of them are announced. A
reader that goes from page to page gets every name once, in the order of the block
(`Lists.listTransactions_of_pure`), and it comes to an end: a number of pages greater than that of the
transactions is enough (`Lists.listTransactions_ends`).

-/
namespace ShardIndex

/-! ## Listings -/

/-- The names of the transactions, in order. -/
def listed (txs : List WireTransaction) : List TransactionKey :=
  txs.map Ledger.keyOf

/-- The node lists the transactions of the block, unless it cannot answer. -/
structure ChainNode.Lists (node : ChainNode Id) (block : BlockId) (txs : List WireTransaction) : Prop where
  /-- Accounts are those of the block's own workchain. -/
  workchain : ∀ t ∈ txs, t.account.workchain = block.shard.workchain.toInt8
  /-- A page holds the next ones; it is not empty and not the last one if more are left after it. -/
  page : ∀ before left, listed txs = before ++ left → ∀ page more,
    node.transactionPage block before.getLast? = pure (page, more) →
      ∃ after, left = page ++ after ∧ (after ≠ [] → page ≠ [] ∧ more = true)
  /-- A transaction is found by its account and its time. -/
  transaction : ∀ t ∈ txs, ∀ raw, node.transaction block t.account t.lt = pure raw → raw = t

/-- How a listing with a limit of pages ends where `left` are left after `before`. -/
inductive ListingEnds (node : ChainNode Id) (block : BlockId) (limit : Nat) (before left : List TransactionKey) :
    ExceptT Fault Id (List TransactionKey) → Prop
  | all : ListingEnds node block limit before left (pure left)
  | endless (h : limit ≤ left.length) : ListingEnds node block limit before left (throw .endlessListing)
  | unserved {read rest : List TransactionKey} {fault : Fault} (hleft : left = read ++ rest)
      (h : node.transactionPage block (before ++ read).getLast? = throw fault) :
      ListingEnds node block limit before left (throw fault)

/-- Nothing is left after an empty page and after the last one. -/
theorem nothing_left {α : Type} {page after : List α} {more : Bool}
    (h : after ≠ [] → page ≠ [] ∧ more = true) (hlast : page = [] ∨ ¬ more = true) : after = [] := by
  by_contra hne
  obtain ⟨hpage, hmore⟩ := h hne
  exact hlast.elim hpage fun hno => hno hmore

namespace ChainNode.Lists

variable {p : Reader Id} {block : BlockId} {txs : List WireTransaction} (h : p.node.Lists block txs)

include h

/-- From any cursor on, page by page. -/
theorem listingEnds : ∀ (limit : Nat) (before left : List TransactionKey), listed txs = before ++ left →
    ListingEnds p.node block limit before left (p.listTransactions block limit before.getLast?)
  | 0, _, _, _ => .endless (Nat.zero_le _)
  | limit + 1, before, left, hsplit => by
    rw [Reader.listTransactions]
    rcases hserved : (p.node.transactionPage block before.getLast?).run with fault | ⟨page, more⟩
    · have hfault : p.node.transactionPage block before.getLast? = throw fault := hserved
      rw [hfault]
      rw [← List.append_nil before] at hfault
      exact .unserved rfl hfault
    · have hpage : p.node.transactionPage block before.getLast? = pure (page, more) := hserved
      obtain ⟨after, rfl, hmore⟩ := h.page before left hsplit page more hpage
      rw [hpage, pure_bind]
      dsimp only
      cases hlast : page.getLast? with
      | none =>
        obtain rfl : page = [] := List.getLast?_eq_none_iff.1 hlast
        rw [nothing_left hmore (.inl rfl)]
        exact .all
      | some last =>
        dsimp only
        split
        · -- the next page starts after the last name of this one, which is not empty
          have hcursor : (before ++ page).getLast? = some last := by simp [hlast]
          have hpos : 0 < page.length := List.length_pos_of_mem (List.mem_of_getLast? hlast)
          have hrest := listingEnds limit (before ++ page) after (by rw [hsplit, List.append_assoc])
          rw [hcursor] at hrest
          generalize p.listTransactions block limit (some last) = result at hrest
          cases hrest with
          | all => exact .all
          | endless hlimit =>
            refine .endless ?_
            rw [List.length_append]
            omega
          | @unserved read rest fault hafter hfault =>
            rw [List.append_assoc] at hfault
            exact .unserved (by rw [hafter, List.append_assoc]) hfault
        · rename_i hno
          rw [nothing_left hmore (.inr hno), List.append_nil]
          exact .all

/-- A listing that succeeds has all names, in order. -/
theorem listTransactions_of_pure {limit : Nat} {keys : List TransactionKey}
    (hkeys : p.listTransactions block limit none = pure keys) : keys = listed txs := by
  have hends : ListingEnds p.node block limit [] (listed txs) (p.listTransactions block limit none) :=
    h.listingEnds limit [] (listed txs) rfl
  rw [hkeys] at hends
  generalize hr : (pure keys : ExceptT Fault Id (List TransactionKey)) = r at hends
  cases hends with
  | all => exact pure_inj hr
  | endless => cases hr
  | unserved => cases hr

/-- A limit above the number of transactions is not reached: the listing ends with all names, or with the fault
of a page. -/
theorem listTransactions_ends {limit : Nat} (hlimit : txs.length < limit) :
    p.listTransactions block limit none = pure (listed txs) ∨
      ∃ before after fault, listed txs = before ++ after ∧
        p.node.transactionPage block before.getLast? = throw fault ∧
        p.listTransactions block limit none = throw fault := by
  have hends : ListingEnds p.node block limit [] (listed txs) (p.listTransactions block limit none) :=
    h.listingEnds limit [] (listed txs) rfl
  generalize p.listTransactions block limit none = r at hends
  cases hends with
  | all => exact .inl rfl
  | endless hreached =>
    rw [listed, List.length_map] at hreached
    omega
  | unserved hleft hfault => exact .inr ⟨_, _, _, hleft, hfault, rfl⟩

end ChainNode.Lists

end ShardIndex
