import ShardIndex.Fetch.Discovery
/-!
# The walk visits every uncovered block once

`Discovery.walk` goes from the top blocks to the parents and stops at covered blocks. What it has to find
is `Unseen`, the least set with the uncovered top blocks and, of each of its blocks, the uncovered
parents. `WalkInv` is the invariant of the walk: the blocks found so far are unseen, and whatever they
refer to was visited or is still on the stack. When the stack is empty, nothing is missing
(`WalkInv.mem_iff`).

The headers come from a fixed function, which may fail.
-/
namespace ShardIndex

namespace Discovery

/-- The parents of a block, as its header says. -/
def parentsOf (header : BlockId → Except Fault Header) (b : BlockId) : List BlockId :=
  match header b with
  | .ok h => h.parents
  | .error _ => []

/-- The blocks that are met on the way from the top blocks and are not covered. -/
inductive Unseen (seen : Table Shard UInt32) (parents : BlockId → List BlockId) (tops : List BlockId) :
    BlockId → Prop
  | top {b : BlockId} (hb : b ∈ tops) (hc : covered seen b = false) : Unseen seen parents tops b
  | parent {b c : BlockId} (h : Unseen seen parents tops c) (hb : b ∈ parents c)
      (hc : covered seen b = false) : Unseen seen parents tops b

/-- What holds whenever the walk looks at its stack. -/
structure WalkInv (header : BlockId → Except Fault Header) (seen : Table Shard UInt32)
    (tops stack visited : List BlockId) (found : List Header) : Prop where
  served : ∀ h ∈ found, header h.id = .ok h
  nodup : (found.map (·.id)).Nodup
  sound : ∀ h ∈ found, Unseen seen (parentsOf header) tops h.id
  found_visited : ∀ h ∈ found, h.id ∈ visited
  visited_cases : ∀ b ∈ visited, covered seen b ∨ ∃ h ∈ found, h.id = b
  stack_cases : ∀ b ∈ stack, b ∈ tops ∨ ∃ h ∈ found, b ∈ h.parents
  tops_met : ∀ b ∈ tops, b ∈ visited ∨ b ∈ stack
  parents_met : ∀ h ∈ found, ∀ b ∈ h.parents, b ∈ visited ∨ b ∈ stack

namespace WalkInv

variable {header : BlockId → Except Fault Header} {seen : Table Shard UInt32}
  {tops rest visited : List BlockId} {found : List Header} {b : BlockId}

theorem parentsOf_eq {h : Header} (hh : header h.id = .ok h) : parentsOf header h.id = h.parents := by
  rw [parentsOf, hh]

theorem start : WalkInv header seen tops tops [] [] where
  served := by simp
  nodup := by simp
  sound := by simp
  found_visited := by simp
  visited_cases := by simp
  stack_cases := by
    intro b hb
    exact .inl hb
  tops_met := by
    intro b hb
    exact .inr hb
  parents_met := by simp

/-- The block that the walk looks at goes from the stack to the visited ones. -/
theorem visit {x : BlockId} (hx : x ∈ visited ∨ x ∈ b :: rest) : x ∈ b :: visited ∨ x ∈ rest := by
  rcases hx with hx | hx
  · exact .inl (List.mem_cons_of_mem _ hx)
  · rcases List.mem_cons.1 hx with rfl | hx
    · exact .inl List.mem_cons_self
    · exact .inr hx

/-- A block that was visited before is skipped. -/
theorem skip (h : WalkInv header seen tops (b :: rest) visited found) (hb : b ∈ visited) :
    WalkInv header seen tops rest visited found := by
  have hmet : ∀ x, x ∈ visited ∨ x ∈ b :: rest → x ∈ visited ∨ x ∈ rest := by
    rintro x (hx | hx)
    · exact .inl hx
    · rcases List.mem_cons.1 hx with rfl | hx
      · exact .inl hb
      · exact .inr hx
  exact {
    served := h.served
    nodup := h.nodup
    sound := h.sound
    found_visited := h.found_visited
    visited_cases := h.visited_cases
    stack_cases := fun x hx => h.stack_cases x (List.mem_cons_of_mem _ hx)
    tops_met := fun x hx => hmet x (h.tops_met x hx)
    parents_met := fun y hy x hx => hmet x (h.parents_met y hy x hx) }

/-- A covered block is visited, and not gone through. -/
theorem cover (h : WalkInv header seen tops (b :: rest) visited found) (hb : covered seen b) :
    WalkInv header seen tops rest (b :: visited) found := by
  have hmet : ∀ x, x ∈ visited ∨ x ∈ b :: rest → x ∈ b :: visited ∨ x ∈ rest := fun _ => visit
  exact {
    served := h.served
    nodup := h.nodup
    sound := h.sound
    found_visited := fun y hy => List.mem_cons_of_mem _ (h.found_visited y hy)
    visited_cases := by
      intro x hx
      rcases List.mem_cons.1 hx with rfl | hx
      · exact .inl hb
      · exact h.visited_cases x hx
    stack_cases := fun x hx => h.stack_cases x (List.mem_cons_of_mem _ hx)
    tops_met := fun x hx => hmet x (h.tops_met x hx)
    parents_met := fun y hy x hx => hmet x (h.parents_met y hy x hx) }

/-- An uncovered block on the stack is unseen. -/
theorem unseen_of_stack (h : WalkInv header seen tops (b :: rest) visited found)
    (hb : covered seen b = false) : Unseen seen (parentsOf header) tops b := by
  rcases h.stack_cases b List.mem_cons_self with ht | ⟨z, hz, hp⟩
  · exact .top ht hb
  · refine .parent (h.sound z hz) ?_ hb
    rw [parentsOf_eq (h.served z hz)]
    exact hp

/-- A new block is found, and its parents are to be looked at. -/
theorem find (h : WalkInv header seen tops (b :: rest) visited found) (hnew : b ∉ visited)
    (hb : covered seen b = false) {hd : Header} (hhd : header b = .ok hd) (hid : hd.id = b) :
    WalkInv header seen tops (hd.parents.reverse ++ rest) (b :: visited) (hd :: found) := by
  subst hid
  have hmet : ∀ x, x ∈ visited ∨ x ∈ hd.id :: rest →
      x ∈ hd.id :: visited ∨ x ∈ hd.parents.reverse ++ rest :=
    fun _ hx => (visit hx).imp_right (List.mem_append_right _)
  refine ⟨?_, ?_, ?_, ?_, ?_, ?_, ?_, ?_⟩
  · intro y hy
    rcases List.mem_cons.1 hy with rfl | hy
    · exact hhd
    · exact h.served y hy
  · rw [List.map_cons, List.nodup_cons]
    refine ⟨?_, h.nodup⟩
    intro hmem
    obtain ⟨y, hy, e⟩ := List.mem_map.1 hmem
    exact hnew (e ▸ h.found_visited y hy)
  · intro y hy
    rcases List.mem_cons.1 hy with rfl | hy
    · exact h.unseen_of_stack hb
    · exact h.sound y hy
  · intro y hy
    rcases List.mem_cons.1 hy with rfl | hy
    · exact List.mem_cons_self
    · exact List.mem_cons_of_mem _ (h.found_visited y hy)
  · intro x hx
    rcases List.mem_cons.1 hx with rfl | hx
    · exact .inr ⟨hd, List.mem_cons_self, rfl⟩
    · rcases h.visited_cases x hx with hc | ⟨y, hy, e⟩
      · exact .inl hc
      · exact .inr ⟨y, List.mem_cons_of_mem _ hy, e⟩
  · intro x hx
    rcases List.mem_append.1 hx with hx | hx
    · exact .inr ⟨hd, List.mem_cons_self, List.mem_reverse.1 hx⟩
    · rcases h.stack_cases x (List.mem_cons_of_mem _ hx) with ht | ⟨y, hy, hp⟩
      · exact .inl ht
      · exact .inr ⟨y, List.mem_cons_of_mem _ hy, hp⟩
  · intro x hx
    exact hmet x (h.tops_met x hx)
  · intro y hy x hx
    rcases List.mem_cons.1 hy with rfl | hy
    · exact .inr (List.mem_append_left _ (List.mem_reverse.2 hx))
    · exact hmet x (h.parents_met y hy x hx)

/-- When the stack is empty, the blocks found are the unseen ones. -/
theorem mem_iff (h : WalkInv header seen tops [] visited found) (x : BlockId) :
    x ∈ found.map (·.id) ↔ Unseen seen (parentsOf header) tops x := by
  have hvisited : ∀ y ∈ visited, covered seen y = false → y ∈ found.map (·.id) := by
    intro y hy hc
    rcases h.visited_cases y hy with hc' | ⟨z, hz, rfl⟩
    · rw [hc] at hc'
      cases hc'
    · exact List.mem_map_of_mem hz
  constructor
  · intro hx
    obtain ⟨y, hy, rfl⟩ := List.mem_map.1 hx
    exact h.sound y hy
  · intro hx
    induction hx with
    | top ht hc =>
      rcases h.tops_met _ ht with hv | hs
      · exact hvisited _ hv hc
      · cases hs
    | parent _ hp hc ih =>
      obtain ⟨y, hy, rfl⟩ := List.mem_map.1 ih
      rw [parentsOf_eq (h.served y hy)] at hp
      rcases h.parents_met y hy _ hp with hv | hs
      · exact hvisited _ hv hc
      · cases hs

end WalkInv

/-- What a walk can end with. -/
inductive WalkEnds (header : BlockId → Except Fault Header) (seen : Table Shard UInt32) (master : UInt32)
    (tops : List BlockId) : Except Fault (List Header) → Prop
  /-- Nothing is left to look at. -/
  | found {visited : List BlockId} {found : List Header} (h : WalkInv header seen tops [] visited found)
      (hlen : found.length ≤ maxUnseen) : WalkEnds header seen master tops (.ok found)
  /-- There is one more block to find than allowed. -/
  | full {b : BlockId} {rest visited : List BlockId} {found : List Header}
      (h : WalkInv header seen tops (b :: rest) visited found) (hnew : b ∉ visited)
      (hb : covered seen b = false) (hlen : maxUnseen ≤ found.length) :
      WalkEnds header seen master tops (.error (.tooManyUnseen master))
  /-- The header of an unseen block is not served. -/
  | unserved {b : BlockId} {fault : Fault} (hb : Unseen seen (parentsOf header) tops b)
      (hfault : header b = .error fault) : WalkEnds header seen master tops (.error fault)

/-- A walk leaves the state as it was. -/
theorem walk_ends {σ : Type} {ask : BlockId → ExceptT Fault (StateM σ) Header}
    {header : BlockId → Except Fault Header} (hask : ∀ b, ask b = ExceptT.mk (pure (header b)))
    (hid : ∀ b h, header b = .ok h → h.id = b) (seen : Table Shard UInt32) (master : UInt32)
    (tops stack visited : List BlockId) (found : List Header) :
    WalkInv header seen tops stack visited found → found.length ≤ maxUnseen →
      ∀ s : σ, ∃ result, (walk ask seen master stack visited found).run.run s = (result, s) ∧
        WalkEnds header seen master tops result := by
  induction stack, visited, found using walk.induct seen with
  | case1 visited found =>
    intro hinv hlen s
    rw [walk]
    exact ⟨_, rfl, .found hinv hlen⟩
  | case2 visited found b rest hb ih =>
    intro hinv hlen s
    rw [walk, if_pos hb]
    exact ih (hinv.skip (List.contains_iff_mem.1 hb)) hlen s
  | case3 visited found b rest hb hc ih =>
    intro hinv hlen s
    rw [walk, if_neg hb, if_pos hc]
    exact ih (hinv.cover hc) hlen s
  | case4 visited found b rest hb hc hlt ih =>
    intro hinv hlen s
    have hc : covered seen b = false := by simpa using hc
    rw [walk, if_neg hb, if_neg (by simp [hc]), if_pos hlt, hask]
    cases hh : header b with
    | error fault => exact ⟨_, rfl, .unserved (hinv.unseen_of_stack hc) hh⟩
    | ok hd =>
      have hnew : b ∉ visited := fun hv => hb (List.contains_iff_mem.2 hv)
      exact ih hd (hinv.find hnew hc hh (hid b hd hh)) hlt s
  | case5 visited found b rest hb hc hlt =>
    intro hinv hlen s
    have hnew : b ∉ visited := fun hv => hb (List.contains_iff_mem.2 hv)
    rw [walk, if_neg hb, if_neg hc, if_neg hlt]
    exact ⟨_, rfl, .full hinv hnew (by simpa using hc) (Nat.le_of_not_lt hlt)⟩

/-- A walk that succeeds leaves the invariant with an empty stack. -/
theorem walk_spec {σ : Type} {ask : BlockId → ExceptT Fault (StateM σ) Header}
    {header : BlockId → Except Fault Header} (hask : ∀ b, ask b = ExceptT.mk (pure (header b)))
    (hid : ∀ b h, header b = .ok h → h.id = b) (seen : Table Shard UInt32) (master : UInt32)
    (tops : List BlockId) {s s' : σ} {result : List Header}
    (h : (walk ask seen master tops [] []).run.run s = (.ok result, s')) :
    s' = s ∧ ∃ visited, WalkInv header seen tops [] visited result := by
  obtain ⟨ended, hrun, hends⟩ :=
    walk_ends hask hid seen master tops tops [] [] .start (Nat.zero_le _) s
  rw [hrun] at h
  obtain ⟨rfl, rfl⟩ := Prod.mk.inj h
  cases hends with
  | found hinv => exact ⟨rfl, _, hinv⟩

end Discovery

end ShardIndex
