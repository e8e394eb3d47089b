import ShardIndex.Proofs.Pipeline.Feeds
import ShardIndex.Proofs.Supervision.Sinks
/-!
# What a feed delivers

However the fetches of a feed are served and in whichever order they succeed, its queue holds sound
bundles with consecutive numbers, and the next bundle of the pipeline goes on from there
(`Feed.Delivers`). The number is that of the next bundle to be taken out of the queue, so it stays while
the feed fills the queue, and goes up by one when the line takes a bundle (`Feed.Delivers.dequeue`).

Turns of fetches and publishers keep it (`Feed.stable_delivers`), and so does opening a feed
(`Feed.Delivers.openAt`).
-/
namespace ShardIndex

/-- What the fetch of a height is to bring. -/
def MasterBundle.Fits (height : UInt32) (b : MasterBundle) : Prop :=
  b.seqno = height ∧ b.Sound

namespace Fetch

/-- What fetches rely on: an honest node. -/
abbrev Quiet : World → Prop :=
  World.Kept fun _ => True

/-- Fetches leave the store alone. -/
abbrev held (w : World) : Store :=
  w.site.store

/-- What an attempt can end with. -/
structure AttemptEnds (height : UInt32) (r : Option MasterBundle) (w : World) : Prop where
  quiet : Quiet w
  fits : ∀ b, r = some b → b.Fits height

/-- Whether the fetch of a height has brought what it is to bring, or is on its way to it. -/
def Brings (height : UInt32) : FetchStage → Prop
  | .attempting program => program.Safe Quiet held (AttemptEnds height)
  | .fetched b => b.Fits height

end Fetch

theorem Feed.attempt_safe (f : Feed) (height : UInt32) {w : World} (hw : Fetch.Quiet w) :
    (f.attempt height).Safe Fetch.Quiet Fetch.held (Fetch.AttemptEnds height) w := by
  have hfetch : World.Reads (fun _ => True) (fun store => store) (MasterBundle.Fits height)
      (World.reader.fetchMaster height) := World.reads_fetchMaster height
  refine (hfetch w hw).bind ?_
  rintro (e | b) v ⟨hv, hr⟩
  · exact ⟨hv, fun u hu => ⟨hu, fun _ h => nomatch h⟩⟩
  · exact ⟨hv, fun _ h => Option.some.inj h ▸ hr⟩

/-- The stage of a fetch that its attempt leaves. -/
theorem Feed.StageAfter.brings {f : Feed} {height : UInt32} {pause : Timed.Pause World (Option MasterBundle)}
    {stage : FetchStage} (h : f.StageAfter height pause stage) {w : World}
    (hsafe : pause.Safe Fetch.Quiet Fetch.held (Fetch.AttemptEnds height) w) :
    Fetch.Brings height stage := by
  cases h with
  | fetched b => exact hsafe.fits b rfl
  | again => exact fun v hv => f.attempt_safe height hv
  | waiting ms due rest => exact hsafe.2
  | tired rest => exact hsafe.2

/-- The queue goes on with the bundle `n`, and the pipeline after the queue. -/
structure Feed.Delivers (f : Feed) (n : Nat) : Prop where
  queue : f.queue.map (·.seqno.toNat) = List.range' n f.queue.length
  sound : ∀ b ∈ f.queue, b.Sound ∧ b.seqno < lastHeight
  next : f.publishing = true → f.pipeline.next.toNat = n + f.queue.length
  fetched : ∀ h b, (h, b) ∈ f.pipeline.fetched → b.Fits h ∧ h < lastHeight
  running : ∀ h ∈ f.pipeline.running, h < lastHeight
  fetches : ∀ h fetch, f.fetches.get? h = some fetch → Fetch.Brings h fetch.stage ∧ h < lastHeight

namespace Feed

variable {f g : Feed} {n : Nat}

namespace Delivers

theorem congr (d : f.Delivers n) (hq : g.queue = f.queue) (hp : g.publishing = f.publishing)
    (hpipe : g.pipeline = f.pipeline) (hf : g.fetches = f.fetches) : g.Delivers n where
  queue := hq ▸ d.queue
  sound := hq ▸ d.sound
  next := by
    rw [hp, hpipe, hq]
    exact d.next
  fetched := hpipe ▸ d.fetched
  running := hpipe ▸ d.running
  fetches := hf ▸ d.fetches

theorem quit (d : f.Delivers n) (hq : g.queue = f.queue) (hp : g.publishing = false)
    (hpipe : g.pipeline = f.pipeline)
    (hf : ∀ h fetch, g.fetches.get? h = some fetch → f.fetches.get? h = some fetch) : g.Delivers n where
  queue := hq ▸ d.queue
  sound := hq ▸ d.sound
  next := by simp [hp]
  fetched := hpipe ▸ d.fetched
  running := hpipe ▸ d.running
  fetches h fetch hfetch := d.fetches h fetch (hf h fetch hfetch)

/-- A fetch goes on. -/
theorem setFetch (d : f.Delivers n) {height : UInt32} {fetch fetch' : Fetch}
    (hfetch : f.fetches.get? height = some fetch) (hbrings : Fetch.Brings height fetch'.stage) :
    { f with fetches := f.fetches.set height fetch' }.Delivers n where
  queue := d.queue
  sound := d.sound
  next := d.next
  fetched := d.fetched
  running := d.running
  fetches := by
    intro h x hx
    rw [Table.get?_set] at hx
    split at hx
    · rename_i heq
      obtain rfl := Option.some.inj hx
      rw [heq]
      exact ⟨hbrings, (d.fetches height fetch hfetch).2⟩
    · exact d.fetches h x hx

theorem takeOver (d : f.Delivers n) {height : UInt32} {fetch : Fetch} {b : MasterBundle}
    (hfetch : f.fetches.get? height = some fetch) (hstage : fetch.stage = .fetched b) :
    { f with
      fetches := f.fetches.erase height
      pipeline := f.pipeline.complete height b }.Delivers n where
  queue := d.queue
  sound := d.sound
  next := d.next
  fetched := by
    intro h x hx
    rcases Pipeline.mem_insertFetched hx with heq | hx
    · obtain ⟨hbrings, hlast⟩ := d.fetches height fetch hfetch
      rw [hstage] at hbrings
      obtain ⟨rfl, rfl⟩ := Prod.mk.inj heq
      exact ⟨hbrings, hlast⟩
    · exact d.fetched h x hx
  running h hh := d.running h (List.mem_filter.mp hh).1
  fetches := by
    intro h x hx
    rw [Table.get?_erase] at hx
    split at hx
    · cases hx
    · exact d.fetches h x hx

theorem enqueue (d : f.Delivers n) (hp : f.publishing = true) {b : MasterBundle}
    (hb : f.pipeline.head? = some b) :
    { f with queue := f.queue ++ [b], pipeline := f.pipeline.publish }.Delivers n := by
  have hhead := Pipeline.Window.fetched_of_hget hb
  have hmem : (f.pipeline.next, b) ∈ f.pipeline.fetched := hhead ▸ List.mem_cons_self
  obtain ⟨⟨hseqno, hsound⟩, hlast⟩ := d.fetched _ b hmem
  have hnext := d.next hp
  refine ⟨?_, ?_, ?_, ?_, d.running, d.fetches⟩
  · show (f.queue ++ [b]).map _ = List.range' n (f.queue ++ [b]).length
    rw [List.map_append, List.length_append, List.length_singleton, List.range'_1_concat, d.queue,
      List.map_singleton, hseqno, hnext]
  · intro x hx
    rcases List.mem_append.mp hx with hx | hx
    · exact d.sound x hx
    · obtain rfl := List.mem_singleton.mp hx
      exact ⟨hsound, hseqno ▸ hlast⟩
  · intro _
    show (f.pipeline.next + 1).toNat = n + (f.queue ++ [b]).length
    rw [toNat_succ_of_lt hlast, hnext, List.length_append, List.length_singleton, Nat.add_assoc]
  · intro h x hx
    exact d.fetched h x (List.mem_of_mem_tail hx)

theorem dequeue (d : f.Delivers n) {b : MasterBundle} {rest : List MasterBundle}
    (hq : f.queue = b :: rest) :
    b.Sound ∧ b.seqno < lastHeight ∧ b.seqno.toNat = n ∧ { f with queue := rest }.Delivers (n + 1) := by
  have hqueue := d.queue
  rw [hq, List.map_cons, List.length_cons, List.range'_succ] at hqueue
  obtain ⟨hseqno, hrest⟩ := List.cons.inj hqueue
  obtain ⟨hsound, hlast⟩ := d.sound b (hq ▸ List.mem_cons_self)
  refine ⟨hsound, hlast, hseqno, hrest, ?_, ?_, d.fetched, d.running, d.fetches⟩
  · intro x hx
    exact d.sound x (hq ▸ List.mem_cons_of_mem b hx)
  · intro hp
    have hnext := d.next hp
    rw [hq, List.length_cons] at hnext
    show f.pipeline.next.toNat = n + 1 + rest.length
    omega

/-- The publisher opens a window. Which heights it has does not matter here. -/
theorem withWindow (d : f.Delivers n) {q : Pipeline MasterBundle} (hnext : q.next = f.pipeline.next)
    (hfetched : q.fetched = f.pipeline.fetched) (hrunning : ∀ h ∈ q.running, h < lastHeight) :
    (f.withWindow q).Delivers n := by
  refine ⟨d.queue, d.sound, fun hp => ?_, fun h b hb => ?_, hrunning, fun h x hx => ?_⟩
  · exact hnext ▸ d.next hp
  · exact d.fetched h b (hfetched ▸ hb)
  · rw [Feed.withWindow, Table.get?_map_keys] at hx
    split at hx
    · rename_i hmem
      obtain rfl := Option.some.inj hx
      exact ⟨fun v hv => f.attempt_safe h hv, hrunning h hmem⟩
    · cases hx

theorem openNext (d : f.Delivers n) : f.openWindow.Delivers n := by
  rw [openWindow_eq]
  refine d.withWindow (Pipeline.openWindow_next _) (Pipeline.openWindow_fetched _) ?_
  intro h hh
  rw [Pipeline.openWindow_running, mem_heightsBetween] at hh
  exact UInt32.lt_of_lt_of_le hh.2 f.pipeline.windowEnd_le

theorem openAt (config : IndexerConfig) (reader : Nat) (listener : Listener) (start : UInt32) :
    (Feed.openAt config reader listener start).Delivers start.toNat where
  queue := rfl
  sound := by simp [Feed.openAt]
  next _ := rfl
  fetched := by simp [Feed.openAt]
  running := by simp [Feed.openAt]
  fetches h fetch hfetch := nomatch hfetch

end Delivers

/-- The numbers with which queues go on stay while nobody takes anything out of them. -/
theorem stable_delivers (numbers : Nat → Nat) : Stable fun id f => f.Delivers (numbers id) where
  congr h _ hq hp hpipe hf := h.congr hq hp hpipe hf
  quit h _ hq hp hpipe hf := h.quit hq hp hpipe hf
  attend h _ _ _ hfetch _ := h.setFetch hfetch (h.fetches _ _ hfetch).1
  takeOver h _ _ _ _ _ hfetch hstage := h.takeOver hfetch hstage
  enqueue h hp _ hb _ := h.enqueue hp hb
  openNext h _ _ _ := h.openNext

end Feed

end ShardIndex
