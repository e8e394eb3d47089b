import ShardIndex.Config.Reader
import ShardIndex.Config.Writer
import ShardIndex.Proofs.Config.Layout
/-!
# Loading a configuration

A configuration file that has some of the fields of a configuration, with the values with which it
is written, is loaded as the defaults overlaid with these fields (`IndexerConfig.overlay`). The
fields may stand in any order, also inside the three inner records, among unknown ones that hold
scalars, and with any blanks between the tokens (`IndexerConfig.Spells`). `load_overlay` is the
result.

For each record, `pick` is the record with the values of the picked names and the defaults of the
others, and `agrees` goes through its fields: what the writer writes for a field, its reader reads.
A configuration is `Valid` if the words that count from one are not zero; those are the words that
the reader refuses if they are.
-/
namespace ShardIndex

open Json Scan

theorem fromUTF8?_toUTF8 (text : String) :
    String.fromUTF8? ⟨text.toUTF8.data.toList.toArray⟩ = some text := by
  have hvalid : text.toUTF8.IsValidUTF8 := text.isValidUTF8
  simp only [Array.toArray_toList, String.fromUTF8?, dif_pos hvalid]
  rfl

/-- The fields of an object. -/
def Json.fields : Json → List (String × Json)
  | .object fields => fields
  | _ => []

/-! ## Fields -/

section

variable {σ α : Type} {pick : (String → Bool) → σ} {name : String} {p : Scan α} {set : σ → α → σ}

theorem fieldAgrees_of {j : Json} {a : α} (h : Reads p j a)
    (hset : ∀ q, set (pick q) a = pick fun n => name == n || q n) :
    FieldAgrees pick (.of name p set) (name, j) :=
  ⟨rfl, fun q => hset q ▸ reads_of h (pick q)⟩

end

theorem reads_word64 (n : UInt64) : Reads (natural word64Max) (ofNat n.toNat) n.toNat :=
  reads_natural (by decide) (Nat.le_pred_of_lt n.toNat_lt)

theorem reads_positive64 {n : UInt64} (hn : n ≠ 0) :
    Reads (positive word64Max) (ofNat n.toNat) n.toNat :=
  reads_positive (by decide) (Nat.le_pred_of_lt n.toNat_lt) (by simpa [← UInt64.toNat_inj] using hn)

theorem reads_word32 (n : UInt32) : Reads (natural word32Max) (ofNat n.toNat) n.toNat :=
  reads_natural (by decide) (Nat.le_pred_of_lt n.toNat_lt)

theorem reads_positive32 {n : UInt32} (hn : n ≠ 0) :
    Reads (positive word32Max) (ofNat n.toNat) n.toNat :=
  reads_positive (by decide) (Nat.le_pred_of_lt n.toNat_lt) (by simpa [← UInt32.toNat_inj] using hn)

theorem ofNat_comp_toNat : UInt32.ofNat ∘ UInt32.toNat = id := by
  funext n
  simp

/-! ## Records -/

namespace CachesConfig

/-- The values of the picked names, and defaults. -/
def pick (c : CachesConfig) (p : String → Bool) : CachesConfig where
  masterBlocksTtl :=
    if p "master_blocks_ttl" then c.masterBlocksTtl else (default : CachesConfig).masterBlocksTtl
  shardsTtl := if p "shards_ttl" then c.shardsTtl else (default : CachesConfig).shardsTtl
  accountsCapacity :=
    if p "accounts_capacity" then c.accountsCapacity else (default : CachesConfig).accountsCapacity
  librariesCapacity :=
    if p "libraries_capacity" then c.librariesCapacity
    else (default : CachesConfig).librariesCapacity

/-- Both capacities are at least one. -/
def Valid (c : CachesConfig) : Prop :=
  c.accountsCapacity ≠ 0 ∧ c.librariesCapacity ≠ 0

theorem agrees {c : CachesConfig} (hc : c.Valid) : Agrees fields c.toJson.fields c.pick where
  reads :=
    .cons (fieldAgrees_of (reads_duration _) fun q => by simp [pick]) <|
    .cons (fieldAgrees_of (reads_duration _) fun q => by simp [pick]) <|
    .cons (fieldAgrees_of (reads_positive64 hc.1) fun q => by simp [pick]) <|
    .cons (fieldAgrees_of (reads_positive64 hc.2) fun q => by simp [pick]) .nil
  nodup := by simp [toJson, Json.fields]
  congr h := by
    simp only [toJson, Json.fields, List.map_cons, List.forall_mem_cons] at h
    simp only [pick, h]

end CachesConfig

namespace LinkerConfig

/-- The values of the picked names, and defaults. -/
def pick (c : LinkerConfig) (p : String → Bool) : LinkerConfig where
  retainedCapacity :=
    if p "retained_capacity" then c.retainedCapacity else (default : LinkerConfig).retainedCapacity

theorem agrees (c : LinkerConfig) : Agrees fields c.toJson.fields c.pick where
  reads := .cons (fieldAgrees_of (reads_word64 _) fun q => by simp [pick]) .nil
  nodup := by simp [toJson, Json.fields]
  congr h := by
    simp only [toJson, Json.fields, List.map_cons, List.forall_mem_cons] at h
    simp only [pick, h]

end LinkerConfig

namespace RescanConfig

/-- The values of the picked names, and defaults. -/
def pick (c : RescanConfig) (p : String → Bool) : RescanConfig where
  enabled := if p "enabled" then c.enabled else (default : RescanConfig).enabled
  pollInterval :=
    if p "poll_interval" then c.pollInterval else (default : RescanConfig).pollInterval
  batchMasters :=
    if p "batch_masters" then c.batchMasters else (default : RescanConfig).batchMasters
  stateCacheAddresses :=
    if p "state_cache_addresses" then c.stateCacheAddresses
    else (default : RescanConfig).stateCacheAddresses
  stateCacheDepth :=
    if p "state_cache_depth" then c.stateCacheDepth else (default : RescanConfig).stateCacheDepth

/-- A batch, if there is one, and the addresses are at least one. -/
def Valid (c : RescanConfig) : Prop :=
  c.batchMasters ≠ some 0 ∧ c.stateCacheAddresses ≠ 0

theorem agrees {c : RescanConfig} (hc : c.Valid) : Agrees fields c.toJson.fields c.pick where
  reads := by
    have hbatch : ∀ n ∈ c.batchMasters, Reads (positive word32Max) (ofNat n.toNat) n.toNat := by
      rintro n hn
      refine reads_positive32 ?_
      rintro rfl
      exact hc.1 hn
    exact
      .cons (fieldAgrees_of (reads_boolean _) fun q => by simp [pick]) <|
      .cons (fieldAgrees_of (reads_duration _) fun q => by simp [pick]) <|
      .cons (fieldAgrees_of (reads_optional hbatch) fun q => by simp [pick, ofNat_comp_toNat]) <|
      .cons (fieldAgrees_of (reads_positive64 hc.2) fun q => by simp [pick]) <|
      .cons (fieldAgrees_of (reads_word64 _) fun q => by simp [pick]) .nil
  nodup := by simp [toJson, Json.fields]
  congr h := by
    simp only [toJson, Json.fields, List.map_cons, List.forall_mem_cons] at h
    simp only [pick, h]

end RescanConfig

/-- Fields of a configuration and of its inner records, by their names. -/
structure Selection where
  top : String → Bool
  caches : String → Bool
  linker : String → Bool
  rescan : String → Bool

/-- All fields. -/
def Selection.all : Selection where
  top _ := true
  caches _ := true
  linker _ := true
  rescan _ := true

namespace IndexerConfig

/-- The values of the picked names, and defaults. -/
def pick (c : IndexerConfig) (p : String → Bool) : IndexerConfig where
  workers := if p "workers" then c.workers else (default : IndexerConfig).workers
  batchMasters :=
    if p "batch_masters" then c.batchMasters else (default : IndexerConfig).batchMasters
  channelCapacity :=
    if p "channel_capacity" then c.channelCapacity else (default : IndexerConfig).channelCapacity
  retryInterval :=
    if p "retry_interval" then c.retryInterval else (default : IndexerConfig).retryInterval
  transactionsConcurrency :=
    if p "transactions_concurrency" then c.transactionsConcurrency
    else (default : IndexerConfig).transactionsConcurrency
  restartDelay :=
    if p "restart_delay" then c.restartDelay else (default : IndexerConfig).restartDelay
  commitRetries :=
    if p "commit_retries" then c.commitRetries else (default : IndexerConfig).commitRetries
  commitRetryInterval :=
    if p "commit_retry_interval" then c.commitRetryInterval
    else (default : IndexerConfig).commitRetryInterval
  fromMaster := if p "from_master" then c.fromMaster else (default : IndexerConfig).fromMaster
  caches := if p "caches" then c.caches else default
  linker := if p "linker" then c.linker else default
  rescan := if p "rescan" then c.rescan else default

/-- The defaults overlaid with the selected fields. An inner record that is not selected is the
default one. -/
def overlay (c : IndexerConfig) (s : Selection) : IndexerConfig :=
  { c with
    caches := c.caches.pick s.caches
    linker := c.linker.pick s.linker
    rescan := c.rescan.pick s.rescan }.pick s.top

theorem overlay_all (c : IndexerConfig) : c.overlay .all = c := rfl

theorem pick_none (c : IndexerConfig) : c.pick (fun _ => false) = {} := rfl

/-- What has to be at least one is. -/
structure Valid (c : IndexerConfig) : Prop where
  workers : c.workers ≠ 0
  caches : c.caches.Valid
  rescan : c.rescan.Valid

/-- An entry of a configuration, with these fields if it is an inner record. -/
def withInner (caches linker rescan : List (String × Json)) (e : String × Json) : String × Json :=
  if e.1 = "caches" then (e.1, .object caches)
  else if e.1 = "linker" then (e.1, .object linker)
  else if e.1 = "rescan" then (e.1, .object rescan)
  else e

theorem fst_withInner (caches linker rescan : List (String × Json)) (e : String × Json) :
    (withInner caches linker rescan e).1 = e.1 := by
  unfold withInner
  split
  · rfl
  split
  · rfl
  split <;> rfl

section

variable {c : IndexerConfig} {s : Selection} {caches linker rescan : List (String × Json)}

theorem agrees (hc : c.Valid) (hcaches : Mixes c.caches.toJson.fields s.caches caches)
    (hlinker : Mixes c.linker.toJson.fields s.linker linker)
    (hrescan : Mixes c.rescan.toJson.fields s.rescan rescan) :
    Agrees fields (c.toJson.fields.map (withInner caches linker rescan))
      (pick { c with
        caches := c.caches.pick s.caches
        linker := c.linker.pick s.linker
        rescan := c.rescan.pick s.rescan }) where
  reads := by
    have hfrom : ∀ n ∈ c.fromMaster, Reads (natural word32Max) (ofNat n.toNat) n.toNat :=
      fun n _ => reads_word32 n
    exact
      .cons (fieldAgrees_of (reads_positive64 hc.workers) fun q => by simp [pick]) <|
      .cons (fieldAgrees_of (reads_word64 _) fun q => by simp [pick]) <|
      .cons (fieldAgrees_of (reads_word64 _) fun q => by simp [pick]) <|
      .cons (fieldAgrees_of (reads_duration _) fun q => by simp [pick]) <|
      .cons (fieldAgrees_of (reads_word64 _) fun q => by simp [pick]) <|
      .cons (fieldAgrees_of (reads_duration _) fun q => by simp [pick]) <|
      .cons (fieldAgrees_of (reads_word64 _) fun q => by simp [pick]) <|
      .cons (fieldAgrees_of (reads_duration _) fun q => by simp [pick]) <|
      .cons (fieldAgrees_of (reads_optional hfrom) fun q => by simp [pick, ofNat_comp_toNat]) <|
      .cons (fieldAgrees_of (reads_record (CachesConfig.agrees hc.caches) hcaches) fun q => by
        simp [pick]) <|
      .cons (fieldAgrees_of (reads_record (LinkerConfig.agrees _) hlinker) fun q => by
        simp [pick]) <|
      .cons (fieldAgrees_of (reads_record (RescanConfig.agrees hc.rescan) hrescan) fun q => by
        simp [pick]) .nil
  nodup := by simp [toJson, entries, Json.fields, fst_withInner]
  congr h := by
    simp only [toJson, entries, Json.fields, List.map_cons, List.forall_mem_cons,
      fst_withInner] at h
    simp only [pick, h]

end

/-- The text begins with an object that has the selected fields of the configuration. -/
inductive Spells (c : IndexerConfig) (s : Selection) : List Char → Prop where
  | intro {caches linker rescan mixed : List (String × Json)} {sp cs : List Char}
      (rest : List Char) :
      Mixes c.caches.toJson.fields s.caches caches →
      Mixes c.linker.toJson.fields s.linker linker →
      Mixes c.rescan.toJson.fields s.rescan rescan →
      Mixes (c.toJson.fields.map (withInner caches linker rescan)) s.top mixed →
      Blanks sp → Layout (.object mixed) cs → Spells c s (sp ++ (cs ++ rest))

theorem ofText_of_spells {c : IndexerConfig} (hc : c.Valid) {s : Selection} {text : String}
    (h : c.Spells s text.toList) : ofText text = .ok (c.overlay s) := by
  generalize htext : text.toList = cs at h
  cases h with
  | intro _ hcaches hlinker hrescan hmixed hsp hlayout =>
    have hread := record_layout (agrees hc hcaches hlinker hrescan) hmixed hsp hlayout
    rw [pick_none] at hread
    rw [ofText, htext, hread, map_ok, overlay]

theorem layout_toJson (c : IndexerConfig) : Layout c.toJson c.toJson.chars := by
  have hoption (o : Option UInt32) : Layout (ofOption (fun n => ofNat n.toNat) o)
      (ofOption (fun n : UInt32 => ofNat n.toNat) o).chars := by
    cases o <;> exact .scalar rfl
  have hcaches : Layout c.caches.toJson c.caches.toJson.chars := by
    refine layout_object_chars ?_
    simp only [List.forall_mem_cons]
    exact ⟨.scalar rfl, .scalar rfl, .scalar rfl, .scalar rfl, by simp⟩
  have hlinker : Layout c.linker.toJson c.linker.toJson.chars := by
    refine layout_object_chars ?_
    simp only [List.forall_mem_cons]
    exact ⟨.scalar rfl, by simp⟩
  have hrescan : Layout c.rescan.toJson c.rescan.toJson.chars := by
    refine layout_object_chars ?_
    simp only [List.forall_mem_cons]
    exact ⟨.scalar rfl, .scalar rfl, hoption _, .scalar rfl, .scalar rfl, by simp⟩
  refine layout_object_chars ?_
  simp only [entries, List.forall_mem_cons]
  exact ⟨.scalar rfl, .scalar rfl, .scalar rfl, .scalar rfl, .scalar rfl, .scalar rfl, .scalar rfl,
    .scalar rfl, hoption _, hcaches, hlinker, hrescan, by simp⟩

/-- The writer writes all fields in their order and without blanks. -/
theorem spells_text (c : IndexerConfig) : c.Spells .all c.toJson.text.toList := by
  have hinner : c.toJson.fields.map
      (withInner c.caches.toJson.fields c.linker.toJson.fields c.rescan.toJson.fields) =
        c.toJson.fields := by
    simp [toJson, entries, Json.fields, withInner, CachesConfig.toJson, LinkerConfig.toJson,
      RescanConfig.toJson]
  have hspells := Spells.intro (s := .all) []
    (mixes_self c.caches.toJson.fields) (mixes_self c.linker.toJson.fields)
    (mixes_self c.rescan.toJson.fields) (by rw [hinner]; exact mixes_self _) blanks_nil
    (layout_toJson c)
  simpa [Json.text] using hspells

/-- From a text with the selected fields of a configuration, the defaults overlaid with them are
loaded. From a text with all fields, such as the one that the writer writes, the configuration comes
back. What the fields that are durations need for this holds up to the largest duration. -/
theorem load_overlay (c : IndexerConfig) (hc : c.Valid) :
    (∀ (s : Selection) (text : String), c.Spells s text.toList →
      load (some text.toUTF8.data.toList) = .ok (c.overlay s)) ∧
    (∀ text : String, c.Spells .all text.toList → load (some text.toUTF8.data.toList) = .ok c) ∧
    load (some c.toJson.text.toUTF8.data.toList) = .ok c ∧
    ∀ d : Duration, Duration.ofText? d.text = some d := by
  have hload : ∀ (s : Selection) (text : String), c.Spells s text.toList →
      load (some text.toUTF8.data.toList) = .ok (c.overlay s) := by
    intro s text htext
    simp only [load, fromUTF8?_toUTF8, ofText_of_spells hc htext]
    rfl
  have hall : ∀ text : String, c.Spells .all text.toList →
      load (some text.toUTF8.data.toList) = .ok c :=
    fun text htext => overlay_all c ▸ hload .all text htext
  exact ⟨hload, hall, hall _ (spells_text c), Duration.ofText?_text⟩

/-- A configuration with four values that are no defaults. -/
def sample : IndexerConfig where
  workers := 8
  retryInterval := .ofSeconds 2
  rescan := { pollInterval := .ofSeconds 10, stateCacheDepth := 7 }

/-- Two of the four values. -/
def sampleSelection : Selection where
  top name := name == "workers" || name == "rescan"
  caches _ := false
  linker _ := false
  rescan name := name == "poll_interval"

/-- The two values, the inner record first, and a note between them. -/
def sampleText : String :=
  "\x7b\"rescan\": \x7b\"poll_interval\":\"10s\"\x7d, \"note\":null,\"workers\" :8\x7d\n"

theorem spells_sampleText : sample.Spells sampleSelection sampleText.toList := by
  have hblank : Blanks [' '] := by simp [Blanks, isSpace]
  have hinner : Layout (.object [("poll_interval", (Duration.ofSeconds 10).toJson)])
      (Json.object [("poll_interval", (Duration.ofSeconds 10).toJson)]).chars :=
    layout_object_chars (by simp only [List.forall_mem_singleton]; exact .scalar rfl)
  have hlayout := Layout.object <|
    .field "rescan" (.first blanks_nil) blanks_nil hblank hinner <|
    .field "note" (.next blanks_nil hblank) blanks_nil blanks_nil
      (.scalar (j := .null) rfl) <|
    .field "workers" (.next blanks_nil blanks_nil) hblank blanks_nil
      (.scalar (j := ofNat 8) rfl) <|
    .close blanks_nil
  have hcaches : Mixes sample.caches.toJson.fields sampleSelection.caches [] := ⟨by decide, by simp⟩
  have hlinker : Mixes sample.linker.toJson.fields sampleSelection.linker [] := ⟨by decide, by simp⟩
  have hrescan : Mixes sample.rescan.toJson.fields sampleSelection.rescan
      [("poll_interval", (Duration.ofSeconds 10).toJson)] :=
    ⟨by decide, by decide⟩
  exact Spells.intro ['\n'] hcaches hlinker hrescan ⟨by decide, by decide⟩ blanks_nil hlayout

theorem load_overlay_sample :
    sample.Valid ∧ sample.Spells sampleSelection sampleText.toList ∧
      load (some sampleText.toUTF8.data.toList) =
        .ok { workers := 8, rescan := { pollInterval := .ofSeconds 10 } } := by
  have hvalid : sample.Valid := ⟨by decide, ⟨by decide, by decide⟩, ⟨by decide, by decide⟩⟩
  exact ⟨hvalid, spells_sampleText, (load_overlay sample hvalid).1 _ _ spells_sampleText⟩

end IndexerConfig

end ShardIndex
