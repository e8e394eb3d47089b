import Mathlib.Data.List.Forall2
import ShardIndex.Proofs.Config.JsonText
/-!
# Reading a value out of its text

A text of a value has its tokens in their order and any blanks between them (`Json.Layout`).
`Scan.Reads` says of a reader what it makes of a value, whatever its layout.

There is one lemma for each reader of a single value. For a record, `Scan.Agrees` ties its fields to
the entries that they read, and `Scan.record_layout` reads any of these entries, in any order and
among others that the record does not know. The induction is in `Scan.namedFields_layout`.
-/
namespace ShardIndex

namespace Json

/-! ## Layouts -/

/-- Characters that may stand between tokens. -/
def Blanks (cs : List Char) : Prop :=
  ∀ c ∈ cs, Scan.isSpace c

/-- What stands in front of the name of a field: a comma, if there is a field before it. -/
inductive Lead : Bool → List Char → Prop where
  | first {sp : List Char} : Blanks sp → Lead true sp
  | next {sp sp' : List Char} : Blanks sp → Blanks sp' → Lead false (sp ++ ',' :: sp')

mutual

/-- The text is one of the value: its tokens, with any blanks between them. Arrays are left out. -/
inductive Layout : Json → List Char → Prop where
  | scalar {j : Json} : j.isScalar → Layout j j.chars
  | object {fields : List (String × Json)} {cs : List Char} :
      FieldsLayout true fields cs → Layout (.object fields) ('{' :: cs)

/-- The text is one of the fields of an object that are left, with its closing bracket. The flag
tells whether the first of them is the first one of the object. -/
inductive FieldsLayout : Bool → List (String × Json) → List Char → Prop where
  | close {first : Bool} {sp : List Char} : Blanks sp → FieldsLayout first [] (sp ++ ['}'])
  | field {first : Bool} (name : String) {j : Json} {fields : List (String × Json)}
      {lead sp sp' value cs : List Char} : Lead first lead → Blanks sp → Blanks sp' →
      Layout j value → FieldsLayout false fields cs →
      FieldsLayout first ((name, j) :: fields)
        (lead ++ (stringText name ++ (sp ++ ':' :: (sp' ++ (value ++ cs)))))

end

theorem blanks_nil : Blanks [] := by simp [Blanks]

/-- The text without blanks is a layout. -/
theorem fieldsLayout_chars {fields : List (String × Json)} (hne : fields ≠ []) {first : Bool}
    {lead : List Char} (hlead : Lead first lead) (h : ∀ e ∈ fields, Layout e.2 e.2.chars) :
    FieldsLayout first fields (lead ++ (fieldChars fields ++ ['}'])) := by
  induction fields generalizing first lead with
  | nil => exact absurd rfl hne
  | cons e fields ih =>
    obtain ⟨he, hfields⟩ := List.forall_mem_cons.1 h
    cases fields with
    | nil =>
      have hlayout := FieldsLayout.field e.1 hlead blanks_nil blanks_nil he
        (.close blanks_nil)
      simpa [fieldChars] using hlayout
    | cons e' fields =>
      have hlayout := FieldsLayout.field e.1 hlead blanks_nil blanks_nil he
        (ih (by simp) (.next blanks_nil blanks_nil) hfields)
      simpa [fieldChars] using hlayout

theorem layout_object_chars {fields : List (String × Json)}
    (h : ∀ e ∈ fields, Layout e.2 e.2.chars) :
    Layout (.object fields) (Json.object fields).chars := by
  by_cases hne : fields = []
  · subst hne
    simpa [chars, fieldChars] using Layout.object (.close blanks_nil)
  · simpa [chars] using Layout.object (fieldsLayout_chars hne (.first blanks_nil) h)

theorem eq_chars_of_layout {j : Json} (hj : j.isScalar) {cs : List Char} (h : Layout j cs) :
    cs = j.chars := by
  cases h with
  | scalar => rfl
  | object => cases hj

end Json

namespace Scan

open Json

/-! ## Blanks and ends -/

theorem skipSpace_append {sp cs : List Char} (hsp : Blanks sp) (hcs : Stops isSpace cs) :
    skipSpace (sp ++ cs) = cs :=
  dropWhile_append_of_stops hsp hcs

theorem not_isSpace_of_isDigit {c : Char} (hc : c.isDigit) : isSpace c = false := by
  have hne {d : Char} (hd : d.isDigit = false) : c ≠ d := ne_of_isDigit hc hd
  simp [isSpace, hne]

theorem stops_isSpace_digits (n : Nat) (rest : List Char) : Stops isSpace (digits n ++ rest) := by
  obtain ⟨c, cs, hdigits, hc⟩ := exists_digits_eq_cons n
  simp [hdigits, not_isSpace_of_isDigit hc]

theorem stops_isSpace_layout {j : Json} {cs : List Char} (h : Layout j cs) (rest : List Char) :
    Stops isSpace (cs ++ rest) := by
  cases h with
  | object h =>
    rw [List.cons_append, stops_cons]
    decide
  | scalar hj =>
    cases j with
    | null => simp [chars, isSpace]
    | bool b => cases b <;> simp [chars, isSpace]
    | number mantissa places =>
      obtain ⟨sign, n, cs, htext, hsign, -⟩ := numberText_cases mantissa places
      rw [chars, htext]
      rcases hsign with rfl | rfl
      · rw [List.nil_append, List.append_assoc]
        exact stops_isSpace_digits n _
      · simp [isSpace]
    | string s => simp [chars, stringText, isSpace]
    | array items => cases hj
    | object fields => cases hj

theorem not_isNumberChar_of_isSpace {c : Char} (h : isSpace c) : isNumberChar c = false := by
  simp only [isSpace, Bool.or_eq_true, beq_iff_eq] at h
  rcases h with ((rfl | rfl) | rfl) | rfl <;> decide

/-- Blanks and what ends a number end a number. -/
theorem stops_isNumberChar_append {sp cs : List Char} (hsp : Blanks sp)
    (hcs : Stops isNumberChar cs) : Stops isNumberChar (sp ++ cs) := by
  cases sp with
  | nil => exact hcs
  | cons c sp =>
    rw [List.cons_append, stops_cons]
    exact not_isNumberChar_of_isSpace (hsp c List.mem_cons_self)

/-- The value of a field ends where the text goes on with the next field or the closing bracket. -/
theorem stops_isNumberChar_fields {fields : List (String × Json)} {cs : List Char}
    (h : FieldsLayout false fields cs) (rest : List Char) : Stops isNumberChar (cs ++ rest) := by
  cases h with
  | close hsp =>
    rw [List.append_assoc]
    exact stops_isNumberChar_append hsp (by simp [isNumberChar])
  | field _ hlead =>
    cases hlead with
    | next hsp hsp' =>
      simp only [List.append_assoc]
      exact stops_isNumberChar_append hsp (by simp [isNumberChar])

theorem skipValue_layout {j : Json} (hj : j.isScalar) {sp cs rest : List Char} (hsp : Blanks sp)
    (hcs : Layout j cs) (hrest : Stops isNumberChar rest) :
    skipValue (sp ++ (cs ++ rest)) = .ok rest := by
  have htoken : skipToken (skipSpace (sp ++ (cs ++ rest))) = .ok (none, rest) := by
    rw [skipSpace_append hsp (stops_isSpace_layout hcs rest), eq_chars_of_layout hj hcs,
      skipToken_chars hj hrest]
  rw [skipValue]
  exact skipFrom_scalar htoken

/-! ## Single values -/

/-- The reader makes `a` of the value. -/
def Reads {α : Type} (p : Scan α) (j : Json) (a : α) : Prop :=
  ∀ {sp cs rest : List Char}, Blanks sp → Layout j cs → Stops isNumberChar rest →
    p (sp ++ (cs ++ rest)) = .ok (a, rest)

theorem chars_ofNat (n : Nat) : (ofNat n).chars = digits n := by
  have hsign : ¬ ((n : Int) < 0) := by omega
  simp [ofNat, chars, numberText, hsign, digits, Nat.toString_eq_repr]

theorem reads_natural {limit n : Nat} (hlimit : limit < UInt64.size) (hn : n ≤ limit) :
    Reads (natural limit) (ofNat n) n := by
  intro sp cs rest hsp hcs hrest
  have hskip := skipSpace_append hsp (stops_isSpace_layout hcs rest)
  have hnumber := number_digits (n := n) (by omega) hrest
  obtain ⟨c, ds, hdigits, hc⟩ := exists_digits_eq_cons n
  rw [hdigits, List.cons_append] at hnumber
  rw [natural, hskip, eq_chars_of_layout rfl hcs, chars_ofNat, hdigits, List.cons_append]
  simp [hc, hnumber, hn]

theorem reads_positive {limit n : Nat} (hlimit : limit < UInt64.size) (hn : n ≤ limit)
    (hpos : n ≠ 0) : Reads (positive limit) (ofNat n) n := by
  intro sp cs rest hsp hcs hrest
  rw [positive, reads_natural hlimit hn hsp hcs hrest]
  simp [hpos]

theorem reads_boolean (b : Bool) : Reads boolean (.bool b) b := by
  intro sp cs rest hsp hcs hrest
  have hskip := skipSpace_append hsp (stops_isSpace_layout hcs rest)
  rw [boolean, hskip, eq_chars_of_layout rfl hcs]
  cases b <;> simp [chars, word]

theorem reads_duration (d : Duration) : Reads duration (.string d.text) d := by
  intro sp cs rest hsp hcs hrest
  have hskip := skipSpace_append hsp (stops_isSpace_layout hcs rest)
  rw [duration, hskip, eq_chars_of_layout rfl hcs]
  simp [chars, stringText, string_escaped, Duration.ofText?_text]

theorem reads_optional {α : Type} {p : Scan Nat} {f : α → Nat} {o : Option α}
    (hp : ∀ a ∈ o, Reads p (ofNat (f a)) (f a)) :
    Reads (optional p) (ofOption (fun a => ofNat (f a)) o) (o.map f) := by
  intro sp cs rest hsp hcs hrest
  have hskip := skipSpace_append hsp (stops_isSpace_layout hcs rest)
  rw [optional, hskip]
  cases o with
  | none =>
    rw [eq_chars_of_layout rfl hcs]
    simp [ofOption, chars, word]
  | some a =>
    have hread := hp a rfl blanks_nil hcs hrest
    obtain ⟨c, ds, hdigits, hc⟩ := exists_digits_eq_cons (f a)
    have hnull : c ≠ 'n' := ne_of_isDigit hc (by decide)
    have htext : cs = c :: ds := by
      rw [eq_chars_of_layout rfl hcs, ofOption, chars_ofNat, hdigits]
    rw [List.nil_append, htext, List.cons_append] at hread
    rw [htext, List.cons_append]
    simp [hnull, hread]

/-! ## Records -/

section

variable {σ : Type}

theorem within_ok {α : Type} (step : PathStep) (a : α) :
    within step (.ok a : Except ReadFault α) = .ok a := rfl

theorem reads_of {α : Type} {name : String} {p : Scan α} {set : σ → α → σ} {j : Json} {a : α}
    (h : Reads p j a) (s : σ) : Reads ((RecordField.of name p set).read s) j (set s a) := by
  intro sp cs rest hsp hcs hrest
  simp [RecordField.of, h hsp hcs hrest]

theorem nextKey_lead {first : Bool} {lead : List Char} (h : Lead first lead) (cs : List Char) :
    nextKey first (lead ++ '"' :: cs) = .ok (some cs, cs) := by
  have hquote : Stops isSpace ('"' :: cs) := by simp [isSpace]
  cases h with
  | first hsp => simp [nextKey, skipSpace_append hsp hquote]
  | next hsp hsp' =>
    have hcomma (ds : List Char) : Stops isSpace (',' :: ds) := by simp [isSpace]
    simp [nextKey, skipSpace_append hsp (hcomma _), skipSpace_append hsp' hquote, expect]

theorem nextKey_close (first : Bool) {sp : List Char} (hsp : Blanks sp) (rest : List Char) :
    nextKey first (sp ++ '}' :: rest) = .ok (none, rest) := by
  have hclose : Stops isSpace ('}' :: rest) := by simp [isSpace]
  simp [nextKey, skipSpace_append hsp hclose]

/-- The colon behind a name. -/
theorem expect_colon {sp : List Char} (hsp : Blanks sp) (cs : List Char) :
    expect ':' (skipSpace (sp ++ ':' :: cs)) = .ok cs := by
  have hcolon : Stops isSpace (':' :: cs) := by simp [isSpace]
  simp [skipSpace_append hsp hcolon, expect]

/-- The field reads the entry: in a record `pick p`, in which the names `p` have their values, it is
one name more that has. -/
def FieldAgrees (pick : (String → Bool) → σ) (f : RecordField σ) (e : String × Json) : Prop :=
  f.name = e.1 ∧ ∀ p, Reads (f.read (pick p)) e.2 (pick fun name => e.1 == name || p name)

/-- The fields read the entries, and nothing else is in the record. -/
structure Agrees (fields : List (RecordField σ)) (entries : List (String × Json))
    (pick : (String → Bool) → σ) : Prop where
  reads : List.Forall₂ (FieldAgrees pick) fields entries
  nodup : (entries.map (·.1)).Nodup
  congr : ∀ {p q : String → Bool}, (∀ name ∈ entries.map (·.1), p name = q name) →
    pick p = pick q

variable {fields : List (RecordField σ)} {entries : List (String × Json)}
  {pick : (String → Bool) → σ}

theorem find?_eq_none_of_agrees (h : List.Forall₂ (FieldAgrees pick) fields entries)
    {name : String} (hname : name ∉ entries.map (·.1)) :
    (fields.find? fun f => f.name == name) = none := by
  induction h with
  | nil => rfl
  | cons hf _ ih =>
    simp only [List.map_cons, List.mem_cons, not_or] at hname
    rw [List.find?_cons_of_neg (by simpa [hf.1] using Ne.symm hname.1), ih hname.2]

theorem exists_field_of_agrees (h : List.Forall₂ (FieldAgrees pick) fields entries)
    (hnodup : (entries.map (·.1)).Nodup) {e : String × Json} (he : e ∈ entries) :
    ∃ f, (fields.find? fun f => f.name == e.1) = some f ∧ FieldAgrees pick f e := by
  induction h with
  | nil => cases he
  | @cons f e' fields entries hf _ ih =>
    rw [List.map_cons, List.nodup_cons] at hnodup
    rcases List.mem_cons.1 he with rfl | he
    · exact ⟨f, List.find?_cons_of_pos (by simp [hf.1]), hf⟩
    · have hne : e'.1 ≠ e.1 := by
        intro heq
        exact hnodup.1 (heq ▸ List.mem_map_of_mem he)
      obtain ⟨g, hfind, hg⟩ := ih hnodup.2 he
      exact ⟨g, by rw [List.find?_cons_of_neg (by simpa [hf.1] using hne), hfind], hg⟩

/-- A name that no entry has makes no difference. -/
theorem Agrees.pick_unknown (h : Agrees fields entries pick) {name : String}
    (hname : name ∉ entries.map (·.1)) (p : String → Bool) :
    pick (fun other => name == other || p other) = pick p := by
  refine h.congr fun other hother => ?_
  have hne : (name == other) = false := by
    rw [beq_eq_false_iff_ne]
    rintro rfl
    exact hname hother
  rw [hne, Bool.false_or]

/-- The entries are those of the chosen names, in any order, among others of unknown names that hold
scalars. -/
structure Mixes (entries : List (String × Json)) (chosen : String → Bool)
    (mixed : List (String × Json)) : Prop where
  known : (mixed.filter fun e => (entries.map (·.1)).contains e.1).Perm
    (entries.filter fun e => chosen e.1)
  unknown : ∀ e ∈ mixed, e.1 ∉ entries.map (·.1) → e.2.isScalar

theorem mixes_self (entries : List (String × Json)) : Mixes entries (fun _ => true) entries where
  known := by
    rw [List.filter_eq_self.2 fun e he => by simpa using ⟨e.2, he⟩]
    simp
  unknown e he hname := absurd (List.mem_map_of_mem he) hname

theorem any_mixed {mixed : List (String × Json)} {chosen : String → Bool}
    (h : Mixes entries chosen mixed) {name : String} (hname : name ∈ entries.map (·.1)) :
    mixed.any (·.1 == name) = chosen name := by
  rw [Bool.eq_iff_iff]
  constructor
  · intro hany
    obtain ⟨e, he, heq⟩ := List.any_eq_true.1 hany
    rw [beq_iff_eq] at heq
    subst heq
    have hmem := h.known.mem_iff.1 (List.mem_filter.2 ⟨he, by simpa using hname⟩)
    exact (List.mem_filter.1 hmem).2
  · intro hchosen
    obtain ⟨e, he, rfl⟩ := List.mem_map.1 hname
    have hmem := h.known.mem_iff.2 (List.mem_filter.2 ⟨he, hchosen⟩)
    exact List.any_eq_true.2 ⟨e, (List.mem_filter.1 hmem).1, by simp⟩

/-! ## The fields of a record -/

/-- The fields of a text that are not read yet, when those of the names `seen` are: those that the
record knows are entries, each of another name. -/
structure Unread (entries : List (String × Json)) (seen : List String)
    (mixed : List (String × Json)) : Prop where
  known : ∀ e ∈ mixed, e.1 ∈ entries.map (·.1) → e ∈ entries ∧ e.1 ∉ seen
  unknown : ∀ e ∈ mixed, e.1 ∉ entries.map (·.1) → e.2.isScalar
  nodup : ((mixed.filter fun e => (entries.map (·.1)).contains e.1).map (·.1)).Nodup

namespace Unread

variable {seen : List String} {e : String × Json} {mixed : List (String × Json)}

theorem of_mixes {chosen : String → Bool} (h : Mixes entries chosen mixed)
    (hnodup : (entries.map (·.1)).Nodup) : Unread entries [] mixed where
  known e he hname := by
    have hmem := h.known.mem_iff.1 (List.mem_filter.2 ⟨he, by simpa using hname⟩)
    exact ⟨(List.mem_filter.1 hmem).1, by simp⟩
  unknown := h.unknown
  nodup := by
    rw [(h.known.map _).nodup_iff]
    exact hnodup.sublist (List.filter_sublist.map _)

theorem after_known (h : Unread entries seen (e :: mixed)) (he : e.1 ∈ entries.map (·.1)) :
    Unread entries (e.1 :: seen) mixed := by
  have hnodup := h.nodup
  rw [List.filter_cons_of_pos (by simpa using he), List.map_cons, List.nodup_cons] at hnodup
  refine ⟨fun e' he' hname => ?_, fun e' he' => h.unknown e' (List.mem_cons_of_mem _ he'),
    hnodup.2⟩
  obtain ⟨hmem, hseen⟩ := h.known e' (List.mem_cons_of_mem _ he') hname
  have hne : e'.1 ≠ e.1 := by
    intro heq
    refine hnodup.1 (List.mem_map.2 ⟨e', List.mem_filter.2 ⟨he', ?_⟩, heq⟩)
    simpa using hname
  exact ⟨hmem, by simp [hne, hseen]⟩

theorem after_unknown (h : Unread entries seen (e :: mixed)) (he : e.1 ∉ entries.map (·.1)) :
    Unread entries seen mixed := by
  have hnodup := h.nodup
  rw [List.filter_cons_of_neg (by simpa using he)] at hnodup
  exact ⟨fun e' he' => h.known e' (List.mem_cons_of_mem _ he'),
    fun e' he' => h.unknown e' (List.mem_cons_of_mem _ he'), hnodup⟩

end Unread

/-- The text of a field in front of its value. -/
def fieldHead (lead sp : List Char) (name : String) (cs : List Char) : List Char :=
  lead ++ (stringText name ++ (sp ++ ':' :: cs))

theorem fieldHead_eq (lead sp : List Char) (name : String) (cs : List Char) :
    fieldHead lead sp name cs =
      lead ++ '"' :: (name.toList.flatMap escapeChar ++ '"' :: (sp ++ ':' :: cs)) := by
  simp [fieldHead, stringText]

section

variable {n : Nat} {first : Bool} {seen : List String} {s : σ} {name : String}
  {lead sp cs rest : List Char}

theorem namedFields_unknown (hlead : Lead first lead) (hsp : Blanks sp)
    (hfind : (fields.find? fun f => f.name == name) = none) (hskip : skipValue cs = .ok rest) :
    namedFields fields (n + 1) first seen s (fieldHead lead sp name cs) =
      namedFields fields n false seen s rest := by
  simp [fieldHead_eq, namedFields, nextKey_lead hlead, string_escaped, hfind, expect_colon hsp,
    hskip]

theorem namedFields_known {f : RecordField σ} {s' : σ} (hlead : Lead first lead) (hsp : Blanks sp)
    (hfind : (fields.find? fun f => f.name == name) = some f) (hseen : name ∉ seen)
    (hread : f.read s cs = .ok (s', rest)) :
    namedFields fields (n + 1) first seen s (fieldHead lead sp name cs) =
      namedFields fields n false (name :: seen) s' rest := by
  simp [fieldHead_eq, namedFields, nextKey_lead hlead, string_escaped, hfind, hseen,
    expect_colon hsp, hread, within_ok]

end

/-- The induction is on the fields of the text. What is read so far is always `pick` of the names
that were read. -/
theorem namedFields_layout (h : Agrees fields entries pick) {mixed : List (String × Json)}
    {n : Nat} {first : Bool} {seen : List String} {p : String → Bool} {cs : List Char}
    (hlayout : FieldsLayout first mixed cs) (hunread : Unread entries seen mixed)
    (hn : cs.length < n) (rest : List Char) :
    namedFields fields n first seen (pick p) (cs ++ rest) =
      .ok (pick fun name => mixed.any (·.1 == name) || p name, rest) := by
  induction mixed generalizing n first seen p cs with
  | nil =>
    cases hlayout with
    | close hsp =>
      cases n with
      | zero => simp at hn
      | succ n => simp [namedFields, nextKey_close first hsp]
  | cons e mixed ih =>
    cases hlayout with
    | @field _ name j _ lead sp sp' value cs hlead hsp hsp' hvalue hfields =>
      cases n with
      | zero => simp at hn
      | succ n =>
        have hlength : cs.length < n := by
          simp only [List.length_append, List.length_cons, stringText] at hn
          omega
        have hends := stops_isNumberChar_fields hfields rest
        have htext : lead ++ (stringText name ++ (sp ++ ':' :: (sp' ++ (value ++ cs)))) ++ rest =
            fieldHead lead sp name (sp' ++ (value ++ (cs ++ rest))) := by
          simp [fieldHead]
        rw [htext]
        by_cases hname : name ∈ entries.map (·.1)
        · obtain ⟨hmem, hseen⟩ := hunread.known _ List.mem_cons_self hname
          obtain ⟨f, hfind, -, hread⟩ := exists_field_of_agrees h.reads h.nodup hmem
          rw [namedFields_known hlead hsp hfind hseen (hread p hsp' hvalue hends),
            ih hfields (hunread.after_known hname) hlength]
          simp [Bool.or_assoc, Bool.or_left_comm]
        · have hscalar := hunread.unknown _ List.mem_cons_self hname
          rw [namedFields_unknown hlead hsp (find?_eq_none_of_agrees h.reads hname)
            (skipValue_layout hscalar hsp' hvalue hends),
            ih hfields (hunread.after_unknown hname) hlength]
          simp only [List.any_cons, Bool.or_assoc, h.pick_unknown hname]

/-- An object made of the chosen fields, in any order and among unknown ones, is read as the record
with the values of these fields. -/
theorem record_layout (h : Agrees fields entries pick) {mixed : List (String × Json)}
    {chosen : String → Bool} (hmixed : Mixes entries chosen mixed) {sp cs : List Char}
    (hsp : Blanks sp) (hlayout : Layout (.object mixed) cs) (rest : List Char) :
    record fields (pick fun _ => false) (sp ++ (cs ++ rest)) = .ok (pick chosen, rest) := by
  have hskip := skipSpace_append hsp (stops_isSpace_layout hlayout rest)
  cases hlayout with
  | scalar hscalar => cases hscalar
  | @object _ cs hfields =>
    have hunread := Unread.of_mixes hmixed h.nodup
    have hlength : cs.length < (cs ++ rest).length + 1 := by
      rw [List.length_append]
      omega
    rw [record, hskip, List.cons_append]
    simp only [namedFields_layout h hfields hunread hlength rest]
    congr 2
    refine h.congr fun name hname => ?_
    rw [any_mixed hmixed hname, Bool.or_false]

/-- The reader of a record in a field. -/
theorem reads_record (h : Agrees fields entries pick) {mixed : List (String × Json)}
    {chosen : String → Bool} (hmixed : Mixes entries chosen mixed) :
    Reads (record fields (pick fun _ => false)) (.object mixed) (pick chosen) :=
  fun hsp hcs _ => record_layout h hmixed hsp hcs _

end

end Scan

end ShardIndex
