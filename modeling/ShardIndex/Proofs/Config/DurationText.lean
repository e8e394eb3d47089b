import ShardIndex.Config.DurationText
/-!
# A duration reads back from its text

`Duration.ofText?_text` holds for every duration, up to the largest: what `Duration.text` writes,
`Duration.ofText?` reads as the same duration.

A text is a row of amounts (`Part`), each a number and a name of a unit. `addAmounts_row` reads the
row part by part, so that only sums are left, and `foldlM_addPart` does the sums. No sum of parts is
above the duration that they are parts of, which is why no word overflows on the way.
-/
namespace ShardIndex

/-! ## Runs of characters -/

/-- The text does not begin with a character of this kind. -/
def Stops (p : Char → Bool) (cs : List Char) : Prop :=
  ∀ c ∈ cs.head?, p c = false

section

variable {p : Char → Bool} {xs ys : List Char}

@[simp] theorem stops_nil : Stops p [] := by simp [Stops]

@[simp] theorem stops_cons {c : Char} : Stops p (c :: xs) ↔ p c = false := by simp [Stops]

theorem takeWhile_append_of_stops (hxs : ∀ c ∈ xs, p c) (hys : Stops p ys) :
    (xs ++ ys).takeWhile p = xs := by
  rw [List.takeWhile_append_of_pos hxs]
  cases ys with
  | nil => simp
  | cons c ys => simp [stops_cons.1 hys]

theorem dropWhile_append_of_stops (hxs : ∀ c ∈ xs, p c) (hys : Stops p ys) :
    (xs ++ ys).dropWhile p = ys := by
  rw [List.dropWhile_append_of_pos hxs]
  cases ys with
  | nil => simp
  | cons c ys => simp [stops_cons.1 hys]

theorem dropWhile_of_stops (hys : Stops p ys) : ys.dropWhile p = ys :=
  dropWhile_append_of_stops (by simp : ∀ c ∈ [], p c) hys

end

/-- The decimal digits of a number. -/
abbrev digits (n : Nat) : List Char :=
  Nat.toDigits 10 n

theorem isDigit_of_mem_digits {n : Nat} {c : Char} (h : c ∈ digits n) : c.isDigit :=
  Nat.isDigit_of_mem_toDigits (by decide) (by decide) h

theorem exists_digits_eq_cons (n : Nat) : ∃ c cs, digits n = c :: cs ∧ c.isDigit := by
  obtain ⟨c, cs, h⟩ := List.exists_cons_of_ne_nil (Nat.toDigits_ne_nil (n := n) (b := 10))
  exact ⟨c, cs, h, isDigit_of_mem_digits (h ▸ List.mem_cons_self)⟩

theorem not_isBlank_of_isDigit {c : Char} (h : c.isDigit) : Text.isBlank c = false := by
  simp only [Char.isDigit, Bool.and_eq_true, decide_eq_true_eq, UInt32.le_iff_toNat_le] at h
  have hlo : 48 ≤ c.toNat := h.1
  have hhi : c.toNat ≤ 57 := h.2
  simp only [Text.isBlank, Text.blankCodes, List.contains_eq_mem, decide_eq_false_iff_not,
    List.mem_cons, List.not_mem_nil, or_false]
  omega

namespace Duration

theorem ofDigits_digits (n : Nat) : ofDigits (digits n) = n := by
  have h : ofDigits (digits n) = Nat.ofDigitChars 10 (digits n) 0 := by
    simp [ofDigits, Nat.ofDigitChars_eq_foldl, Nat.mul_comm]
  rw [h, Nat.ofDigitChars_ten_toDigits]

/-! ## Sums -/

theorem toNat_nanos_lt (d : Duration) : d.nanos.toNat < 1000000000 :=
  UInt32.lt_iff_toNat_lt.1 d.nanos_lt

theorem ofNanos?_toNanos (d : Duration) : ofNanos? d.toNanos = some d := by
  have hnanos := d.toNat_nanos_lt
  have hseconds : d.toNanos / 1000000000 = d.seconds.toNat := by
    rw [toNanos]
    omega
  have hrest : d.toNanos % 1000000000 = d.nanos.toNat := by
    rw [toNanos]
    omega
  have hfits : d.seconds.toNat < UInt64.size := d.seconds.toNat_lt
  simp [ofNanos?, hseconds, hrest, hfits]

theorem toNanos_lt (d : Duration) : d.toNanos < UInt64.size * 1000000000 := by
  have hnanos := d.toNat_nanos_lt
  have hseconds : d.seconds.toNat < UInt64.size := d.seconds.toNat_lt
  rw [toNanos]
  simp only [UInt64.size] at hseconds ⊢
  omega

theorem exists_toNanos_eq {n : Nat} (h : n < UInt64.size * 1000000000) :
    ∃ d : Duration, d.toNanos = n := by
  have hseconds : n / 1000000000 < UInt64.size := by omega
  have hnanos : n % 1000000000 < UInt32.size := by
    have : n % 1000000000 < 1000000000 := Nat.mod_lt _ (by decide)
    simp only [UInt32.size]
    omega
  refine ⟨{ seconds := UInt64.ofNat (n / 1000000000), nanos := UInt32.ofNat (n % 1000000000),
            nanos_lt := ?_ }, ?_⟩
  · rw [UInt32.lt_iff_toNat_lt, UInt32.toNat_ofNat_of_lt' hnanos]
    exact Nat.mod_lt _ (by decide)
  · rw [toNanos, UInt64.toNat_ofNat_of_lt' hseconds, UInt32.toNat_ofNat_of_lt' hnanos]
    omega

theorem toNanos_inj {d e : Duration} (h : d.toNanos = e.toNanos) : d = e := by
  have hd := ofNanos?_toNanos d
  rw [h, ofNanos?_toNanos] at hd
  exact (Option.some.inj hd).symm

theorem word?_eq_some {n : Nat} (h : n < UInt64.size) : word? n = some n := if_pos h

/-- Grains add up. Those of a nanosecond are added in a word of nanoseconds, so there have to be few
of them. -/
theorem addGrains_eq {d e : Duration} {n grain : Nat} (h : d.toNanos + n * grain = e.toNanos)
    (hfine : grain = 1 → n < 1000000000) : d.addGrains n grain = some e := by
  have hsum : ofNanos? (d.toNanos + n * grain) = some e := by rw [h, ofNanos?_toNanos]
  unfold addGrains
  split
  · next hg =>
    have hn := hfine hg
    have hnanos := d.toNat_nanos_lt
    have hword : word? (d.nanos.toNat + n) = some (d.nanos.toNat + n) := by
      refine word?_eq_some ?_
      simp only [UInt64.size]
      omega
    simp [hword, hsum]
  · simp [hsum]

theorem grains_mul_wholeGrain (unit : TimeUnit) :
    unit.nanos / unit.wholeGrain * unit.wholeGrain = unit.nanos := by
  cases unit <;> decide

theorem grains_pos (unit : TimeUnit) : 0 < unit.nanos / unit.wholeGrain := by
  cases unit <;> decide

theorem wholeGrain_cases (unit : TimeUnit) :
    unit.wholeGrain = 1 ∨ unit.wholeGrain = 1000000000 := by
  cases unit <;> decide

/-- Whole units add up. -/
theorem addWhole_eq {d e : Duration} {n : Nat} {unit : TimeUnit}
    (h : d.toNanos + n * unit.nanos = e.toNanos)
    (hfine : unit.wholeGrain = 1 → n * unit.nanos < 1000000000) : d.addWhole n unit = some e := by
  have hlt := e.toNanos_lt
  have hmul : n * (unit.nanos / unit.wholeGrain) * unit.wholeGrain = n * unit.nanos := by
    rw [Nat.mul_assoc, grains_mul_wholeGrain]
  rw [← hmul] at h hfine
  have hgrains : n * (unit.nanos / unit.wholeGrain) < UInt64.size := by
    rcases wholeGrain_cases unit with hg | hg
    · have := hfine hg
      rw [hg, Nat.mul_one] at this
      rw [hg]
      simp only [UInt64.size]
      omega
    · rw [hg] at h ⊢
      omega
  have hn : n < UInt64.size :=
    Nat.lt_of_le_of_lt (Nat.le_mul_of_pos_right n (grains_pos unit)) hgrains
  simp only [addWhole, word?_eq_some hn, word?_eq_some hgrains, Option.bind_eq_bind,
    Option.bind_some]
  refine addGrains_eq h fun hg => ?_
  simpa [hg] using hfine hg

/-! ## Parts of a duration -/

/-- An amount that is a whole number of units, with the name it is written with. -/
structure Part where
  count : Nat
  unit : TimeUnit
  name : String

namespace Part

/-- The nanoseconds of a part. -/
def nanos (p : Part) : Nat :=
  p.unit.nanos * p.count

/-- The part as written. -/
def written (p : Part) : List Char :=
  digits p.count ++ p.name.toList

/-- Letters of which the names of units consist, and which end a number. -/
def isNameLetter (c : Char) : Bool :=
  isUnitLetter c && !isNumeral c && c != '.'

/-- The name is one of the unit, and what is below a second is less than a second. -/
structure Sound (p : Part) : Prop where
  named : TimeUnit.ofName? p.name = some p.unit
  letters : p.name.toList ≠ [] ∧ p.name.toList.all isNameLetter
  fine : p.unit.wholeGrain = 1 → p.nanos < 1000000000

end Part

/-- The nanoseconds of all parts. -/
def total : List Part → Nat
  | [] => 0
  | p :: ps => p.nanos + total ps

/-- Adds a part. -/
def addPart (d : Duration) (p : Part) : Option Duration :=
  (TimeUnit.ofName? p.name).bind (d.addWhole p.count)

/-- Parts add up to a duration, if their sum is one. -/
theorem foldlM_addPart {ps : List Part} (hps : ∀ p ∈ ps, p.Sound) {d e : Duration}
    (h : d.toNanos + total ps = e.toNanos) : ps.foldlM addPart d = some e := by
  induction ps generalizing d with
  | nil =>
    rw [total, Nat.add_zero] at h
    rw [toNanos_inj h]
    rfl
  | cons p ps ih =>
    obtain ⟨hp, hps⟩ := List.forall_mem_cons.1 hps
    rw [total] at h
    have hlt := e.toNanos_lt
    obtain ⟨d', hd'⟩ := exists_toNanos_eq (n := d.toNanos + p.nanos) (by omega)
    have hadd : d.addPart p = some d' := by
      rw [addPart, hp.named]
      refine addWhole_eq ?_ ?_
      · rw [hd', Nat.mul_comm, Part.nanos]
      · rw [Nat.mul_comm]
        exact hp.fine
    rw [List.foldlM_cons, hadd]
    exact ih hps (by omega)

/-! ## Rows of parts -/

theorem splitAmount_written {p : Part} (hp : p.Sound) {rest : List Char}
    (hrest : Stops isUnitLetter rest) : splitAmount (p.written ++ rest) =
      ({ whole := digits p.count, places := none, unit := p.name.toList }, rest) := by
  obtain ⟨hne, hall⟩ := hp.letters
  have hletters : ∀ c ∈ p.name.toList,
      (isUnitLetter c = true ∧ isNumeral c = false) ∧ c ≠ '.' := by
    simpa [Part.isNameLetter] using hall
  have hunit : ∀ c ∈ p.name.toList, isUnitLetter c := fun c hc => (hletters c hc).1.1
  have hdigits : ∀ c ∈ digits p.count, isNumeral c := by
    intro c hc
    simp [isNumeral, isDigit_of_mem_digits hc]
  obtain ⟨a, as, hname⟩ := List.exists_cons_of_ne_nil hne
  obtain ⟨⟨-, hnumeral⟩, hpoint⟩ := hletters a (by simp [hname])
  have hstops : Stops isNumeral (p.name.toList ++ rest) := by simp [hname, hnumeral]
  have hplaces : ∀ tail, p.name.toList ++ rest ≠ '.' :: tail := by
    intro tail h
    rw [hname] at h
    exact hpoint (List.cons.inj h).1
  rw [Part.written, List.append_assoc, splitAmount]
  simp only [takeWhile_append_of_stops hdigits hstops, dropWhile_append_of_stops hdigits hstops,
    takeWhile_append_of_stops hunit hrest, dropWhile_append_of_stops hunit hrest,
    List.filter_eq_self.2 fun c hc => isDigit_of_mem_digits hc]

theorem addAmount_part (d : Duration) (p : Part) :
    d.addAmount { whole := digits p.count, places := none, unit := p.name.toList } =
      d.addPart p := by
  simp only [addAmount, addPart, ofDigits_digits, String.ofList_toList]
  cases TimeUnit.ofName? p.name with
  | none => rfl
  | some unit => simp

/-- Parts with a blank in front of each one. -/
def rowTail (ps : List Part) : List Char :=
  ps.flatMap fun p => ' ' :: p.written

theorem stops_rowTail (ps : List Part) : Stops isUnitLetter (rowTail ps) := by
  cases ps with
  | nil => simp [rowTail]
  | cons p ps =>
    simp only [rowTail, List.flatMap_cons, List.cons_append, stops_cons]
    decide

theorem exists_written_eq_cons (p : Part) : ∃ c cs, p.written = c :: cs ∧ c.isDigit := by
  obtain ⟨c, cs, h, hc⟩ := exists_digits_eq_cons p.count
  exact ⟨c, cs ++ p.name.toList, by rw [Part.written, h, List.cons_append], hc⟩

/-- The first part of a row is read on its own. -/
theorem addAmounts_part {p : Part} (hp : p.Sound) {ps : List Part} {d : Duration} {cs : List Char}
    (hcs : cs.dropWhile Text.isBlank = p.written ++ rowTail ps) :
    d.addAmounts cs = (d.addPart p).bind fun d' =>
      match rowTail ps with
      | [] => some d'
      | c :: rest => if c.isDigit || Text.isBlank c then d'.addAmounts (c :: rest) else none := by
  obtain ⟨c, rest, hw, hc⟩ := exists_written_eq_cons p
  have hsplit := splitAmount_written hp (stops_rowTail ps)
  rw [hw, List.cons_append] at hcs hsplit
  rw [addAmounts]
  split
  · next hnil => simp [hnil] at hcs
  · next c' rest' hcs' =>
    obtain ⟨rfl, rfl⟩ := List.cons.inj (hcs'.symm.trans hcs)
    rw [dif_pos hc, hsplit, addAmount_part]
    cases d.addPart p with
    | none => rfl
    | some d' =>
      simp only [Option.bind_some]
      split <;> next h => simp_all

/-- A row is read part by part. -/
theorem addAmounts_row {p : Part} {ps : List Part} (hps : ∀ q ∈ p :: ps, q.Sound) {d : Duration}
    {cs : List Char} (hcs : cs.dropWhile Text.isBlank = p.written ++ rowTail ps) :
    d.addAmounts cs = (p :: ps).foldlM addPart d := by
  induction ps generalizing p d cs with
  | nil =>
    rw [addAmounts_part (hps p List.mem_cons_self) hcs, List.foldlM_cons]
    cases d.addPart p <;> rfl
  | cons q ps ih =>
    rw [addAmounts_part (hps p List.mem_cons_self) hcs, List.foldlM_cons]
    cases d.addPart p with
    | none => rfl
    | some d' =>
      have hblank : (' '.isDigit || Text.isBlank ' ') = true := by decide
      have hdrop : (' ' :: (q.written ++ rowTail ps)).dropWhile Text.isBlank =
          q.written ++ rowTail ps := by
        obtain ⟨c, cs, hq, hc⟩ := exists_written_eq_cons q
        rw [List.dropWhile_cons_of_pos (by decide), hq]
        exact dropWhile_of_stops (by simp [not_isBlank_of_isDigit hc])
      simp only [rowTail, List.flatMap_cons, List.cons_append, hblank, if_true]
      exact ih (fun r hr => hps r (List.mem_cons_of_mem _ hr)) hdrop

/-! ## The written form -/

/-- The name of a unit with a plural, for so many. -/
def plural (n : Nat) (name : String) : String :=
  if n = 1 then name else name ++ "s"

/-- The parts with these counts, the largest unit first. -/
def partsOf (years months days hours minutes seconds millis micros nanos : Nat) : List Part :=
  [⟨years, .year, plural years "year"⟩, ⟨months, .month, plural months "month"⟩,
    ⟨days, .day, plural days "day"⟩, ⟨hours, .hour, "h"⟩, ⟨minutes, .minute, "m"⟩,
    ⟨seconds, .second, "s"⟩, ⟨millis, .millisecond, "ms"⟩, ⟨micros, .microsecond, "us"⟩,
    ⟨nanos, .nanosecond, "ns"⟩]

/-- The parts of a duration, also those that are nothing. -/
def parts (d : Duration) : List Part :=
  let inYear := d.seconds.toNat % 31557600
  let inMonth := inYear % 2630016
  let inDay := inMonth % 86400
  let nanos := d.nanos.toNat
  partsOf (d.seconds.toNat / 31557600) (inYear / 2630016) (inMonth / 86400) (inDay / 3600)
    (inDay % 3600 / 60) (inDay % 60) (nanos / 1000000) (nanos / 1000 % 1000) (nanos % 1000)

/-- Seconds are years, months, days, hours, minutes and seconds. -/
theorem seconds_split (s : Nat) :
    s / 31557600 * 31557600 + s % 31557600 / 2630016 * 2630016
      + s % 31557600 % 2630016 / 86400 * 86400
      + s % 31557600 % 2630016 % 86400 / 3600 * 3600
      + s % 31557600 % 2630016 % 86400 % 3600 / 60 * 60
      + s % 31557600 % 2630016 % 86400 % 60 = s := by
  omega

theorem nanos_split (n : Nat) :
    n / 1000000 * 1000000 + n / 1000 % 1000 * 1000 + n % 1000 = n := by
  omega

theorem total_partsOf (years months days hours minutes seconds millis micros nanos : Nat) :
    total (partsOf years months days hours minutes seconds millis micros nanos) =
      (years * 31557600 + months * 2630016 + days * 86400 + hours * 3600 + minutes * 60 + seconds)
        * 1000000000 + (millis * 1000000 + micros * 1000 + nanos) := by
  simp only [partsOf, total, Part.nanos, TimeUnit.nanos]
  omega

theorem total_parts (d : Duration) : total d.parts = d.toNanos := by
  simp only [parts, total_partsOf, seconds_split, nanos_split, toNanos]

theorem sound_named {n : Nat} {unit : TimeUnit} {name : String}
    (h : TimeUnit.ofName? name = some unit ∧ name.toList ≠ [] ∧ name.toList.all Part.isNameLetter)
    (hfine : unit.wholeGrain = 1 → unit.nanos * n < 1000000000) : Part.Sound ⟨n, unit, name⟩ :=
  ⟨h.1, h.2, hfine⟩

theorem sound_plural {n : Nat} {unit : TimeUnit} {name : String}
    (h : ∀ s ∈ [name, name ++ "s"], TimeUnit.ofName? s = some unit ∧ s.toList ≠ [] ∧
      s.toList.all Part.isNameLetter) (hunit : unit.wholeGrain ≠ 1) :
    Part.Sound ⟨n, unit, plural n name⟩ := by
  refine sound_named (h _ ?_) fun hone => absurd hone hunit
  unfold plural
  split <;> simp

theorem sound_partsOf {years months days hours minutes seconds millis micros nanos : Nat}
    (hmillis : millis < 1000) (hmicros : micros < 1000) (hnanos : nanos < 1000) :
    ∀ p ∈ partsOf years months days hours minutes seconds millis micros nanos, p.Sound := by
  intro p hp
  simp only [partsOf, List.mem_cons, List.not_mem_nil, or_false] at hp
  rcases hp with rfl | rfl | rfl | rfl | rfl | rfl | rfl | rfl | rfl
  · exact sound_plural (by decide) (by decide)
  · exact sound_plural (by decide) (by decide)
  · exact sound_plural (by decide) (by decide)
  · exact sound_named (by decide) fun h => absurd h (by decide)
  · exact sound_named (by decide) fun h => absurd h (by decide)
  · exact sound_named (by decide) fun h => absurd h (by decide)
  all_goals
    refine sound_named (by decide) fun _ => ?_
    simp only [TimeUnit.nanos]
    omega

theorem sound_parts (d : Duration) : ∀ p ∈ d.parts, p.Sound := by
  have hnanos := d.toNat_nanos_lt
  exact sound_partsOf (by omega) (Nat.mod_lt _ (by decide)) (Nat.mod_lt _ (by decide))

/-- The parts that are written down. -/
def shownParts (d : Duration) : List Part :=
  d.parts.filter fun p => p.count != 0

/-- The text of a part. -/
def Part.text (p : Part) : String :=
  toString p.count ++ p.name

theorem toList_text_part (p : Part) : p.text.toList = p.written := by
  simp [Part.text, Part.written, digits, Nat.toString_eq_repr]

theorem amount_eq (n : Nat) (unit : TimeUnit) (name : String) :
    amount n name = ([⟨n, unit, name⟩].filter fun p : Part => p.count != 0).map (·.text) := by
  by_cases h : n = 0
  · simp [amount, h]
  · simp [amount, h, Part.text]

theorem amountOf_eq (n : Nat) (unit : TimeUnit) (name : String) :
    amountOf n name =
      ([⟨n, unit, plural n name⟩].filter fun p : Part => p.count != 0).map (·.text) :=
  amount_eq n unit (plural n name)

theorem amounts_eq (d : Duration) : d.amounts = d.shownParts.map (·.text) := by
  simp only [amounts, shownParts, parts, partsOf]
  rw [amountOf_eq _ .year, amountOf_eq _ .month, amountOf_eq _ .day, amount_eq _ .hour,
    amount_eq _ .minute, amount_eq _ .second, amount_eq _ .millisecond, amount_eq _ .microsecond,
    amount_eq _ .nanosecond]
  simp only [← List.map_append, ← List.filter_append, List.cons_append, List.nil_append]

/-- Only nothing is left out. -/
theorem total_shownParts (d : Duration) : total d.shownParts = d.toNanos := by
  rw [← total_parts, shownParts]
  induction d.parts with
  | nil => rfl
  | cons p ps ih =>
    by_cases h : p.count = 0
    · rw [List.filter_cons_of_neg (by simp [h]), ih, total, Part.nanos, h, Nat.mul_zero,
        Nat.zero_add]
    · rw [List.filter_cons_of_pos (by simp [h]), total, total, ih]

theorem intercalate_blank (x : List Char) (xs : List (List Char)) :
    List.intercalate [' '] (x :: xs) = x ++ xs.flatMap (' ' :: ·) := by
  induction xs generalizing x with
  | nil => simp
  | cons y ys ih => simp [List.intercalate_cons_cons, ih]

/-- A text is a row of its parts. -/
theorem toList_text {d : Duration} {p : Part} {ps : List Part} (h : d.shownParts = p :: ps) :
    d.text.toList = p.written ++ rowTail ps := by
  have hamounts : d.amounts = p.text :: ps.map (·.text) := by
    rw [amounts_eq, h, List.map_cons]
  simp only [text, hamounts, String.toList_intercalate, List.map_cons, List.map_map]
  rw [show " ".toList = [' '] from rfl, intercalate_blank]
  simp [rowTail, toList_text_part, List.flatMap_map, Function.comp_def]

/-- What a row of parts says. -/
theorem ofText?_row {s : String} {p : Part} {ps : List Part} {d : Duration}
    (hs : s.toList = p.written ++ rowTail ps) (hps : ∀ q ∈ p :: ps, q.Sound)
    (htotal : total (p :: ps) = d.toNanos) : ofText? s = some d := by
  obtain ⟨c, cs, hw, hc⟩ := exists_written_eq_cons p
  have hblank := not_isBlank_of_isDigit hc
  -- a part is longer than the single digit that stands for nothing
  have hzero : s ≠ "0" := by
    rintro rfl
    have hlen := congrArg List.length hs
    obtain ⟨e, es, hdigits, -⟩ := exists_digits_eq_cons p.count
    have hname := List.length_pos_iff.2 (hps p List.mem_cons_self).letters.1
    simp only [Part.written, hdigits, List.length_append, List.length_cons] at hlen
    simp at hlen
    omega
  have hall : s.toList.all Text.isBlank = false := by simp [hs, hw, hblank]
  have hdrop : s.toList.dropWhile Text.isBlank = p.written ++ rowTail ps := by
    rw [hs]
    exact dropWhile_of_stops (by simp [hw, hblank])
  rw [ofText?, if_neg hzero, if_neg (by simp [hall]), addAmounts_row hps hdrop]
  exact foldlM_addPart hps (by simpa [zero, toNanos] using htotal)

/-- A duration reads back from its text. -/
theorem ofText?_text (d : Duration) : ofText? d.text = some d := by
  cases h : d.shownParts with
  | nil =>
    have hd : d.toNanos = zero.toNanos := by
      rw [← total_shownParts, h]
      rfl
    have htext : d.text = "0s" := by simp [text, amounts_eq, h]
    rw [htext, toNanos_inj hd]
    have hsound : ∀ p ∈ [(⟨0, .second, "s"⟩ : Part)], p.Sound := by
      simpa using sound_named (by decide) fun h => absurd h (by decide)
    refine ofText?_row ?_ hsound ?_ <;> rfl
  | cons p ps =>
    refine ofText?_row (toList_text h) (fun q hq => sound_parts d q ?_) ?_
    · exact (List.mem_filter.1 (h ▸ hq)).1
    · rw [← h, total_shownParts]

end Duration

end ShardIndex
