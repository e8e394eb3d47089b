import ShardIndex.Config.Scan
import ShardIndex.Json.Printer
import ShardIndex.Proofs.Config.DurationText
/-!
# Scanning JSON text that was written

What the writer writes, the scanner reads: strings with their escapes (`Scan.string_escaped`),
words of digits (`Scan.magnitude_digits`) and, where nobody wants the value, any value that holds no
others (`Scan.skipValue_chars`). A value is followed by text that does not go on with a number.
-/
namespace ShardIndex

open Json

/-- Values that hold no others. -/
def Json.isScalar : Json → Bool
  | .array _ | .object _ => false
  | _ => true

namespace Scan

section

variable {ε α β : Type}

@[simp] theorem ok_bind (a : α) (f : α → Except ε β) : (Except.ok a >>= f) = f a := rfl

@[simp] theorem pure_eq_ok (a : α) : (pure a : Except ε α) = .ok a := rfl

@[simp] theorem map_ok (a : α) (f : α → β) : (Except.ok a : Except ε α).map f = .ok (f a) := rfl

end

/-! ## Strings -/

theorem hexValue?_digitChar : ∀ n < 16, hexValue? (Nat.digitChar n) = some n := by
  decide

theorem fourDigits_hexText {n : Nat} (hn : n < 0x10000) (rest : List Char) :
    fourDigits ((hexText 4 n).toList ++ rest) = .ok (n, rest) := by
  have hdigit (i : Nat) : hexValue? (Nat.digitChar (n >>> i % 16)) = some (n >>> i % 16) :=
    hexValue?_digitChar _ (Nat.mod_lt _ (by decide))
  have hdigits : (hexText 4 n).toList =
      [Nat.digitChar (n >>> 12 % 16), Nat.digitChar (n >>> 8 % 16),
        Nat.digitChar (n >>> 4 % 16), Nat.digitChar (n >>> 0 % 16)] := by
    rw [hexText, String.toList_ofList]
    rfl
  have hnumber :
      ((n >>> 12 % 16 * 16 + n >>> 8 % 16) * 16 + n >>> 4 % 16) * 16 + n >>> 0 % 16 = n := by
    simp only [Nat.shiftRight_eq_div_pow]
    omega
  simp only [hdigits, List.cons_append, List.nil_append, fourDigits, hdigit, hnumber]

/-- A character stands for itself, or behind a backslash stands what reads as it. -/
theorem escapeChar_cases (c : Char) :
    (escapeChar c = [c] ∧ c ≠ '"' ∧ c ≠ '\\' ∧ ¬ c.toNat < 0x20) ∨
      ∃ cs, escapeChar c = '\\' :: cs ∧
        ∀ rest, escape (cs ++ rest) = .ok (c, rest) ∧ skipEscape (cs ++ rest) = .ok rest := by
  have hshort {d : Char} (h : shortEscape? d = some c) (hd : d ≠ 'u') (rest : List Char) :
      escape ([d] ++ rest) = .ok (c, rest) ∧ skipEscape ([d] ++ rest) = .ok rest := by
    simp [escape, skipEscape, h, hd]
  unfold escapeChar
  iterate 5
    split
    · next h => exact .inr ⟨_, rfl, hshort (by simp [h, shortEscape?]) (by decide)⟩
  split
  · next h =>
    refine .inr ⟨_, rfl, fun rest => ?_⟩
    have hfour := fourDigits_hexText (n := c.toNat) (by omega) rest
    have hplane : c.toNat < 0xd800 := by omega
    simp [escape, skipEscape, shortEscape?, codePoint, hfour, hplane]
  · next hquote hslash _ _ _ hcontrol => exact .inl ⟨rfl, hquote, hslash, hcontrol⟩

theorem length_le_escaped (s : List Char) : s.length ≤ (s.flatMap escapeChar).length := by
  induction s with
  | nil => simp
  | cons c s ih =>
    have hpos : 0 < (escapeChar c).length := by
      rcases escapeChar_cases c with ⟨h, -⟩ | ⟨cs, h, -⟩ <;> simp [h]
    simp only [List.flatMap_cons, List.length_append, List.length_cons]
    omega

theorem characters_escaped {n : Nat} {s : List Char} (hn : s.length < n) (rest : List Char) :
    characters n (s.flatMap escapeChar ++ '"' :: rest) = .ok (s, rest) := by
  induction s generalizing n with
  | nil =>
    cases n with
    | zero => simp at hn
    | succ n => simp [characters]
  | cons c s ih =>
    cases n with
    | zero => simp at hn
    | succ n =>
      have ih := ih (n := n) (by simpa using hn)
      rw [List.flatMap_cons, List.append_assoc]
      rcases escapeChar_cases c with ⟨hc, hquote, hslash, hcontrol⟩ | ⟨cs, hc, hcs⟩
      · simp [hc, characters, hquote, hslash, hcontrol, ih]
      · simp [hc, characters, hcs, ih]

theorem skipCharacters_escaped {n : Nat} {s : List Char} (hn : s.length < n) (rest : List Char) :
    skipCharacters n (s.flatMap escapeChar ++ '"' :: rest) = .ok rest := by
  induction s generalizing n with
  | nil =>
    cases n with
    | zero => simp at hn
    | succ n => simp [skipCharacters]
  | cons c s ih =>
    cases n with
    | zero => simp at hn
    | succ n =>
      have ih := ih (n := n) (by simpa using hn)
      rw [List.flatMap_cons, List.append_assoc]
      rcases escapeChar_cases c with ⟨hc, hquote, hslash, hcontrol⟩ | ⟨cs, hc, hcs⟩
      · simp [hc, skipCharacters, hquote, hslash, hcontrol, ih]
      · simp [hc, skipCharacters, hcs, ih]

theorem string_escaped (s : String) (rest : List Char) :
    string (s.toList.flatMap escapeChar ++ '"' :: rest) = .ok (s, rest) := by
  have hle := length_le_escaped s.toList
  rw [string, characters_escaped (by simp only [List.length_append]; omega)]
  simp

theorem skipString_escaped (s : String) (rest : List Char) :
    skipString (s.toList.flatMap escapeChar ++ '"' :: rest) = .ok rest := by
  have hle := length_le_escaped s.toList
  rw [skipString, skipCharacters_escaped (by simp only [List.length_append]; omega)]

/-! ## Numbers -/

/-- Characters with which a number goes on. -/
def isNumberChar (c : Char) : Bool :=
  c.isDigit || c == '.' || c == 'e' || c == 'E'

theorem ne_of_isDigit {c d : Char} (hc : c.isDigit) (hd : d.isDigit = false) : c ≠ d := by
  rintro rfl
  simp [hc] at hd

theorem isNumberChar_eq_false {c : Char} :
    isNumberChar c = false ↔ c.isDigit = false ∧ c ≠ '.' ∧ c ≠ 'e' ∧ c ≠ 'E' := by
  simp [isNumberChar, and_assoc]

theorem stops_isDigit {rest : List Char} (h : Stops isNumberChar rest) :
    Stops Char.isDigit rest :=
  fun c hc => (isNumberChar_eq_false.1 (h c hc)).1

/-- Only the number zero begins with a zero. -/
theorem digits_zero_cons {n : Nat} {cs : List Char} (h : digits n = '0' :: cs) : cs = [] := by
  induction n using Nat.strongRecOn generalizing cs with
  | ind n ih =>
    by_cases hn : n < 10
    · rw [digits, Nat.toDigits_of_lt_base hn] at h
      exact (List.cons.inj h).2.symm
    · have hlast : digits n = digits (n / 10) ++ [Nat.digitChar (n % 10)] :=
        Nat.toDigits_of_base_le (by decide) (by omega)
      obtain ⟨c, ds, hds, -⟩ := exists_digits_eq_cons (n / 10)
      rw [hlast, hds, List.cons_append] at h
      obtain ⟨rfl, -⟩ := List.cons.inj h
      -- what is left of the number is zero, then, but it has a second digit
      have hvalue := Duration.ofDigits_digits (n / 10)
      rw [hds, ih (n / 10) (by omega) hds] at hvalue
      have : n / 10 = 0 := hvalue.symm
      omega

theorem le_foldl_digits (cs : List Char) (n : Nat) :
    n ≤ cs.foldl (fun n c => n * 10 + (c.toNat - '0'.toNat)) n := by
  induction cs generalizing n with
  | nil => simp
  | cons c cs ih =>
    have h := ih (n * 10 + (c.toNat - '0'.toNat))
    rw [List.foldl_cons]
    omega

/-- A word takes all digits of a number that fits. -/
theorem significand_eq {cs : List Char} {s n : Nat}
    (hcs : cs.foldl (fun n c => n * 10 + (c.toNat - '0'.toNat)) s = n) (hn : n < UInt64.size) :
    significand cs s = (n, 0) := by
  induction cs generalizing s with
  | nil => simp_all [significand]
  | cons c cs ih =>
    rw [List.foldl_cons] at hcs
    have hle := le_foldl_digits cs (s * 10 + (c.toNat - '0'.toNat))
    rw [significand, if_pos (by omega), ih hcs]

/-- A whole number is plain if nothing goes on with it. -/
theorem fraction_of_stops (n : Nat) {rest : List Char} (hrest : Stops isNumberChar rest) :
    fraction n 0 rest = .ok (true, rest) := by
  cases rest with
  | nil => simp [fraction, inFloatRange]
  | cons c rest =>
    obtain ⟨-, hpoint, he, hE⟩ := isNumberChar_eq_false.1 (stops_cons.1 hrest)
    simp [fraction, inFloatRange, hpoint, he, hE]

theorem magnitude_digits {n : Nat} (hn : n < UInt64.size) {rest : List Char}
    (hrest : Stops isNumberChar rest) : magnitude (digits n ++ rest) = .ok (some n, rest) := by
  obtain ⟨c, cs, hdigits, hc⟩ := exists_digits_eq_cons n
  have hcs : ∀ d ∈ cs, d.isDigit := by
    intro d hd
    exact isDigit_of_mem_digits (n := n) (by simp [hdigits, hd])
  have hzero : ¬ (c = '0' ∧ 1 < (c :: cs).length) := by
    rintro ⟨rfl, hlt⟩
    simp [digits_zero_cons hdigits] at hlt
  have hsig : significand (c :: cs) 0 = (n, 0) := by
    rw [← hdigits]
    exact significand_eq (Duration.ofDigits_digits n) hn
  simp only [hdigits, List.cons_append, magnitude, hc, if_true,
    takeWhile_append_of_stops hcs (stops_isDigit hrest),
    dropWhile_append_of_stops hcs (stops_isDigit hrest), if_neg hzero, hsig,
    fraction_of_stops n hrest]
  simp

theorem number_digits {n : Nat} (hn : n < UInt64.size) {rest : List Char}
    (hrest : Stops isNumberChar rest) : number (digits n ++ rest) = .ok (some n, rest) := by
  have hmagnitude := magnitude_digits hn hrest
  obtain ⟨c, cs, hdigits, hc⟩ := exists_digits_eq_cons n
  rw [hdigits, List.cons_append] at hmagnitude ⊢
  have hsign : c ≠ '-' := ne_of_isDigit hc (by decide)
  simp [number, hsign, hmagnitude]

/-- Decimal places behind their point, if there are any. -/
def PlacesText (cs : List Char) : Prop :=
  cs = [] ∨ ∃ c ds, cs = '.' :: c :: ds ∧ ∀ d ∈ c :: ds, d.isDigit

theorem numberText_cases (mantissa : Int) (places : Nat) :
    ∃ sign n cs, numberText mantissa places = sign ++ (digits n ++ cs) ∧
      (sign = [] ∨ sign = ['-']) ∧ PlacesText cs := by
  have hsign : (if mantissa < 0 then ['-'] else []) = [] ∨
      (if mantissa < 0 then ['-'] else []) = ['-'] := by
    split <;> simp
  by_cases hplaces : places = 0
  · refine ⟨_, mantissa.natAbs, [], ?_, hsign, .inl rfl⟩
    simp [numberText, hplaces, digits, Nat.toString_eq_repr]
  · let r := mantissa.natAbs % Nat.pow 10 places
    refine ⟨_, mantissa.natAbs / Nat.pow 10 places, '.' ::
      (List.replicate (places - (digits r).length) '0' ++ digits r), ?_, hsign, .inr ?_⟩
    · simp [numberText, hplaces, digits, Nat.toString_eq_repr, r]
    · obtain ⟨c, ds, hcs⟩ := List.exists_cons_of_ne_nil
        (l := List.replicate (places - (digits r).length) '0' ++ digits r)
        (by simp [digits, Nat.toDigits_ne_nil])
      refine ⟨c, ds, by rw [hcs], ?_⟩
      rw [← hcs]
      intro d hd
      rcases List.mem_append.1 hd with hd | hd
      · rw [List.eq_of_mem_replicate hd]
        decide
      · exact isDigit_of_mem_digits hd

theorem skipDigits_append {c : Char} {cs rest : List Char} (hcs : ∀ d ∈ c :: cs, d.isDigit)
    (hrest : Stops Char.isDigit rest) : skipDigits (c :: cs ++ rest) = .ok rest := by
  obtain ⟨hc, hcs⟩ := List.forall_mem_cons.1 hcs
  simp [skipDigits, hc, dropWhile_append_of_stops hcs hrest]

theorem skipExponent_of_stops {rest : List Char} (hrest : Stops isNumberChar rest) :
    skipExponent rest = .ok rest := by
  cases rest with
  | nil => rfl
  | cons c rest =>
    obtain ⟨-, -, he, hE⟩ := isNumberChar_eq_false.1 (stops_cons.1 hrest)
    simp [skipExponent, he, hE]

theorem stops_places {cs rest : List Char} (hcs : PlacesText cs)
    (hrest : Stops isNumberChar rest) : Stops Char.isDigit (cs ++ rest) := by
  rcases hcs with rfl | ⟨c, ds, rfl, -⟩
  · exact stops_isDigit hrest
  · simp only [List.cons_append, stops_cons]
    decide

/-- Skips what follows the whole part of a number. -/
def skipPlaces (cs : List Char) : Except ReadFault (List Char) :=
  match cs with
  | '.' :: rest => do skipExponent (← skipDigits rest)
  | _ => skipExponent cs

theorem skipPlaces_text {cs rest : List Char} (hcs : PlacesText cs)
    (hrest : Stops isNumberChar rest) : skipPlaces (cs ++ rest) = .ok rest := by
  rcases hcs with rfl | ⟨c, ds, rfl, hds⟩
  · cases rest with
    | nil => rfl
    | cons d rest =>
      obtain ⟨-, hpoint, he, hE⟩ := isNumberChar_eq_false.1 (stops_cons.1 hrest)
      simp [skipPlaces, skipExponent, hpoint, he, hE]
  · rw [List.cons_append, skipPlaces, skipDigits_append hds (stops_isDigit hrest), ok_bind,
      skipExponent_of_stops hrest]

theorem skipMagnitude_zero {cs : List Char} (hcs : Stops Char.isDigit cs) :
    skipMagnitude ('0' :: cs) = skipPlaces cs := by
  have hhead : cs.head?.any Char.isDigit = false := by
    cases cs with
    | nil => rfl
    | cons c cs => simpa using hcs
  simp only [skipMagnitude, if_true, hhead, Bool.false_eq_true, if_false, pure_eq_ok, ok_bind]
  unfold skipPlaces
  rfl

theorem skipMagnitude_append {c : Char} (hzero : c ≠ '0') {cs rest : List Char}
    (hcs : ∀ d ∈ c :: cs, d.isDigit) (hrest : Stops Char.isDigit rest) :
    skipMagnitude (c :: cs ++ rest) = skipPlaces rest := by
  have hdigits := skipDigits_append hcs hrest
  rw [List.cons_append] at hdigits ⊢
  simp only [skipMagnitude, if_neg hzero, hdigits, ok_bind]
  unfold skipPlaces
  rfl

theorem skipMagnitude_text (n : Nat) {cs rest : List Char} (hcs : PlacesText cs)
    (hrest : Stops isNumberChar rest) : skipMagnitude (digits n ++ (cs ++ rest)) = .ok rest := by
  obtain ⟨c, ds, hdigits, -⟩ := exists_digits_eq_cons n
  have hall : ∀ d ∈ c :: ds, d.isDigit := hdigits ▸ fun d hd => isDigit_of_mem_digits hd
  have hstops := stops_places hcs hrest
  rw [hdigits]
  by_cases hzero : c = '0'
  · subst hzero
    rw [digits_zero_cons hdigits, List.singleton_append, skipMagnitude_zero hstops,
      skipPlaces_text hcs hrest]
  · rw [skipMagnitude_append hzero hall hstops, skipPlaces_text hcs hrest]

/-! ## Values that nobody wants -/

theorem skipToken_of_isDigit {c : Char} (hc : c.isDigit) (cs : List Char) :
    skipToken (c :: cs) = (skipMagnitude (c :: cs)).map (none, ·) := by
  have hne {d : Char} (hd : d.isDigit = false) : c ≠ d := ne_of_isDigit hc hd
  simp only [skipToken, if_neg (hne (d := 'n') (by decide)), if_neg (hne (d := 't') (by decide)),
    if_neg (hne (d := 'f') (by decide)), if_neg (hne (d := '"') (by decide)),
    if_neg (hne (d := '-') (by decide)), if_pos hc]

theorem skipToken_chars {j : Json} (hj : j.isScalar) {rest : List Char}
    (hrest : Stops isNumberChar rest) : skipToken (j.chars ++ rest) = .ok (none, rest) := by
  cases j with
  | null => simp [chars, skipToken, word]
  | bool b => cases b <;> simp [chars, skipToken, word]
  | number mantissa places =>
    obtain ⟨sign, n, cs, htext, hsign, hcs⟩ := numberText_cases mantissa places
    have hskip := skipMagnitude_text n hcs hrest
    rw [chars, htext]
    rcases hsign with rfl | rfl
    · obtain ⟨c, ds, hdigits, hc⟩ := exists_digits_eq_cons n
      rw [hdigits, List.cons_append] at hskip
      rw [hdigits, List.nil_append, List.append_assoc, List.cons_append, skipToken_of_isDigit hc,
        hskip, map_ok]
    · simp [skipToken, hskip]
  | string s => simp [chars, stringText, skipToken, skipString_escaped]
  | array items => cases hj
  | object fields => cases hj

theorem skipFrom_scalar {n : Nat} {cs rest : List Char}
    (h : skipToken (skipSpace cs) = .ok (none, rest)) :
    skipFrom (n + 2) .value [] cs = .ok rest := by
  rw [skipFrom, h, ok_bind]
  rfl

end Scan

end ShardIndex
