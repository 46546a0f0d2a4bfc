import Mathlib.Data.List.Basic
import RepoGraph.Json.Printer
import RepoGraph.Json.Reader

/-!
# Strings are read as they were written

A string is written with escapes, each character by its own: `Json.readString_escapeChar` reads the
escape of one character, and `Json.readString_quote` a whole string.

Main statement: `Json.readString_quote`.
-/

namespace RepoGraph

namespace Json

/-! ### Hexadecimal digits -/

theorem hexDigit?_hexChar : ∀ n < 16, hexDigit? (hexChar n) = some n := by decide

theorem hexDigits_four (n : Nat) :
    hexDigits 4 n =
      [hexChar (n / 16 / 16 / 16 % 16), hexChar (n / 16 / 16 % 16), hexChar (n / 16 % 16),
        hexChar (n % 16)] := by
  simp [hexDigits]

/-- Four digits of a number that has no more are read as the number. -/
theorem hex4?_hexChar {n : Nat} (h : n < 0x10000) :
    hex4? (hexChar (n / 16 / 16 / 16 % 16)) (hexChar (n / 16 / 16 % 16)) (hexChar (n / 16 % 16))
      (hexChar (n % 16)) = some n := by
  have hdigit (m : Nat) : hexDigit? (hexChar (m % 16)) = some (m % 16) :=
    hexDigit?_hexChar _ (Nat.mod_lt _ (by decide))
  rw [hex4?]
  simp only [hdigit, Option.bind_eq_bind, Option.bind_some, Option.pure_def, Option.some.injEq]
  omega

/-! ### Surrogates -/

theorem toNat_lt (c : Char) : c.toNat < 0x110000 := by
  have h := c.valid
  change c.val.toNat < 0xD800 ∨ _ at h
  change c.val.toNat < 0x110000
  rcases h with h | ⟨_, h⟩
  · omega
  · exact h

/-- A character is no surrogate. -/
theorem not_isSurrogate (c : Char) : ¬ (0xD800 ≤ c.toNat ∧ c.toNat ≤ 0xDFFF) := by
  have h := c.valid
  change c.val.toNat < 0xD800 ∨ (0xDFFF < c.val.toNat ∧ _) at h
  change ¬ (0xD800 ≤ c.val.toNat ∧ c.val.toNat ≤ 0xDFFF)
  omega

theorem charOfUnit_toNat (c : Char) : charOfUnit c.toNat = c := by
  have h := not_isSurrogate c
  have hnone : (isHighSurrogate c.toNat || isLowSurrogate c.toNat) = false := by
    simp only [isHighSurrogate, isLowSurrogate, Bool.or_eq_false_iff, Bool.and_eq_false_iff,
      decide_eq_false_iff_not]
    omega
  rw [charOfUnit, hnone, if_neg Bool.false_ne_true]
  exact Char.ofNat_toNat c

/-- The two units of a character beyond the first plane. -/
theorem charOfPair_units {c : Char} (h : 0x10000 ≤ c.toNat) :
    charOfPair (0xD800 + (c.toNat - 0x10000) / 0x400) (0xDC00 + (c.toNat - 0x10000) % 0x400) =
      c := by
  have hsum : 0x10000 + (0xD800 + (c.toNat - 0x10000) / 0x400 - 0xD800) * 0x400 +
      (0xDC00 + (c.toNat - 0x10000) % 0x400 - 0xDC00) = c.toNat := by
    omega
  rw [charOfPair, hsum]
  exact Char.ofNat_toNat c

/-! ### Strings -/

variable {start offset : Nat} {done : List Char}

/-- The escape of a unit that is no high surrogate. -/
theorem readString_escapeUnit {n : Nat} (h : n < 0x10000) (hnot : isHighSurrogate n = false)
    (next : Char) (rest : List Char) :
    readString start done offset (escapeUnit n ++ next :: rest) =
      readString start (charOfUnit n :: done) (offset + 6) (next :: rest) := by
  have hjoin : joinUnits offset n (next :: rest) = .ok (charOfUnit n, 0) := by
    rw [joinUnits.eq_def]
    split
    · rw [hnot, if_neg Bool.false_ne_true]
    · rfl
  rw [escapeUnit, hexDigits_four]
  simp only [List.cons_append, List.nil_append]
  rw [readString, hex4?_hexChar h]
  simp only [hjoin, Nat.add_zero, List.drop_zero]

/-- The escapes of a high and a low surrogate are read as one character. -/
theorem readString_escapePair {high low : Nat} (hhigh : isHighSurrogate high = true)
    (hlow : isLowSurrogate low = true) (next : Char) (rest : List Char) :
    readString start done offset (escapeUnit high ++ (escapeUnit low ++ next :: rest)) =
      readString start (charOfPair high low :: done) (offset + 12) (next :: rest) := by
  have hhigh' : high < 0x10000 := by
    rw [isHighSurrogate, Bool.and_eq_true, decide_eq_true_eq, decide_eq_true_eq] at hhigh
    omega
  have hlow' : low < 0x10000 := by
    rw [isLowSurrogate, Bool.and_eq_true, decide_eq_true_eq, decide_eq_true_eq] at hlow
    omega
  rw [escapeUnit, escapeUnit, hexDigits_four, hexDigits_four]
  simp only [List.cons_append, List.nil_append]
  rw [readString, hex4?_hexChar hhigh']
  simp only [joinUnits, hhigh, if_true, hex4?_hexChar hlow', hlow, List.drop_succ_cons,
    List.drop_zero]

/-- The units of a character beyond the first plane are a high and a low surrogate. -/
theorem isSurrogate_units {c : Char} :
    isHighSurrogate (0xD800 + (c.toNat - 0x10000) / 0x400) = true ∧
      isLowSurrogate (0xDC00 + (c.toNat - 0x10000) % 0x400) = true := by
  have hlt := toNat_lt c
  simp only [isHighSurrogate, isLowSurrogate, Bool.and_eq_true, decide_eq_true_eq]
  omega

/-- The ways in which a character is written: with a letter of its own behind a backslash, as
itself, or by the numbers of its units. -/
theorem escapeChar_cases (c : Char) :
    (∃ e, escapeChar c = ['\\', e] ∧ simpleEscape? e = some c) ∨
      (escapeChar c = [c] ∧ c ≠ '"' ∧ c ≠ '\\' ∧ 0x20 ≤ c.toNat ∧ c.toNat ≤ 0x7E) ∨
      escapeChar c = (utf16Units c).flatMap escapeUnit := by
  have hletter {d : Char} (h : (c == d) = true) : some d = some c :=
    congrArg some (eq_of_beq h).symm
  rw [escapeChar]
  split
  · exact .inl ⟨'"', rfl, hletter ‹_›⟩
  split
  · exact .inl ⟨'\\', rfl, hletter ‹_›⟩
  split
  · exact .inl ⟨'n', rfl, hletter ‹_›⟩
  split
  · exact .inl ⟨'r', rfl, hletter ‹_›⟩
  split
  · exact .inl ⟨'t', rfl, hletter ‹_›⟩
  split
  · exact .inl ⟨'b', rfl, hletter ‹_›⟩
  split
  · exact .inl ⟨'f', rfl, hletter ‹_›⟩
  split
  · rename_i hquote hslash _ _ _ _ _ hprintable
    rw [Bool.and_eq_true, decide_eq_true_eq, decide_eq_true_eq] at hprintable
    exact .inr (.inl ⟨rfl, fun he => hquote (beq_iff_eq.2 he), fun he => hslash (beq_iff_eq.2 he),
      hprintable⟩)
  · exact .inr (.inr rfl)

/-- A letter behind a backslash is read as the character it stands for. -/
theorem readString_simpleEscape {e image : Char} (h : simpleEscape? e = some image)
    (rest : List Char) :
    readString start done offset ('\\' :: e :: rest) =
      readString start (image :: done) (offset + 2) rest := by
  have hu : e ≠ 'u' := by
    rintro rfl
    cases h
  rw [readString]
  · simp only [h]
  · exact fun _ _ _ _ _ _ he => absurd he hu
  · exact hu

/-- The numbers of the units of a character are read as the character. -/
theorem readString_utf16Units (c next : Char) (rest : List Char) :
    ∃ offset', readString start done offset ((utf16Units c).flatMap escapeUnit ++ next :: rest) =
      readString start (c :: done) offset' (next :: rest) := by
  rw [utf16Units]
  split
  · rename_i hplane
    have hhigh : isHighSurrogate c.toNat = false := by
      have h := not_isSurrogate c
      simp only [isHighSurrogate, Bool.and_eq_false_iff, decide_eq_false_iff_not]
      omega
    refine ⟨offset + 6, ?_⟩
    rw [List.flatMap_singleton, readString_escapeUnit hplane hhigh, charOfUnit_toNat]
  · rename_i hplane
    refine ⟨offset + 12, ?_⟩
    rw [List.flatMap_cons, List.flatMap_singleton, List.append_assoc,
      readString_escapePair isSurrogate_units.1 isSurrogate_units.2, charOfPair_units (by omega)]

/-- The escape of a character is read as the character. -/
theorem readString_escapeChar (start : Nat) (done : List Char) (offset : Nat) (c next : Char)
    (rest : List Char) :
    ∃ offset', readString start done offset (escapeChar c ++ next :: rest) =
      readString start (c :: done) offset' (next :: rest) := by
  obtain ⟨e, hc, he⟩ | ⟨hc, hquote, hslash, hprintable, -⟩ | hc := escapeChar_cases c
  · exact ⟨offset + 2, hc ▸ readString_simpleEscape he (next :: rest)⟩
  · refine ⟨offset + 1, ?_⟩
    rw [hc, List.cons_append, List.nil_append, readString, if_neg (by omega)] <;>
      simp [hquote, hslash]
  · exact hc ▸ readString_utf16Units c next rest

/-- A string is read as it was written. -/
theorem readString_quote (start : Nat) (done : List Char) (offset : Nat) (cs rest : List Char) :
    ∃ offset', readString start done offset (cs.flatMap escapeChar ++ '"' :: rest) =
      .ok (String.ofList (done.reverse ++ cs), ⟨rest, offset'⟩) := by
  induction cs generalizing done offset with
  | nil =>
    refine ⟨offset + 1, ?_⟩
    rw [List.flatMap_nil, List.nil_append, readString, List.append_nil]
  | cons c cs ih =>
    -- something follows the escape: the next character's or the closing quote
    obtain ⟨next, more, hnext⟩ : ∃ next more, cs.flatMap escapeChar ++ '"' :: rest = next :: more :=
      List.exists_cons_of_ne_nil (by simp)
    obtain ⟨offset', hread⟩ := readString_escapeChar start done offset c next more
    obtain ⟨offset'', hrest⟩ := ih (c :: done) offset'
    refine ⟨offset'', ?_⟩
    rw [List.flatMap_cons, List.append_assoc, hnext, hread, ← hnext, hrest]
    simp

end Json

end RepoGraph
