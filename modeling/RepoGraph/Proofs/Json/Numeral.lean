import Mathlib.Data.List.TakeDrop
import RepoGraph.Json.Printer
import RepoGraph.Json.Reader
import RepoGraph.Proofs.Number.Shortest

/-!
# Numbers are read as they were written

A numeral without its sign has the characters of a `NumeralText`: digits, perhaps places after a
point, perhaps a power of ten, which can be spelled in several ways.  `Json.readNumeral_spelling`
reads each of them, and the characters that a finite number is laid out in have its value.

Main statements: `Json.readScalar_spelling`, `Json.readScalar_int`, `Json.readScalar_float`.
-/

namespace RepoGraph

/-! ### Digits -/

theorem Decimal.natOfDigits_eq (cs : List Char) :
    Decimal.natOfDigits cs = Nat.ofDigitChars 10 cs 0 := rfl

theorem Decimal.natOfDigits_toDigits (n : Nat) : Decimal.natOfDigits (Nat.toDigits 10 n) = n := by
  rw [natOfDigits_eq, Nat.ofDigitChars_ten_toDigits]

theorem Decimal.natOfDigits_append_zeros (cs : List Char) (k : Nat) :
    natOfDigits (cs ++ List.replicate k '0') = natOfDigits cs * 10 ^ k := by
  rw [natOfDigits_eq, natOfDigits_eq, Nat.ofDigitChars_append, Nat.ofDigitChars_replicate_zero,
    Nat.mul_comm]

theorem Decimal.natOfDigits_zeros_append (k : Nat) (cs : List Char) :
    natOfDigits (List.replicate k '0' ++ cs) = natOfDigits cs := by
  rw [natOfDigits_eq, natOfDigits_eq, Nat.ofDigitChars_append, Nat.ofDigitChars_replicate_zero,
    Nat.mul_zero]

theorem isDigit_of_mem_toDigits {n : Nat} {c : Char} (h : c ∈ Nat.toDigits 10 n) :
    c.isDigit = true :=
  Nat.isDigit_of_mem_toDigits (by decide) (by decide) h

/-- The first digit of a natural other than zero is no zero. -/
theorem exists_toDigits {n : Nat} (h : n ≠ 0) :
    ∃ c cs, Nat.toDigits 10 n = c :: cs ∧ c ≠ '0' := by
  induction n using Nat.strongRecOn with
  | ind n ih =>
    by_cases hn : n < 10
    · refine ⟨n.digitChar, [], Nat.toDigits_of_lt_base hn, ?_⟩
      have hall : ∀ m < 10, m ≠ 0 → m.digitChar ≠ '0' := by decide
      exact hall n hn h
    · obtain ⟨c, cs, hcs, hc⟩ := ih (n / 10) (by omega) (by omega)
      refine ⟨c, cs ++ [(n % 10).digitChar], ?_, hc⟩
      rw [Nat.toDigits_of_base_le (by decide) (by omega), hcs]
      rfl

namespace Json

/-! ### Parts of a numeral -/

/-- Whether a numeral ends where the rest of a text begins. -/
def IsEnd (rest : List Char) : Prop :=
  ∀ c more, rest = c :: more → c.isDigit = false ∧ c ≠ '.' ∧ c ≠ 'e' ∧ c ≠ 'E'

theorem isEnd_nil : IsEnd [] := fun _ _ h => nomatch h

theorem isEnd_cons {c : Char} (h : c.isDigit = false ∧ c ≠ '.' ∧ c ≠ 'e' ∧ c ≠ 'E')
    (rest : List Char) : IsEnd (c :: rest) := by
  rintro d more hcons
  cases hcons
  exact h

/-- Whether digits end where the rest of a text begins. -/
def NoDigit (rest : List Char) : Prop := ∀ c more, rest = c :: more → c.isDigit = false

theorem IsEnd.noDigit {rest : List Char} (h : IsEnd rest) : NoDigit rest :=
  fun c more hcons => (h c more hcons).1

theorem noDigit_cons {c : Char} (h : c.isDigit = false) (rest : List Char) :
    NoDigit (c :: rest) := by
  rintro d more hcons
  cases hcons
  exact h

theorem spanDigits_append {digits rest : List Char} (hdigits : ∀ c ∈ digits, c.isDigit = true)
    (hrest : NoDigit rest) : spanDigits (digits ++ rest) = (digits, rest) := by
  have htake : rest.takeWhile Char.isDigit = [] := by
    cases rest with
    | nil => rfl
    | cons c more => rw [List.takeWhile_cons, hrest c more rfl, if_neg Bool.false_ne_true]
  have hdrop : rest.dropWhile Char.isDigit = rest := by
    cases rest with
    | nil => rfl
    | cons c more => rw [List.dropWhile_cons, hrest c more rfl, if_neg Bool.false_ne_true]
  rw [spanDigits, List.span_eq_takeWhile_dropWhile, List.takeWhile_append_of_pos hdigits,
    List.dropWhile_append_of_pos hdigits, htake, hdrop, List.append_nil]

/-- The parts of a numeral without its sign. -/
structure NumeralText where
  whole : List Char
  places : List Char
  /-- Whether the power of ten is negative, and its digits. -/
  power : Option (Bool × List Char)

namespace NumeralText

/-- The point and the places after it. -/
def placesText (places : List Char) : List Char := if places = [] then [] else '.' :: places

/-- The letter, the sign and the digits of a power of ten. -/
def powerText : Option (Bool × List Char) → List Char
  | none => []
  | some (negative, digits) => 'e' :: (if negative then '-' else '+') :: digits

/-- The signs of a power of ten, and whether they make it negative. -/
def powerSigns : List (List Char × Bool) := [([], false), (['+'], false), (['-'], true)]

/-- Whether characters spell a power of ten: a letter, perhaps a sign, and the digits. -/
inductive SpellsPower : List Char → Option (Bool × List Char) → Prop
  | absent : SpellsPower [] none
  | present {letter : Char} {sign : List Char} {negative : Bool} (digits : List Char)
      (hletter : letter = 'e' ∨ letter = 'E') (hsign : (sign, negative) ∈ powerSigns) :
      SpellsPower (letter :: (sign ++ digits)) (some (negative, digits))

theorem spellsPower_powerText (power : Option (Bool × List Char)) :
    SpellsPower (powerText power) power := by
  match power with
  | none => exact .absent
  | some (true, digits) => exact @SpellsPower.present 'e' ['-'] true digits (.inl rfl) (by decide)
  | some (false, digits) => exact @SpellsPower.present 'e' ['+'] false digits (.inl rfl) (by decide)

/-- The characters of a numeral whose power of ten is spelled in some way. -/
def spelling (t : NumeralText) (power : List Char) : List Char :=
  t.whole ++ (placesText t.places ++ power)

/-- The characters of a numeral. -/
def chars (t : NumeralText) : List Char := t.whole ++ (placesText t.places ++ powerText t.power)

/-- The power of ten. -/
def exponent : Option (Bool × List Char) → Int
  | none => 0
  | some (true, digits) => -(Decimal.natOfDigits digits : Int)
  | some (false, digits) => Decimal.natOfDigits digits

/-- The value of a numeral with a sign. -/
def value (t : NumeralText) (negative : Bool) : Decimal :=
  ⟨negative, Decimal.natOfDigits (t.whole ++ t.places), exponent t.power - t.places.length⟩

/-- Whether digits stand before a point or a power: a zero, or digits that begin with another
one. -/
def IsWhole (whole : List Char) : Prop :=
  whole = ['0'] ∨ ∃ c cs, whole = c :: cs ∧ c ≠ '0' ∧ ∀ d ∈ whole, d.isDigit = true

theorem IsWhole.isDigit {whole : List Char} (h : IsWhole whole) :
    ∀ c ∈ whole, c.isDigit = true := by
  obtain rfl | ⟨c, cs, -, -, hdigits⟩ := h
  · exact List.forall_mem_singleton.2 rfl
  · exact hdigits

/-- Whether the parts make a numeral. -/
structure IsWellFormed (t : NumeralText) : Prop where
  whole : IsWhole t.whole
  places : ∀ c ∈ t.places, c.isDigit = true
  power : ∀ negative digits, t.power = some (negative, digits) →
    digits ≠ [] ∧ ∀ c ∈ digits, c.isDigit = true

end NumeralText

open NumeralText

theorem wholeDigits_append {whole rest : List Char} (hwhole : IsWhole whole)
    (hrest : NoDigit rest) : wholeDigits (whole ++ rest) = (whole, rest) := by
  obtain rfl | ⟨c, cs, rfl, hc, hdigits⟩ := hwhole
  · rfl
  · rw [wholeDigits.eq_def]
    split
    · rename_i rest' heq
      cases heq
      exact absurd rfl hc
    · exact spanDigits_append hdigits hrest

theorem fraction_placesText {places rest : List Char} (hplaces : ∀ c ∈ places, c.isDigit = true)
    (hrest : NoDigit rest) (hpoint : ∀ more, rest ≠ '.' :: more) :
    fraction (placesText places ++ rest) = (places, rest) := by
  rw [placesText]
  split
  · rename_i hnil
    rw [hnil, List.nil_append, fraction.eq_def]
    split
    · rename_i more
      exact absurd rfl (hpoint more)
    · rfl
  · rename_i hne
    rw [List.cons_append, fraction, spanDigits_append hplaces hrest]
    simp [hne]

variable {power rest : List Char} {value : Option (Bool × List Char)}

theorem exponent_append (hspells : SpellsPower power value)
    (hvalue : ∀ negative digits, value = some (negative, digits) →
      digits ≠ [] ∧ ∀ c ∈ digits, c.isDigit = true)
    (hend : IsEnd rest) :
    Json.exponent (power ++ rest) = value.map fun p => (p.1, p.2, rest) := by
  cases hspells with
  | absent =>
    rw [List.nil_append, Json.exponent.eq_def]
    cases rest with
    | nil => rfl
    | cons c more =>
      obtain ⟨-, -, he, hE⟩ := hend c more rfl
      simp [he, hE]
  | @present letter sign negative digits hletter hsign =>
    obtain ⟨hne, hdigits⟩ := hvalue negative digits rfl
    have hspan := spanDigits_append hdigits hend.noDigit
    have hmark : (letter == 'e' || letter == 'E') = true := by
      rcases hletter with rfl | rfl <;> decide
    simp only [powerSigns, List.mem_cons, Prod.mk.injEq, List.not_mem_nil, or_false] at hsign
    obtain ⟨rfl, rfl⟩ | ⟨rfl, rfl⟩ | ⟨rfl, rfl⟩ := hsign
    · -- without a sign a digit comes first, and a digit is no sign
      obtain ⟨c, cs, rfl⟩ := List.exists_cons_of_ne_nil hne
      have hc : c.isDigit = true := hdigits c List.mem_cons_self
      have hminus : c ≠ '-' := by
        rintro rfl
        cases hc
      have hplus : c ≠ '+' := by
        rintro rfl
        cases hc
      rw [List.cons_append] at hspan
      simp [Json.exponent, hmark, hspan, hminus, hplus]
    · simp [Json.exponent, hmark, hspan, hne]
    · simp [Json.exponent, hmark, hspan, hne]

theorem noDigit_power (hspells : SpellsPower power value) (hend : IsEnd rest) :
    NoDigit (power ++ rest) := by
  cases hspells with
  | absent => exact hend.noDigit
  | present digits hletter _ => exact noDigit_cons (by rcases hletter with rfl | rfl <;> decide) _

theorem power_ne_point (hspells : SpellsPower power value) (hend : IsEnd rest)
    (more : List Char) : power ++ rest ≠ '.' :: more := by
  cases hspells with
  | absent => exact fun h => (hend '.' more h).2.1 rfl
  | present digits hletter _ =>
    intro h
    rw [List.cons_append, List.cons.injEq] at h
    rcases hletter with rfl | rfl <;> exact absurd h.1 (by decide)

theorem noDigit_placesText (places : List Char) (hspells : SpellsPower power value)
    (hend : IsEnd rest) : NoDigit (placesText places ++ (power ++ rest)) := by
  rw [placesText]
  split
  · rw [List.nil_append]
    exact noDigit_power hspells hend
  · exact noDigit_cons (by decide) _

/-- What a numeral is read as: an integer if it has neither places nor a power. -/
def numeralValue (t : NumeralText) (negative : Bool) : Except Fault Json :=
  if t.places = [] ∧ t.power = none then
    if maxDigits < t.whole.length then .error (.tooManyDigits t.whole.length)
    else
      let n : Int := Decimal.natOfDigits t.whole
      .ok (int (if negative then -n else n))
  else .ok (float (t.value negative).toBinary64)

/-- The characters of a numeral are read as its value, however its power of ten is spelled. -/
theorem readNumeral_spelling {t : NumeralText} (ht : t.IsWellFormed)
    (hspells : SpellsPower power t.power) (hend : IsEnd rest) (negative : Bool) (offset : Nat) :
    ∃ offset', readNumeral negative ⟨t.spelling power ++ rest, offset⟩ =
      (numeralValue t negative).map fun v => (v, ⟨rest, offset'⟩) := by
  -- each part ends where a character stands that cannot go on with it
  have hwhole := wholeDigits_append ht.whole (noDigit_placesText t.places hspells hend)
  have hplaces := fraction_placesText ht.places (noDigit_power hspells hend)
    (power_ne_point hspells hend)
  have hpower := exponent_append hspells ht.power hend
  have hne : t.whole.isEmpty = false := by
    obtain h | ⟨c, cs, h, -⟩ := ht.whole <;> rw [h] <;> rfl
  simp only [readNumeral, spelling, List.append_assoc, hwhole, hne, Bool.false_eq_true, if_false,
    hplaces, hpower]
  obtain ⟨whole, places, powerOfTen⟩ := t
  dsimp only at *
  rw [numeralValue]
  cases hspells with
  | absent =>
    rw [Option.map_none, List.nil_append]
    by_cases hnil : places = []
    · simp only [hnil, List.isEmpty_nil, Option.isNone_none, Bool.and_self, if_true, and_self]
      split
      · exact ⟨0, rfl⟩
      · exact ⟨_, rfl⟩
    · have hempty : places.isEmpty = false := by simpa using hnil
      simp only [hempty, Bool.false_and, Bool.false_eq_true, if_false, hnil, false_and]
      exact ⟨_, rfl⟩
  | @present _ _ down digits _ _ =>
    simp only [Option.map_some, Option.isNone_some, Bool.and_false, Bool.false_eq_true, if_false,
      reduceCtorEq, and_false]
    cases down with
    | true => exact ⟨_, rfl⟩
    | false => exact ⟨_, rfl⟩

/-! ### Signs -/

/-- Characters with a sign before them. -/
def signed (negative : Bool) (cs : List Char) : List Char := if negative then '-' :: cs else cs

/-- The characters of a numeral with a sign. -/
def signedChars (negative : Bool) (t : NumeralText) : List Char :=
  if negative then '-' :: t.chars else t.chars

theorem isDigit_spelling {t : NumeralText} (ht : t.IsWellFormed) (power : List Char) :
    ∃ c more, t.spelling power = c :: more ∧ c.isDigit = true := by
  obtain h | ⟨c, cs, h, -, hdigits⟩ := ht.whole
  · exact ⟨'0', placesText t.places ++ power, by rw [spelling, h]; rfl, by decide⟩
  · refine ⟨c, cs ++ (placesText t.places ++ power), by rw [spelling, h]; rfl, ?_⟩
    exact hdigits c (by rw [h]; exact List.mem_cons_self)

theorem isDigit_head {t : NumeralText} (ht : t.IsWellFormed) :
    ∃ c more, t.chars = c :: more ∧ c.isDigit = true :=
  isDigit_spelling ht (powerText t.power)

/-- What holds of digits, points, letters and signs holds of every character of a numeral. -/
theorem forall_mem_signed {p : Char → Prop} (hdigit : ∀ c, c.isDigit = true → p c)
    (hmark : ∀ c ∈ ['.', 'e', 'E', '+', '-'], p c) {t : NumeralText} (ht : t.IsWellFormed)
    (hspells : SpellsPower power t.power) (negative : Bool) :
    ∀ c ∈ signed negative (t.spelling power), p c := by
  have hwhole : ∀ c ∈ t.whole, p c := fun c hc => hdigit c (ht.whole.isDigit c hc)
  have hplaces : ∀ c ∈ placesText t.places, p c := by
    rw [placesText]
    split
    · exact fun _ h => nomatch h
    · exact List.forall_mem_cons.2 ⟨hmark '.' (by decide), fun c hc => hdigit c (ht.places c hc)⟩
  have hpower : ∀ c ∈ power, p c := by
    cases hvalue : t.power with
    | none =>
      rw [hvalue] at hspells
      cases hspells
      exact fun _ h => nomatch h
    | some value =>
      obtain ⟨down, digits⟩ := value
      have hdigits := (ht.power down digits hvalue).2
      rw [hvalue] at hspells
      cases hspells with
      | present _ hletter hsign =>
        refine List.forall_mem_cons.2 ⟨hmark _ (by rcases hletter with rfl | rfl <;> decide),
          List.forall_mem_append.2 ⟨?_, fun c hc => hdigit c (hdigits c hc)⟩⟩
        simp only [powerSigns, List.mem_cons, Prod.mk.injEq, List.not_mem_nil, or_false] at hsign
        obtain ⟨rfl, -⟩ | ⟨rfl, -⟩ | ⟨rfl, -⟩ := hsign
        · exact fun _ h => nomatch h
        · exact List.forall_mem_singleton.2 (hmark '+' (by decide))
        · exact List.forall_mem_singleton.2 (hmark '-' (by decide))
  have hchars : ∀ c ∈ t.spelling power, p c :=
    List.forall_mem_append.2 ⟨hwhole, List.forall_mem_append.2 ⟨hplaces, hpower⟩⟩
  cases negative with
  | true => exact List.forall_mem_cons.2 ⟨hmark '-' (by decide), hchars⟩
  | false => exact hchars

theorem ne_of_isDigit {c d : Char} (hc : c.isDigit = true) (hd : d.isDigit = false) : c ≠ d := by
  rintro rfl
  rw [hc] at hd
  cases hd

/-- No word begins with a digit. -/
theorem word?_digit {c : Char} (hc : c.isDigit = true) (more : List Char) (offset : Nat) :
    word? ⟨c :: more, offset⟩ = none := by
  simp [word?, afterWord, ne_of_isDigit hc (show 'n'.isDigit = false by decide),
    ne_of_isDigit hc (show 't'.isDigit = false by decide),
    ne_of_isDigit hc (show 'f'.isDigit = false by decide),
    ne_of_isDigit hc (show 'N'.isDigit = false by decide),
    ne_of_isDigit hc (show 'I'.isDigit = false by decide),
    ne_of_isDigit hc (show '-'.isDigit = false by decide)]

/-- No word begins with a minus sign and a digit. -/
theorem word?_minus {c : Char} (hc : c.isDigit = true) (more : List Char) (offset : Nat) :
    word? ⟨'-' :: c :: more, offset⟩ = none := by
  simp [word?, afterWord, ne_of_isDigit hc (show 'I'.isDigit = false by decide)]

/-- A numeral is read as its value, however its power of ten is spelled. -/
theorem readScalar_spelling {t : NumeralText} (ht : t.IsWellFormed)
    (hspells : SpellsPower power t.power) (hend : IsEnd rest) (negative : Bool) (offset : Nat) :
    ∃ offset', readScalar ⟨signed negative (t.spelling power) ++ rest, offset⟩ =
      (numeralValue t negative).map fun v => (v, ⟨rest, offset'⟩) := by
  -- a digit begins no word, nor does a sign with a digit behind it
  obtain ⟨c, more, hchars, hc⟩ := isDigit_spelling ht power
  cases negative with
  | true =>
    obtain ⟨offset', hread⟩ := readNumeral_spelling ht hspells hend true (offset + 1)
    refine ⟨offset', ?_⟩
    have hword : word? ⟨signed true (t.spelling power) ++ rest, offset⟩ = none := by
      rw [signed, if_pos rfl, hchars]
      exact word?_minus hc _ offset
    rw [readScalar, hword]
    simp only [signed, if_true, List.cons_append, hread]
    rw [numeralValue]
    by_cases hint : t.places = [] ∧ t.power = none
    · rw [if_pos hint]
      by_cases hlong : maxDigits < t.whole.length
      · rw [if_pos hlong]
        rfl
      · rw [if_neg hlong]
        rfl
    · rw [if_neg hint]
      rfl
  | false =>
    obtain ⟨offset', hread⟩ := readNumeral_spelling ht hspells hend false offset
    refine ⟨offset', ?_⟩
    rw [signed, if_neg Bool.false_ne_true]
    have hword : word? ⟨t.spelling power ++ rest, offset⟩ = none := by
      rw [hchars]
      exact word?_digit hc _ offset
    rw [readScalar, hword, hread]
    simp only [hchars, List.cons_append]
    split
    · rename_i heq
      cases heq
      cases hc
    · rfl

/-- A numeral is read as its value. -/
theorem readScalar_chars {t : NumeralText} (ht : t.IsWellFormed) (hend : IsEnd rest)
    (negative : Bool) (offset : Nat) :
    ∃ offset', readScalar ⟨signedChars negative t ++ rest, offset⟩ =
      (numeralValue t negative).map fun v => (v, ⟨rest, offset'⟩) :=
  readScalar_spelling ht (spellsPower_powerText t.power) hend negative offset

/-! ### Integers -/

/-- What an integer is read as: one with too many digits is refused. -/
def integerValue (n : Int) : Except Fault Json :=
  if maxDigits < (Nat.toDigits 10 n.natAbs).length then
    .error (.tooManyDigits (Nat.toDigits 10 n.natAbs).length)
  else .ok (int n)

theorem isWhole_toDigits (n : Nat) : IsWhole (Nat.toDigits 10 n) := by
  by_cases hn : n = 0
  · left
    rw [hn]
    rfl
  · obtain ⟨c, cs, hcs, hc⟩ := exists_toDigits hn
    exact Or.inr ⟨c, cs, hcs, hc, fun d hd => isDigit_of_mem_toDigits hd⟩

theorem toList_toString_int (n : Int) :
    (toString n).toList =
      signedChars (decide (n < 0)) ⟨Nat.toDigits 10 n.natAbs, [], none⟩ := by
  rw [Int.toString_eq_repr, Int.repr_eq_if]
  by_cases hn : n < 0
  · have hnat : (-n).toNat = n.natAbs := by omega
    rw [if_neg (by omega), String.toList_append]
    simp [hn, signedChars, chars, placesText, powerText, Nat.repr, hnat]
  · have hnat : n.toNat = n.natAbs := by omega
    rw [if_pos (by omega)]
    simp [hn, signedChars, chars, placesText, powerText, Nat.repr, hnat]

theorem isWellFormed_integer (n : Int) :
    IsWellFormed ⟨Nat.toDigits 10 n.natAbs, [], none⟩ where
  whole := isWhole_toDigits _
  places _ hc := (List.not_mem_nil hc).elim
  power _ _ h := nomatch h

/-- An integer is read as it was written, unless it has too many digits. -/
theorem readScalar_int (n : Int) {rest : List Char} (hend : IsEnd rest) (offset : Nat) :
    ∃ offset', readScalar ⟨(toString n).toList ++ rest, offset⟩ =
      (integerValue n).map fun v => (v, ⟨rest, offset'⟩) := by
  obtain ⟨offset', hread⟩ := readScalar_chars (isWellFormed_integer n) hend (decide (n < 0)) offset
  refine ⟨offset', ?_⟩
  rw [toList_toString_int, hread, numeralValue, integerValue, if_pos ⟨rfl, rfl⟩]
  have hvalue : (if decide (n < 0) = true then -((n.natAbs : Nat) : Int)
      else (n.natAbs : Nat)) = n := by
    by_cases hn : n < 0
    · rw [if_pos (decide_eq_true hn)]
      omega
    · rw [if_neg (mt of_decide_eq_true hn)]
      omega
  simp only [Decimal.natOfDigits_toDigits, hvalue]

/-! ### Finite numbers -/

theorem toList_pushn (c : Char) (n : Nat) : ("".pushn c n).toList = List.replicate n c := by
  induction n with
  | zero => rfl
  | succ n ih =>
    rw [String.pushn_eq_repeat_push] at ih ⊢
    rw [Nat.repeat, String.toList_push, ih, List.replicate_succ']

theorem toList_padded (width n : Nat) :
    (Binary64.padded width n).toList =
      List.replicate (width - (Nat.toDigits 10 n).length) '0' ++ Nat.toDigits 10 n := by
  rw [Binary64.padded, String.toList_append, toList_pushn, Nat.toString_eq_repr, Nat.repr,
    ← String.length_toList, String.toList_ofList]

/-- The parts of digits that are laid out around their decimal point. -/
def laidOut (layout : Binary64.TextLayout) (digits : List Char) (point : Int) : NumeralText :=
  if layout.low < point ∧ point ≤ layout.high then
    if point ≤ 0 then ⟨['0'], List.replicate (-point).toNat '0' ++ digits, none⟩
    else if digits.length ≤ point.toNat then
      ⟨digits ++ List.replicate (point.toNat - digits.length) '0', ['0'], none⟩
    else ⟨digits.take point.toNat, digits.drop point.toNat, none⟩
  else
    ⟨digits.take 1, digits.drop 1,
      some (decide (point - 1 < 0), (Binary64.padded 2 (point - 1).natAbs).toList)⟩

theorem toList_layOut (layout : Binary64.TextLayout) {digits : String} (h : digits.toList ≠ [])
    (point : Int) :
    (Binary64.layOut layout digits point).toList = (laidOut layout digits.toList point).chars := by
  rw [Binary64.layOut, laidOut]
  simp only [Bool.and_eq_true, decide_eq_true_eq]
  -- the cases of the layout; the list of the digits has a case where the text of them has one
  by_cases hnear : layout.low < point ∧ point ≤ layout.high
  · rw [if_pos hnear, if_pos hnear]
    by_cases hle : point ≤ 0
    · rw [if_pos hle, if_pos hle]
      simp [chars, placesText, powerText, toList_pushn, h]
    · rw [if_neg hle, if_neg hle]
      by_cases hlong : digits.toList.length ≤ point.toNat
      · have htake := List.take_of_length_le hlong
        have hdrop := List.drop_eq_nil_of_le hlong
        rw [if_pos hlong, htake, hdrop]
        simp [chars, placesText, powerText]
      · have hdrop : digits.toList.drop point.toNat ≠ [] := by
          rwa [Ne, List.drop_eq_nil_iff]
        have htake : point.toNat - (digits.toList.take point.toNat).length = 0 := by
          rw [List.length_take]
          omega
        rw [if_neg hlong, htake]
        simp [chars, placesText, powerText, hdrop]
  · rw [if_neg hnear, if_neg hnear]
    by_cases hdrop : digits.toList.drop 1 = []
    · rw [hdrop]
      by_cases hsign : point - 1 < 0 <;> simp [chars, placesText, powerText, hsign]
    · have hempty : (digits.toList.drop 1).isEmpty = false := by
        simpa only [List.isEmpty_eq_false_iff] using hdrop
      rw [hempty]
      by_cases hsign : point - 1 < 0 <;>
        simp only [chars, placesText, powerText, hdrop, hsign, String.toList_append,
          String.toList_ofList, Bool.false_eq_true, if_false, if_true, decide_true, decide_false,
          List.append_assoc, List.cons_append] <;> rfl

/-- Digits around their decimal point make a numeral. -/
theorem isWellFormed_laidOut (layout : Binary64.TextLayout) {c : Char} {cs : List Char}
    (hc : c ≠ '0') (hdigits : ∀ d ∈ c :: cs, d.isDigit = true) (point : Int) :
    (laidOut layout (c :: cs) point).IsWellFormed := by
  have hzeros (k : Nat) : ∀ d ∈ List.replicate k '0', d.isDigit = true := fun d hd => by
    rw [List.eq_of_mem_replicate hd]
    decide
  have happend {xs ys : List Char} (hxs : ∀ d ∈ xs, d.isDigit = true)
      (hys : ∀ d ∈ ys, d.isDigit = true) : ∀ d ∈ xs ++ ys, d.isDigit = true := fun d hd =>
    (List.mem_append.1 hd).elim (hxs d) (hys d)
  have hnone (negative : Bool) (digits : List Char) (h : none = some (negative, digits)) :
      digits ≠ [] ∧ ∀ c ∈ digits, c.isDigit = true := nomatch h
  rw [laidOut]
  split
  · split
    · -- the whole part is a zero, or begins with the first digit, which is none
      exact ⟨Or.inl rfl, happend (hzeros _) hdigits, hnone⟩
    · rename_i hpos
      split
      · refine ⟨Or.inr ⟨c, _, List.cons_append, hc, happend hdigits (hzeros _)⟩, ?_, hnone⟩
        exact hzeros 1
      · refine ⟨Or.inr ⟨c, cs.take (point.toNat - 1), ?_, hc, ?_⟩, ?_, hnone⟩
        · exact List.take_cons (by omega)
        · exact fun d hd => hdigits d (List.mem_of_mem_take hd)
        · exact fun d hd => hdigits d (List.mem_of_mem_drop hd)
  · refine ⟨Or.inr ⟨c, [], rfl, hc, ?_⟩, ?_, ?_⟩
    · exact fun d hd => hdigits d (List.mem_of_mem_take hd)
    · exact fun d hd => hdigits d (List.mem_of_mem_drop hd)
    · rintro negative digits ⟨⟩
      rw [toList_padded]
      refine ⟨?_, happend (hzeros _) fun d hd => isDigit_of_mem_toDigits hd⟩
      exact List.append_ne_nil_of_right_ne_nil _ (Nat.toDigits_ne_nil)

/-- A power of ten is written with its sign and at least two digits. -/
theorem exponent_padded (n : Int) :
    NumeralText.exponent (some (decide (n < 0), (Binary64.padded 2 n.natAbs).toList)) = n := by
  rw [toList_padded]
  by_cases hsign : n < 0
  · simp only [hsign, decide_true, NumeralText.exponent, Decimal.natOfDigits_zeros_append,
      Decimal.natOfDigits_toDigits]
    omega
  · simp only [hsign, decide_false, NumeralText.exponent, Decimal.natOfDigits_zeros_append,
      Decimal.natOfDigits_toDigits]
    omega

/-- Digits around their decimal point have the value that they were laid out with. -/
theorem toBinary64_laidOut (layout : Binary64.TextLayout) (d : Decimal) (negative : Bool) :
    ((laidOut layout (Nat.toDigits 10 d.digits)
        (d.exponent + (Nat.toDigits 10 d.digits).length)).value negative).toBinary64 =
      (Decimal.mk negative d.digits d.exponent).toBinary64 := by
  have hone := Nat.length_toDigits_pos (b := 10) (n := d.digits)
  have hdigits := Decimal.natOfDigits_toDigits d.digits
  generalize Nat.toDigits 10 d.digits = digits at hone hdigits ⊢
  generalize hpoint : d.exponent + (digits.length : Int) = point
  rw [laidOut]
  split
  · split
    · -- all digits stand after the point, behind zeros that add nothing to their number
      have hexponent : -(((-point).toNat + digits.length : Nat) : Int) = d.exponent := by omega
      have hzero : Decimal.natOfDigits ('0' :: (List.replicate (-point).toNat '0' ++ digits)) =
          d.digits := by
        have := Decimal.natOfDigits_zeros_append ((-point).toNat + 1) digits
        rwa [List.replicate_succ, List.cons_append, hdigits] at this
      simp only [value, NumeralText.exponent, List.length_append,
        List.length_replicate, Int.zero_sub,
        hexponent, List.cons_append, List.nil_append, hzero]
    · split
      · -- the whole part is filled up with zeros, and one zero stands after the point
        rename_i hlong
        have hzeros : Decimal.natOfDigits
            (digits ++ List.replicate (point.toNat - digits.length) '0' ++ ['0']) =
            d.digits * 10 ^ (point.toNat - digits.length + 1) := by
          have := Decimal.natOfDigits_append_zeros digits (point.toNat - digits.length + 1)
          rwa [List.replicate_succ', ← List.append_assoc, hdigits] at this
        have hexponent : (0 : Int) - (['0'].length : Nat) =
            d.exponent - ((point.toNat - digits.length + 1 : Nat) : Int) := by
          rw [List.length_singleton]
          omega
        rw [value, hzeros, NumeralText.exponent, hexponent, Decimal.toBinary64_mul_pow]
      · -- the point stands between the digits
        have hexponent : (0 : Int) - ((digits.drop point.toNat).length : Nat) = d.exponent := by
          rw [List.length_drop]
          omega
        rw [value, List.take_append_drop, hdigits, NumeralText.exponent, hexponent]
  · -- one digit stands before the point, and the written power makes up for those behind it
    have hexponent : point - 1 - ((digits.drop 1).length : Nat) = d.exponent := by
      rw [List.length_drop]
      omega
    rw [value, List.take_append_drop, hdigits, exponent_padded, hexponent]

/-- Laid out digits have places or a power. -/
theorem not_isInteger_laidOut (layout : Binary64.TextLayout) {digits : List Char}
    (h : digits ≠ []) (point : Int) :
    ¬ ((laidOut layout digits point).places = [] ∧ (laidOut layout digits point).power = none) := by
  rw [laidOut]
  split
  · split
    · exact fun hnil => List.append_ne_nil_of_right_ne_nil _ h hnil.1
    · split
      · exact fun hnil => absurd hnil.1 (List.cons_ne_nil _ _)
      · rename_i hlong
        exact fun hnil => hlong (List.drop_eq_nil_iff.1 hnil.1)
  · exact fun hnone => absurd hnone.2 (Option.some_ne_none _)

/-- A finite number has the text of a numeral with its value. -/
theorem toList_finiteText {x : Binary64} (hfinite : x.isFinite = true) :
    ∃ t : NumeralText, t.IsWellFormed ∧ ¬ (t.places = [] ∧ t.power = none) ∧
      (t.value x.isNegative).toBinary64 = x ∧
      x.finiteText.toList = signedChars x.isNegative t := by
  cases hzero : x.isZero with
  | true =>
    refine ⟨⟨['0'], ['0'], none⟩, ?_, ?_, ?_, ?_⟩
    · exact
        { whole := Or.inl rfl
          places := fun c hc => List.mem_singleton.1 hc ▸ rfl
          power := fun _ _ h => nomatch h }
    · rintro ⟨hplaces, -⟩
      cases hplaces
    · have hdigits : (value ⟨['0'], ['0'], none⟩ x.isNegative).digits = 0 := rfl
      rw [Decimal.toBinary64_eq, if_pos hdigits]
      exact (Binary64.eq_zero_of_isZero hzero).symm
    · rw [Binary64.finiteText, hzero, if_pos rfl]
      cases x.isNegative <;> rfl
  | false =>
    -- the text lays out the shortest digits that are read as the number, without the zeros at their
    -- end
    obtain ⟨hnegative, hdigits, hread⟩ := Decimal.shortest_spec hfinite hzero
    let d := Decimal.dropTrailingZeros 400 (Decimal.shortest x)
    have hd : d.digits ≠ 0 := Decimal.digits_dropTrailingZeros_ne_zero hdigits 400
    have hvalue : (Decimal.mk x.isNegative d.digits d.exponent).toBinary64 = x := by
      have := Decimal.toBinary64_dropTrailingZeros 400 (Decimal.shortest x)
      rw [hread] at this
      rwa [← hnegative, ← Decimal.negative_dropTrailingZeros 400]
    obtain ⟨c, cs, hcs, hc⟩ := exists_toDigits hd
    have hlist : (toString d.digits).toList = Nat.toDigits 10 d.digits := by
      rw [Nat.toString_eq_repr, Nat.repr, String.toList_ofList]
    have hlength : (toString d.digits).length = (Nat.toDigits 10 d.digits).length := by
      rw [← String.length_toList, hlist]
    have hne : (toString d.digits).toList ≠ [] := by
      rw [hlist, hcs]
      exact List.cons_ne_nil c cs
    let point : Int := d.exponent + (Nat.toDigits 10 d.digits).length
    refine ⟨laidOut Binary64.textLayout (Nat.toDigits 10 d.digits) point, ?_, ?_, ?_, ?_⟩
    · rw [hcs]
      exact isWellFormed_laidOut _ hc (fun e he => isDigit_of_mem_toDigits (hcs ▸ he)) _
    · exact not_isInteger_laidOut _ (hlist ▸ hne) _
    · rw [toBinary64_laidOut, hvalue]
    · have hlaid := toList_layOut Binary64.textLayout hne point
      rw [hlist] at hlaid
      rw [Binary64.finiteText, hzero, if_neg Bool.false_ne_true]
      simp only [String.toList_append]
      rw [hlength, signedChars]
      change (if x.isNegative then "-" else "").toList ++ (Binary64.layOut Binary64.textLayout
        (toString d.digits) point).toList = _
      rw [hlaid]
      cases x.isNegative <;> rfl

theorem isFinite_of_not {x : Binary64} (hnan : ¬ x.isNaN = true)
    (hinfinite : ¬ x.isInfinite = true) :
    x.isFinite = true := by
  rw [Binary64.isNaN, decide_eq_true_eq] at hnan
  rw [Binary64.isInfinite, beq_iff_eq] at hinfinite
  rw [Binary64.isFinite, decide_eq_true_eq]
  omega

/-- A number is read as it was written. -/
theorem readScalar_float (x : Binary64) {rest : List Char} (hend : IsEnd rest) (offset : Nat) :
    ∃ offset', readScalar ⟨(floatText x).toList ++ rest, offset⟩ =
      .ok (float x, ⟨rest, offset'⟩) := by
  rw [floatText]
  split
  · rename_i hnan
    refine ⟨offset + 3, ?_⟩
    rw [Binary64.eq_nan_of_isNaN hnan]
    rfl
  split
  · rename_i hinfinite
    rw [Binary64.eq_infinity_of_isInfinite hinfinite]
    cases x.isNegative with
    | true => exact ⟨offset + 9, rfl⟩
    | false => exact ⟨offset + 8, rfl⟩
  · rename_i hnan hinfinite
    obtain ⟨t, ht, hkind, hvalue, htext⟩ := toList_finiteText (isFinite_of_not hnan hinfinite)
    obtain ⟨offset', hread⟩ := readScalar_chars ht hend x.isNegative offset
    refine ⟨offset', ?_⟩
    rw [htext, hread, numeralValue, if_neg hkind, hvalue]
    rfl

end Json

end RepoGraph
