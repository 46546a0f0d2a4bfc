import RepoGraph.Proofs.Json.Kept
import RepoGraph.Proofs.Time.Elapsed

/-!
# Stamps tell the time

The stamps of the instants from the year 1000 on all have the same length, so their order as texts
is the order in which the instants come, as far as milliseconds go.  A stamp is read back as its
instant, cut off at the millisecond, and the time between two stamps is that between their instants,
except that of some spans one millisecond is lost (`LosesOne`).

Main statements: `Instant.ofStamp?_stamp`, `Instant.ordersAs_stamp`, `Instant.tellsElapsed_stamp`.
-/

namespace RepoGraph

open Binary64 (padded)

/-! ### Numerals of fixed width -/

section Numerals

variable {w n : Nat}

theorem natOfDigits_padded (w n : Nat) : Decimal.natOfDigits (padded w n).toList = n := by
  rw [Json.toList_padded, Decimal.natOfDigits_zeros_append, Decimal.natOfDigits_toDigits]

theorem isDigit_of_mem_padded {c : Char} (h : c ∈ (padded w n).toList) : c.isDigit = true := by
  rw [Json.toList_padded, List.mem_append, List.mem_replicate] at h
  obtain ⟨-, rfl⟩ | h := h
  · decide
  · exact isDigit_of_mem_toDigits h

theorem length_padded (hw : 0 < w) (hn : n < 10 ^ w) : (padded w n).toList.length = w := by
  have hle := (Nat.length_toDigits_le_iff (by decide) hw).2 hn
  rw [Json.toList_padded, List.length_append, List.length_replicate]
  omega

end Numerals

/-! ### Texts in the order of numbers -/

/-- Two texts of one length stand to each other as two numbers do. -/
structure OrdersAs (a b : Nat) (x y : List Char) : Prop where
  length : x.length = y.length
  lt : a < b → x < y
  eq : a = b → x = y

theorem natOfDigits_cons (c : Char) (cs : List Char) :
    Decimal.natOfDigits (c :: cs) = 10 ^ cs.length * (c.toNat - 48) + Decimal.natOfDigits cs := by
  rw [Decimal.natOfDigits_eq, Decimal.natOfDigits_eq, Nat.ofDigitChars_cons,
    Nat.ofDigitChars_eq_ofDigitChars_zero, Nat.mul_zero, Nat.zero_add]
  rfl

/-- Of two numerals of the same length the one of the smaller number comes first. -/
theorem lt_of_natOfDigits_lt {x y : List Char} (hx : ∀ c ∈ x, c.isDigit = true)
    (hy : ∀ c ∈ y, c.isDigit = true) (hlength : x.length = y.length)
    (h : Decimal.natOfDigits x < Decimal.natOfDigits y) : x < y := by
  induction x generalizing y with
  | nil =>
    rw [List.length_nil, eq_comm, List.length_eq_zero_iff] at hlength
    rw [hlength] at h
    exact absurd h (Nat.lt_irrefl _)
  | cons c cs ih =>
    obtain _ | ⟨d, ds⟩ := y
    · cases hlength
    · have hlength' : cs.length = ds.length := Nat.succ.inj hlength
      have hcs := fun e he => hx e (List.mem_cons_of_mem c he)
      have hds := fun e he => hy e (List.mem_cons_of_mem d he)
      rw [natOfDigits_cons, natOfDigits_cons, hlength'] at h
      rw [List.cons_lt_cons_iff]
      obtain hcd | hcd | hcd := Nat.lt_trichotomy c.toNat d.toNat
      · exact .inl hcd
      · rw [hcd] at h
        exact .inr ⟨Char.toNat_inj.1 hcd, ih hcs hds hlength' (Nat.lt_of_add_lt_add_left h)⟩
      · -- a greater first digit outweighs all that follow
        have hzero : '0'.toNat = 48 := rfl
        have hdigit := (Char.isDigit_iff_toNat.1 (hy d List.mem_cons_self)).1
        have hbound := Json.natOfDigits_lt hds
        have hstep : 10 ^ ds.length * (d.toNat - 48) + 10 ^ ds.length ≤
            10 ^ ds.length * (c.toNat - 48) := by
          rw [← Nat.mul_succ]
          exact Nat.mul_le_mul_left _ (by omega)
        omega

theorem append_lt_append {x y u v : List Char} (hlength : x.length = y.length) (h : x < y) :
    x ++ u < y ++ v := by
  induction x generalizing y with
  | nil =>
    rw [List.length_nil, eq_comm, List.length_eq_zero_iff] at hlength
    rw [hlength] at h
    exact absurd h (List.lt_irrefl _)
  | cons c cs ih =>
    obtain _ | ⟨d, ds⟩ := y
    · cases hlength
    · rw [List.cons_append, List.cons_append, List.cons_lt_cons_iff]
      exact (List.cons_lt_cons_iff.1 h).imp_right fun ⟨hcd, hlt⟩ =>
        ⟨hcd, ih (Nat.succ.inj hlength) hlt⟩

namespace OrdersAs

variable {a b c d f g : Nat} {x y u v : List Char}

/-- Two numerals of the same width stand to each other as their numbers do. -/
theorem of_padded {w : Nat} (hw : 0 < w) (ha : a < 10 ^ w) (hb : b < 10 ^ w) :
    OrdersAs a b (padded w a).toList (padded w b).toList where
  length := by rw [length_padded hw ha, length_padded hw hb]
  lt h := by
    refine lt_of_natOfDigits_lt (fun _ => isDigit_of_mem_padded) (fun _ => isDigit_of_mem_padded)
      (by rw [length_padded hw ha, length_padded hw hb]) ?_
    rwa [natOfDigits_padded, natOfDigits_padded]
  eq h := by rw [h]

/-- Texts put together stand to each other as numbers that are compared by their first parts and,
where these are the same, by their second parts. -/
theorem append (h : OrdersAs a b x y) (h' : OrdersAs c d u v)
    (hlt : f < g → a < b ∨ a = b ∧ c < d) (heq : f = g → a = b ∧ c = d) :
    OrdersAs f g (x ++ u) (y ++ v) where
  length := by rw [List.length_append, List.length_append, h.length, h'.length]
  lt hfg := by
    obtain hab | ⟨hab, hcd⟩ := hlt hfg
    · exact append_lt_append h.length (h.lt hab)
    · rw [h.eq hab]
      exact List.append_left_lt (h'.lt hcd)
  eq hfg := by rw [h.eq (heq hfg).1, h'.eq (heq hfg).2]

/-- The same text may stand behind both. -/
theorem behind (h : OrdersAs a b x y) (z : List Char) : OrdersAs a b (x ++ z) (y ++ z) :=
  h.append (c := 0) (d := 0) ⟨rfl, fun h => absurd h (Nat.lt_irrefl 0), fun _ => rfl⟩ .inl
    fun h => ⟨h, rfl⟩

/-- Texts put together stand to each other as numbers whose last place the second parts are. -/
theorem place (h : OrdersAs a b x y) (h' : OrdersAs c d u v) {r : Nat} (hc : c < r) (hd : d < r) :
    OrdersAs (a * r + c) (b * r + d) (x ++ u) (y ++ v) := by
  have hless {k l m n : Nat} (hm : m < r) (hkl : k < l) : k * r + m < l * r + n :=
    calc k * r + m < (k + 1) * r := by rw [Nat.succ_mul]; omega
      _ ≤ l * r := Nat.mul_le_mul_right r hkl
      _ ≤ l * r + n := Nat.le_add_right _ _
  obtain hab | rfl | hba := Nat.lt_trichotomy a b
  · exact h.append h' (fun _ => .inl hab) fun heq => absurd heq (hless hc hab).ne
  · exact h.append h' (fun hlt => .inr ⟨rfl, Nat.lt_of_add_lt_add_left hlt⟩) fun heq =>
      ⟨rfl, Nat.add_left_cancel heq⟩
  · exact h.append h' (fun hlt => absurd hlt (Nat.not_lt.2 (hless hd hba).le)) fun heq =>
      absurd heq (hless hd hba).ne'

end OrdersAs

namespace Instant

/-! ### The calendar -/

section Calendar

variable {y m d y' m' d' : Nat}

/-- The days of the years before the given one. -/
def daysBeforeYear (year : Nat) : Nat := dayNumber year 1 1

theorem dayNumber_eq (y m d : Nat) :
    dayNumber y m d = daysBeforeYear y + daysBeforeMonth y m + (d - 1) := by
  simp [daysBeforeYear, dayNumber, daysBeforeMonth]

theorem daysBeforeYear_eq (y : Nat) :
    daysBeforeYear y = (y - 1) * 365 + (y - 1) / 4 - (y - 1) / 100 + (y - 1) / 400 := by
  simp [daysBeforeYear, dayNumber, daysBeforeMonth]

theorem isLeap_iff : isLeap y = true ↔ 4 ∣ y ∧ (¬ 100 ∣ y ∨ 400 ∣ y) := by
  simp [isLeap, Nat.dvd_iff_mod_eq_zero]

theorem daysBeforeYear_succ (hy : 1 ≤ y) :
    daysBeforeYear (y + 1) = daysBeforeYear y + if isLeap y then 366 else 365 := by
  obtain ⟨n, rfl⟩ : ∃ n, y = n + 1 := ⟨y - 1, by omega⟩
  have hfour (h : 100 ∣ n + 1) : 4 ∣ n + 1 := Nat.dvd_trans (by decide) h
  have hhundred (h : 400 ∣ n + 1) : 100 ∣ n + 1 := Nat.dvd_trans (by decide) h
  have hle : n / 100 ≤ n / 4 := Nat.div_le_div_left (by decide) (by decide)
  simp only [daysBeforeYear_eq, Nat.add_sub_cancel, Nat.succ_div, isLeap_iff]
  -- each quotient grows at the multiples of its divisor; `hle` keeps the subtraction from being cut
  -- off
  generalize n / 4 = a, n / 100 = b, n / 400 = c at hle ⊢
  by_cases h4 : 4 ∣ n + 1
  · by_cases h100 : 100 ∣ n + 1
    · by_cases h400 : 400 ∣ n + 1
      · simp only [h4, h100, h400, if_true, not_true, or_true, and_true]
        omega
      · simp only [h4, h100, h400, if_true, if_false, not_true, or_false, and_false]
        omega
    · have h400 : ¬ 400 ∣ n + 1 := fun h => h100 (hhundred h)
      simp only [h4, h100, h400, if_true, if_false, not_false_eq_true, or_false, and_true]
      omega
  · have h100 : ¬ 100 ∣ n + 1 := fun h => h4 (hfour h)
    have h400 : ¬ 400 ∣ n + 1 := fun h => h100 (hhundred h)
    simp only [h4, h100, h400, if_false, false_and]
    omega

theorem daysBeforeMonth_succ (hm : 1 ≤ m) :
    daysBeforeMonth y (m + 1) = daysBeforeMonth y m + daysInMonth y m := by
  obtain ⟨n, rfl⟩ : ∃ n, m = n + 1 := ⟨m - 1, by omega⟩
  simp [daysBeforeMonth, List.range_succ]

theorem daysBeforeMonth_thirteen (y : Nat) :
    daysBeforeMonth y 13 = if isLeap y then 366 else 365 := by
  cases h : isLeap y <;> simp [daysBeforeMonth, daysInMonth, h, List.range_succ]

theorem daysInMonth_le (y m : Nat) : daysInMonth y m ≤ 31 := by
  unfold daysInMonth
  split <;> try split
  all_goals omega

theorem daysBeforeMonth_mono (hm : 1 ≤ m) (h : m ≤ m') :
    daysBeforeMonth y m ≤ daysBeforeMonth y m' := by
  induction m', h using Nat.le_induction with
  | base => exact Nat.le_refl _
  | succ n hn ih =>
    rw [daysBeforeMonth_succ (hm.trans hn)]
    exact ih.trans (Nat.le_add_right _ _)

theorem daysBeforeYear_mono (hy : 1 ≤ y) (h : y ≤ y') : daysBeforeYear y ≤ daysBeforeYear y' := by
  induction y', h using Nat.le_induction with
  | base => exact Nat.le_refl _
  | succ n hn ih =>
    rw [daysBeforeYear_succ (hy.trans hn)]
    exact ih.trans (Nat.le_add_right _ _)

/-- A day that the calendar has. -/
structure IsDate (y m d : Nat) : Prop where
  year : 1 ≤ y
  month : 1 ≤ m ∧ m ≤ 12
  day : 1 ≤ d ∧ d ≤ daysInMonth y m

/-- A day as one number, its parts side by side. -/
def dateCode (y m d : Nat) : Nat := (y * 13 + m) * 32 + d

theorem IsDate.dayNumber_lt_month (h : IsDate y m d) :
    dayNumber y m d < daysBeforeYear y + daysBeforeMonth y (m + 1) := by
  have hday := h.day
  rw [dayNumber_eq, daysBeforeMonth_succ h.month.1]
  omega

theorem IsDate.dayNumber_lt_year (h : IsDate y m d) : dayNumber y m d < daysBeforeYear (y + 1) := by
  have hmonth := h.month
  have hlast : daysBeforeMonth y (m + 1) ≤ daysBeforeMonth y 13 :=
    daysBeforeMonth_mono (by omega) (by omega)
  have hlt := h.dayNumber_lt_month
  rw [daysBeforeMonth_thirteen] at hlast
  rw [daysBeforeYear_succ h.year]
  omega

/-- Days are numbered in their order. -/
theorem dayNumber_lt_of_dateCode_lt (h : IsDate y m d) (h' : IsDate y' m' d')
    (hlt : dateCode y m d < dateCode y' m' d') : dayNumber y m d < dayNumber y' m' d' := by
  have hmonth := h.month
  have hmonth' := h'.month
  have hday := h.day.2.trans (daysInMonth_le y m)
  have hday' := h'.day.2.trans (daysInMonth_le y' m')
  have hcases : y < y' ∨ y = y' ∧ (m < m' ∨ m = m' ∧ d < d') := by
    unfold dateCode at hlt
    omega
  -- a date lies before the end of its year, and before the end of its month
  obtain hyear | ⟨rfl, hm | ⟨rfl, hd⟩⟩ := hcases
  · have hbefore := h.dayNumber_lt_year
    have hmono := daysBeforeYear_mono (y := y + 1) (by omega) hyear
    rw [dayNumber_eq y']
    omega
  · have hbefore := h.dayNumber_lt_month
    have hmono := daysBeforeMonth_mono (y := y) (m := m + 1) (by omega) hm
    rw [dayNumber_eq y m']
    omega
  · have hfirst := h.day.1
    rw [dayNumber_eq, dayNumber_eq]
    omega

theorem dateCode_inj (h : IsDate y m d) (h' : IsDate y' m' d')
    (heq : dateCode y m d = dateCode y' m' d') : y = y' ∧ m = m' ∧ d = d' := by
  have hmonth := h.month
  have hmonth' := h'.month
  have hday := h.day.2.trans (daysInMonth_le y m)
  have hday' := h'.day.2.trans (daysInMonth_le y' m')
  unfold dateCode at heq
  omega

end Calendar

/-! ### The order of stamps -/

/-- An instant of the years that are written with four digits. -/
structure IsProper (t : Instant) : Prop where
  year : 1000 ≤ t.year ∧ t.year ≤ 9999
  month : 1 ≤ t.month ∧ t.month ≤ 12
  day : 1 ≤ t.day ∧ t.day ≤ daysInMonth t.year t.month
  hour : t.hour < 24
  minute : t.minute < 60
  second : t.second < 60
  microsecond : t.microsecond < 1000000

/-- The whole milliseconds from the beginning of year one. -/
def milliseconds (t : Instant) : Nat := t.microseconds / 1000

variable {t t₁ t₂ : Instant}

theorem milliseconds_eq (t : Instant) :
    t.milliseconds =
      (((dayNumber t.year t.month t.day * 24 + t.hour) * 60 + t.minute) * 60 + t.second) * 1000 +
        t.microsecond / 1000 := by
  rw [milliseconds, microseconds]
  omega

theorem IsProper.isDate (h : t.IsProper) : IsDate t.year t.month t.day :=
  ⟨by have := h.year; omega, h.month, h.day⟩

theorem IsProper.milliseconds_lt (h : t.IsProper) : t.milliseconds < 2 ^ 49 := by
  have hyear := h.year
  have hnumber := h.isDate.dayNumber_lt_year
  have hlast : daysBeforeYear (t.year + 1) ≤ daysBeforeYear 10000 :=
    daysBeforeYear_mono (by omega) (by omega)
  have hdays : daysBeforeYear 10000 = 3652059 := by decide
  have hhour := h.hour
  have hminute := h.minute
  have hsecond := h.second
  have hmicrosecond := h.microsecond
  rw [milliseconds_eq]
  omega

/-- The date of a stamp. -/
def dateChars (t : Instant) : List Char :=
  (padded 4 t.year).toList ++ ['-'] ++ (padded 2 t.month).toList ++ ['-'] ++ (padded 2 t.day).toList

theorem toList_stamp (t : Instant) :
    t.stamp.toList = t.dateChars ++ ['T'] ++ (padded 2 t.hour).toList ++ [':'] ++
      (padded 2 t.minute).toList ++ [':'] ++ (padded 2 t.second).toList ++ ['.'] ++
      (padded 3 (t.microsecond / 1000)).toList ++ ['Z'] := by
  simp [stamp, dateChars]

theorem ordersAs_dateChars (h₁ : t₁.IsProper) (h₂ : t₂.IsProper) :
    OrdersAs (dayNumber t₁.year t₁.month t₁.day) (dayNumber t₂.year t₂.month t₂.day)
      t₁.dateChars t₂.dateChars := by
  have hmonth₁ := h₁.month
  have hmonth₂ := h₂.month
  have hday₁ := h₁.day.2.trans (daysInMonth_le t₁.year t₁.month)
  have hday₂ := h₂.day.2.trans (daysInMonth_le t₂.year t₂.month)
  have hyear : OrdersAs t₁.year t₂.year (padded 4 t₁.year).toList (padded 4 t₂.year).toList :=
    .of_padded (by decide) (Nat.lt_succ_of_le h₁.year.2) (Nat.lt_succ_of_le h₂.year.2)
  have hmonth : OrdersAs t₁.month t₂.month (padded 2 t₁.month).toList (padded 2 t₂.month).toList :=
    .of_padded (by decide) (by omega) (by omega)
  have hday : OrdersAs t₁.day t₂.day (padded 2 t₁.day).toList (padded 2 t₂.day).toList :=
    .of_padded (by decide) (by omega) (by omega)
  -- the text compares as the code of the date does, digit by digit
  have hcode : OrdersAs (dateCode t₁.year t₁.month t₁.day) (dateCode t₂.year t₂.month t₂.day)
      t₁.dateChars t₂.dateChars :=
    (((hyear.behind ['-']).place hmonth (by omega) (by omega)).behind ['-']).place hday
      (by omega) (by omega)
  -- and the days are numbered in the order of the codes
  have hforth := dayNumber_lt_of_dateCode_lt h₁.isDate h₂.isDate
  have hback := dayNumber_lt_of_dateCode_lt h₂.isDate h₁.isDate
  have hsame (heq : dateCode t₁.year t₁.month t₁.day = dateCode t₂.year t₂.month t₂.day) :
      dayNumber t₁.year t₁.month t₁.day = dayNumber t₂.year t₂.month t₂.day := by
    obtain ⟨hy, hm, hd⟩ := dateCode_inj h₁.isDate h₂.isDate heq
    rw [hy, hm, hd]
  exact ⟨hcode.length, fun h => hcode.lt (by omega), fun h => hcode.eq (by omega)⟩

/-- The stamps of two instants stand to each other as the instants do, as far as milliseconds go. -/
theorem ordersAs_stamp (h₁ : t₁.IsProper) (h₂ : t₂.IsProper) :
    OrdersAs t₁.milliseconds t₂.milliseconds t₁.stamp.toList t₂.stamp.toList := by
  have hsixty {a b : Nat} (ha : a < 60) (hb : b < 60) :
      OrdersAs a b (padded 2 a).toList (padded 2 b).toList :=
    .of_padded (by decide) (by omega) (by omega)
  have hmicrosecond₁ := h₁.microsecond
  have hmicrosecond₂ := h₂.microsecond
  have hlast : OrdersAs (t₁.microsecond / 1000) (t₂.microsecond / 1000)
      (padded 3 (t₁.microsecond / 1000)).toList (padded 3 (t₂.microsecond / 1000)).toList :=
    .of_padded (by decide) (by omega) (by omega)
  have hdays := ordersAs_dateChars h₁ h₂
  have hhours := (hdays.behind ['T']).place
    (hsixty (h₁.hour.trans (by decide)) (h₂.hour.trans (by decide)))
    h₁.hour h₂.hour
  have hminutes := (hhours.behind [':']).place (hsixty h₁.minute h₂.minute) h₁.minute h₂.minute
  have hseconds := (hminutes.behind [':']).place (hsixty h₁.second h₂.second) h₁.second h₂.second
  rw [milliseconds_eq, milliseconds_eq, toList_stamp, toList_stamp]
  exact ((hseconds.behind ['.']).place hlast (by omega) (by omega)).behind ['Z']

/-- The order of the stamps is that of the instants, as far as milliseconds go. -/
theorem stamp_le_iff (h₁ : t₁.IsProper) (h₂ : t₂.IsProper) :
    t₁.stamp ≤ t₂.stamp ↔ t₁.milliseconds ≤ t₂.milliseconds := by
  have hforth := ordersAs_stamp h₁ h₂
  have hback := ordersAs_stamp h₂ h₁
  rw [← String.not_lt, String.lt_iff, ← Nat.not_lt, not_iff_not]
  refine ⟨fun hlt => ?_, hback.lt⟩
  by_contra hle
  obtain hless | hsame := Nat.lt_or_eq_of_le (Nat.not_lt.1 hle)
  · exact List.lt_asymm hlt (hforth.lt hless)
  · rw [hforth.eq hsame] at hlt
    exact List.lt_irrefl _ hlt

/-! ### Stamps are read -/

/-- A numeral of fixed width is read up to its end. -/
theorem digitsUpTo_padded {w most n : Nat} {rest : List Char} (hw : 0 < w) (hn : n < 10 ^ w)
    (hmost : w ≤ most) (hrest : w = most ∨ ∀ c ∈ rest.head?, c.isDigit = false) :
    digitsUpTo most ((padded w n).toList ++ rest) = some (n, w, rest) := by
  have hlength := length_padded hw hn
  have hall : ∀ c ∈ (padded w n).toList, c.isDigit = true := fun _ => isDigit_of_mem_padded
  -- the digits end with the numeral: as no more are taken, or as no digit follows
  have hnone : (rest.take (most - w)).takeWhile Char.isDigit = [] := by
    obtain rfl | hrest := hrest
    · rw [Nat.sub_self, List.take_zero, List.takeWhile_nil]
    · cases rest with
      | nil => rw [List.take_nil, List.takeWhile_nil]
      | cons c rest =>
        cases most - w with
        | zero => rfl
        | succ k => rw [List.take_succ_cons, List.takeWhile_cons_of_neg (by simp [hrest c rfl])]
  have hdigits : (((padded w n).toList ++ rest).take most).takeWhile Char.isDigit =
      (padded w n).toList := by
    rw [List.take_append, hlength, List.take_of_length_le (by omega),
      List.takeWhile_append_of_pos hall,
      hnone, List.append_nil]
  have hne : (padded w n).toList.isEmpty = false := by
    rw [List.isEmpty_eq_false_iff, ← List.length_pos_iff, hlength]
    exact hw
  simp only [digitsUpTo, hdigits, hne, natOfDigits_padded, hlength, List.drop_left' hlength]
  rfl

theorem ofStamp?_stamp (h : t.IsProper) :
    ofStamp? t.stamp = some { t with microsecond := t.microsecond / 1000 * 1000 } := by
  have hlist : t.stamp.toList =
      (padded 4 t.year).toList ++ '-' :: ((padded 2 t.month).toList ++ '-' ::
        ((padded 2 t.day).toList ++ 'T' :: ((padded 2 t.hour).toList ++ ':' ::
          ((padded 2 t.minute).toList ++ ':' :: ((padded 2 t.second).toList ++ '.' ::
            ((padded 3 (t.microsecond / 1000)).toList ++ ['Z'])))))) := by
    simp [toList_stamp, dateChars]
  -- a numeral is read up to its width, and what is left begins with the mark before the next one
  have hyear (rest : List Char) (next : Nat × Nat × List Char → Option Instant) :
      (digitsUpTo 4 ((padded 4 t.year).toList ++ rest) >>= next) = next (t.year, 4, rest) := by
    rw [digitsUpTo_padded (by decide) (Nat.lt_succ_of_le h.year.2) (Nat.le_refl 4) (.inl rfl)]
    rfl
  have htwo {n : Nat} (hn : n < 100) (c : Char) (rest : List Char)
      (next : Nat × Nat × List Char → Option Instant) :
      (after c (c :: ((padded 2 n).toList ++ rest)) >>= fun cs => digitsUpTo 2 cs >>= next) =
        next (n, 2, rest) := by
    have hafter : after c (c :: ((padded 2 n).toList ++ rest)) =
        some ((padded 2 n).toList ++ rest) := by
      simp [after]
    rw [hafter, Option.bind_eq_bind, Option.bind_some,
      digitsUpTo_padded (by decide) hn (Nat.le_refl 2) (.inl rfl)]
    rfl
  have hmonth := htwo (n := t.month) (by have := h.month; omega)
  have hday := htwo (n := t.day) (by have := h.day.2.trans (daysInMonth_le _ _); omega)
  have hhour := htwo (h.hour.trans (by decide))
  have hminute := htwo (h.minute.trans (by decide))
  have hsecond := htwo (h.second.trans (by decide))
  have hfraction : digitsUpTo 6 ((padded 3 (t.microsecond / 1000)).toList ++ ['Z']) =
      some (t.microsecond / 1000, 3, ['Z']) :=
    digitsUpTo_padded (by decide) (by have := h.microsecond; omega) (by decide)
      (.inr fun c hc => by rw [← Option.some.inj hc]; rfl)
  rw [ofStamp?, hlist, hyear]
  -- from the outside in, so that no reading is unfolded before its numeral is known
  simp only [↓hmonth, ↓hday, ↓hhour, ↓hminute, ↓hsecond]
  simp [after, hfraction, h.day, h.hour, h.minute, h.second]

/-! ### The time between stamps -/

/-- The milliseconds from one instant to another, each cut off at the millisecond. -/
def span (t₁ t₂ : Instant) : Int := t₂.milliseconds - t₁.milliseconds

/-- The time between stamps is that between instants, sent through seconds. -/
theorem millisecondsBetween_stamp (h₁ : t₁.IsProper) (h₂ : t₂.IsProper) :
    millisecondsBetween t₁.stamp t₂.stamp = .ok (wholeMilliseconds (1000 * span t₁ t₂)) := by
  have hread {t : Instant} (h : t.IsProper) : ofStamp t.stamp =
      .ok { t with microsecond := t.microsecond / 1000 * 1000 } := by
    rw [ofStamp, ofStamp?_stamp h]
  have hcut (t : Instant) : microseconds { t with microsecond := t.microsecond / 1000 * 1000 } =
      1000 * t.milliseconds := by
    rw [milliseconds_eq, microseconds]
    dsimp only
    omega
  have hspan : 1000 * span t₁ t₂ =
      ((1000 * t₂.milliseconds : Nat) : Int) - (1000 * t₁.milliseconds : Nat) := by
    rw [span]
    omega
  rw [hspan, ← hcut, ← hcut, millisecondsBetween, hread h₁, hread h₂]
  rfl

/-- What the stamps of two instants tell of them: in which order they come, and the milliseconds
from one to the other, of which one may be lost. -/
structure TellsElapsed (t₁ t₂ : Instant) : Prop where
  in_order : t₁.microseconds ≤ t₂.microseconds → t₁.stamp ≤ t₂.stamp
  elapsed : millisecondsBetween t₁.stamp t₂.stamp =
    .ok (if LosesOne (span t₁ t₂).natAbs then span t₁ t₂ - (span t₁ t₂).sign else span t₁ t₂)

theorem tellsElapsed_stamp (h₁ : t₁.IsProper) (h₂ : t₂.IsProper) : TellsElapsed t₁ t₂ where
  in_order hle := (stamp_le_iff h₁ h₂).2 (Nat.div_le_div_right hle)
  elapsed := by
    have hlt₁ := h₁.milliseconds_lt
    have hlt₂ := h₂.milliseconds_lt
    have hshort : (span t₁ t₂).natAbs < 2 ^ 52 := by
      rw [span]
      omega
    rw [millisecondsBetween_stamp h₁ h₂, wholeMilliseconds_eq hshort]

/-- The last instant of a year. -/
def yearsEnd : Instant := ⟨2023, 12, 31, 23, 59, 59, 999999⟩

/-- Noon of a leap day. -/
def leapNoon : Instant := ⟨2024, 2, 29, 12, 0, 0, 1250⟩

theorem isProper_leapNoon : leapNoon.IsProper :=
  ⟨by decide, by decide, by decide, by decide, by decide, by decide, by decide⟩

theorem tellsElapsed_leapNoon :
    yearsEnd.IsProper ∧ leapNoon.IsProper ∧ TellsElapsed yearsEnd leapNoon :=
  have hend : yearsEnd.IsProper :=
    ⟨by decide, by decide, by decide, by decide, by decide, by decide, by decide⟩
  ⟨hend, isProper_leapNoon, tellsElapsed_stamp hend isProper_leapNoon⟩

/-- A second and a millisecond after noon of that day. -/
def pastNoon : Instant := ⟨2024, 2, 29, 12, 0, 1, 2250⟩

/-- A second and a millisecond come out as a second: the double-precision number nearest to `1.001`
lies below it by so much that its product with a thousand does too. -/
theorem millisecondsBetween_pastNoon :
    leapNoon.IsProper ∧ pastNoon.IsProper ∧ span leapNoon pastNoon = 1001 ∧
      millisecondsBetween leapNoon.stamp pastNoon.stamp = .ok 1000 := by
  have hpast : pastNoon.IsProper :=
    ⟨by decide, by decide, by decide, by decide, by decide, by decide, by decide⟩
  have hspan : span leapNoon pastNoon = 1001 := by decide
  have hvalue : wholeMilliseconds (1000 * 1001) = 1000 := by decide +kernel
  refine ⟨isProper_leapNoon, hpast, hspan, ?_⟩
  rw [millisecondsBetween_stamp isProper_leapNoon hpast, hspan, hvalue]

end Instant

end RepoGraph
