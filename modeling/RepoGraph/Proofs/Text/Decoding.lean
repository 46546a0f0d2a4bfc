import RepoGraph.Proofs.Record
import RepoGraph.Text.Utf8

/-!
# Which bytes are a text

`Text.Utf8.decode` reads exactly the bytes that some text is written in: it answers a text exactly
if the bytes are that text in UTF-8, and it fails on bytes that are no text.  The induction is on
the characters; `lead?` and `following` are compared with the one, two, three or four bytes of a
character.

Main statements: `Text.Utf8.decode_eq_ok_iff`, `Text.Utf8.exists_decode_iff`.
-/

namespace RepoGraph

namespace Text

namespace Utf8

variable {b : UInt8} {l : Lead} {value n low high got count position : Nat}
  {bytes rest : List UInt8}
  {c : Char} {cs : List Char}

/-! ### The bytes that follow -/

theorem following_cons (hb : low ≤ b.toNat ∧ b.toNat ≤ high) :
    following value (count + 1) low high got (b :: rest) =
      following (value * 64 + (b.toNat - 0x80)) count 0x80 0xBF (got + 1) rest := by
  rw [following, if_pos (by simp [hb])]

theorem exists_of_following
    (h : following value (count + 1) low high got bytes = .ok n) :
    ∃ b rest, bytes = b :: rest ∧ (low ≤ b.toNat ∧ b.toNat ≤ high) ∧
      following (value * 64 + (b.toNat - 0x80)) count 0x80 0xBF (got + 1) rest = .ok n := by
  cases bytes with
  | nil => cases h
  | cons b rest =>
    rw [following] at h
    split at h
    · rename_i hb
      exact ⟨b, rest, rfl, by simpa using hb, h⟩
    · cases h

/-! ### The first byte -/

theorem lead?_two (h : 0xC2 ≤ b.toNat ∧ b.toNat ≤ 0xDF) :
    lead? b = some ⟨b.toNat - 0xC0, 1, 0x80, 0xBF⟩ := by
  simp [lead?, h]

/-- The range of the byte after the first of three. -/
theorem lead?_three (h : 0xE0 ≤ b.toNat ∧ b.toNat ≤ 0xEF) :
    lead? b = some ⟨b.toNat - 0xE0, 2, if b.toNat = 0xE0 then 0xA0 else 0x80,
      if b.toNat = 0xED then 0x9F else 0xBF⟩ := by
  by_cases h0 : b.toNat = 0xE0
  · simp [lead?, h0]
  by_cases hD : b.toNat = 0xED
  · simp [lead?, hD]
  have h2 : ¬ b.toNat ≤ 0xDF := by omega
  have h3 : 0xE1 ≤ b.toNat := by omega
  simp [lead?, h0, hD, h2, h3, h.2]

/-- The range of the byte after the first of four. -/
theorem lead?_four (h : 0xF0 ≤ b.toNat ∧ b.toNat ≤ 0xF4) :
    lead? b = some ⟨b.toNat - 0xF0, 3, if b.toNat = 0xF0 then 0x90 else 0x80,
      if b.toNat = 0xF4 then 0x8F else 0xBF⟩ := by
  by_cases h0 : b.toNat = 0xF0
  · simp [lead?, h0]
  by_cases h4 : b.toNat = 0xF4
  · simp [lead?, h4]
  have h1 : ¬ b.toNat ≤ 0xDF := by omega
  have h2 : ¬ b.toNat = 0xE0 := by omega
  have h3 : ¬ b.toNat = 0xED := by omega
  have h5 : ¬ b.toNat ≤ 0xEF := by omega
  have h6 : 0xF1 ≤ b.toNat ∧ b.toNat ≤ 0xF3 := by omega
  simp [lead?, h0, h4, h1, h2, h3, h5, h6]

theorem range_of_lead? (h : lead? b = some l) :
    (0xC2 ≤ b.toNat ∧ b.toNat ≤ 0xDF) ∨ (0xE0 ≤ b.toNat ∧ b.toNat ≤ 0xEF) ∨
      (0xF0 ≤ b.toNat ∧ b.toNat ≤ 0xF4) := by
  by_contra hno
  have hnone : lead? b = none := by
    unfold lead?
    simp only [Bool.and_eq_true, decide_eq_true_eq, beq_iff_eq]
    repeat rw [if_neg (by omega)]
  rw [hnone] at h
  cases h

/-! ### One character -/

theorem toNat_ofNat_of_lt (h : n < 256) : (UInt8.ofNat n).toNat = n := by
  rw [UInt8.toNat_ofNat', Nat.mod_eq_of_lt h]

/-- The bytes after the first one of a character stand for six bits each. -/
theorem toNat_ofNat_trail (n : Nat) : (UInt8.ofNat (n % 64 + 128)).toNat = n % 64 + 128 :=
  toNat_ofNat_of_lt (by omega)

theorem decodeFrom_of_lead? {c : Char} (hb : 0x80 ≤ b.toNat) (hlead : lead? b = some l)
    (hfollowing : following l.value l.following l.low l.high 1 rest = .ok c.toNat) :
    decodeFrom position (b :: rest) =
      (decodeFrom (position + 1 + l.following) (rest.drop l.following)).map (c :: ·) := by
  rw [decodeFrom, if_neg (by omega), hlead]
  simp only [hfollowing, Char.ofNat_toNat]

/-- A character is read from its bytes, whatever stands behind them. -/
theorem decodeFrom_append (c : Char) (position : Nat) (rest : List UInt8) :
    decodeFrom position (String.utf8EncodeChar c ++ rest) =
      (decodeFrom (position + (String.utf8EncodeChar c).length) rest).map (c :: ·) := by
  have hvalid : c.toNat < 0xD800 ∨ 0xDFFF < c.toNat ∧ c.toNat < 0x110000 := c.valid
  have hc : c.val.toNat = c.toNat := rfl
  have hlast := toNat_ofNat_trail c.toNat
  have hmiddle := toNat_ofNat_trail (c.toNat / 64)
  have hsecond := toNat_ofNat_trail (c.toNat / 4096)
  unfold String.utf8EncodeChar
  simp only [hc]
  -- by the number of bytes; the ranges of the second byte are just what tells the numbers of three
  -- and four bytes from smaller ones, from surrogates and from those beyond all characters
  split
  · rename_i h1
    have hfirst : (UInt8.ofNat c.toNat).toNat = c.toNat := toNat_ofNat_of_lt (by omega)
    simp only [List.cons_append, List.nil_append, List.length_cons, List.length_nil]
    rw [decodeFrom, hfirst, if_pos (by omega), Char.ofNat_toNat]
  split
  · rename_i h1 h2
    have hfirst : (UInt8.ofNat (c.toNat / 64 % 32 + 192)).toNat = c.toNat / 64 + 192 :=
      (toNat_ofNat_of_lt (by omega)).trans (by omega)
    have hread : following (c.toNat / 64 + 192 - 0xC0) 1 0x80 0xBF 1
        (UInt8.ofNat (c.toNat % 64 + 128) :: rest) = .ok c.toNat := by
      rw [following_cons (by omega), following, hlast]
      exact congrArg _ (by omega)
    have hlead := lead?_two (b := UInt8.ofNat (c.toNat / 64 % 32 + 192)) (by omega)
    rw [hfirst] at hlead
    exact decodeFrom_of_lead? (by omega) hlead hread
  split
  · rename_i h1 h2 h3
    have hfirst : (UInt8.ofNat (c.toNat / 4096 % 16 + 224)).toNat = c.toNat / 4096 + 224 :=
      (toNat_ofNat_of_lt (by omega)).trans (by omega)
    have hlead := lead?_three (b := UInt8.ofNat (c.toNat / 4096 % 16 + 224)) (by omega)
    rw [hfirst] at hlead
    have hread : following (c.toNat / 4096 + 224 - 0xE0) 2
        (if c.toNat / 4096 + 224 = 0xE0 then 0xA0 else 0x80)
        (if c.toNat / 4096 + 224 = 0xED then 0x9F else 0xBF) 1
        (UInt8.ofNat (c.toNat / 64 % 64 + 128) :: UInt8.ofNat (c.toNat % 64 + 128) :: rest) =
          .ok c.toNat := by
      rw [following_cons (by split <;> split <;> omega), following_cons (by omega), following,
        hmiddle, hlast]
      exact congrArg _ (by omega)
    exact decodeFrom_of_lead? (by omega) hlead hread
  · rename_i h1 h2 h3
    have hfirst : (UInt8.ofNat (c.toNat / 262144 % 8 + 240)).toNat = c.toNat / 262144 + 240 :=
      (toNat_ofNat_of_lt (by omega)).trans (by omega)
    have hlead := lead?_four (b := UInt8.ofNat (c.toNat / 262144 % 8 + 240)) (by omega)
    rw [hfirst] at hlead
    have hread : following (c.toNat / 262144 + 240 - 0xF0) 3
        (if c.toNat / 262144 + 240 = 0xF0 then 0x90 else 0x80)
        (if c.toNat / 262144 + 240 = 0xF4 then 0x8F else 0xBF) 1
        (UInt8.ofNat (c.toNat / 4096 % 64 + 128) :: UInt8.ofNat (c.toNat / 64 % 64 + 128) ::
          UInt8.ofNat (c.toNat % 64 + 128) :: rest) = .ok c.toNat := by
      rw [following_cons (by split <;> split <;> omega), following_cons (by omega),
        following_cons (by omega), following, hsecond, hmiddle, hlast]
      exact congrArg _ (by omega)
    exact decodeFrom_of_lead? (by omega) hlead hread

theorem toNat_val_ofNat (h : n.isValidChar) : (Char.ofNat n).val.toNat = n := by
  rw [Char.ofNat, dif_pos h]
  rfl

theorem ofNat_eq_of_toNat (h : b.toNat = n) : UInt8.ofNat n = b := by
  rw [← h, UInt8.ofNat_toNat]

/-- The bytes of what is read from bytes of which the first begins a longer character. -/
theorem utf8EncodeChar_of_following (hlead : lead? b = some l)
    (h : following l.value l.following l.low l.high 1 rest = .ok n) :
    String.utf8EncodeChar (Char.ofNat n) ++ rest.drop l.following = b :: rest := by
  -- the number is put together again from the bytes, so that each byte is the one that is written
  -- for it
  rcases range_of_lead? hlead with hb | hb | hb
  · obtain rfl := Option.some.inj (hlead.symm.trans (lead?_two hb))
    obtain ⟨last, rest, rfl, hlast, h⟩ := exists_of_following h
    simp only at hlast
    obtain rfl := Except.ok.inj h
    have hvalid : ((b.toNat - 0xC0) * 64 + (last.toNat - 0x80)).isValidChar := .inl (by omega)
    unfold String.utf8EncodeChar
    simp only [toNat_val_ofNat hvalid]
    rw [if_neg (by omega), if_pos (by omega), ofNat_eq_of_toNat (b := b) (by omega),
      ofNat_eq_of_toNat (b := last) (by omega)]
    rfl
  · obtain rfl := Option.some.inj (hlead.symm.trans (lead?_three hb))
    obtain ⟨middle, rest, rfl, hmiddle, h⟩ := exists_of_following h
    obtain ⟨last, rest, rfl, hlast, h⟩ := exists_of_following h
    have hmiddle : (0x80 ≤ middle.toNat ∧ middle.toNat ≤ 0xBF) ∧
        (b.toNat = 0xE0 → 0xA0 ≤ middle.toNat) ∧ (b.toNat = 0xED → middle.toNat ≤ 0x9F) := by
      simp only at hmiddle
      split at hmiddle <;> split at hmiddle <;> omega
    obtain rfl := Except.ok.inj h
    have hvalid : (((b.toNat - 0xE0) * 64 + (middle.toNat - 0x80)) * 64 +
        (last.toNat - 0x80)).isValidChar := by
      rw [Nat.isValidChar]
      omega
    unfold String.utf8EncodeChar
    simp only [toNat_val_ofNat hvalid]
    rw [if_neg (by omega), if_neg (by omega), if_pos (by omega),
      ofNat_eq_of_toNat (b := b) (by omega), ofNat_eq_of_toNat (b := middle) (by omega),
      ofNat_eq_of_toNat (b := last) (by omega)]
    rfl
  · obtain rfl := Option.some.inj (hlead.symm.trans (lead?_four hb))
    obtain ⟨second, rest, rfl, hsecond, h⟩ := exists_of_following h
    obtain ⟨middle, rest, rfl, hmiddle, h⟩ := exists_of_following h
    obtain ⟨last, rest, rfl, hlast, h⟩ := exists_of_following h
    have hsecond : (0x80 ≤ second.toNat ∧ second.toNat ≤ 0xBF) ∧
        (b.toNat = 0xF0 → 0x90 ≤ second.toNat) ∧ (b.toNat = 0xF4 → second.toNat ≤ 0x8F) := by
      simp only at hsecond
      split at hsecond <;> split at hsecond <;> omega
    obtain rfl := Except.ok.inj h
    have hvalid : ((((b.toNat - 0xF0) * 64 + (second.toNat - 0x80)) * 64 +
        (middle.toNat - 0x80)) * 64 + (last.toNat - 0x80)).isValidChar := by
      rw [Nat.isValidChar]
      omega
    unfold String.utf8EncodeChar
    simp only [toNat_val_ofNat hvalid]
    rw [if_neg (by omega), if_neg (by omega), if_neg (by omega),
      ofNat_eq_of_toNat (b := b) (by omega), ofNat_eq_of_toNat (b := second) (by omega),
      ofNat_eq_of_toNat (b := middle) (by omega), ofNat_eq_of_toNat (b := last) (by omega)]
    rfl

/-! ### All characters -/

/-- What is read are the characters whose bytes these are. -/
theorem decodeFrom_eq_ok_iff :
    decodeFrom position bytes = .ok cs ↔ cs.flatMap String.utf8EncodeChar = bytes := by
  constructor
  · intro h
    fun_induction decodeFrom position bytes generalizing cs with
    | case1 =>
      cases h
      rfl
    | case2 position b rest hb ih =>
      obtain ⟨cs, hrest, rfl⟩ := exists_of_map h
      have hvalid : b.toNat.isValidChar := .inl (by omega)
      have hfirst : String.utf8EncodeChar (Char.ofNat b.toNat) = [b] := by
        unfold String.utf8EncodeChar
        simp only [toNat_val_ofNat hvalid]
        rw [if_pos (by omega), UInt8.ofNat_toNat]
      rw [List.flatMap_cons, hfirst, ih hrest]
      rfl
    -- a byte that begins no character, and one whose character is cut short
    | case3 => cases h
    | case4 => cases h
    | case5 position b rest hb l hlead n hfollowing ih =>
      obtain ⟨cs, hrest, rfl⟩ := exists_of_map h
      rw [List.flatMap_cons, ih hrest]
      exact utf8EncodeChar_of_following hlead hfollowing
  · rintro rfl
    induction cs generalizing position with
    | nil => rw [List.flatMap_nil, decodeFrom]
    | cons c cs ih =>
      rw [List.flatMap_cons, decodeFrom_append, ih]
      rfl

/-- Bytes are read as a text exactly if they are the text in UTF-8. -/
theorem decode_eq_ok_iff {s : String} :
    decode bytes = .ok s ↔ s.toByteArray = bytes.toByteArray := by
  have hbytes : s.toByteArray = (s.toList.flatMap String.utf8EncodeChar).toByteArray := by
    rw [← String.utf8Encode_toList]
    rfl
  have hread : decodeFrom 0 bytes = .ok s.toList ↔
      s.toList.flatMap String.utf8EncodeChar = bytes := decodeFrom_eq_ok_iff
  rw [hbytes, List.toByteArray_inj, ← hread, decode]
  constructor
  · intro h
    obtain ⟨cs, hcs, rfl⟩ := exists_of_map h
    rw [String.toList_ofList, hcs]
  · intro h
    rw [h, Except.map, String.ofList_toList]

/-- Bytes are read exactly if they are a text in UTF-8. -/
theorem exists_decode_iff : (∃ s, decode bytes = .ok s) ↔ bytes.toByteArray.IsValidUTF8 := by
  simp only [decode_eq_ok_iff]
  constructor
  · rintro ⟨s, h⟩
    rw [← h]
    exact s.isValidUTF8
  · intro h
    exact ⟨⟨bytes.toByteArray, h⟩, rfl⟩

end Utf8

end Text

end RepoGraph
