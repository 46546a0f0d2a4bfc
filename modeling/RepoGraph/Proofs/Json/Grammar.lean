import Mathlib.Data.List.TakeWhile
import RepoGraph.Proofs.Json.RoundTrip

/-!
# The texts that are read

`Json.Spells` is a grammar: it says which characters spell a value, the items of an array up to its
closing bracket, one field, or the fields of an object up to its closing brace.  A text is read
exactly when it spells a value between blanks, and it is read as that value.

Main statement: `Json.read_eq_ok_iff`.
-/

namespace RepoGraph

namespace Json

/-! ### The grammar -/

/-- Whether characters begin with the escape of a low surrogate that joins with the unit `n`. -/
def JoinsWith (n : Nat) (cs : List Char) : Prop :=
  ∃ a b c d rest m, cs = '\\' :: 'u' :: a :: b :: c :: d :: rest ∧ isHighSurrogate n = true ∧
    hex4? a b c d = some m ∧ isLowSurrogate m = true

/-- Whether characters, the last of them the closing quote, spell the characters of a string. -/
inductive SpellsString : List Char → List Char → Prop
  | close : SpellsString ['"'] []
  | plain {c : Char} {cs s : List Char} (hquote : c ≠ '"') (hslash : c ≠ '\\')
      (hcontrol : ¬ c.toNat < 0x20) (h : SpellsString cs s) : SpellsString (c :: cs) (c :: s)
  | escape {c image : Char} {cs s : List Char} (himage : simpleEscape? c = some image)
      (h : SpellsString cs s) : SpellsString ('\\' :: c :: cs) (image :: s)
  | unit {a b c d : Char} {n : Nat} {cs s : List Char} (hdigits : hex4? a b c d = some n)
      (halone : ¬ JoinsWith n cs) (h : SpellsString cs s) :
      SpellsString ('\\' :: 'u' :: a :: b :: c :: d :: cs) (charOfUnit n :: s)
  | pair {a b c d a' b' c' d' : Char} {n m : Nat} {cs s : List Char}
      (hdigits : hex4? a b c d = some n) (hhigh : isHighSurrogate n = true)
      (hdigits' : hex4? a' b' c' d' = some m) (hlow : isLowSurrogate m = true)
      (h : SpellsString cs s) :
      SpellsString ('\\' :: 'u' :: a :: b :: c :: d :: '\\' :: 'u' :: a' :: b' :: c' :: d' :: cs)
        (charOfPair n m :: s)

/-- The words that are values. -/
def words : List (String × Json) :=
  [("null", null), ("true", bool true), ("false", bool false), ("NaN", float Binary64.nan),
    ("Infinity", float (Binary64.infinity false)), ("-Infinity", float (Binary64.infinity true))]

/-- Whether characters spell a word or a number. -/
inductive SpellsScalar : List Char → Json → Prop
  | word {word : String} {v : Json} (h : (word, v) ∈ words) : SpellsScalar word.toList v
  | numeral {t : NumeralText} {power : List Char} {negative : Bool} {v : Json}
      (ht : t.IsWellFormed) (hpower : NumeralText.SpellsPower power t.power)
      (hvalue : numeralValue t negative = .ok v) :
      SpellsScalar (signed negative (t.spelling power)) v

/-- What a stretch of text may spell. -/
inductive Part where
  | value (v : Json)
  | items (items : List Json)
  | field (name : String) (v : Json)
  | fields (fields : List (String × Json))

/-- Whether characters spell a part of a text.  Items and fields stand between blanks, with commas
between them, and their closing bracket or brace belongs to them. -/
inductive Spells : List Char → Part → Prop
  | scalar {cs : List Char} {v : Json} (h : SpellsScalar cs v) : Spells cs (.value v)
  | string {cs s : List Char} (h : SpellsString cs s) :
      Spells ('"' :: cs) (.value (str (String.ofList s)))
  | array {cs : List Char} {items : List Json} (h : Spells cs (.items items)) :
      Spells ('[' :: cs) (.value (arr items))
  | object {cs : List Char} {fields : List (String × Json)} (h : Spells cs (.fields fields)) :
      Spells ('\x7b' :: cs) (.value (obj (Fields.update [] fields)))
  | noItems {blanks : List Char} (hblanks : IsBlank blanks) : Spells (blanks ++ [']']) (.items [])
  | lastItem {before cs after : List Char} {v : Json} (hbefore : IsBlank before)
      (h : Spells cs (.value v)) (hafter : IsBlank after) :
      Spells (before ++ (cs ++ (after ++ [']']))) (.items [v])
  | nextItem {before cs after more : List Char} {v u : Json} {items : List Json}
      (hbefore : IsBlank before) (h : Spells cs (.value v)) (hafter : IsBlank after)
      (hmore : Spells more (.items (u :: items))) :
      Spells (before ++ (cs ++ (after ++ ',' :: more))) (.items (v :: u :: items))
  | named {text s colon gap cs : List Char} {v : Json} (hname : SpellsString text s)
      (hcolon : IsBlank colon) (hgap : IsBlank gap) (h : Spells cs (.value v)) :
      Spells ('"' :: (text ++ (colon ++ ':' :: (gap ++ cs)))) (.field (String.ofList s) v)
  | noFields {blanks : List Char} (hblanks : IsBlank blanks) :
      Spells (blanks ++ ['\x7d']) (.fields [])
  | lastField {before cs after : List Char} {name : String} {v : Json} (hbefore : IsBlank before)
      (h : Spells cs (.field name v)) (hafter : IsBlank after) :
      Spells (before ++ (cs ++ (after ++ ['\x7d']))) (.fields [(name, v)])
  | nextField {before cs after more : List Char} {name : String} {v : Json}
      {field : String × Json} {fields : List (String × Json)} (hbefore : IsBlank before)
      (h : Spells cs (.field name v)) (hafter : IsBlank after)
      (hmore : Spells more (.fields (field :: fields))) :
      Spells (before ++ (cs ++ (after ++ ',' :: more))) (.fields ((name, v) :: field :: fields))

/-! ### What is read is spelled: strings -/

theorem joinUnits_eq_ok {offset n taken : Nat} {next : List Char} {image : Char}
    (h : joinUnits offset n next = .ok (image, taken)) :
    (∃ a b c d rest m, next = '\\' :: 'u' :: a :: b :: c :: d :: rest ∧
      isHighSurrogate n = true ∧ hex4? a b c d = some m ∧ isLowSurrogate m = true ∧
      image = charOfPair n m ∧ taken = 6) ∨
    (image = charOfUnit n ∧ taken = 0 ∧
      ∀ a b c d e rest, next = '\\' :: 'u' :: a :: b :: c :: d :: e :: rest →
        ¬ JoinsWith n next) := by
  rw [joinUnits.eq_def] at h
  split at h
  · -- another escape follows: it joins the unit if the two are the halves of one character
    rename_i a b c d e rest
    split at h
    · rename_i hhigh
      split at h
      · cases h
      · rename_i m hdigits
        cases hlow : isLowSurrogate m with
        | true =>
          rw [hlow, if_pos rfl] at h
          obtain ⟨rfl, rfl⟩ := Prod.mk.inj (Except.ok.inj h)
          exact .inl ⟨a, b, c, d, e :: rest, m, rfl, hhigh, hdigits, hlow, rfl, rfl⟩
        | false =>
          rw [hlow, if_neg Bool.false_ne_true] at h
          obtain ⟨rfl, rfl⟩ := Prod.mk.inj (Except.ok.inj h)
          refine .inr ⟨rfl, rfl, ?_⟩
          rintro - - - - - - - ⟨a', b', c', d', rest', m', heq, -, hdigits', hlow'⟩
          cases heq
          rw [hdigits, Option.some.injEq] at hdigits'
          rw [← hdigits', hlow] at hlow'
          cases hlow'
    · rename_i hhigh
      cases h
      refine .inr ⟨rfl, rfl, ?_⟩
      rintro - - - - - - - ⟨-, -, -, -, -, -, -, hhigh', -⟩
      exact hhigh hhigh'
  · -- nothing that is long enough to be an escape follows
    rename_i hshort
    cases h
    exact .inr ⟨rfl, rfl, fun a b c d e rest heq => (hshort a b c d e rest heq).elim⟩

theorem SpellsString.ne_nil {cs s : List Char} (h : SpellsString cs s) : cs ≠ [] := by
  cases h <;> exact List.cons_ne_nil _ _

/-- After an escaped unit a string goes on. -/
theorem SpellsString.exists_of_unit {a b c d : Char} {rest s : List Char}
    (h : SpellsString ('\\' :: 'u' :: a :: b :: c :: d :: rest) s) :
    ∃ e more, rest = e :: more := by
  cases h with
  | plain _ hslash _ _ => exact absurd rfl hslash
  | escape himage _ => cases himage
  | unit _ _ h => exact List.exists_cons_of_ne_nil h.ne_nil
  | pair => exact ⟨_, _, rfl⟩

theorem spellsString_of_readString {start offset : Nat} {done cs : List Char} {s : String}
    {after : Cursor} (h : readString start done offset cs = .ok (s, after)) :
    ∃ text chars, cs = text ++ after.rest ∧ SpellsString text chars ∧
      s = String.ofList (done.reverse ++ chars) := by
  fun_induction readString start done offset cs with
  -- the cases in which the reader fails
  | case1 | case3 | case4 | case5 | case7 | case8 | case10 => cases h
  | case2 done offset rest =>
    cases h
    exact ⟨['"'], [], rfl, .close, by rw [List.append_nil]⟩
  | case6 done offset a b c d e rest n hdigits image taken hjoin ih =>
    obtain ⟨text, chars, hcs, htext, hs⟩ := ih h
    rw [List.reverse_cons, List.append_assoc, List.singleton_append] at hs
    -- the unit was joined with the next one, or stands alone and cannot be joined
    obtain ⟨a', b', c', d', rest', m, hnext, hhigh, hdigits', hlow, himage, htaken⟩ |
      ⟨himage, htaken, halone⟩ := joinUnits_eq_ok hjoin
    · rw [hnext, htaken] at hcs
      rw [hnext]
      rw [himage] at hs
      rw [List.drop_succ_cons, List.drop_succ_cons, List.drop_succ_cons, List.drop_succ_cons,
        List.drop_succ_cons, List.drop_succ_cons, List.drop_zero] at hcs
      refine ⟨'\\' :: 'u' :: a :: b :: c :: d :: '\\' :: 'u' :: a' :: b' :: c' :: d' :: text,
        charOfPair n m :: chars, ?_, .pair hdigits hhigh hdigits' hlow htext, hs⟩
      rw [hcs]
      simp only [List.cons_append]
    · rw [htaken, List.drop_zero] at hcs
      rw [himage] at hs
      refine ⟨'\\' :: 'u' :: a :: b :: c :: d :: text, _, by rw [hcs]; rfl,
        .unit hdigits ?_ htext, hs⟩
      rintro ⟨a', b', c', d', rest', m, rfl, hhigh, hdigits', hlow⟩
      obtain ⟨e', more, rfl⟩ := htext.exists_of_unit
      exact halone a' b' c' d' e' _ hcs
        ⟨a', b', c', d', _, m, hcs, hhigh, hdigits', hlow⟩
  | case9 done offset c rest _ _ image himage ih =>
    obtain ⟨text, chars, rfl, htext, hs⟩ := ih h
    rw [List.reverse_cons, List.append_assoc, List.singleton_append] at hs
    exact ⟨_, _, rfl, .escape himage htext, hs⟩
  | case11 done offset c rest hquote hend _ _ hescape hcontrol ih =>
    obtain ⟨text, chars, rfl, htext, hs⟩ := ih h
    rw [List.reverse_cons, List.append_assoc, List.singleton_append] at hs
    refine ⟨_, _, rfl, .plain hquote (fun hslash => ?_) hcontrol htext, hs⟩
    cases htext : text ++ after.rest with
    | nil => exact hend hslash htext
    | cons c' rest' => exact hescape c' rest' hslash htext

/-! ### What is spelled is read: strings -/

/-- An escaped unit within a string has its four digits there. -/
theorem SpellsString.exists_digits {cs s rest more : List Char} (h : SpellsString cs s)
    (heq : cs ++ rest = '\\' :: 'u' :: more) :
    ∃ a b c d m tail, cs = '\\' :: 'u' :: a :: b :: c :: d :: tail ∧ hex4? a b c d = some m := by
  cases h with
  | close => cases heq
  | plain _ hslash _ _ =>
    rw [List.cons_append, List.cons.injEq] at heq
    exact absurd heq.1 hslash
  | escape himage _ =>
    rw [List.cons_append, List.cons_append, List.cons.injEq, List.cons.injEq] at heq
    rw [heq.2.1] at himage
    cases himage
  | unit hdigits _ _ => exact ⟨_, _, _, _, _, _, rfl, hdigits⟩
  | pair hdigits _ _ _ _ => exact ⟨_, _, _, _, _, _, rfl, hdigits⟩

theorem joinUnits_of_not_joinsWith {n : Nat} {cs s : List Char} (h : SpellsString cs s)
    (halone : ¬ JoinsWith n cs) (offset : Nat) (rest : List Char) :
    joinUnits offset n (cs ++ rest) = .ok (charOfUnit n, 0) := by
  rw [joinUnits.eq_def]
  split
  · rename_i a b c d e more heq
    obtain ⟨a', b', c', d', m, tail, rfl, hdigits⟩ := h.exists_digits heq
    simp only [List.cons_append, List.cons.injEq, true_and] at heq
    obtain ⟨rfl, rfl, rfl, rfl, -⟩ := heq
    split
    · rename_i hhigh
      rw [hdigits]
      have hlow : isLowSurrogate m ≠ true := fun hlow =>
        halone ⟨_, _, _, _, _, m, rfl, hhigh, hdigits, hlow⟩
      simp only [hlow, Bool.false_eq_true, if_false]
    · rfl
  · rfl

theorem SpellsString.readString_eq {text s : List Char} (h : SpellsString text s) (start : Nat)
    (done : List Char) (offset : Nat) (rest : List Char) :
    ∃ offset', readString start done offset (text ++ rest) =
      .ok (String.ofList (done.reverse ++ s), ⟨rest, offset'⟩) := by
  have hcons (c : Char) (done s : List Char) :
      (c :: done).reverse ++ s = done.reverse ++ c :: s := by
    rw [List.reverse_cons, List.append_assoc, List.singleton_append]
  induction h generalizing done offset with
  | close => exact ⟨offset + 1, by rw [List.cons_append, readString, List.append_nil]; rfl⟩
  | @plain c cs s hquote hslash hcontrol _ ih =>
    obtain ⟨offset', hread⟩ := ih (c :: done) (offset + 1)
    refine ⟨offset', ?_⟩
    rw [List.cons_append, readString, if_neg hcontrol, hread, hcons] <;> simp [hquote, hslash]
  | @escape c image cs s himage _ ih =>
    obtain ⟨offset', hread⟩ := ih (image :: done) (offset + 2)
    have hu : c ≠ 'u' := by
      rintro rfl
      cases himage
    refine ⟨offset', ?_⟩
    rw [List.cons_append, List.cons_append, readString]
    · simp only [himage, hread, hcons]
    · simp [hu]
    · simp [hu]
  | @unit a b c d n cs s hdigits halone htext ih =>
    obtain ⟨e, more, hmore⟩ := List.exists_cons_of_ne_nil htext.ne_nil
    obtain ⟨offset', hread⟩ := ih (charOfUnit n :: done) (offset + 6 + 0)
    have hjoin := joinUnits_of_not_joinsWith htext halone offset rest
    refine ⟨offset', ?_⟩
    rw [hmore, List.cons_append] at hread hjoin
    simp only [hmore, List.cons_append, readString, hdigits, hjoin, List.drop_zero, hread, hcons]
  | @pair a b c d a' b' c' d' n m cs s hdigits hhigh hdigits' hlow htext ih =>
    obtain ⟨e, more, hmore⟩ := List.exists_cons_of_ne_nil htext.ne_nil
    obtain ⟨offset', hread⟩ := ih (charOfPair n m :: done) (offset + 6 + 6)
    refine ⟨offset', ?_⟩
    rw [hmore, List.cons_append] at hread
    simp only [hmore, List.cons_append, readString, hdigits, joinUnits, hhigh, if_true, hdigits',
      hlow, List.drop_succ_cons, List.drop_zero, hread, hcons]

/-! ### Words and numbers -/

open NumeralText

theorem spanDigits_eq {cs digits rest : List Char} (h : spanDigits cs = (digits, rest)) :
    cs = digits ++ rest ∧ ∀ c ∈ digits, c.isDigit = true := by
  rw [spanDigits, List.span_eq_takeWhile_dropWhile] at h
  cases h
  exact ⟨List.takeWhile_append_dropWhile.symm, fun c hc => List.mem_takeWhile_imp hc⟩

theorem wholeDigits_eq {cs whole rest : List Char} (h : wholeDigits cs = (whole, rest))
    (hne : whole ≠ []) : cs = whole ++ rest ∧ IsWhole whole := by
  rw [wholeDigits.eq_def] at h
  split at h
  · cases h
    exact ⟨rfl, .inl rfl⟩
  · rename_i hzero
    obtain ⟨rfl, hdigits⟩ := spanDigits_eq h
    obtain ⟨c, whole, rfl⟩ := List.exists_cons_of_ne_nil hne
    refine ⟨rfl, .inr ⟨c, whole, rfl, ?_, hdigits⟩⟩
    rintro rfl
    exact hzero _ rfl

theorem fraction_eq {cs places rest : List Char} (h : fraction cs = (places, rest)) :
    cs = placesText places ++ rest ∧ ∀ c ∈ places, c.isDigit = true := by
  have hnone : ([], cs) = (places, rest) →
      cs = placesText places ++ rest ∧ ∀ c ∈ places, c.isDigit = true := by
    rintro ⟨⟩
    exact ⟨rfl, fun _ h => nomatch h⟩
  rw [fraction.eq_def] at h
  split at h
  · rename_i more
    cases hspan : spanDigits more with
    | mk digits tail =>
      obtain ⟨rfl, hdigits⟩ := spanDigits_eq hspan
      simp only [hspan] at h
      split at h
      · exact hnone h
      · rename_i hne
        cases h
        refine ⟨?_, hdigits⟩
        rw [placesText, if_neg (by simpa using hne)]
        rfl
  · exact hnone h

theorem exponent_eq {cs digits rest : List Char} {negative : Bool}
    (h : exponent cs = some (negative, digits, rest)) :
    ∃ power, SpellsPower power (some (negative, digits)) ∧ cs = power ++ rest ∧ digits ≠ [] ∧
      ∀ c ∈ digits, c.isDigit = true := by
  rw [exponent.eq_def] at h
  split at h
  · -- an `e` begins a power only with a digit behind its sign; without one nothing was read
    rename_i e more
    split at h
    · rename_i hletter
      rw [Bool.or_eq_true, beq_iff_eq, beq_iff_eq] at hletter
      split at h
      rename_i down unsigned hsplit
      obtain ⟨sign, hsign, rfl⟩ :
          ∃ sign, (sign, down) ∈ powerSigns ∧ more = sign ++ unsigned := by
        split at hsplit <;> cases hsplit
        · exact ⟨['-'], by decide, rfl⟩
        · exact ⟨['+'], by decide, rfl⟩
        · exact ⟨[], by decide, rfl⟩
      cases hspan : spanDigits unsigned with
      | mk digits' tail =>
        obtain ⟨rfl, hdigits⟩ := spanDigits_eq hspan
        simp only [hspan] at h
        split at h
        · cases h
        · rename_i hne
          cases h
          refine ⟨_, .present digits hletter hsign, ?_, by simpa using hne, hdigits⟩
          rw [List.cons_append, List.append_assoc]
    · cases h
  · cases h

theorem exists_of_readNumeral {negative : Bool} {at_ after : Cursor} {v : Json}
    (h : readNumeral negative at_ = .ok (v, after)) :
    ∃ (t : NumeralText) (power : List Char), t.IsWellFormed ∧ SpellsPower power t.power ∧
      at_.rest = t.spelling power ++ after.rest ∧ numeralValue t negative = .ok v := by
  rw [readNumeral] at h
  cases hwhole : wholeDigits at_.rest with
  | mk whole afterWhole =>
    cases hfraction : fraction afterWhole with
    | mk places afterFraction =>
      simp only [hwhole, hfraction] at h
      split at h
      · cases h
      · rename_i hne
        obtain ⟨hrest, hfirst⟩ := wholeDigits_eq hwhole (by simpa using hne)
        obtain ⟨rfl, hplaces⟩ := fraction_eq hfraction
        cases hpower : exponent afterFraction with
        | none =>
          -- without places and power the numeral is an integer, and one of too many digits is
          -- refused
          refine ⟨⟨whole, places, none⟩, [], ⟨hfirst, hplaces, fun _ _ h => by cases h⟩, .absent,
            ?_⟩
          rw [spelling, List.append_nil, List.append_assoc, hrest, numeralValue]
          simp only [hpower, Option.isNone_none, Bool.and_true, List.isEmpty_iff] at h
          split at h
          · rename_i hnil
            rw [if_pos ⟨hnil, rfl⟩]
            split at h
            · cases h
            · rename_i hshort
              rw [if_neg hshort]
              cases h
              exact ⟨rfl, rfl⟩
          · rename_i hnil
            rw [if_neg fun hint => hnil hint.1]
            cases h
            exact ⟨rfl, rfl⟩
        | some p =>
          obtain ⟨down, digits, tail⟩ := p
          -- a numeral with a power is no integer
          obtain ⟨power, hspells, rfl, hdigits⟩ := exponent_eq hpower
          refine ⟨⟨whole, places, some (down, digits)⟩, power,
            ⟨hfirst, hplaces, ?_⟩, hspells, ?_⟩
          · rintro _ _ ⟨⟩
            exact hdigits
          rw [spelling, List.append_assoc, List.append_assoc, hrest, numeralValue,
            if_neg fun hint => Option.some_ne_none _ hint.2]
          simp only [hpower, Option.isNone_some, Bool.and_false, Bool.false_eq_true, if_false] at h
          cases down <;> cases h <;> exact ⟨rfl, rfl⟩

theorem readWord_eq (at_ : Cursor) :
    word? at_ = words.findSome? fun (word, v) => (afterWord word at_).map fun after => (v, after) :=
  rfl

theorem spellsScalar_of_readScalar {at_ after : Cursor} {v : Json}
    (h : readScalar at_ = .ok (v, after)) :
    ∃ cs, at_.rest = cs ++ after.rest ∧ SpellsScalar cs v := by
  rw [readScalar] at h
  split at h
  · -- a word, or else a numeral with or without a sign
    rename_i found hword
    cases h
    rw [readWord_eq] at hword
    obtain ⟨⟨word, v'⟩, hmem, hafter⟩ := List.exists_of_findSome?_eq_some hword
    obtain ⟨after', hafter, heq⟩ := Option.map_eq_some_iff.1 hafter
    cases heq
    rw [afterWord] at hafter
    split at hafter
    · rename_i htake
      cases hafter
      refine ⟨word.toList, ?_, .word hmem⟩
      have := List.take_append_drop word.toList.length at_.rest
      rwa [eq_of_beq htake, eq_comm] at this
    · cases hafter
  · split at h
    · rename_i rest hrest
      split at h
      · cases h
      · obtain ⟨t, power, ht, hspells, hcs, hvalue⟩ := exists_of_readNumeral h
        refine ⟨_, ?_, .numeral ht hspells hvalue⟩
        rw [hrest, signed, if_pos rfl, List.cons_append, ← hcs]
    · obtain ⟨t, power, ht, hspells, hcs, hvalue⟩ := exists_of_readNumeral h
      refine ⟨_, ?_, .numeral ht hspells hvalue⟩
      rw [hcs, signed, if_neg Bool.false_ne_true]

theorem SpellsScalar.beginsScalar {cs : List Char} {v : Json} (h : SpellsScalar cs v) :
    BeginsScalar cs := by
  cases h with
  | word h =>
    simp only [words, List.mem_cons, Prod.mk.injEq, List.not_mem_nil, or_false] at h
    obtain ⟨rfl, -⟩ | ⟨rfl, -⟩ | ⟨rfl, -⟩ | ⟨rfl, -⟩ | ⟨rfl, -⟩ | ⟨rfl, -⟩ := h
    all_goals exact ⟨_, _, rfl, by decide⟩
  | @numeral t power negative _ ht _ _ =>
    obtain ⟨c, more, hchars, hc⟩ := isDigit_spelling ht power
    cases negative with
    | true => exact ⟨'-', _, rfl, by decide⟩
    | false =>
      rw [signed, if_neg Bool.false_ne_true, hchars]
      exact beginsScalar_of_isDigit hc more

theorem SpellsScalar.readScalar_eq {cs rest : List Char} {v : Json} (h : SpellsScalar cs v)
    (hend : IsEnd rest) (offset : Nat) :
    ∃ offset', readScalar ⟨cs ++ rest, offset⟩ = .ok (v, ⟨rest, offset'⟩) := by
  cases h with
  | word h =>
    simp only [words, List.mem_cons, Prod.mk.injEq, List.not_mem_nil, or_false] at h
    obtain ⟨rfl, rfl⟩ | ⟨rfl, rfl⟩ | ⟨rfl, rfl⟩ | ⟨rfl, rfl⟩ | ⟨rfl, rfl⟩ | ⟨rfl, rfl⟩ := h
    all_goals exact ⟨_, rfl⟩
  | numeral ht hspells hvalue =>
    obtain ⟨offset', hread⟩ := readScalar_spelling ht hspells hend _ offset
    exact ⟨offset', by rw [hread, hvalue]; rfl⟩

/-! ### What is read is spelled: values -/

/-- Blanks are skipped. -/
theorem exists_blanks (cs : List Char) (offset : Nat) :
    ∃ blanks, IsBlank blanks ∧ cs = blanks ++ (skipSpace ⟨cs, offset⟩).rest :=
  ⟨cs.takeWhile isSpace, fun _ hc => List.mem_takeWhile_imp hc,
    List.takeWhile_append_dropWhile.symm⟩

/-- Blanks before items or fields belong to them. -/
theorem Spells.items_of_blanks {blanks cs : List Char} {items : List Json}
    (hblanks : IsBlank blanks)
    (h : Spells cs (.items items)) : Spells (blanks ++ cs) (.items items) := by
  have happend {more : List Char} (hmore : IsBlank more) : IsBlank (blanks ++ more) := fun c hc =>
    (List.mem_append.1 hc).elim (hblanks c) (hmore c)
  cases h with
  | noItems hmore => exact List.append_assoc _ _ _ ▸ .noItems (happend hmore)
  | lastItem hmore h hafter => exact List.append_assoc _ _ _ ▸ .lastItem (happend hmore) h hafter
  | nextItem hmore h hafter hnext =>
    exact List.append_assoc _ _ _ ▸ .nextItem (happend hmore) h hafter hnext

theorem Spells.fields_of_blanks {blanks cs : List Char} {fields : List (String × Json)}
    (hblanks : IsBlank blanks) (h : Spells cs (.fields fields)) :
    Spells (blanks ++ cs) (.fields fields) := by
  have happend {more : List Char} (hmore : IsBlank more) : IsBlank (blanks ++ more) := fun c hc =>
    (List.mem_append.1 hc).elim (hblanks c) (hmore c)
  cases h with
  | noFields hmore => exact List.append_assoc _ _ _ ▸ .noFields (happend hmore)
  | lastField hmore h hafter => exact List.append_assoc _ _ _ ▸ .lastField (happend hmore) h hafter
  | nextField hmore h hafter hnext =>
    exact List.append_assoc _ _ _ ▸ .nextField (happend hmore) h hafter hnext

/-- What is read within a depth is spelled. -/
structure SpelledWithin (depth : Nat) : Prop where
  value : ∀ {at_ after : Cursor} {v : Json}, readValue depth at_ = .ok (v, after) →
    ∃ cs, at_.rest = cs ++ after.rest ∧ Spells cs (.value v)
  items : ∀ {done : List Json} {at_ after : Cursor} {v : Json},
    readItems depth done at_ = .ok (v, after) →
      ∃ cs item items, at_.rest = cs ++ after.rest ∧ Spells cs (.items (item :: items)) ∧
        v = arr (done.reverse ++ item :: items)
  fields : ∀ {done : Fields} {at_ after : Cursor} {v : Json},
    readFields depth done at_ = .ok (v, after) →
      ∃ cs field fields, at_.rest = cs ++ after.rest ∧ Spells cs (.fields (field :: fields)) ∧
        v = obj (Fields.update done (field :: fields))

theorem spelledValue_succ {depth : Nat} (ih : SpelledWithin depth) {at_ after : Cursor} {v : Json}
    (h : readValue (depth + 1) at_ = .ok (v, after)) :
    ∃ cs, at_.rest = cs ++ after.rest ∧ Spells cs (.value v) := by
  -- the first character tells a string, an array, an object and a scalar apart
  rw [readValue] at h
  split at h
  · rename_i rest hrest
    cases hread : readString at_.offset [] (at_.offset + 1) rest with
    | error fault =>
      rw [hread] at h
      cases h
    | ok found =>
      obtain ⟨s, after'⟩ := found
      rw [hread] at h
      cases h
      obtain ⟨text, chars, rfl, htext, hs⟩ := spellsString_of_readString hread
      rw [List.reverse_nil, List.nil_append] at hs
      exact ⟨'"' :: text, hrest, hs ▸ .string htext⟩
  · rename_i rest hrest
    obtain ⟨blanks, hblanks, hskip⟩ := exists_blanks rest (at_.offset + 1)
    simp only at h
    split at h
    · rename_i tail htail
      cases h
      rw [htail] at hskip
      refine ⟨'[' :: (blanks ++ [']']), ?_, .array (.noItems hblanks)⟩
      rw [hrest, hskip, List.cons_append, List.append_assoc, List.singleton_append]
    · obtain ⟨cs, item, items, hcs, hspells, rfl⟩ := ih.items h
      refine ⟨'[' :: (blanks ++ cs), ?_, .array (hspells.items_of_blanks hblanks)⟩
      rw [hrest, List.cons_append, List.append_assoc, ← hcs, ← hskip]
  · rename_i rest hrest
    obtain ⟨blanks, hblanks, hskip⟩ := exists_blanks rest (at_.offset + 1)
    simp only at h
    split at h
    · rename_i tail htail
      cases h
      rw [htail] at hskip
      refine ⟨'\x7b' :: (blanks ++ ['\x7d']), ?_, .object (.noFields hblanks)⟩
      rw [hrest, hskip, List.cons_append, List.append_assoc, List.singleton_append]
    · obtain ⟨cs, field, fields, hcs, hspells, rfl⟩ := ih.fields h
      refine ⟨'\x7b' :: (blanks ++ cs), ?_, .object (hspells.fields_of_blanks hblanks)⟩
      rw [hrest, List.cons_append, List.append_assoc, ← hcs, ← hskip]
  · obtain ⟨cs, hcs, hscalar⟩ := spellsScalar_of_readScalar h
    exact ⟨cs, hcs, .scalar hscalar⟩

theorem spelledItems_succ {depth : Nat} (ih : SpelledWithin depth) {done : List Json}
    {at_ after : Cursor} {v : Json} (h : readItems (depth + 1) done at_ = .ok (v, after)) :
    ∃ cs item items, at_.rest = cs ++ after.rest ∧ Spells cs (.items (item :: items)) ∧
      v = arr (done.reverse ++ item :: items) := by
  rw [readItems] at h
  cases hread : readValue depth at_ with
  | error fault =>
    rw [hread] at h
    cases h
  | ok found =>
    obtain ⟨item, after'⟩ := found
    obtain ⟨cs, hcs, hspells⟩ := ih.value hread
    obtain ⟨blanks, hblanks, hskip⟩ := exists_blanks after'.rest after'.offset
    simp only [hread, bind, Except.bind] at h
    split at h
    · rename_i tail htail
      cases h
      rw [htail] at hskip
      -- a bracket follows the item
      refine ⟨_, item, [], ?_, .lastItem isBlank_nil hspells hblanks, by rw [List.reverse_cons]⟩
      simp only [hcs, hskip, List.nil_append, List.append_assoc, List.cons_append]
    · rename_i tail htail
      rw [htail] at hskip
      -- a comma follows the item
      obtain ⟨before, hbefore, hnext⟩ := exists_blanks tail ((skipSpace after').offset + 1)
      obtain ⟨more, next, items, hmore, hitems, rfl⟩ := ih.items h
      refine ⟨_, item, next :: items, ?_, .nextItem isBlank_nil hspells hblanks
        (hitems.items_of_blanks hbefore), ?_⟩
      · rw [hcs, hskip, hnext, hmore]
        simp only [List.nil_append, List.append_assoc, List.cons_append]
      · rw [List.reverse_cons, List.append_assoc, List.singleton_append]
    · cases h

/-- After its name a field has a value, and then the object ends or goes on. -/
theorem exists_of_readField {depth : Nat} (ih : SpelledWithin depth) {done : Fields} {name : String}
    {at_ after : Cursor} {v : Json} (h : readField depth done name at_ = .ok (v, after)) :
    ∃ cs value, Spells cs (.value value) ∧ ∃ blanks, IsBlank blanks ∧
      (at_.rest = cs ++ (blanks ++ '\x7d' :: after.rest) ∧ v = obj (done.set name value) ∨
        ∃ more field fields, at_.rest = cs ++ (blanks ++ ',' :: (more ++ after.rest)) ∧
          Spells more (.fields (field :: fields)) ∧
          v = obj (Fields.update (done.set name value) (field :: fields))) := by
  rw [readField] at h
  cases hread : readValue depth at_ with
  | error fault =>
    rw [hread] at h
    cases h
  | ok found =>
    obtain ⟨value, after'⟩ := found
    obtain ⟨cs, hcs, hspells⟩ := ih.value hread
    obtain ⟨blanks, hblanks, hskip⟩ := exists_blanks after'.rest after'.offset
    refine ⟨cs, value, hspells, blanks, hblanks, ?_⟩
    simp only [hread, bind, Except.bind] at h
    split at h
    · rename_i tail htail
      cases h
      rw [htail] at hskip
      exact .inl ⟨by rw [hcs, hskip], rfl⟩
    · rename_i tail htail
      rw [htail] at hskip
      obtain ⟨before, hbefore, hnext⟩ := exists_blanks tail ((skipSpace after').offset + 1)
      obtain ⟨more, field, fields, hmore, hfields, rfl⟩ := ih.fields h
      refine .inr ⟨before ++ more, field, fields, ?_, hfields.fields_of_blanks hbefore, rfl⟩
      rw [hcs, hskip, hnext, hmore, List.append_assoc]
    · cases h

theorem spelledFields_succ {depth : Nat} (ih : SpelledWithin depth) {done : Fields}
    {at_ after : Cursor} {v : Json} (h : readFields (depth + 1) done at_ = .ok (v, after)) :
    ∃ cs field fields, at_.rest = cs ++ after.rest ∧ Spells cs (.fields (field :: fields)) ∧
      v = obj (Fields.update done (field :: fields)) := by
  rw [readFields] at h
  split at h
  · rename_i rest hrest
    cases hread : readString at_.offset [] (at_.offset + 1) rest with
    | error fault =>
      rw [hread] at h
      cases h
    | ok found =>
      obtain ⟨name, after'⟩ := found
      obtain ⟨text, chars, rfl, htext, rfl⟩ := spellsString_of_readString hread
      -- blanks may stand before the colon, behind it and behind the value
      obtain ⟨colon, hcolon, hskip⟩ := exists_blanks after'.rest after'.offset
      simp only [hread, bind, Except.bind] at h
      split at h
      · rename_i tail htail
        rw [htail] at hskip
        obtain ⟨gap, hgap, hnext⟩ := exists_blanks tail ((skipSpace after').offset + 1)
        obtain ⟨cs, value, hspells, blanks, hblanks, hend⟩ := exists_of_readField ih h
        have hnamed := Spells.named htext hcolon hgap hspells
        obtain ⟨hcs, rfl⟩ | ⟨more, field, fields, hcs, hmore, rfl⟩ := hend
        · refine ⟨_, _, [], ?_, .lastField isBlank_nil hnamed hblanks, rfl⟩
          rw [hrest, hskip, hnext, hcs]
          simp only [List.nil_append, List.append_assoc, List.cons_append]
        · refine ⟨_, _, field :: fields, ?_, .nextField isBlank_nil hnamed hblanks hmore, rfl⟩
          rw [hrest, hskip, hnext, hcs]
          simp only [List.nil_append, List.append_assoc, List.cons_append]
      · cases h
  · cases h

theorem spelledWithin (depth : Nat) : SpelledWithin depth := by
  induction depth with
  | zero =>
    refine ⟨fun h => ?_, fun h => ?_, fun h => ?_⟩
    · rw [readValue] at h
      cases h
    · rw [readItems] at h
      cases h
    · rw [readFields] at h
      cases h
  | succ depth ih => exact ⟨spelledValue_succ ih, spelledItems_succ ih, spelledFields_succ ih⟩

/-! ### What is spelled is read: values -/

theorem isEnd_blanks {blanks rest : List Char} (hblanks : IsBlank blanks) (hrest : IsEnd rest) :
    IsEnd (blanks ++ rest) := by
  cases blanks with
  | nil => exact hrest
  | cons c more =>
    have hc := hblanks c List.mem_cons_self
    simp only [isSpace, Bool.or_eq_true, beq_iff_eq] at hc
    rcases hc with ((rfl | rfl) | rfl) | rfl <;> exact isEnd_cons (by decide) _

theorem Spells.exists_head {cs : List Char} {v : Json} (h : Spells cs (.value v)) :
    ∃ c more, cs = c :: more ∧ IsValueHead c := by
  cases h with
  | scalar h =>
    obtain ⟨c, more, hcs, -, hc⟩ := h.beginsScalar
    exact ⟨c, more, hcs, hc⟩
  | string | array | object => exact ⟨_, _, rfl, by decide⟩

theorem Spells.noSpace {cs : List Char} {v : Json} (h : Spells cs (.value v)) (rest : List Char) :
    NoSpace (cs ++ rest) := by
  obtain ⟨c, more, rfl, hc, -⟩ := h.exists_head
  exact noSpace_cons hc _

theorem Spells.noSpace_field {cs : List Char} {name : String} {v : Json}
    (h : Spells cs (.field name v)) (rest : List Char) : NoSpace (cs ++ rest) := by
  cases h
  exact noSpace_cons rfl _

/-- Items begin with a value, after blanks. -/
theorem Spells.skipSpace_items {cs : List Char} {item : Json} {items : List Json}
    (h : Spells cs (.items (item :: items))) (offset : Nat) (rest : List Char) :
    ∃ c more offset', skipSpace ⟨cs ++ rest, offset⟩ = ⟨c :: more, offset'⟩ ∧ c ≠ ']' := by
  have hskip {before value : List Char} {v : Json} (hbefore : IsBlank before)
      (hvalue : Spells value (.value v)) (tail : List Char) :
      ∃ c more offset', skipSpace ⟨before ++ (value ++ tail), offset⟩ = ⟨c :: more, offset'⟩ ∧
        c ≠ ']' := by
    obtain ⟨c, more, rfl, hc, hne, -⟩ := hvalue.exists_head
    exact ⟨c, _, _, skipSpace_append before hbefore (noSpace_cons hc _) offset, hne⟩
  cases h with
  | lastItem hbefore h _ =>
    simp only [List.append_assoc]
    exact hskip hbefore h _
  | nextItem hbefore h _ _ =>
    simp only [List.append_assoc]
    exact hskip hbefore h _

/-- Fields begin with a quote, after blanks. -/
theorem Spells.skipSpace_fields {cs : List Char} {field : String × Json}
    {fields : List (String × Json)} (h : Spells cs (.fields (field :: fields))) (offset : Nat)
    (rest : List Char) :
    ∃ c more offset', skipSpace ⟨cs ++ rest, offset⟩ = ⟨c :: more, offset'⟩ ∧ c ≠ '\x7d' := by
  have hskip {before named : List Char} {name : String} {v : Json} (hbefore : IsBlank before)
      (hnamed : Spells named (.field name v)) (tail : List Char) :
      ∃ c more offset', skipSpace ⟨before ++ (named ++ tail), offset⟩ = ⟨c :: more, offset'⟩ ∧
        c ≠ '\x7d' := by
    cases hnamed
    exact ⟨'"', _, _, skipSpace_append before hbefore (noSpace_cons rfl _) offset, by decide⟩
  cases h with
  | lastField hbefore h _ =>
    simp only [List.append_assoc]
    exact hskip hbefore h _
  | nextField hbefore h _ _ =>
    simp only [List.append_assoc]
    exact hskip hbefore h _

/-- Whether characters are read as a part of a text, whatever follows them, within a depth that is
not less than their number. -/
def IsRead (cs : List Char) : Part → Prop
  | .value v => ∀ depth offset rest, cs.length ≤ depth → IsEnd rest →
      Yields true (readValue depth ⟨cs ++ rest, offset⟩) v rest
  | .items items => ∀ depth done offset rest, cs.length ≤ depth → items ≠ [] →
      Yields true (readItems depth done (skipSpace ⟨cs ++ rest, offset⟩))
        (arr (done.reverse ++ items)) rest
  | .field name v => ∀ depth done offset rest, cs.length ≤ depth →
      ∃ at_, readFields (depth + 1) done ⟨cs ++ rest, offset⟩ = readField depth done name at_ ∧
        (IsEnd rest → Yields true (readValue depth at_) v rest)
  | .fields fields => ∀ depth done offset rest, cs.length ≤ depth → fields ≠ [] →
      Yields true (readFields depth done (skipSpace ⟨cs ++ rest, offset⟩))
        (obj (Fields.update done fields)) rest

variable {depth : Nat} {before cs after more rest : List Char} {v u : Json} {name : String}
  {items : List Json} {field : String × Json} {fields : List (String × Json)}

theorem isRead_array (h : Spells cs (.items items)) (hread : IsRead cs (.items items)) :
    IsRead ('[' :: cs) (.value (arr items)) := by
  intro depth offset rest hdepth _
  obtain ⟨depth, rfl, hlength⟩ := length_pos_of_le rfl hdepth
  cases items with
  | nil =>
    cases h with
    | noItems hblanks =>
      have hskip := skipSpace_append _ hblanks
        (noSpace_cons (show isSpace ']' = false from rfl) rest) (offset + 1)
      rw [List.cons_append, List.append_assoc, List.singleton_append, readValue]
      simp only [hskip]
      exact yields_ok _ _ _ _
  | cons item items =>
    obtain ⟨c, more, offset', hskip, hc⟩ := h.skipSpace_items (offset + 1) rest
    rw [List.cons_append, readValue_arr hskip hc]
    exact hread depth [] (offset + 1) rest hlength (List.cons_ne_nil _ _)

theorem isRead_object (h : Spells cs (.fields fields)) (hread : IsRead cs (.fields fields)) :
    IsRead ('\x7b' :: cs) (.value (obj (Fields.update [] fields))) := by
  intro depth offset rest hdepth _
  obtain ⟨depth, rfl, hlength⟩ := length_pos_of_le rfl hdepth
  cases fields with
  | nil =>
    cases h with
    | noFields hblanks =>
      have hskip := skipSpace_append _ hblanks
        (noSpace_cons (show isSpace '\x7d' = false from rfl) rest) (offset + 1)
      rw [List.cons_append, List.append_assoc, List.singleton_append, readValue]
      simp only [hskip]
      exact yields_ok _ _ _ _
  | cons field fields =>
    obtain ⟨c, more, offset', hskip, hc⟩ := h.skipSpace_fields (offset + 1) rest
    rw [List.cons_append, readValue_obj hskip hc]
    exact hread depth [] (offset + 1) rest hlength (List.cons_ne_nil _ _)

theorem isRead_lastItem (hbefore : IsBlank before) (h : Spells cs (.value v))
    (hafter : IsBlank after) (hread : IsRead cs (.value v)) :
    IsRead (before ++ (cs ++ (after ++ [']']))) (.items [v]) := by
  intro depth done offset rest hdepth _
  simp only [List.length_append, List.length_singleton] at hdepth
  obtain ⟨depth, rfl⟩ : ∃ d, depth = d + 1 := ⟨depth - 1, by omega⟩
  simp only [List.append_assoc, List.singleton_append]
  rw [skipSpace_append before hbefore (h.noSpace _)]
  exact readItems_last hafter
    (hread depth _ _ (by omega) (isEnd_blanks hafter (isEnd_cons (by decide) _)))

theorem isRead_nextItem (hbefore : IsBlank before) (h : Spells cs (.value v))
    (hafter : IsBlank after) (hread : IsRead cs (.value v))
    (hmore : IsRead more (.items (u :: items))) :
    IsRead (before ++ (cs ++ (after ++ ',' :: more))) (.items (v :: u :: items)) := by
  intro depth done offset rest hdepth _
  simp only [List.length_append, List.length_cons] at hdepth
  obtain ⟨depth, rfl⟩ : ∃ d, depth = d + 1 := ⟨depth - 1, by omega⟩
  simp only [List.append_assoc, List.cons_append]
  rw [skipSpace_append before hbefore (h.noSpace _)]
  refine readItems_more hafter
    (hread depth _ _ (by omega) (isEnd_blanks hafter (isEnd_cons (by decide) _))) fun offset => ?_
  have := hmore depth (v :: done) offset rest (by omega) (List.cons_ne_nil _ _)
  rwa [List.reverse_cons, List.append_assoc, List.singleton_append] at this

theorem isRead_named {text s colon gap : List Char} (hname : SpellsString text s)
    (hcolon : IsBlank colon) (hgap : IsBlank gap) (h : Spells cs (.value v))
    (hread : IsRead cs (.value v)) :
    IsRead ('"' :: (text ++ (colon ++ ':' :: (gap ++ cs)))) (.field (String.ofList s) v) := by
  intro depth done offset rest hdepth
  simp only [List.length_append, List.length_cons] at hdepth
  obtain ⟨offset', hfields⟩ := readFields_name depth done
    (fun start offset rest => hname.readString_eq start [] offset rest) hcolon hgap
    (h.noSpace rest) offset
  refine ⟨⟨cs ++ rest, offset'⟩, ?_, fun hend => hread depth offset' rest (by omega) hend⟩
  simp only [List.cons_append, List.append_assoc]
  exact hfields

theorem isRead_lastField (hbefore : IsBlank before) (h : Spells cs (.field name v))
    (hafter : IsBlank after) (hread : IsRead cs (.field name v)) :
    IsRead (before ++ (cs ++ (after ++ ['\x7d']))) (.fields [(name, v)]) := by
  intro depth done offset rest hdepth _
  simp only [List.length_append, List.length_singleton] at hdepth
  obtain ⟨depth, rfl⟩ : ∃ d, depth = d + 1 := ⟨depth - 1, by omega⟩
  simp only [List.append_assoc, List.singleton_append]
  obtain ⟨at_, hfield, hvalue⟩ := hread depth done (offset + before.length)
    (after ++ '\x7d' :: rest) (by omega)
  rw [skipSpace_append before hbefore (h.noSpace_field _), hfield]
  exact readField_last hafter (hvalue (isEnd_blanks hafter (isEnd_cons (by decide) _)))

theorem isRead_nextField (hbefore : IsBlank before) (h : Spells cs (.field name v))
    (hafter : IsBlank after) (hread : IsRead cs (.field name v))
    (hmore : IsRead more (.fields (field :: fields))) :
    IsRead (before ++ (cs ++ (after ++ ',' :: more))) (.fields ((name, v) :: field :: fields)) := by
  intro depth done offset rest hdepth _
  simp only [List.length_append, List.length_cons] at hdepth
  obtain ⟨depth, rfl⟩ : ∃ d, depth = d + 1 := ⟨depth - 1, by omega⟩
  simp only [List.append_assoc, List.cons_append]
  obtain ⟨at_, hfield, hvalue⟩ := hread depth done (offset + before.length)
    (after ++ ',' :: (more ++ rest)) (by omega)
  rw [skipSpace_append before hbefore (h.noSpace_field _), hfield]
  exact readField_more hafter (hvalue (isEnd_blanks hafter (isEnd_cons (by decide) _)))
    fun offset => hmore depth _ offset rest (by omega) (List.cons_ne_nil _ _)

theorem Spells.isRead {part : Part} (h : Spells cs part) : IsRead cs part := by
  induction h with
  | scalar h =>
    intro depth offset rest hdepth hend
    obtain ⟨c, more, rfl, -⟩ := h.beginsScalar
    obtain ⟨depth, rfl, -⟩ := length_pos_of_le rfl hdepth
    obtain ⟨offset', hread⟩ := h.readScalar_eq hend offset
    exact yields_of_readScalar h.beginsScalar (hread ▸ yields_ok _ _ _ _)
  | string h =>
    intro depth offset rest hdepth _
    obtain ⟨depth, rfl, -⟩ := length_pos_of_le rfl hdepth
    obtain ⟨offset', hread⟩ := h.readString_eq offset [] (offset + 1) rest
    rw [List.cons_append, readValue]
    simp only [hread]
    exact yields_ok _ _ _ offset'
  | array h ih => exact isRead_array h ih
  | object h ih => exact isRead_object h ih
  | noItems | noFields => exact fun _ _ _ _ _ hne => absurd rfl hne
  | lastItem hbefore h hafter ih => exact isRead_lastItem hbefore h hafter ih
  | nextItem hbefore h hafter _ ih ihmore => exact isRead_nextItem hbefore h hafter ih ihmore
  | named hname hcolon hgap h ih => exact isRead_named hname hcolon hgap h ih
  | lastField hbefore h hafter ih => exact isRead_lastField hbefore h hafter ih
  | nextField hbefore h hafter _ ih ihmore => exact isRead_nextField hbefore h hafter ih ihmore

/-! ### Whole texts -/

/-- Neither a blank nor what spells a value begins with a byte order mark. -/
theorem Spells.head?_ne_mark {cs before : List Char} (hspells : Spells cs (.value v))
    (hbefore : IsBlank before) (after : List Char) :
    ((before ++ (cs ++ after)).head? == some (Char.ofNat 0xFEFF)) = false := by
  obtain ⟨c, more, rfl, -, -, hc⟩ := hspells.exists_head
  cases before with
  | nil => simpa using hc
  | cons b before =>
    have hb := hbefore b List.mem_cons_self
    have hne : b ≠ Char.ofNat 0xFEFF := by
      rintro rfl
      exact absurd hb (by decide)
    simpa using hne

/-- A text is read as a value exactly when it spells the value between blanks. -/
theorem read_eq_ok_iff {text : String} :
    read text = .ok v ↔ ∃ before cs after, text.toList = before ++ (cs ++ after) ∧
      IsBlank before ∧ IsBlank after ∧ Spells cs (.value v) := by
  constructor
  · intro h
    -- the text is cut where the reader skips blanks
    obtain ⟨before, hbefore, htext⟩ := exists_blanks text.toList 0
    cases hread : readValue (2 * text.toList.length + 2) (skipSpace ⟨text.toList, 0⟩) with
    | error fault =>
      simp only [read, hread, bind, Except.bind] at h
      split at h <;> cases h
    | ok found =>
      obtain ⟨value, finish⟩ := found
      obtain ⟨cs, hcs, hspells⟩ := (spelledWithin _).value hread
      obtain ⟨after, hafter, hfinish⟩ := exists_blanks finish.rest finish.offset
      simp only [read, hread, bind, Except.bind] at h
      split at h
      · cases h
      · split at h
        · rename_i hempty
          cases h
          rw [List.isEmpty_iff.1 hempty, List.append_nil] at hfinish
          exact ⟨before, cs, after, by rw [htext, hcs, hfinish], hbefore, hafter, hspells⟩
        · cases h
  · -- what spells the value is not longer than the text, so the depth is enough, and the blanks or
    -- the end behind it end a number too
    rintro ⟨before, cs, after, htext, hbefore, hafter, hspells⟩
    have hskip := skipSpace_append before hbefore (hspells.noSpace after) 0
    obtain ⟨offset, hread⟩ | ⟨⟨⟩, -⟩ := hspells.isRead (2 * text.toList.length + 2)
      (0 + before.length) after (by
        rw [htext, List.length_append, List.length_append]
        omega) (List.append_nil after ▸ isEnd_blanks hafter isEnd_nil)
    have hmark : (text.toList.head? == some (Char.ofNat 0xFEFF)) = false :=
      htext ▸ hspells.head?_ne_mark hbefore after
    have hfinish : (skipSpace ⟨after, offset⟩).rest = [] := by
      have := @skipSpace_append after [] hafter (fun _ _ h => by cases h) offset
      rw [List.append_nil] at this
      rw [this]
    rw [htext] at hread hmark
    simp only [read, htext, hmark, hskip]
    simp only [hread, bind, Except.bind, hfinish, Bool.false_eq_true, if_false, List.isEmpty_nil,
      if_true]
    rfl

end Json

end RepoGraph
