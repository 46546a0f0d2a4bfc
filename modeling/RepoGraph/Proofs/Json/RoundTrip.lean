import RepoGraph.Proofs.Json.Numeral
import RepoGraph.Proofs.Json.Text

/-!
# Values are read as they were written

`Json.asRead` is the value that the text of a value is read as.  It is the value itself unless two
fields of an object have one name; then the first one has the value of the last one.  Only an
integer with too many digits keeps a text from being read.

Main statement: `Json.read_pretty`.
-/

namespace RepoGraph

namespace Json

/-! ### What a text is read as -/

mutual

/-- The value that the text of a value is read as. -/
def asRead : Json → Json
  | null => null
  | bool b => bool b
  | int n => int n
  | float x => float x
  | str s => str s
  | arr items => arr (asReadItems items)
  | obj fields => obj (asReadFields [] fields)

/-- The items that the text of items is read as. -/
def asReadItems : List Json → List Json
  | [] => []
  | item :: rest => asRead item :: asReadItems rest

/-- The fields after the text of some more was read. -/
def asReadFields (done : Fields) : List (String × Json) → Fields
  | [] => done
  | (name, value) :: rest => asReadFields (done.set name (asRead value)) rest

end

mutual

/-- Whether no integer in a value has too many digits. -/
def isShort : Json → Bool
  | int n => decide ((Nat.toDigits 10 n.natAbs).length ≤ maxDigits)
  | arr items => areShort items
  | obj fields => areShortFields fields
  | _ => true

/-- Whether no integer in some values has too many digits. -/
def areShort : List Json → Bool
  | [] => true
  | item :: rest => isShort item && areShort rest

/-- Whether no integer in the values of some fields has too many digits. -/
def areShortFields : List (String × Json) → Bool
  | [] => true
  | (_, value) :: rest => isShort value && areShortFields rest

end

/-- Whether reading gives a value and leaves a rest, unless what is read is not short and an integer
has too many digits. -/
def Yields (short : Bool) (result : Except Fault (Json × Cursor)) (v : Json) (rest : List Char) :
    Prop :=
  (∃ offset, result = .ok (v, ⟨rest, offset⟩)) ∨
    short = false ∧ ∃ count, result = .error (.tooManyDigits count)

theorem yields_ok (short : Bool) (v : Json) (rest : List Char) (offset : Nat) :
    Yields short (.ok (v, ⟨rest, offset⟩)) v rest := Or.inl ⟨offset, rfl⟩

theorem Yields.bind {short short' : Bool} {first : Except Fault (Json × Cursor)} {v u : Json}
    {rest rest' : List Char} (h : Yields short first v rest)
    {next : Json × Cursor → Except Fault (Json × Cursor)}
    (hnext : ∀ offset, Yields short' (next (v, ⟨rest, offset⟩)) u rest') :
    Yields (short && short') (first >>= next) u rest' := by
  obtain ⟨offset, rfl⟩ | ⟨hshort, count, rfl⟩ := h
  · exact (hnext offset).imp_right (And.imp_left fun hshort => by rw [hshort, Bool.and_false])
  · exact Or.inr ⟨by rw [hshort, Bool.false_and], count, rfl⟩

/-! ### Blanks -/

/-- Whether characters are blanks. -/
def IsBlank (cs : List Char) : Prop := ∀ c ∈ cs, isSpace c = true

theorem isBlank_nil : IsBlank [] := fun _ h => nomatch h

/-- Whether no blank stands where the rest of a text begins. -/
def NoSpace (rest : List Char) : Prop := ∀ c more, rest = c :: more → isSpace c = false

theorem noSpace_cons {c : Char} (h : isSpace c = false) (rest : List Char) :
    NoSpace (c :: rest) := by
  rintro d more hcons
  cases hcons
  exact h

theorem skipSpace_append (blanks : List Char) {rest : List Char} (hblanks : IsBlank blanks)
    (hrest : NoSpace rest) (offset : Nat) :
    skipSpace ⟨blanks ++ rest, offset⟩ = ⟨rest, offset + blanks.length⟩ := by
  have htake : rest.takeWhile isSpace = [] := by
    cases rest with
    | nil => rfl
    | cons c more => rw [List.takeWhile_cons, hrest c more rfl, if_neg Bool.false_ne_true]
  have hdrop : rest.dropWhile isSpace = rest := by
    cases rest with
    | nil => rfl
    | cons c more => rw [List.dropWhile_cons, hrest c more rfl, if_neg Bool.false_ne_true]
  rw [skipSpace, List.takeWhile_append_of_pos hblanks, List.dropWhile_append_of_pos hblanks, htake,
    hdrop, List.append_nil]

theorem skipSpace_of_noSpace {rest : List Char} (hrest : NoSpace rest) (offset : Nat) :
    skipSpace ⟨rest, offset⟩ = ⟨rest, offset⟩ :=
  skipSpace_append [] isBlank_nil hrest offset

theorem toList_newline (indent : Nat) :
    (newline indent).toList = '\n' :: List.replicate indent ' ' := by
  rw [newline, String.toList_append, toList_pushn]
  rfl

theorem isBlank_newline (indent : Nat) : IsBlank (newline indent).toList := by
  intro c h
  rw [toList_newline, List.mem_cons] at h
  obtain rfl | h := h
  · rfl
  · rw [List.eq_of_mem_replicate h]
    rfl

theorem isEnd_newline (indent : Nat) (rest : List Char) :
    IsEnd ((newline indent).toList ++ rest) := by
  rw [toList_newline]
  exact isEnd_cons (by decide) _

/-! ### Scalars -/

/-- Whether a character begins neither a text nor an array nor an object. -/
def IsScalarHead (c : Char) : Prop := c ≠ '"' ∧ c ≠ '[' ∧ c ≠ '\x7b'

instance : DecidablePred IsScalarHead := fun _ => inferInstanceAs (Decidable (_ ∧ _))

/-- Whether the text of a value may begin with a character. -/
def IsValueHead (c : Char) : Prop := isSpace c = false ∧ c ≠ ']' ∧ c ≠ Char.ofNat 0xFEFF

instance : DecidablePred IsValueHead := fun _ => inferInstanceAs (Decidable (_ ∧ _))

/-- A text that begins like a scalar, wherever it stands. -/
def BeginsScalar (cs : List Char) : Prop :=
  ∃ c more, cs = c :: more ∧ IsScalarHead c ∧ IsValueHead c

theorem beginsScalar_of_isDigit {c : Char} (hc : c.isDigit = true) (more : List Char) :
    BeginsScalar (c :: more) := by
  have hne {d : Char} (hd : d.isDigit = false) : c ≠ d := ne_of_isDigit hc hd
  refine ⟨c, more, rfl, ⟨hne rfl, hne rfl, hne rfl⟩, ?_, hne rfl, hne (by decide)⟩
  simp [isSpace, hne (show ' '.isDigit = false from rfl), hne (show '\t'.isDigit = false from rfl),
    hne (show '\n'.isDigit = false from rfl), hne (show '\r'.isDigit = false from rfl)]

theorem beginsScalar_signedChars {t : NumeralText} (ht : t.IsWellFormed) (negative : Bool) :
    BeginsScalar (signedChars negative t) := by
  obtain ⟨c, more, hchars, hc⟩ := isDigit_head ht
  cases negative with
  | true => exact ⟨'-', t.chars, rfl, by decide⟩
  | false =>
    rw [signedChars, if_neg Bool.false_ne_true, hchars]
    exact beginsScalar_of_isDigit hc more

theorem beginsScalar_null : BeginsScalar "null".toList :=
  ⟨'n', "ull".toList, rfl, by decide⟩

theorem beginsScalar_true : BeginsScalar "true".toList :=
  ⟨'t', "rue".toList, rfl, by decide⟩

theorem beginsScalar_false : BeginsScalar "false".toList :=
  ⟨'f', "alse".toList, rfl, by decide⟩

theorem beginsScalar_int (n : Int) : BeginsScalar (toString n).toList := by
  rw [toList_toString_int]
  exact beginsScalar_signedChars (isWellFormed_integer n) _

theorem beginsScalar_float (x : Binary64) : BeginsScalar (floatText x).toList := by
  rw [floatText]
  split
  · exact ⟨'N', ['a', 'N'], rfl, by decide⟩
  split
  · split
    · exact ⟨'-', "Infinity".toList, rfl, by decide⟩
    · exact ⟨'I', "nfinity".toList, rfl, by decide⟩
  · rename_i hnan hinfinite
    obtain ⟨t, ht, -, -, htext⟩ := toList_finiteText (isFinite_of_not hnan hinfinite)
    rw [htext]
    exact beginsScalar_signedChars ht _

theorem readValue_scalar {cs : List Char} (h : BeginsScalar cs) (rest : List Char)
    (depth offset : Nat) :
    readValue (depth + 1) ⟨cs ++ rest, offset⟩ = readScalar ⟨cs ++ rest, offset⟩ := by
  obtain ⟨c, more, rfl, ⟨hquote, hbracket, hbrace⟩, -⟩ := h
  rw [readValue]
  simp only [List.cons_append]
  split
  · rename_i heq
    cases heq
    exact absurd rfl hquote
  · rename_i heq
    cases heq
    exact absurd rfl hbracket
  · rename_i heq
    cases heq
    exact absurd rfl hbrace
  · rfl

theorem yields_of_readScalar {cs : List Char} (h : BeginsScalar cs) {v : Json} {rest : List Char}
    {depth offset : Nat} {short : Bool}
    (hread : Yields short (readScalar ⟨cs ++ rest, offset⟩) v rest) :
    Yields short (readValue (depth + 1) ⟨cs ++ rest, offset⟩) v rest := by
  rwa [readValue_scalar h]

/-! ### Values -/

theorem toList_quote (s : String) :
    (quote s).toList = '"' :: (s.toList.flatMap escapeChar ++ ['"']) := by
  rw [quote]
  simp only [String.toList_append, String.toList_ofList, List.append_assoc]
  rfl

theorem toList_prettyAt_arr (indent : Nat) (item : Json) (rest : List Json) :
    (prettyAt indent (arr (item :: rest))).toList =
      '[' :: ((prettyItems (indent + 2) (item :: rest)).toList ++
        ((newline indent).toList ++ [']'])) := by
  rw [prettyAt]
  · simp only [String.toList_append, List.append_assoc]
    rfl
  · exact fun h => nomatch h

theorem toList_prettyAt_obj (indent : Nat) (field : String × Json) (rest : Fields) :
    (prettyAt indent (obj (field :: rest))).toList =
      '\x7b' :: ((prettyFields (indent + 2) (field :: rest)).toList ++
        ((newline indent).toList ++ ['\x7d'])) := by
  rw [prettyAt]
  · simp only [String.toList_append, List.append_assoc]
    rfl
  · exact fun h => nomatch h

/-- How the text of a value begins. -/
theorem prettyAt_head (indent : Nat) (v : Json) :
    ∃ c more, (prettyAt indent v).toList = c :: more ∧ IsValueHead c := by
  have hscalar {cs : List Char} (h : BeginsScalar cs) : ∃ c more, cs = c :: more ∧ IsValueHead c :=
    let ⟨c, more, hcs, _, hc⟩ := h
    ⟨c, more, hcs, hc⟩
  cases v with
  | null => exact prettyAt.eq_5 indent ▸ hscalar beginsScalar_null
  | bool b =>
    cases b with
    | true => exact prettyAt.eq_6 indent ▸ hscalar beginsScalar_true
    | false => exact prettyAt.eq_7 indent ▸ hscalar beginsScalar_false
  | int n =>
    rw [prettyAt]
    exact hscalar (beginsScalar_int n)
  | float x =>
    rw [prettyAt]
    exact hscalar (beginsScalar_float x)
  | str s =>
    rw [prettyAt]
    exact ⟨'"', _, toList_quote s, by decide⟩
  | arr items =>
    cases items with
    | nil => exact ⟨'[', [']'], by rw [prettyAt]; rfl, by decide⟩
    | cons item rest => exact ⟨'[', _, toList_prettyAt_arr indent item rest, by decide⟩
  | obj fields =>
    cases fields with
    | nil => exact ⟨'\x7b', ['\x7d'], by rw [prettyAt]; rfl, by decide⟩
    | cons field rest =>
      exact ⟨'\x7b', _, toList_prettyAt_obj indent field rest, by decide⟩

theorem noSpace_prettyAt (indent : Nat) (v : Json) (rest : List Char) :
    NoSpace ((prettyAt indent v).toList ++ rest) := by
  obtain ⟨c, more, h, hc, -⟩ := prettyAt_head indent v
  rw [h]
  exact noSpace_cons hc _

theorem toList_prettyItems (indent : Nat) (item : Json) (rest : List Json) :
    (prettyItems indent (item :: rest)).toList =
      (newline indent).toList ++ ((prettyAt indent item).toList ++
        (if rest = [] then [] else ',' :: (prettyItems indent rest).toList)) := by
  cases rest with
  | nil => simp only [prettyItems, String.toList_append, if_true, List.append_nil]
  | cons next rest =>
    rw [prettyItems, if_neg (List.cons_ne_nil _ _)]
    · simp only [String.toList_append, List.append_assoc]
      rfl
    · exact fun h => nomatch h

theorem toList_prettyFields (indent : Nat) (name : String) (value : Json) (rest : Fields) :
    (prettyFields indent ((name, value) :: rest)).toList =
      (newline indent).toList ++ ('"' :: (name.toList.flatMap escapeChar ++ '"' :: ':' :: ' ' ::
        ((prettyAt indent value).toList ++
          (if rest = [] then [] else ',' :: (prettyFields indent rest).toList)))) := by
  have hcolon : ": ".toList = [':', ' '] := rfl
  have hcomma : ",".toList = [','] := rfl
  cases rest with
  | nil =>
    simp only [prettyFields, String.toList_append, toList_quote, hcolon, if_true, List.append_assoc,
      List.cons_append, List.nil_append, List.append_nil]
  | cons next rest =>
    rw [if_neg (List.cons_ne_nil _ _), prettyFields]
    · simp only [String.toList_append, toList_quote, hcolon, hcomma, List.append_assoc,
        List.cons_append, List.nil_append]
    · exact fun h => nomatch h

/-! ### Reading values -/

theorem length_pos_of_le {cs : List Char} {c : Char} {more : List Char} {depth : Nat}
    (h : cs = c :: more) (hdepth : cs.length ≤ depth) : ∃ d, depth = d + 1 ∧ more.length ≤ d := by
  subst h
  exact ⟨depth - 1, by simp only [List.length_cons] at hdepth; omega,
    by simp only [List.length_cons] at hdepth; omega⟩

theorem readValue_str (s : String) (rest : List Char) (depth offset : Nat) :
    Yields true (readValue (depth + 1) ⟨(quote s).toList ++ rest, offset⟩) (str s) rest := by
  obtain ⟨offset', hread⟩ := readString_quote offset [] (offset + 1) s.toList rest
  rw [toList_quote, readValue]
  simp only [List.cons_append, List.append_assoc, List.nil_append, hread]
  rw [List.reverse_nil, List.nil_append, String.ofList_toList]
  exact yields_ok _ _ _ offset'

/-- The characters of a name and the colon after it. -/
def nameText (name : String) (more : List Char) : List Char :=
  '"' :: (name.toList.flatMap escapeChar ++ '"' :: ':' :: ' ' :: more)

/-- A name is read as it was written. -/
theorem readString_name (name : String) (start offset : Nat) (rest : List Char) :
    ∃ offset', readString start [] offset ((name.toList.flatMap escapeChar ++ ['"']) ++ rest) =
      .ok (name, ⟨rest, offset'⟩) := by
  obtain ⟨offset', hread⟩ := readString_quote start [] offset name.toList rest
  refine ⟨offset', ?_⟩
  rw [List.append_assoc, List.singleton_append, hread, List.reverse_nil, List.nil_append,
    String.ofList_toList]

theorem nameText_eq (name : String) (more : List Char) :
    nameText name more =
      '"' :: ((name.toList.flatMap escapeChar ++ ['"']) ++ ([] ++ ':' :: ([' '] ++ more))) := by
  simp only [nameText, List.append_assoc, List.cons_append, List.nil_append]

theorem skipSpace_prettyItems (indent : Nat) (item : Json) (items : List Json) (rest : List Char)
    (offset : Nat) :
    skipSpace ⟨(prettyItems indent (item :: items)).toList ++ rest, offset⟩ =
      ⟨(prettyAt indent item).toList ++
        ((if items = [] then [] else ',' :: (prettyItems indent items).toList) ++ rest),
        offset + (newline indent).toList.length⟩ := by
  rw [toList_prettyItems, List.append_assoc, List.append_assoc,
    skipSpace_append _ (isBlank_newline indent) (noSpace_prettyAt _ _ _)]

theorem skipSpace_prettyFields (indent : Nat) (name : String) (value : Json) (fields : Fields)
    (rest : List Char) (offset : Nat) :
    skipSpace ⟨(prettyFields indent ((name, value) :: fields)).toList ++ rest, offset⟩ =
      ⟨nameText name ((prettyAt indent value).toList ++
        ((if fields = [] then [] else ',' :: (prettyFields indent fields).toList) ++ rest)),
        offset + (newline indent).toList.length⟩ := by
  rw [toList_prettyFields, List.append_assoc, List.cons_append,
    skipSpace_append _ (isBlank_newline indent) (noSpace_cons rfl _)]
  simp only [nameText, List.cons_append, List.append_assoc]

theorem readValue_arr {rest more : List Char} {c : Char} {depth offset offset' : Nat}
    (hskip : skipSpace ⟨rest, offset + 1⟩ = ⟨c :: more, offset'⟩) (hc : c ≠ ']') :
    readValue (depth + 1) ⟨'[' :: rest, offset⟩ =
      readItems depth [] (skipSpace ⟨rest, offset + 1⟩) := by
  rw [readValue]
  simp only [hskip]
  split
  · rename_i heq
    cases heq
    exact absurd rfl hc
  · rfl

theorem readValue_obj {rest more : List Char} {c : Char} {depth offset offset' : Nat}
    (hskip : skipSpace ⟨rest, offset + 1⟩ = ⟨c :: more, offset'⟩) (hc : c ≠ '\x7d') :
    readValue (depth + 1) ⟨'\x7b' :: rest, offset⟩ =
      readFields depth [] (skipSpace ⟨rest, offset + 1⟩) := by
  rw [readValue]
  simp only [hskip]
  split
  · rename_i heq
    cases heq
    exact absurd rfl hc
  · rfl

variable {depth : Nat} {v u : Json} {at_ : Cursor} {blanks rest more : List Char}
  {short short' : Bool}

/-- The last item of an array. -/
theorem readItems_last {done : List Json} (hblanks : IsBlank blanks)
    (hread : Yields short (readValue depth at_) v (blanks ++ ']' :: rest)) :
    Yields (short && true) (readItems (depth + 1) done at_) (arr (done.reverse ++ [v])) rest := by
  rw [readItems]
  refine hread.bind fun offset => ?_
  simp only [skipSpace_append _ hblanks (noSpace_cons (show isSpace ']' = false from rfl) rest),
    List.reverse_cons]
  exact yields_ok _ _ _ _

/-- An item that another one follows. -/
theorem readItems_more {done : List Json} (hblanks : IsBlank blanks)
    (hread : Yields short (readValue depth at_) v (blanks ++ ',' :: more))
    (hmore : ∀ offset,
      Yields short' (readItems depth (v :: done) (skipSpace ⟨more, offset⟩)) u rest) :
    Yields (short && short') (readItems (depth + 1) done at_) u rest := by
  rw [readItems]
  refine hread.bind fun offset => ?_
  simp only [skipSpace_append _ hblanks (noSpace_cons (show isSpace ',' = false from rfl) more)]
  exact hmore _

/-- The value of a field and what follows it, once the name is read. -/
def readField (depth : Nat) (done : Fields) (name : String) (at_ : Cursor) :
    Except Fault (Json × Cursor) := do
  let (value, after) ← readValue depth at_
  let next := skipSpace after
  match next.rest with
  | '\x7d' :: tail => return (obj (done.set name value), ⟨tail, next.offset + 1⟩)
  | ',' :: tail =>
    readFields depth (done.set name value) (skipSpace ⟨tail, next.offset + 1⟩)
  | _ => throw (.malformed .expectingComma next.offset)

/-- A name, given by the characters after its opening quote, and the colon between blanks. -/
theorem readFields_name (depth : Nat) (done : Fields) {text : List Char} {name : String}
    (hname : ∀ start offset rest, ∃ offset',
      readString start [] offset (text ++ rest) = .ok (name, ⟨rest, offset'⟩))
    {colon gap : List Char} (hcolon : IsBlank colon) (hgap : IsBlank gap) (hmore : NoSpace more)
    (offset : Nat) :
    ∃ offset', readFields (depth + 1) done
      ⟨'"' :: (text ++ (colon ++ ':' :: (gap ++ more))), offset⟩ =
        readField depth done name ⟨more, offset'⟩ := by
  obtain ⟨offset', hread⟩ := hname offset (offset + 1) (colon ++ ':' :: (gap ++ more))
  have hskip (o : Nat) := skipSpace_append colon hcolon
    (noSpace_cons (show isSpace ':' = false from rfl) (gap ++ more)) o
  refine ⟨offset' + colon.length + 1 + gap.length, ?_⟩
  rw [readFields]
  simp only [hread, bind, Except.bind, hskip, skipSpace_append gap hgap hmore]
  rfl

/-- The last field of an object. -/
theorem readField_last {done : Fields} {name : String} (hblanks : IsBlank blanks)
    (hread : Yields short (readValue depth at_) v (blanks ++ '\x7d' :: rest)) :
    Yields (short && true) (readField depth done name at_) (obj (done.set name v)) rest := by
  refine hread.bind fun offset => ?_
  simp only [skipSpace_append _ hblanks (noSpace_cons (show isSpace '\x7d' = false from rfl) rest)]
  exact yields_ok _ _ _ _

/-- A field that another one follows. -/
theorem readField_more {done : Fields} {name : String} (hblanks : IsBlank blanks)
    (hread : Yields short (readValue depth at_) v (blanks ++ ',' :: more))
    (hmore : ∀ offset,
      Yields short' (readFields depth (done.set name v) (skipSpace ⟨more, offset⟩)) u rest) :
    Yields (short && short') (readField depth done name at_) u rest := by
  refine hread.bind fun offset => ?_
  simp only [skipSpace_append _ hblanks (noSpace_cons (show isSpace ',' = false from rfl) more)]
  exact hmore _

/-! ### Every value -/

/-- The text of a value is read as the value, within a depth. -/
def ValuesRead (depth : Nat) : Prop :=
  ∀ (v : Json) (indent : Nat) (rest : List Char) (offset : Nat),
    (prettyAt indent v).toList.length ≤ depth → IsEnd rest →
      Yields v.isShort (readValue depth ⟨(prettyAt indent v).toList ++ rest, offset⟩) v.asRead rest

/-- The text of items is read as the items, within a depth. -/
def ItemsRead (depth : Nat) : Prop :=
  ∀ (item : Json) (items done : List Json) (indent indent' : Nat) (rest : List Char)
    (offset : Nat), (prettyItems indent (item :: items)).toList.length ≤ depth →
      Yields (areShort (item :: items)) (readItems depth done
          (skipSpace ⟨(prettyItems indent (item :: items)).toList ++
          ((newline indent').toList ++ ']' :: rest), offset⟩))
        (arr (done.reverse ++ asReadItems (item :: items))) rest

/-- The text of fields is read as the fields, within a depth. -/
def FieldsRead (depth : Nat) : Prop :=
  ∀ (name : String) (value : Json) (fields done : Fields) (indent indent' : Nat)
    (rest : List Char) (offset : Nat),
    (prettyFields indent ((name, value) :: fields)).toList.length ≤ depth →
      Yields (areShortFields ((name, value) :: fields)) (readFields depth done (skipSpace
          ⟨(prettyFields indent ((name, value) :: fields)).toList ++
            ((newline indent').toList ++ '\x7d' :: rest), offset⟩))
        (obj (asReadFields done ((name, value) :: fields))) rest

theorem valuesRead_succ (hitems : ItemsRead depth) (hfields : FieldsRead depth) :
    ValuesRead (depth + 1) := by
  intro v indent rest offset hdepth hend
  cases v with
  | null =>
    rw [prettyAt]
    exact yields_of_readScalar beginsScalar_null (yields_ok _ null rest (offset + 4))
  | bool b =>
    cases b with
    | true =>
      rw [prettyAt]
      exact yields_of_readScalar beginsScalar_true (yields_ok _ (bool true) rest (offset + 4))
    | false =>
      rw [prettyAt]
      exact yields_of_readScalar beginsScalar_false (yields_ok _ (bool false) rest (offset + 5))
  -- an integer of too many digits is refused for its length, and its value is not short
  | int n =>
    rw [prettyAt]
    refine yields_of_readScalar (beginsScalar_int n) ?_
    obtain ⟨offset', hread⟩ := readScalar_int n hend offset
    rw [hread, integerValue]
    split
    · rename_i hlong
      exact Or.inr ⟨decide_eq_false (Nat.not_le.2 hlong), _, rfl⟩
    · exact yields_ok _ _ _ _
  | float x =>
    rw [prettyAt]
    refine yields_of_readScalar (beginsScalar_float x) ?_
    obtain ⟨offset', hread⟩ := readScalar_float x hend offset
    rw [hread]
    exact yields_ok _ _ _ _
  | str s =>
    rw [prettyAt]
    exact readValue_str s rest depth offset
  | arr items =>
    cases items with
    | nil =>
      rw [prettyAt]
      exact yields_ok _ _ _ (offset + 2)
    | cons item items =>
      -- the bracket is not among the characters of the items, so the depth that is left is enough
      -- for them; no item begins with the bracket that ends an array
      obtain ⟨c, more, hitem, -, hc, -⟩ := prettyAt_head (indent + 2) item
      have hskip (rest : List Char) := skipSpace_prettyItems
          (indent + 2) item items rest (offset + 1)
      rw [toList_prettyAt_arr, List.length_cons, List.length_append] at hdepth
      rw [hitem] at hskip
      rw [toList_prettyAt_arr, List.cons_append, List.append_assoc, List.append_assoc,
        readValue_arr (hskip _) hc]
      exact hitems item items [] (indent + 2) indent rest (offset + 1) (by omega)
  | obj fields =>
    cases fields with
    | nil =>
      rw [prettyAt]
      exact yields_ok _ _ _ (offset + 2)
    | cons field fields =>
      obtain ⟨name, value⟩ := field
      have hskip (rest : List Char) :=
        skipSpace_prettyFields (indent + 2) name value fields rest (offset + 1)
      rw [toList_prettyAt_obj, List.length_cons, List.length_append] at hdepth
      rw [toList_prettyAt_obj, List.cons_append, List.append_assoc, List.append_assoc,
        readValue_obj (hskip _) (by decide)]
      exact hfields name value fields [] (indent + 2) indent rest (offset + 1) (by omega)

theorem itemsRead_succ (hvalues : ValuesRead depth) (hitems : ItemsRead depth) :
    ItemsRead (depth + 1) := by
  intro item items done indent indent' rest offset hdepth
  rw [toList_prettyItems, List.length_append, List.length_append, toList_newline,
    List.length_cons] at hdepth
  rw [skipSpace_prettyItems]
  cases items with
  | nil =>
    rw [if_pos rfl]
    refine readItems_last (isBlank_newline indent') ?_
    exact hvalues item indent _ _ (by omega) (isEnd_newline indent' _)
  | cons next items =>
    rw [if_neg (List.cons_ne_nil _ _), List.length_cons] at hdepth
    rw [if_neg (List.cons_ne_nil _ _)]
    refine readItems_more isBlank_nil (hvalues item indent _ _ (by omega)
      (isEnd_cons (by decide) _)) fun offset => ?_
    have := hitems next items (item.asRead :: done) indent indent' rest offset (by omega)
    rwa [List.reverse_cons, List.append_assoc] at this

theorem fieldsRead_succ (hvalues : ValuesRead depth) (hfields : FieldsRead depth) :
    FieldsRead (depth + 1) := by
  intro name value fields done indent indent' rest offset hdepth
  rw [toList_prettyFields] at hdepth
  simp only [toList_newline, List.length_append, List.length_cons] at hdepth
  rw [skipSpace_prettyFields, nameText_eq]
  obtain ⟨offset', hname⟩ := readFields_name depth done (readString_name name) isBlank_nil
    (List.forall_mem_singleton.2 rfl : IsBlank [' ']) (noSpace_prettyAt indent value
      ((if fields = [] then [] else ',' :: (prettyFields indent fields).toList) ++
        ((newline indent').toList ++ '\x7d' :: rest))) _
  rw [hname]
  cases fields with
  | nil =>
    exact readField_last (isBlank_newline indent')
      (hvalues value indent _ offset' (by omega) (isEnd_newline indent' _))
  | cons field fields =>
    obtain ⟨next, nextValue⟩ := field
    rw [if_neg (List.cons_ne_nil _ _), List.length_cons] at hdepth
    rw [if_neg (List.cons_ne_nil _ _)]
    exact readField_more isBlank_nil
      (hvalues value indent _ offset' (by omega) (isEnd_cons (by decide) _))
      (fun offset => hfields next nextValue fields _ indent indent' rest offset (by omega))

theorem read_at (depth : Nat) : ValuesRead depth ∧ ItemsRead depth ∧ FieldsRead depth := by
  induction depth with
  | zero =>
    have hempty {cs : List Char} {c : Char} {more : List Char} (h : cs = c :: more) :
        ¬ cs.length ≤ 0 := by
      rw [h, List.length_cons]
      omega
    refine ⟨fun v indent rest offset hdepth _ => ?_, fun item items _ indent _ _ _ hdepth => ?_,
      fun name value fields _ indent _ _ _ hdepth => ?_⟩
    · obtain ⟨c, more, h, -⟩ := prettyAt_head indent v
      exact absurd hdepth (hempty h)
    · rw [toList_prettyItems, toList_newline] at hdepth
      exact absurd hdepth (hempty rfl)
    · rw [toList_prettyFields, toList_newline] at hdepth
      exact absurd hdepth (hempty rfl)
  | succ depth ih =>
    obtain ⟨hvalues, hitems, hfields⟩ := ih
    exact ⟨valuesRead_succ hitems hfields, itemsRead_succ hvalues hitems,
      fieldsRead_succ hvalues hfields⟩

/-- The text of a value is read as the value, unless an integer in it has too many digits. -/
theorem read_pretty_or (v : Json) :
    read v.pretty = .ok v.asRead ∨
      v.isShort = false ∧ ∃ count, read v.pretty = .error (.tooManyDigits count) := by
  obtain ⟨c, more, hhead, hspace, -, hmark⟩ := prettyAt_head 0 v
  have hskip : skipSpace ⟨v.pretty.toList, 0⟩ = ⟨v.pretty.toList ++ [], 0⟩ := by
    rw [List.append_nil, pretty, hhead]
    exact skipSpace_of_noSpace (noSpace_cons hspace _) 0
  -- the reader is given more depth than the text has characters
  have hyields := (read_at (2 * v.pretty.toList.length + 2)).1 v 0 [] 0
    (by rw [pretty]; omega) isEnd_nil
  have hfirst : (v.pretty.toList.head? == some (Char.ofNat 0xFEFF)) = false := by
    rw [pretty, hhead]
    simpa using hmark
  simp only [read, hfirst, hskip]
  obtain ⟨offset, hread⟩ | ⟨hshort, count, hread⟩ := hyields
  · refine Or.inl ?_
    rw [← pretty] at hread
    rw [hread]
    rfl
  · refine Or.inr ⟨hshort, count, ?_⟩
    rw [← pretty] at hread
    rw [hread]
    rfl

/-- The text of a value is read as the value, or as none. -/
theorem read_pretty (v : Json) :
    read v.pretty = .ok v.asRead ∨ ∃ count, read v.pretty = .error (.tooManyDigits count) :=
  (read_pretty_or v).imp_right And.right

/-- The text of a value without long integers is read as the value. -/
theorem read_pretty_of_isShort {v : Json} (h : v.isShort = true) :
    read v.pretty = .ok v.asRead := by
  refine (read_pretty_or v).resolve_right fun hlong => ?_
  rw [h] at hlong
  cases hlong.1

/-! ### Carriage returns -/

/-- Whether no carriage return is among some characters. -/
def NoReturn (cs : List Char) : Prop := ∀ c ∈ cs, c ≠ '\r'

instance (cs : List Char) : Decidable (NoReturn cs) := List.decidableBAll _ cs

theorem noReturn_append {cs more : List Char} :
    NoReturn (cs ++ more) ↔ NoReturn cs ∧ NoReturn more := by
  simp only [NoReturn, List.mem_append, or_imp, forall_and]

theorem noReturn_cons {c : Char} {cs : List Char} :
    NoReturn (c :: cs) ↔ c ≠ '\r' ∧ NoReturn cs := by
  simp only [NoReturn, List.mem_cons, forall_eq_or_imp]

theorem noReturn_nil : NoReturn [] := fun _ h => nomatch h

theorem noReturn_newline (indent : Nat) : NoReturn (newline indent).toList := by
  rw [toList_newline, noReturn_cons]
  refine ⟨by decide, fun c hc => ?_⟩
  rw [List.eq_of_mem_replicate hc]
  decide

theorem noReturn_signedChars {t : NumeralText} (ht : t.IsWellFormed) (negative : Bool) :
    NoReturn (signedChars negative t) :=
  forall_mem_signed (fun _ hc => ne_of_isDigit hc rfl) (by simp) ht
    (NumeralText.spellsPower_powerText t.power) negative

theorem noReturn_float (x : Binary64) : NoReturn (floatText x).toList := by
  rw [floatText]
  split
  · exact (by decide : NoReturn "NaN".toList)
  split
  · split
    · exact (by decide : NoReturn "-Infinity".toList)
    · exact (by decide : NoReturn "Infinity".toList)
  · rename_i hnan hinfinite
    obtain ⟨t, ht, -, -, htext⟩ := toList_finiteText (isFinite_of_not hnan hinfinite)
    rw [htext]
    exact noReturn_signedChars ht _

theorem noReturn_escapeUnit (n : Nat) : NoReturn (escapeUnit n) := by
  have hdigit (m : Nat) : hexChar (m % 16) ≠ '\r' := by
    have hall : ∀ k < 16, hexChar k ≠ '\r' := by decide
    exact hall _ (Nat.mod_lt _ (by decide))
  rw [escapeUnit, hexDigits_four]
  simp only [noReturn_cons]
  exact ⟨by decide, by decide, hdigit _, hdigit _, hdigit _, hdigit _, noReturn_nil⟩

theorem noReturn_escapeChar (c : Char) : NoReturn (escapeChar c) := by
  obtain ⟨e, hc, he⟩ | ⟨hc, -, -, hprintable, -⟩ | hc := escapeChar_cases c <;> rw [hc]
  · refine noReturn_cons.2 ⟨by decide, noReturn_cons.2 ⟨?_, noReturn_nil⟩⟩
    rintro rfl
    cases he
  · refine noReturn_cons.2 ⟨?_, noReturn_nil⟩
    rintro rfl
    exact absurd hprintable (by decide)
  · intro d hd
    obtain ⟨n, -, hn⟩ := List.mem_flatMap.1 hd
    exact noReturn_escapeUnit n d hn

theorem noReturn_quote (s : String) : NoReturn (quote s).toList := by
  rw [toList_quote, noReturn_cons, noReturn_append]
  refine ⟨by decide, fun c hc => ?_, noReturn_cons.2 ⟨by decide, noReturn_nil⟩⟩
  obtain ⟨d, -, hd⟩ := List.mem_flatMap.1 hc
  exact noReturn_escapeChar d c hd

mutual

/-- The text of a value has no carriage returns. -/
theorem noReturn_prettyAt (indent : Nat) (v : Json) : NoReturn (prettyAt indent v).toList := by
  match v with
  | null => exact prettyAt.eq_5 indent ▸ (by decide : NoReturn "null".toList)
  | bool true => exact prettyAt.eq_6 indent ▸ (by decide : NoReturn "true".toList)
  | bool false => exact prettyAt.eq_7 indent ▸ (by decide : NoReturn "false".toList)
  | int n =>
    rw [prettyAt, toList_toString_int]
    exact noReturn_signedChars (isWellFormed_integer n) _
  | float x =>
    rw [prettyAt]
    exact noReturn_float x
  | str s =>
    rw [prettyAt]
    exact noReturn_quote s
  | arr [] =>
    rw [prettyAt]
    exact (by decide : NoReturn "[]".toList)
  | arr (item :: items) =>
    rw [toList_prettyAt_arr, noReturn_cons, noReturn_append, noReturn_append]
    exact ⟨by decide, noReturn_prettyItems (indent + 2) (item :: items), noReturn_newline indent,
      noReturn_cons.2 ⟨by decide, noReturn_nil⟩⟩
  | obj [] =>
    rw [prettyAt]
    exact (by decide : NoReturn "\x7b\x7d".toList)
  | obj (field :: fields) =>
    rw [toList_prettyAt_obj, noReturn_cons, noReturn_append, noReturn_append]
    exact ⟨by decide, noReturn_prettyFields (indent + 2) (field :: fields), noReturn_newline indent,
      noReturn_cons.2 ⟨by decide, noReturn_nil⟩⟩
termination_by sizeOf v

theorem noReturn_prettyItems (indent : Nat) (items : List Json) :
    NoReturn (prettyItems indent items).toList := by
  match items with
  | [] =>
    rw [prettyItems]
    exact noReturn_nil
  | item :: rest =>
    rw [toList_prettyItems, noReturn_append, noReturn_append]
    refine ⟨noReturn_newline indent, noReturn_prettyAt indent item, ?_⟩
    split
    · exact noReturn_nil
    · exact noReturn_cons.2 ⟨by decide, noReturn_prettyItems indent rest⟩
termination_by sizeOf items

theorem noReturn_prettyFields (indent : Nat) (fields : Fields) :
    NoReturn (prettyFields indent fields).toList := by
  match fields with
  | [] =>
    rw [prettyFields]
    exact noReturn_nil
  | (name, value) :: rest =>
    have hname : NoReturn (name.toList.flatMap escapeChar) := fun c hc => by
      obtain ⟨d, -, hd⟩ := List.mem_flatMap.1 hc
      exact noReturn_escapeChar d c hd
    rw [toList_prettyFields]
    simp only [noReturn_append, noReturn_cons]
    refine ⟨noReturn_newline indent, by decide, hname, by decide, by decide, by decide,
      noReturn_prettyAt indent value, ?_⟩
    split
    · exact noReturn_nil
    · exact noReturn_cons.2 ⟨by decide, noReturn_prettyFields indent rest⟩
termination_by sizeOf fields

end

end Json

end RepoGraph
