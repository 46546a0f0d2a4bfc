/-!
# Blank characters

Blank characters separate words: the ASCII blanks and separators, and the Unicode spaces.  `strip`
drops them at both ends of a text, `words` cuts a text at runs of them.  A zero-width space and a
byte-order mark are not blank.

Main statements: `isBlank_of_isWhitespace` (every ASCII white space is blank), `strip_strip`.
-/

namespace RepoGraph

namespace Text

/-- Tab to carriage return, the four information separators, next line, and the Unicode spaces. -/
def isBlank (c : Char) : Bool :=
  let n := c.toNat
  (0x09 ≤ n && n ≤ 0x0D) || (0x1C ≤ n && n ≤ 0x20) || n == 0x85 || n == 0xA0 || n == 0x1680 ||
    (0x2000 ≤ n && n ≤ 0x200A) || n == 0x2028 || n == 0x2029 || n == 0x202F || n == 0x205F ||
    n == 0x3000

theorem isBlank_of_isWhitespace {c : Char} (h : c.isWhitespace) : isBlank c := by
  simp only [Char.isWhitespace, Bool.or_eq_true, decide_eq_true_eq] at h
  rcases h with ((rfl | rfl) | rfl) | rfl <;> decide

/-! ### Dropping characters at the ends -/

/-- The characters without those at the end that satisfy `p`. -/
def dropRightWhile (p : Char → Bool) : List Char → List Char
  | [] => []
  | c :: rest =>
    match dropRightWhile p rest with
    | [] => if p c then [] else [c]
    | kept => c :: kept

/-- The characters between the first and the last that do not satisfy `p`. -/
def trimChars (p : Char → Bool) (cs : List Char) : List Char :=
  dropRightWhile p (cs.dropWhile p)

/-- A text without the characters at both ends that satisfy `p`. -/
def trim (p : Char → Bool) (s : String) : String := String.ofList (trimChars p s.toList)

/-- A text without blanks at both ends. -/
def strip (s : String) : String := trim isBlank s

/-- A text without the characters at its end that satisfy `p`. -/
def trimRight (p : Char → Bool) (s : String) : String :=
  String.ofList (dropRightWhile p s.toList)

theorem dropRightWhile_idem (p : Char → Bool) (cs : List Char) :
    dropRightWhile p (dropRightWhile p cs) = dropRightWhile p cs := by
  induction cs with
  | nil => rfl
  | cons c rest ih =>
    simp only [dropRightWhile]
    split
    · by_cases h : p c <;> simp [h, dropRightWhile]
    · rename_i kept hkept
      rw [dropRightWhile, ih]
      split
      · rename_i h; exact absurd h hkept
      · rfl

/-- The first character kept does not satisfy the predicate. -/
theorem head_dropRightWhile {p : Char → Bool} {c : Char} {cs rest : List Char}
    (h : dropRightWhile p cs = c :: rest) : ∃ tail, cs = c :: tail := by
  cases cs with
  | nil => simp [dropRightWhile] at h
  | cons d tail =>
    simp only [dropRightWhile] at h
    split at h
    · by_cases hd : p d <;> simp [hd] at h
      exact ⟨tail, by rw [h.1]⟩
    · exact ⟨tail, by rw [(List.cons.inj h).1]⟩

theorem trimChars_idem (p : Char → Bool) (cs : List Char) :
    trimChars p (trimChars p cs) = trimChars p cs := by
  have key : (trimChars p cs).dropWhile p = trimChars p cs := by
    cases h : trimChars p cs with
    | nil => rfl
    | cons c rest =>
      obtain ⟨tail, htail⟩ := head_dropRightWhile h
      have hc : p c = false := by
        have := List.head?_dropWhile_not p cs
        rw [htail] at this
        simpa using this
      simp [hc]
  rw [trimChars, key, trimChars, dropRightWhile_idem]

theorem strip_strip (s : String) : strip (strip s) = strip s := by
  simp [strip, trim, trimChars_idem]

/-! ### Cutting a text -/

/-- The runs of characters that do not satisfy `p`, none of them empty. -/
def runsBetween (p : Char → Bool) : List Char → List (List Char)
  | [] => []
  | c :: rest =>
    if p c then runsBetween p rest
    else match rest with
      | [] => [[c]]
      | d :: _ =>
        if p d then [c] :: runsBetween p rest
        else match runsBetween p rest with
          | [] => [[c]]
          | run :: more => (c :: run) :: more

/-- The words of a text: its maximal runs without blanks. -/
def words (s : String) : List String := (runsBetween isBlank s.toList).map String.ofList

/-- The pieces of a list between the elements that satisfy `p`; one more than there are such. -/
def splitAt (p : Char → Bool) : List Char → List (List Char)
  | [] => [[]]
  | c :: rest =>
    match splitAt p rest with
    | [] => [[c]]
    | piece :: more => if p c then [] :: piece :: more else (c :: piece) :: more

/-- The pieces of a text between the occurrences of one character. -/
def splitOnChar (sep : Char) (s : String) : List String :=
  (splitAt (· == sep) s.toList).map String.ofList

/-- The first `n` characters of a text. -/
def take (n : Nat) (s : String) : String := String.ofList (s.toList.take n)

end Text

end RepoGraph
