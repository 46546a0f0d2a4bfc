/-!
# Texts in bytes

A file holds bytes in UTF-8.  `Utf8.decode` reads them strictly: the first byte of a character says
how many bytes follow and in which range the second one lies, so overlong forms and surrogates are
refused.  A fault tells the bytes that stand where no character can.  `unifyNewlines` is the other
half of reading a text: a carriage return ends a line, alone or before a line feed.

Main statement: `unifyNewlines_of_noReturn`.
-/

namespace RepoGraph

namespace Text

namespace Utf8

/-! ### Faults -/

/-- Why bytes are no character. -/
inductive Reason where
  | invalidStart
  | invalidContinuation
  | unexpectedEnd
deriving DecidableEq, Repr

/-- Bytes that are no character: the first of them, where they begin, and how many they are. -/
structure Fault where
  byte : UInt8
  position : Nat
  count : Nat
  reason : Reason
deriving DecidableEq, Repr

/-- The reason as text. -/
def Reason.message : Reason → String
  | invalidStart => "invalid start byte"
  | invalidContinuation => "invalid continuation byte"
  | unexpectedEnd => "unexpected end of data"

/-- A byte in two hexadecimal digits. -/
def hexByte (b : UInt8) : String :=
  String.ofList [Nat.digitChar (b.toNat / 16), Nat.digitChar (b.toNat % 16)]

/-- The fault as text. -/
def Fault.message (f : Fault) : String :=
  let place :=
    if f.count ≤ 1 then "byte 0x" ++ hexByte f.byte ++ " in position " ++ toString f.position
    else "bytes in position " ++ toString f.position ++ "-" ++
      toString (f.position + f.count - 1)
  "'utf-8' codec can't decode " ++ place ++ ": " ++ f.reason.message

/-! ### Decoding -/

/-- What the first byte of a longer character tells: its share of the character's number, how many
bytes follow, and the range of the next one. -/
structure Lead where
  value : Nat
  following : Nat
  low : Nat
  high : Nat

/-- What a byte tells that begins a longer character. -/
def lead? (b : UInt8) : Option Lead :=
  let n := b.toNat
  if 0xC2 ≤ n && n ≤ 0xDF then some ⟨n - 0xC0, 1, 0x80, 0xBF⟩
  else if n == 0xE0 then some ⟨0, 2, 0xA0, 0xBF⟩
  else if n == 0xED then some ⟨0xD, 2, 0x80, 0x9F⟩
  else if 0xE1 ≤ n && n ≤ 0xEF then some ⟨n - 0xE0, 2, 0x80, 0xBF⟩
  else if n == 0xF0 then some ⟨0, 3, 0x90, 0xBF⟩
  else if 0xF1 ≤ n && n ≤ 0xF3 then some ⟨n - 0xF0, 3, 0x80, 0xBF⟩
  else if n == 0xF4 then some ⟨4, 3, 0x80, 0x8F⟩
  else none

/-- The number of a character of which `got` bytes are read: the bytes that follow, the next one
between `low` and `high`.  A fault is told by the bytes that were good. -/
def following (value : Nat) : Nat → Nat → Nat → Nat → List UInt8 → Except (Nat × Reason) Nat
  | 0, _, _, _, _ => .ok value
  | _ + 1, _, _, got, [] => .error (got, .unexpectedEnd)
  | n + 1, low, high, got, b :: rest =>
    if low ≤ b.toNat && b.toNat ≤ high then
      following (value * 64 + (b.toNat - 0x80)) n 0x80 0xBF (got + 1) rest
    else .error (got, .invalidContinuation)

/-- The characters of the bytes from a position on. -/
def decodeFrom (position : Nat) : List UInt8 → Except Fault (List Char)
  | [] => .ok []
  | b :: rest =>
    if b.toNat < 0x80 then (decodeFrom (position + 1) rest).map (Char.ofNat b.toNat :: ·)
    else
      match lead? b with
      | none => .error ⟨b, position, 1, .invalidStart⟩
      | some l =>
        match following l.value l.following l.low l.high 1 rest with
        | .error (count, reason) => .error ⟨b, position, count, reason⟩
        | .ok n =>
          (decodeFrom (position + 1 + l.following) (rest.drop l.following)).map (Char.ofNat n :: ·)
termination_by bytes => bytes.length
decreasing_by
  · simp
  · simp only [List.length_drop, List.length_cons]; omega

/-- The text that bytes stand for. -/
def decode (bytes : List UInt8) : Except Fault String := (decodeFrom 0 bytes).map String.ofList

end Utf8

/-! ### Line ends -/

/-- Every carriage return, with the line feed after it if there is one, becomes a line feed. -/
def unifyReturns : List Char → List Char
  | [] => []
  | '\r' :: '\n' :: rest => '\n' :: unifyReturns rest
  | c :: rest => (if c == '\r' then '\n' else c) :: unifyReturns rest

/-- A text whose lines end in line feeds. -/
def unifyNewlines (s : String) : String := String.ofList (unifyReturns s.toList)

theorem unifyReturns_of_noReturn {cs : List Char} (h : '\r' ∉ cs) : unifyReturns cs = cs := by
  fun_induction unifyReturns cs with
  | case1 => rfl
  | case2 rest ih => simp at h
  | case3 c rest hc ih =>
    have hr : ¬ c = '\r' := fun e => h (by simp [e])
    simp [hr, ih fun m => h (List.mem_cons_of_mem _ m)]

/-- A text without carriage returns stays as it is. -/
theorem unifyNewlines_of_noReturn {s : String} (h : '\r' ∉ s.toList) : unifyNewlines s = s := by
  simp [unifyNewlines, unifyReturns_of_noReturn h]

end Text

end RepoGraph
