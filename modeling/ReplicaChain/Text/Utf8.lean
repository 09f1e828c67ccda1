import ReplicaChain.Text.Number

/-!
# Bytes as text

A byte string is text when it is valid UTF-8.  For one that is not, `Utf8.fault` locates the first
place where no character can be read: either a byte sequence that can never begin a character, with
the number of bytes that it spoils, or an end of input inside a character.  `Utf8.lossy` reads any
byte string, writing one replacement character for each such place.
-/

namespace ReplicaChain.Text.Utf8

/-- The first place at which a byte string stops being text.  `length` counts the spoiled bytes;
it is absent when the input ends inside a character. -/
structure Fault where
  index : Nat
  length : Option Nat
  deriving DecidableEq, Repr

def Fault.message (f : Fault) : String :=
  match f.length with
  | some n =>
    "invalid utf-8 sequence of " ++ decimal n ++ " bytes from index " ++ decimal f.index
  | none => "incomplete utf-8 byte sequence from index " ++ decimal f.index

/-- Whether a byte may stand after the second place of a character. -/
def isContinuation (b : UInt8) : Bool :=
  0x80 ≤ b && b ≤ 0xBF

/-- Whether `second` may follow the leading byte `lead`. -/
def admitsSecond (lead second : UInt8) : Bool :=
  if lead = 0xE0 then 0xA0 ≤ second && second ≤ 0xBF
  else if lead = 0xED then 0x80 ≤ second && second ≤ 0x9F
  else if lead = 0xF0 then 0x90 ≤ second && second ≤ 0xBF
  else if lead = 0xF4 then 0x80 ≤ second && second ≤ 0x8F
  else isContinuation second

/-- The number of bytes announced by a leading byte, or zero when no character starts with it. -/
def width (lead : UInt8) : Nat :=
  if lead < 0x80 then 1
  else if lead < 0xC2 then 0
  else if lead ≤ 0xDF then 2
  else if lead ≤ 0xEF then 3
  else if lead ≤ 0xF4 then 4
  else 0

/-- How many bytes are spoiled by the failed character that starts with the first of `bs`, or
nothing when `bs` ends before its character does. -/
def spoiled : List UInt8 → Option Nat
  | [] => none
  | lead :: rest =>
    if width lead = 0 then some 1
    else
      match rest with
      | [] => none
      | second :: rest =>
        if !admitsSecond lead second || width lead = 2 then some 1
        else
          match rest with
          | [] => none
          | third :: rest =>
            if !isContinuation third || width lead = 3 then some 2
            else if rest.isEmpty then none
            else some 3

/-- The at most four bytes in which the character at `i` lies. -/
def window (b : ByteArray) (i : Nat) : List UInt8 :=
  (b.extract i (i + 4)).data.toList

def faultFrom (b : ByteArray) (i : Nat) : Fault :=
  if _h : i < b.size then
    match b.utf8DecodeChar? i with
    | some c => faultFrom b (i + c.utf8Size)
    | none => ⟨i, spoiled (window b i)⟩
  else ⟨i, none⟩
termination_by b.size - i
decreasing_by
  have := c.utf8Size_pos
  omega

def fault (b : ByteArray) : Fault :=
  faultFrom b 0

/-- Reads a byte string as text, or locates its first fault. -/
def decode (b : ByteArray) : Except Fault String :=
  if h : b.IsValidUTF8 then .ok (String.fromUTF8 b h) else .error (fault b)

/-- The characters read from index `i` on, with replacement characters for spoiled places. -/
def lossyFrom (b : ByteArray) (i : Nat) (read : Array Char) : Array Char :=
  if _h : i < b.size then
    match b.utf8DecodeChar? i with
    | some c => lossyFrom b (i + c.utf8Size) (read.push c)
    | none =>
      match spoiled (window b i) with
      | some n => lossyFrom b (i + max n 1) (read.push '\uFFFD')
      | none => read.push '\uFFFD'
  else read
termination_by b.size - i
decreasing_by
  · have := c.utf8Size_pos
    omega
  · omega

/-- Reads any byte string, with one replacement character for each spoiled place. -/
def lossy (b : ByteArray) : String :=
  if h : b.IsValidUTF8 then String.fromUTF8 b h else String.ofList (lossyFrom b 0 #[]).toList

/-- Decoding succeeds exactly on valid UTF-8. -/
theorem decode_ok_iff (b : ByteArray) : (∃ s, decode b = .ok s) ↔ b.IsValidUTF8 := by
  unfold decode
  split <;> simp_all

end ReplicaChain.Text.Utf8
