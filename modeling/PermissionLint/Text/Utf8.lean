/-
Characters as bytes: the encoding UTF-8, and its decoding with the place and the extent of what is
not well formed.
-/

namespace PermissionLint.Text.Utf8

/-- The bytes of a text. -/
def encode (text : List Char) : List UInt8 := text.flatMap String.utf8EncodeChar

theorem encode_append (s t : List Char) : encode (s ++ t) = encode s ++ encode t :=
  List.flatMap_append

theorem length_encode (text : List Char) :
    (encode text).length = text.foldr (fun c n => c.utf8Size + n) 0 := by
  induction text with
  | nil => rfl
  | cons c cs ih =>
    rw [encode, List.flatMap_cons, List.length_append, ← encode, ih, List.foldr_cons,
      String.length_utf8EncodeChar]

/-- Bytes that are no text. -/
structure DecodeError where
  /-- The number of bytes in front that are well formed. -/
  offset : Nat
  /-- The number of bytes that could begin a character but do not go on as one; none if the bytes
  end inside a character. -/
  length : Option Nat
  deriving DecidableEq, Repr

/-- The wording of a failure to decode. -/
def DecodeError.message (e : DecodeError) : String :=
  match e.length with
  | some n => s!"invalid utf-8 sequence of {n} bytes from index {e.offset}"
  | none => s!"incomplete utf-8 byte sequence from index {e.offset}"

/-- A byte that goes on with a character. -/
def isTail (b : UInt8) : Bool := 0x80 ≤ b && b ≤ 0xBF

/-- A byte that may follow the first one of a character of three bytes: overlong forms and
surrogates are ruled out here. -/
def isSecondOfThree (a b : UInt8) : Bool :=
  isTail b && (a != 0xE0 || 0xA0 ≤ b) && (a != 0xED || b ≤ 0x9F)

/-- A byte that may follow the first one of a character of four bytes: overlong forms and what is
past the last code point are ruled out here. -/
def isSecondOfFour (a b : UInt8) : Bool :=
  isTail b && (a != 0xF0 || 0x90 ≤ b) && (a != 0xF4 || b ≤ 0x8F)

/-- The bits that a byte which goes on with a character adds to its code point. -/
def addTail (code : Nat) (b : UInt8) : Nat := code * 64 + (b.toNat - 0x80)

/-- The text that bytes encode; `offset` bytes stand before them. -/
def decodeFrom (offset : Nat) : List UInt8 → Except DecodeError (List Char)
  | [] => .ok []
  | a :: rest =>
    if a < 0x80 then (decodeFrom (offset + 1) rest).map (Char.ofNat a.toNat :: ·)
    else if 0xC2 ≤ a && a ≤ 0xDF then
      match rest with
      | [] => .error ⟨offset, none⟩
      | b :: rest =>
        if isTail b then
          (decodeFrom (offset + 2) rest).map (Char.ofNat (addTail (a.toNat - 0xC0) b) :: ·)
        else .error ⟨offset, some 1⟩
    else if 0xE0 ≤ a && a ≤ 0xEF then
      match rest with
      | [] => .error ⟨offset, none⟩
      | b :: rest =>
        if !isSecondOfThree a b then .error ⟨offset, some 1⟩
        else
          match rest with
          | [] => .error ⟨offset, none⟩
          | c :: rest =>
            if isTail c then
              (decodeFrom (offset + 3) rest).map
                (Char.ofNat (addTail (addTail (a.toNat - 0xE0) b) c) :: ·)
            else .error ⟨offset, some 2⟩
    else if 0xF0 ≤ a && a ≤ 0xF4 then
      match rest with
      | [] => .error ⟨offset, none⟩
      | b :: rest =>
        if !isSecondOfFour a b then .error ⟨offset, some 1⟩
        else
          match rest with
          | [] => .error ⟨offset, none⟩
          | c :: rest =>
            if !isTail c then .error ⟨offset, some 2⟩
            else
              match rest with
              | [] => .error ⟨offset, none⟩
              | d :: rest =>
                if isTail d then
                  (decodeFrom (offset + 4) rest).map
                    (Char.ofNat (addTail (addTail (addTail (a.toNat - 0xF0) b) c) d) :: ·)
                else .error ⟨offset, some 3⟩
    else .error ⟨offset, some 1⟩

/-- The text that bytes encode. -/
def decode (bytes : List UInt8) : Except DecodeError (List Char) := decodeFrom 0 bytes

end PermissionLint.Text.Utf8
