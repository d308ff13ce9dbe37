/-
Characters and their bytes.

An ASCII character is a single byte, and no byte of any other character is of ASCII
(`utf8EncodeChar_ascii_or`).  So a text of ASCII characters is taken apart as its bytes are
(`encode_take_of_ascii`), and is read as it was written (`decode_encode_of_ascii`).
-/
import Mathlib.Data.Nat.Basic
import PermissionLint.Text.Utf8

namespace PermissionLint.Text.Utf8

lemma encode_cons (c : Char) (cs : List Char) :
    encode (c :: cs) = String.utf8EncodeChar c ++ encode cs := List.flatMap_cons

/-- An ASCII character is one byte, and no byte of any other one is of ASCII. -/
lemma utf8EncodeChar_ascii_or (c : Char) :
    (c.toNat < 0x80 ∧ String.utf8EncodeChar c = [UInt8.ofNat c.toNat]) ∨
      (0x80 ≤ c.toNat ∧ ∀ b ∈ String.utf8EncodeChar c, 0x80 ≤ b.toNat) := by
  have hval : c.val.toNat = c.toNat := rfl
  rw [String.utf8EncodeChar, hval]
  split
  · exact .inl ⟨by omega, rfl⟩
  · refine .inr ⟨by omega, ?_⟩
    -- every byte of a longer character has its highest bit set
    split_ifs
    all_goals
      simp only [List.forall_mem_cons, UInt8.toNat_ofNat', List.not_mem_nil, false_implies,
        implies_true, and_true]
      omega

/-- An ASCII character is one byte, and any other one begins with a byte that is none of ASCII. -/
lemma utf8EncodeChar_cases (c : Char) :
    (c.toNat < 0x80 ∧ String.utf8EncodeChar c = [UInt8.ofNat c.toNat]) ∨
      (0x80 ≤ c.toNat ∧ ∃ b bs, String.utf8EncodeChar c = b :: bs ∧ 0x80 ≤ b.toNat) := by
  rcases utf8EncodeChar_ascii_or c with hascii | ⟨hc, hbytes⟩
  · exact .inl hascii
  · obtain ⟨b, bs, hb⟩ := List.exists_cons_of_ne_nil (String.utf8EncodeChar_ne_nil (c := c))
    exact .inr ⟨hc, b, bs, hb, hbytes b (by rw [hb]; exact List.mem_cons_self)⟩

/-- ASCII characters are as many bytes as they are. -/
lemma encode_take_of_ascii {n : Nat} {text : List Char} (h : ∀ c ∈ text.take n, c.toNat < 0x80) :
    encode (text.take n) = (encode text).take n ∧ encode (text.drop n) = (encode text).drop n := by
  induction n generalizing text with
  | zero => exact ⟨rfl, rfl⟩
  | succ n ih =>
    cases text with
    | nil => exact ⟨rfl, rfl⟩
    | cons c text =>
      obtain ⟨hc, htext⟩ := List.forall_mem_cons.1 h
      obtain ⟨htake, hdrop⟩ := ih htext
      rcases utf8EncodeChar_cases c with ⟨-, hbytes⟩ | ⟨hc', -⟩
      · rw [List.take_succ_cons, encode_cons, encode_cons, hbytes, htake, List.drop_succ_cons, hdrop]
        exact ⟨rfl, rfl⟩
      · omega

/-- Texts with the same bytes are the same. -/
lemma encode_injective {s t : List Char} (h : encode s = encode t) : s = t := by
  have hbytes : s.utf8Encode = t.utf8Encode := congrArg List.toByteArray h
  refine String.ofList_injective (String.toByteArray_inj.1 ?_)
  rw [String.toByteArray_ofList, String.toByteArray_ofList, hbytes]

lemma decodeFrom_encode_of_ascii {text : List Char} (h : ∀ c ∈ text, c.toNat < 0x80)
    (offset : Nat) : decodeFrom offset (encode text) = .ok text := by
  induction text generalizing offset with
  | nil => rfl
  | cons c text ih =>
    obtain ⟨hc, htext⟩ := List.forall_mem_cons.1 h
    rcases utf8EncodeChar_cases c with ⟨-, hbytes⟩ | ⟨hc', -⟩
    · have hbyte : (UInt8.ofNat c.toNat).toNat = c.toNat := by
        rw [UInt8.toNat_ofNat']
        omega
      have hsmall : UInt8.ofNat c.toNat < 0x80 := by
        rw [UInt8.lt_iff_toNat_lt, hbyte]
        exact hc
      rw [encode_cons, hbytes, List.singleton_append, decodeFrom.eq_def]
      dsimp only
      rw [if_pos hsmall, ih htext, hbyte, Char.ofNat_toNat]
      rfl
    · omega

/-- A text of ASCII characters is read as it was written. -/
lemma decode_encode_of_ascii {text : List Char} (h : ∀ c ∈ text, c.toNat < 0x80) :
    decode (encode text) = .ok text :=
  decodeFrom_encode_of_ascii h 0

end PermissionLint.Text.Utf8
