import Mathlib
import StageTree.Text.Utf8

/-!
# Reading UTF-8 gives back the text

The UTF-8 of a text reads back as that text (`decode_toUTF8`). A character's encoding is a lead
byte, whose range gives the length, then continuation bytes from `0x80` to `0xBF` carrying six
bits of the code point each; an encoding is never overlong, never a surrogate and never past
U+10FFFF, so none of the reader's refusals applies to it. The proof reads one character at a time
where its encoding stands among any other bytes (`decodeAt_encoded`), then follows the
characters of the text in order.

Bytes that do not start with the byte order mark read the same whether a mark in front is dropped
or not (`decodeDroppingMark_of_not_startsWithMark`).
-/

namespace StageTree.Text.Utf8

/-! ## The bytes of a character's encoding -/

/-- Masking a byte to its low `k` bits and setting bits above them adds those bits to the low
ones. -/
theorem toNat_mask_or (x : UInt8) (k a : Nat) (fits : 2 ^ k * a < 256) (low : 2 ^ k - 1 < 256) :
    (x &&& UInt8.ofNat (2 ^ k - 1) ||| UInt8.ofNat (2 ^ k * a)).toNat =
      x.toNat % 2 ^ k + 2 ^ k * a := by
  rw [UInt8.toNat_or, UInt8.toNat_and, UInt8.toNat_ofNat', UInt8.toNat_ofNat',
    Nat.mod_eq_of_lt low, Nat.mod_eq_of_lt fits, Nat.and_two_pow_sub_one_eq_mod,
    Nat.or_comm, ← Nat.two_pow_add_eq_or_of_lt (Nat.mod_lt _ (Nat.two_pow_pos k)), Nat.add_comm]

/-- A continuation byte of an encoding carries six bits of the code point. -/
theorem toNat_continuation (x : UInt8) : (x &&& 0x3f ||| 0x80).toNat = x.toNat % 64 + 128 :=
  toNat_mask_or x 6 2 (by decide) (by decide)

/-- The low byte of a code point shifted right by `s` bits. -/
theorem toNat_shift_toUInt8 (v : UInt32) (s : Nat) (small : s < 32) :
    (v >>> UInt32.ofNat s).toUInt8.toNat = v.toNat / 2 ^ s % 256 := by
  rw [UInt32.toNat_toUInt8, UInt32.toNat_shiftRight, UInt32.toNat_ofNat',
    Nat.mod_eq_of_lt (show s < 2 ^ 32 by omega), Nat.mod_eq_of_lt small, Nat.shiftRight_eq_div_pow]

/-- The bytes whose top two bits are `10`, counted out. -/
theorem continuation_table : ∀ n, n < 256 → (n &&& 0xC0 = 0x80 ↔ 0x80 ≤ n ∧ n < 0xC0) := by
  decide +kernel

/-- A continuation byte is one from `0x80` to `0xBF`. -/
theorem isContinuation_iff (b : UInt8) :
    isContinuation b = true ↔ 0x80 ≤ b.toNat ∧ b.toNat < 0xC0 := by
  rw [isContinuation, beq_iff_eq, ← UInt8.toNat_inj, UInt8.toNat_and]
  exact continuation_table b.toNat b.toNat_lt

@[simp]
theorem size_encodeChar (c : Char) : [c].utf8Encode.size = c.utf8Size := by
  simp [List.utf8Encode_singleton]

/-- The bytes of a character's encoding, read where it stands among other bytes. -/
theorem byteAt_encoded (pre post : ByteArray) (c : Char) {j : Nat}
    (h : j < (String.utf8EncodeChar c).length) :
    byteAt (pre ++ [c].utf8Encode ++ post) (pre.size + j) = (String.utf8EncodeChar c)[j] := by
  rw [String.length_utf8EncodeChar] at h
  have size : (pre ++ [c].utf8Encode ++ post).size = pre.size + c.utf8Size + post.size := by
    simp only [ByteArray.size_append, size_encodeChar]
  rw [byteAt, dif_pos (by omega),
    ByteArray.getElem_append_left (by rw [ByteArray.size_append, size_encodeChar]; omega),
    ByteArray.getElem_append_right (by omega)]
  simp [List.utf8Encode_singleton]

/-! ## Reading one character back -/

variable (pre post : ByteArray) {c : Char}

/-- A character below U+0080 is its own byte. -/
theorem decodeAt_one (one : c.utf8Size = 1) :
    decodeAt (pre ++ [c].utf8Encode ++ post) pre.size = .ok (c, 1) := by
  have range : c.toNat ≤ 127 := by
    simpa [UInt32.le_iff_toNat_le] using Char.utf8Size_eq_one_iff.1 one
  have first : (byteAt (pre ++ [c].utf8Encode ++ post) pre.size).toNat = c.toNat := by
    have := byteAt_encoded pre post c (j := 0) (by simp; omega)
    rw [Nat.add_zero] at this
    rw [this]
    simp only [String.utf8EncodeChar_eq_singleton one, List.getElem_cons_zero, UInt32.toNat_toUInt8]
    simp only [Char.toNat] at *
    omega
  simp only [decodeAt, UInt8.lt_iff_toNat_lt, first, UInt8.reduceToNat]
  rw [if_pos (by omega), Char.ofNat_toNat]

/-- A character of two bytes: a lead byte from `0xC2` to `0xDF`, then one continuation byte. -/
theorem decodeAt_two (two : c.utf8Size = 2) :
    decodeAt (pre ++ [c].utf8Encode ++ post) pre.size = .ok (c, 2) := by
  have range : 127 < c.toNat ∧ c.toNat ≤ 0x7ff := by
    simpa [UInt32.lt_iff_toNat_lt, UInt32.le_iff_toNat_le] using Char.utf8Size_eq_two_iff.1 two
  have first : (byteAt (pre ++ [c].utf8Encode ++ post) pre.size).toNat = c.toNat / 64 + 192 := by
    have := byteAt_encoded pre post c (j := 0) (by simp; omega)
    rw [Nat.add_zero] at this
    rw [this]
    simp only [String.utf8EncodeChar_eq_cons_cons two, List.getElem_cons_zero]
    rw [show ((c.val >>> 6).toUInt8 &&& 0x1f ||| 0xc0) = ((c.val >>> UInt32.ofNat 6).toUInt8 &&&
        UInt8.ofNat (2 ^ 5 - 1) ||| UInt8.ofNat (2 ^ 5 * 6)) from rfl,
      toNat_mask_or _ 5 6 (by decide) (by decide), toNat_shift_toUInt8 _ 6 (by decide)]
    simp only [Char.toNat] at *
    omega
  have second : (byteAt (pre ++ [c].utf8Encode ++ post) (pre.size + 1)).toNat =
      c.toNat % 64 + 128 := by
    rw [byteAt_encoded pre post c (by simp; omega)]
    simp only [String.utf8EncodeChar_eq_cons_cons two, List.getElem_cons_succ,
      List.getElem_cons_zero, toNat_continuation, UInt32.toNat_toUInt8]
    simp only [Char.toNat] at *
    omega
  have size : (pre ++ [c].utf8Encode ++ post).size = pre.size + 2 + post.size := by
    simp only [ByteArray.size_append, size_encodeChar, two]
  have cont : isContinuation (byteAt (pre ++ [c].utf8Encode ++ post) (pre.size + 1)) = true :=
    (isContinuation_iff _).2 (by omega)
  simp only [decodeAt, UInt8.lt_iff_toNat_lt, first, UInt8.reduceToNat, size, cont]
  rw [if_neg (by omega), if_neg (by omega), if_pos (by omega), if_neg (by omega)]
  simp only [Bool.not_true, Bool.false_eq_true, if_false, UInt8.toNat_and, first, second,
    UInt8.reduceToNat]
  rw [Nat.and_two_pow_sub_one_eq_mod _ 5, Nat.and_two_pow_sub_one_eq_mod _ 6]
  have value : (c.toNat / 64 + 192) % 2 ^ 5 * 64 + (c.toNat % 64 + 128) % 2 ^ 6 = c.toNat := by
    simp only [Nat.reducePow]
    omega
  rw [value, Char.ofNat_toNat]

/-- A character of three bytes: a lead byte from `0xE0` to `0xEF`, then two continuation bytes,
the first of which keeps the code point out of the overlong forms and the surrogates. -/
theorem decodeAt_three (three : c.utf8Size = 3) :
    decodeAt (pre ++ [c].utf8Encode ++ post) pre.size = .ok (c, 3) := by
  have range : 0x7ff < c.toNat ∧ c.toNat ≤ 0xffff := by
    simpa [UInt32.lt_iff_toNat_lt, UInt32.le_iff_toNat_le] using Char.utf8Size_eq_three_iff.1 three
  have scalar : c.toNat < 0xd800 ∨ 0xdfff < c.toNat := by
    rcases c.valid with low | ⟨high, -⟩
    · exact .inl low
    · exact .inr high
  have first : (byteAt (pre ++ [c].utf8Encode ++ post) pre.size).toNat = c.toNat / 4096 + 224 := by
    have := byteAt_encoded pre post c (j := 0) (by simp; omega)
    rw [Nat.add_zero] at this
    rw [this]
    simp only [String.utf8EncodeChar_eq_cons_cons_cons three, List.getElem_cons_zero]
    rw [show ((c.val >>> 12).toUInt8 &&& 0x0f ||| 0xe0) = ((c.val >>> UInt32.ofNat 12).toUInt8 &&&
        UInt8.ofNat (2 ^ 4 - 1) ||| UInt8.ofNat (2 ^ 4 * 14)) from rfl,
      toNat_mask_or _ 4 14 (by decide) (by decide), toNat_shift_toUInt8 _ 12 (by decide)]
    simp only [Char.toNat] at *
    omega
  have second : (byteAt (pre ++ [c].utf8Encode ++ post) (pre.size + 1)).toNat =
      c.toNat / 64 % 64 + 128 := by
    rw [byteAt_encoded pre post c (by simp; omega)]
    simp only [String.utf8EncodeChar_eq_cons_cons_cons three, List.getElem_cons_succ,
      List.getElem_cons_zero, toNat_continuation]
    rw [show (c.val >>> 6) = (c.val >>> UInt32.ofNat 6) from rfl, toNat_shift_toUInt8 _ 6 (by decide)]
    simp only [Char.toNat] at *
    omega
  have third : (byteAt (pre ++ [c].utf8Encode ++ post) (pre.size + 2)).toNat =
      c.toNat % 64 + 128 := by
    rw [byteAt_encoded pre post c (by simp; omega)]
    simp only [String.utf8EncodeChar_eq_cons_cons_cons three, List.getElem_cons_succ,
      List.getElem_cons_zero, toNat_continuation, UInt32.toNat_toUInt8]
    simp only [Char.toNat] at *
    omega
  have size : (pre ++ [c].utf8Encode ++ post).size = pre.size + 3 + post.size := by
    simp only [ByteArray.size_append, size_encodeChar, three]
  have cont : isContinuation (byteAt (pre ++ [c].utf8Encode ++ post) (pre.size + 1)) = true :=
    (isContinuation_iff _).2 (by omega)
  have cont' : isContinuation (byteAt (pre ++ [c].utf8Encode ++ post) (pre.size + 2)) = true :=
    (isContinuation_iff _).2 (by omega)
  simp only [decodeAt, UInt8.lt_iff_toNat_lt, first, UInt8.reduceToNat, size, cont, cont']
  rw [if_neg (by omega), if_neg (by omega), if_neg (by omega), if_pos (by omega), if_neg (by omega)]
  rw [if_neg (by simp only [Bool.not_true, Bool.false_or, Bool.or_eq_true, Bool.and_eq_true,
    beq_iff_eq, decide_eq_true_eq, ← UInt8.toNat_inj, UInt8.le_iff_toNat_le, first, second,
    UInt8.reduceToNat]; omega)]
  simp only [Bool.not_true, Bool.false_eq_true, if_false, UInt8.toNat_and, first, second, third,
    UInt8.reduceToNat]
  rw [Nat.and_two_pow_sub_one_eq_mod _ 4, Nat.and_two_pow_sub_one_eq_mod _ 6,
    Nat.and_two_pow_sub_one_eq_mod _ 6]
  have value : (c.toNat / 4096 + 224) % 2 ^ 4 * 4096 + (c.toNat / 64 % 64 + 128) % 2 ^ 6 * 64 +
      (c.toNat % 64 + 128) % 2 ^ 6 = c.toNat := by
    simp only [Nat.reducePow]
    omega
  rw [value, Char.ofNat_toNat]

/-- A character of four bytes: a lead byte from `0xF0` to `0xF4`, then three continuation bytes,
the first of which keeps the code point out of the overlong forms and below U+110000. -/
theorem decodeAt_four (four : c.utf8Size = 4) :
    decodeAt (pre ++ [c].utf8Encode ++ post) pre.size = .ok (c, 4) := by
  have range : 0xffff < c.toNat ∧ c.toNat < 0x110000 := by
    have above : 0xffff < c.toNat := by
      simpa [UInt32.lt_iff_toNat_lt] using Char.utf8Size_eq_four_iff.1 four
    rcases c.valid with low | ⟨-, high⟩
    · exact absurd low (by simp only [Char.toNat] at above; omega)
    · exact ⟨above, high⟩
  have first : (byteAt (pre ++ [c].utf8Encode ++ post) pre.size).toNat =
      c.toNat / 262144 + 240 := by
    have := byteAt_encoded pre post c (j := 0) (by simp; omega)
    rw [Nat.add_zero] at this
    rw [this]
    simp only [String.utf8EncodeChar_eq_cons_cons_cons_cons four, List.getElem_cons_zero]
    rw [show ((c.val >>> 18).toUInt8 &&& 0x07 ||| 0xf0) = ((c.val >>> UInt32.ofNat 18).toUInt8 &&&
        UInt8.ofNat (2 ^ 3 - 1) ||| UInt8.ofNat (2 ^ 3 * 30)) from rfl,
      toNat_mask_or _ 3 30 (by decide) (by decide), toNat_shift_toUInt8 _ 18 (by decide)]
    simp only [Char.toNat] at *
    omega
  have second : (byteAt (pre ++ [c].utf8Encode ++ post) (pre.size + 1)).toNat =
      c.toNat / 4096 % 64 + 128 := by
    rw [byteAt_encoded pre post c (by simp; omega)]
    simp only [String.utf8EncodeChar_eq_cons_cons_cons_cons four, List.getElem_cons_succ,
      List.getElem_cons_zero, toNat_continuation]
    rw [show (c.val >>> 12) = (c.val >>> UInt32.ofNat 12) from rfl,
      toNat_shift_toUInt8 _ 12 (by decide)]
    simp only [Char.toNat] at *
    omega
  have third : (byteAt (pre ++ [c].utf8Encode ++ post) (pre.size + 2)).toNat =
      c.toNat / 64 % 64 + 128 := by
    rw [byteAt_encoded pre post c (by simp; omega)]
    simp only [String.utf8EncodeChar_eq_cons_cons_cons_cons four, List.getElem_cons_succ,
      List.getElem_cons_zero, toNat_continuation]
    rw [show (c.val >>> 6) = (c.val >>> UInt32.ofNat 6) from rfl, toNat_shift_toUInt8 _ 6 (by decide)]
    simp only [Char.toNat] at *
    omega
  have fourth : (byteAt (pre ++ [c].utf8Encode ++ post) (pre.size + 3)).toNat =
      c.toNat % 64 + 128 := by
    rw [byteAt_encoded pre post c (by simp; omega)]
    simp only [String.utf8EncodeChar_eq_cons_cons_cons_cons four, List.getElem_cons_succ,
      List.getElem_cons_zero, toNat_continuation, UInt32.toNat_toUInt8]
    simp only [Char.toNat] at *
    omega
  have size : (pre ++ [c].utf8Encode ++ post).size = pre.size + 4 + post.size := by
    simp only [ByteArray.size_append, size_encodeChar, four]
  have cont : isContinuation (byteAt (pre ++ [c].utf8Encode ++ post) (pre.size + 1)) = true :=
    (isContinuation_iff _).2 (by omega)
  have cont' : isContinuation (byteAt (pre ++ [c].utf8Encode ++ post) (pre.size + 2)) = true :=
    (isContinuation_iff _).2 (by omega)
  have cont'' : isContinuation (byteAt (pre ++ [c].utf8Encode ++ post) (pre.size + 3)) = true :=
    (isContinuation_iff _).2 (by omega)
  simp only [decodeAt, UInt8.lt_iff_toNat_lt, first, UInt8.reduceToNat, size, cont, cont', cont'']
  rw [if_neg (by omega), if_neg (by omega), if_neg (by omega), if_neg (by omega), if_pos (by omega),
    if_neg (by omega)]
  rw [if_neg (by simp only [Bool.not_true, Bool.false_or, Bool.or_eq_true, Bool.and_eq_true,
    beq_iff_eq, decide_eq_true_eq, ← UInt8.toNat_inj, UInt8.le_iff_toNat_le, first, second,
    UInt8.reduceToNat]; omega)]
  simp only [Bool.not_true, Bool.false_eq_true, if_false, UInt8.toNat_and, first, second, third,
    fourth, UInt8.reduceToNat]
  rw [Nat.and_two_pow_sub_one_eq_mod _ 3, Nat.and_two_pow_sub_one_eq_mod _ 6,
    Nat.and_two_pow_sub_one_eq_mod _ 6, Nat.and_two_pow_sub_one_eq_mod _ 6]
  have value : (c.toNat / 262144 + 240) % 2 ^ 3 * 262144 + (c.toNat / 4096 % 64 + 128) % 2 ^ 6 * 4096 +
      (c.toNat / 64 % 64 + 128) % 2 ^ 6 * 64 + (c.toNat % 64 + 128) % 2 ^ 6 = c.toNat := by
    simp only [Nat.reducePow]
    omega
  rw [value, Char.ofNat_toNat]

/-- A character's encoding, among any bytes, reads back as that character and its length. -/
theorem decodeAt_encoded (c : Char) :
    decodeAt (pre ++ [c].utf8Encode ++ post) pre.size = .ok (c, c.utf8Size) := by
  rcases Char.utf8Size_eq c with one | two | three | four
  · rw [one]; exact decodeAt_one pre post one
  · rw [two]; exact decodeAt_two pre post two
  · rw [three]; exact decodeAt_three pre post three
  · rw [four]; exact decodeAt_four pre post four

/-! ## Reading a whole text back -/

/-- Reading from where the encodings of some characters start, after the characters `acc`, gives
`acc` followed by those characters. -/
theorem decodeFrom_utf8Encode (cs : List Char) :
    ∀ (pre : ByteArray) (acc : String),
      decodeFrom (pre ++ cs.utf8Encode) pre.size acc = .ok (acc ++ String.ofList cs) := by
  induction cs with
  | nil =>
    intro pre acc
    rw [List.utf8Encode_nil, ByteArray.append_empty, decodeFrom, dif_neg (Nat.lt_irrefl _),
      String.ofList_nil, String.append_empty]
  | cons c cs ih =>
    intro pre acc
    -- the next character's encoding stands first, and reading goes on after it
    have split : pre ++ (c :: cs).utf8Encode = pre ++ [c].utf8Encode ++ cs.utf8Encode := by
      rw [List.utf8Encode_cons, ByteArray.append_assoc]
    have inside : pre.size < (pre ++ [c].utf8Encode ++ cs.utf8Encode).size := by
      simp only [ByteArray.size_append, size_encodeChar]
      have := c.utf8Size_pos
      omega
    have next : pre.size + c.utf8Size = (pre ++ [c].utf8Encode).size := by
      rw [ByteArray.size_append, size_encodeChar]
    rw [split, decodeFrom, dif_pos inside]
    split
    · next e read => rw [decodeAt_encoded] at read; cases read
    · next c' n read =>
      rw [decodeAt_encoded] at read
      cases read
      rw [dif_neg (Nat.pos_iff_ne_zero.1 c.utf8Size_pos), next, ih, String.ofList_cons,
        String.push_eq_append, String.append_assoc]

/-- Reading a text's UTF-8 gives the text. -/
theorem decode_toUTF8 (s : String) : decode s.toUTF8 = .ok s := by
  have read := decodeFrom_utf8Encode s.toList ByteArray.empty ""
  rw [ByteArray.empty_append, String.utf8Encode_toList, String.empty_append,
    String.ofList_toList] at read
  exact read

/-! ## The byte order mark -/

/-- Whether bytes start with the UTF-8 byte order mark `EF BB BF`. -/
def startsWithMark (bs : ByteArray) : Prop :=
  3 ≤ bs.size ∧ byteAt bs 0 = 0xEF ∧ byteAt bs 1 = 0xBB ∧ byteAt bs 2 = 0xBF

instance : DecidablePred startsWithMark := fun bs =>
  inferInstanceAs (Decidable (3 ≤ bs.size ∧ byteAt bs 0 = 0xEF ∧ byteAt bs 1 = 0xBB ∧
    byteAt bs 2 = 0xBF))

/-- Bytes that do not start with the mark are read whole. -/
theorem decodeDroppingMark_of_not_startsWithMark {bs : ByteArray} (whole : ¬startsWithMark bs) :
    decodeDroppingMark bs = decode bs := by
  rw [decodeDroppingMark, if_neg]
  simpa [startsWithMark] using whole

end StageTree.Text.Utf8
