import StageTree.Text.Quoted

/-!
# Reading UTF-8

Bytes are read as UTF-8 from the front, and reading stops at the first stretch that is not
UTF-8. A lead byte below `0xC2` or above `0xF4` is an invalid start. A continuation byte that is
missing where the lead byte asks for one, or out of the range that keeps the code point in its
shortest form and outside the surrogates, is an invalid continuation; the stretch then covers the
lead byte and the good continuation bytes before the bad one. A sequence cut off by the end of
the bytes is unexpected end of data and covers all bytes to the end.

Writing a text as UTF-8 fails on a surrogate half standing on its own, which has no UTF-8 form;
the failure names the run of halves in a row that starts at the first one.
-/

namespace StageTree.Text.Utf8

/-- What is wrong with a stretch of bytes. -/
inductive Flaw where
  | invalidStart
  | invalidContinuation
  | truncated
deriving Repr, DecidableEq, Inhabited

/-- A stretch of bytes that is not UTF-8: its first byte's position, the position after it, what
is wrong and the first byte itself. -/
structure DecodeError where
  start : Nat
  stop : Nat
  flaw : Flaw
  firstByte : UInt8
deriving Repr, Inhabited

/-- The reason a flaw is given in messages. -/
def Flaw.reason : Flaw → String
  | .invalidStart => "invalid start byte"
  | .invalidContinuation => "invalid continuation byte"
  | .truncated => "unexpected end of data"

/-- The message of a decoding error: one byte is shown by value, a longer stretch by its first
and last position. -/
def DecodeError.message (e : DecodeError) : String :=
  if e.stop ≤ e.start + 1 then
    "\x27utf-8\x27 codec can\x27t decode byte 0x" ++ hexPadded 2 e.firstByte.toNat ++
      " in position " ++ toString e.start ++ ": " ++ e.flaw.reason
  else
    "\x27utf-8\x27 codec can\x27t decode bytes in position " ++ toString e.start ++ "-" ++
      toString (e.stop - 1) ++ ": " ++ e.flaw.reason

/-- A byte of the form `10xxxxxx`. -/
def isContinuation (b : UInt8) : Bool := b &&& 0xC0 == 0x80

/-- The byte at `i`, or zero past the end. -/
def byteAt (bs : ByteArray) (i : Nat) : UInt8 := if h : i < bs.size then bs[i] else 0

/-- The character that starts at byte `i`, with its length in bytes. -/
def decodeAt (bs : ByteArray) (i : Nat) : Except DecodeError (Char × Nat) :=
  let b0 := byteAt bs i
  let left := bs.size - i
  let bad (flaw : Flaw) (stop : Nat) : Except DecodeError (Char × Nat) :=
    .error ⟨i, stop, flaw, b0⟩
  let b1 := byteAt bs (i + 1)
  let b2 := byteAt bs (i + 2)
  let b3 := byteAt bs (i + 3)
  let low (b : UInt8) : Nat := (b &&& 0x3F).toNat
  if b0 < 0x80 then .ok (Char.ofNat b0.toNat, 1)
  else if b0 < 0xC2 then bad .invalidStart (i + 1)
  else if b0 < 0xE0 then
    if left < 2 then bad .truncated bs.size
    else if !isContinuation b1 then bad .invalidContinuation (i + 1)
    else .ok (Char.ofNat ((b0 &&& 0x1F).toNat * 64 + low b1), 2)
  else if b0 < 0xF0 then
    let b1Bad := !isContinuation b1 || (b0 == 0xE0 && b1 < 0xA0) || (b0 == 0xED && b1 ≥ 0xA0)
    if left < 3 then
      if left ≥ 2 && b1Bad then bad .invalidContinuation (i + 1) else bad .truncated bs.size
    else if b1Bad then bad .invalidContinuation (i + 1)
    else if !isContinuation b2 then bad .invalidContinuation (i + 2)
    else .ok (Char.ofNat ((b0 &&& 0x0F).toNat * 4096 + low b1 * 64 + low b2), 3)
  else if b0 < 0xF5 then
    let b1Bad := !isContinuation b1 || (b0 == 0xF0 && b1 < 0x90) || (b0 == 0xF4 && b1 ≥ 0x90)
    if left < 4 then
      if left ≥ 2 && b1Bad then bad .invalidContinuation (i + 1)
      else if left ≥ 3 && !isContinuation b2 then bad .invalidContinuation (i + 2)
      else bad .truncated bs.size
    else if b1Bad then bad .invalidContinuation (i + 1)
    else if !isContinuation b2 then bad .invalidContinuation (i + 2)
    else if !isContinuation b3 then bad .invalidContinuation (i + 3)
    else .ok (Char.ofNat ((b0 &&& 0x07).toNat * 262144 + low b1 * 4096 + low b2 * 64 + low b3), 4)
  else bad .invalidStart (i + 1)

/-- Reads the bytes from `i` on, after the characters `acc` already read. -/
def decodeFrom (bs : ByteArray) (i : Nat) (acc : String) : Except DecodeError String :=
  if _h : i < bs.size then
    match _hd : decodeAt bs i with
    | .error e => .error e
    | .ok (c, n) =>
      if _hn : n = 0 then .ok acc
      else decodeFrom bs (i + n) (acc.push c)
  else .ok acc
termination_by bs.size - i

/-- Reads bytes as UTF-8. -/
def decode (bs : ByteArray) : Except DecodeError String := decodeFrom bs 0 ""

/-- Reads bytes as UTF-8 after dropping one byte order mark in front. -/
def decodeDroppingMark (bs : ByteArray) : Except DecodeError String :=
  if bs.size ≥ 3 && byteAt bs 0 == 0xEF && byteAt bs 1 == 0xBB && byteAt bs 2 == 0xBF then
    decode (bs.extract 3 bs.size)
  else decode bs

/-- Reads the bytes from `i` on, after the characters `acc`; an incomplete character at the end
is left unread. Gives the characters read and where the unread bytes start. -/
def decodePrefixFrom (bs : ByteArray) (i : Nat) (acc : String) :
    Except DecodeError (String × Nat) :=
  if _h : i < bs.size then
    match decodeAt bs i with
    | .error e => if e.flaw == .truncated then .ok (acc, i) else .error e
    | .ok (c, n) =>
      if _hn : n = 0 then .ok (acc, i)
      else decodePrefixFrom bs (i + n) (acc.push c)
  else .ok (acc, bs.size)
termination_by bs.size - i

/-- Reads chunks of `size` bytes from `pos` on, with the bytes `carried` from the chunk before
and the characters `acc` read so far, as a text stream does: an incomplete character at the
end of a chunk is carried into the next, and at the end of the bytes it is an error. A failure's
positions count from the start of the carried bytes. `fuel` bounds the number of chunks. -/
def decodeChunksFrom (size : Nat) (bs : ByteArray) :
    (fuel : Nat) → (pos : Nat) → (carried : ByteArray) → (acc : String) →
    Except DecodeError String
  | 0, _, _, acc => .ok acc
  | fuel + 1, pos, carried, acc =>
    if pos ≥ bs.size then
      match decode carried with
      | .ok t => .ok (acc ++ t)
      | .error e => .error e
    else
      let data := carried ++ bs.extract pos (pos + size)
      match decodePrefixFrom data 0 "" with
      | .error e => .error e
      | .ok (t, stop) =>
        decodeChunksFrom size bs fuel (pos + size) (data.extract stop data.size) (acc ++ t)

/-- Reads bytes as UTF-8 the way a text stream does, in chunks of 8192 bytes. -/
def decodeStream (bs : ByteArray) : Except DecodeError String :=
  decodeChunksFrom 8192 bs (bs.size / 8192 + 2) 0 ByteArray.empty ""

/-- A run of surrogate halves that UTF-8 cannot write: the place of the first, its offset after
U+D800, and how many halves stand there in a row. -/
structure EncodeError where
  position : Nat
  first : Fin 0x800
  count : Nat
deriving Repr, Inhabited

/-- The message of an encoding error: one half is shown quoted, a longer run by its first and
last place. -/
def EncodeError.message (e : EncodeError) : String :=
  if e.count ≤ 1 then
    "\x27utf-8\x27 codec can\x27t encode character " ++ quoteStr ⟨#[.half e.first]⟩ ++
      " in position " ++ toString e.position ++ ": surrogates not allowed"
  else
    "\x27utf-8\x27 codec can\x27t encode characters in position " ++ toString e.position ++ "-" ++
      toString (e.position + e.count - 1) ++ ": surrogates not allowed"

/-- Why a text and UTF-8 bytes could not be turned one into the other. -/
inductive CodecError where
  /-- The bytes are not UTF-8. -/
  | decode (e : DecodeError)
  /-- The text holds a surrogate half, which UTF-8 cannot write. -/
  | encode (e : EncodeError)
deriving Inhabited

/-- The message of a codec error. -/
def CodecError.message : CodecError → String
  | .decode e => e.message
  | .encode e => e.message

/-- Whether a code point is a surrogate half. -/
def isHalf : Code → Bool
  | .half _ => true
  | .char _ => false

/-- The first run of halves among code points counted from place `i`. -/
def firstHalves : List Code → Nat → Option EncodeError
  | [], _ => none
  | .char _ :: rest, i => firstHalves rest (i + 1)
  | .half o :: rest, i => some ⟨i, o, (rest.takeWhile isHalf).length + 1⟩

/-- The UTF-8 bytes of a text: those of its `String` when it holds no half. -/
def encode (s : Str) : Except EncodeError ByteArray :=
  match firstHalves s.toList 0 with
  | some e => .error e
  | none => .ok s.toString.toUTF8

/-- The bytes UTF-8 writes a text as are those of its `String`. -/
theorem toUTF8_of_encode {s : Str} {bytes : ByteArray} (written : encode s = .ok bytes) :
    s.toString.toUTF8 = bytes := by
  unfold encode at written
  split at written
  · cases written
  · cases written
    rfl

/-- Characters alone hold no half. -/
theorem firstHalves_map_char (cs : List Char) (i : Nat) : firstHalves (cs.map .char) i = none := by
  induction cs generalizing i with
  | nil => rfl
  | cons c rest ih => exact ih (i + 1)

/-- A `String` is written as its UTF-8 bytes. -/
theorem encode_ofString (s : String) : encode (Str.ofString s) = .ok s.toUTF8 := by
  have none : firstHalves (Str.ofString s).toList 0 = none := by
    simpa [Str.ofString, Str.toList] using firstHalves_map_char s.toList 0
  rw [encode, none, Str.toString_ofString]

end StageTree.Text.Utf8
