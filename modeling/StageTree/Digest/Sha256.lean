import StageTree.Text.Quoted

/-!
# SHA-256

The SHA-256 digest of a byte string, as in FIPS 180-4: the message is padded with a one bit,
zeros and its bit length to a whole number of 64-byte blocks, and each block is compressed into
eight 32-bit words of state, starting from the standard initial words. The digest's text is
the eight words in lowercase hex, eight digits each.
-/

namespace StageTree.Sha256

/-- The 64 round constants. -/
def roundConstants : Array UInt32 := #[
  0x428a2f98, 0x71374491, 0xb5c0fbcf, 0xe9b5dba5, 0x3956c25b, 0x59f111f1, 0x923f82a4, 0xab1c5ed5,
  0xd807aa98, 0x12835b01, 0x243185be, 0x550c7dc3, 0x72be5d74, 0x80deb1fe, 0x9bdc06a7, 0xc19bf174,
  0xe49b69c1, 0xefbe4786, 0x0fc19dc6, 0x240ca1cc, 0x2de92c6f, 0x4a7484aa, 0x5cb0a9dc, 0x76f988da,
  0x983e5152, 0xa831c66d, 0xb00327c8, 0xbf597fc7, 0xc6e00bf3, 0xd5a79147, 0x06ca6351, 0x14292967,
  0x27b70a85, 0x2e1b2138, 0x4d2c6dfc, 0x53380d13, 0x650a7354, 0x766a0abb, 0x81c2c92e, 0x92722c85,
  0xa2bfe8a1, 0xa81a664b, 0xc24b8b70, 0xc76c51a3, 0xd192e819, 0xd6990624, 0xf40e3585, 0x106aa070,
  0x19a4c116, 0x1e376c08, 0x2748774c, 0x34b0bcb5, 0x391c0cb3, 0x4ed8aa4a, 0x5b9cca4f, 0x682e6ff3,
  0x748f82ee, 0x78a5636f, 0x84c87814, 0x8cc70208, 0x90befffa, 0xa4506ceb, 0xbef9a3f7, 0xc67178f2]

/-- The initial state. -/
def initialState : Array UInt32 := #[
  0x6a09e667, 0xbb67ae85, 0x3c6ef372, 0xa54ff53a, 0x510e527f, 0x9b05688c, 0x1f83d9ab, 0x5be0cd19]

/-- Rotates a word right by `n` bits, `0 < n < 32`. -/
def rotr (x : UInt32) (n : UInt32) : UInt32 := (x >>> n) ||| (x <<< (32 - n))

/-- The big-endian word of four bytes at `off`, zeros past the end. -/
def readWord (bytes : ByteArray) (off : Nat) : UInt32 :=
  (List.range 4).foldl (fun w i => (w <<< 8) ||| (bytes.get! (off + i)).toUInt32) 0

/-- The message with its padding: a one bit, zeros, and the 64-bit bit length. -/
def padded (message : ByteArray) : ByteArray :=
  let len := message.size
  let zeros := (119 - len % 64) % 64
  let bits := len * 8
  let lengthBytes := (List.range 8).reverse.map fun i => ((bits >>> (8 * i)) % 256).toUInt8
  message ++ ⟨#[0x80]⟩ ++ ⟨Array.replicate zeros 0⟩ ++ ⟨lengthBytes.toArray⟩

/-- The 64-word schedule of the block at `off`. -/
def schedule (bytes : ByteArray) (off : Nat) : Array UInt32 :=
  let first := (List.range 16).foldl (fun w i => w.push (readWord bytes (off + 4 * i))) #[]
  (List.range' 16 48).foldl (fun w i =>
    let a := w.getD (i - 15) 0
    let b := w.getD (i - 2) 0
    let s0 := rotr a 7 ^^^ rotr a 18 ^^^ (a >>> 3)
    let s1 := rotr b 17 ^^^ rotr b 19 ^^^ (b >>> 10)
    w.push (w.getD (i - 16) 0 + s0 + w.getD (i - 7) 0 + s1)) first

/-- The eight working words of a compression. -/
structure Working where
  a : UInt32
  b : UInt32
  c : UInt32
  d : UInt32
  e : UInt32
  f : UInt32
  g : UInt32
  h : UInt32

/-- One round of the compression, with the schedule word `w` and round constant `k`. -/
def round (s : Working) (k w : UInt32) : Working :=
  let s1 := rotr s.e 6 ^^^ rotr s.e 11 ^^^ rotr s.e 25
  let ch := (s.e &&& s.f) ^^^ (~~~ s.e &&& s.g)
  let t1 := s.h + s1 + ch + k + w
  let s0 := rotr s.a 2 ^^^ rotr s.a 13 ^^^ rotr s.a 22
  let maj := (s.a &&& s.b) ^^^ (s.a &&& s.c) ^^^ (s.b &&& s.c)
  let t2 := s0 + maj
  ⟨t1 + t2, s.a, s.b, s.c, s.d + t1, s.e, s.f, s.g⟩

/-- The state after compressing the block at `off`. -/
def compressBlock (state : Array UInt32) (bytes : ByteArray) (off : Nat) : Array UInt32 :=
  let w := schedule bytes off
  let v := state.getD
  let s := (List.range 64).foldl
    (fun s i => round s (roundConstants.getD i 0) (w.getD i 0))
    ⟨v 0 0, v 1 0, v 2 0, v 3 0, v 4 0, v 5 0, v 6 0, v 7 0⟩
  #[v 0 0 + s.a, v 1 0 + s.b, v 2 0 + s.c, v 3 0 + s.d,
    v 4 0 + s.e, v 5 0 + s.f, v 6 0 + s.g, v 7 0 + s.h]

/-- The digest of a message, as eight words. -/
def digest (message : ByteArray) : Array UInt32 :=
  let p := padded message
  (List.range (p.size / 64)).foldl (fun state i => compressBlock state p (64 * i)) initialState

/-- The digest of a message in lowercase hex. -/
def hexDigest (message : ByteArray) : String :=
  String.join ((digest message).toList.map fun w => Text.hexPadded 8 w.toNat)

end StageTree.Sha256
