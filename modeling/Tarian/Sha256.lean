import Mathlib.Data.List.Basic

/-!
# SHA-256 and the `%x` digest text

`ValidateFileChecksums` streams each file into `sha256.New()` and compares
`fmt.Sprintf("%x", s256.Sum(nil))` with the rule's `sha256sum`. This is that computation: the
SHA-256 of FIPS 180-4 (padding, the 64-word message schedule, 64 rounds per 512-bit block) over a
byte list, and `hexEncode`, the two lowercase hex digits per byte that `%x` prints for a
`[]byte`.

Everything here is structurally recursive, so digests of short inputs evaluate by `decide`:
`sha256Hex_nil` is the digest of the empty input, which the file validator computes for a file it
cannot open.
-/

namespace Tarian.Sha256

/-- Rotate right by `n` bits. -/
def rotr (x : UInt32) (n : UInt32) : UInt32 := (x >>> n) ||| (x <<< (32 - n))

def ch (e f g : UInt32) : UInt32 := (e &&& f) ^^^ (~~~e &&& g)

def maj (a b c : UInt32) : UInt32 := (a &&& b) ^^^ (a &&& c) ^^^ (b &&& c)

def bigSigma0 (a : UInt32) : UInt32 := rotr a 2 ^^^ rotr a 13 ^^^ rotr a 22

def bigSigma1 (e : UInt32) : UInt32 := rotr e 6 ^^^ rotr e 11 ^^^ rotr e 25

def sigma0 (x : UInt32) : UInt32 := rotr x 7 ^^^ rotr x 18 ^^^ (x >>> 3)

def sigma1 (x : UInt32) : UInt32 := rotr x 17 ^^^ rotr x 19 ^^^ (x >>> 10)

/-- The round constants. -/
def roundConstants : List UInt32 :=
  [0x428a2f98, 0x71374491, 0xb5c0fbcf, 0xe9b5dba5, 0x3956c25b, 0x59f111f1, 0x923f82a4, 0xab1c5ed5,
   0xd807aa98, 0x12835b01, 0x243185be, 0x550c7dc3, 0x72be5d74, 0x80deb1fe, 0x9bdc06a7, 0xc19bf174,
   0xe49b69c1, 0xefbe4786, 0x0fc19dc6, 0x240ca1cc, 0x2de92c6f, 0x4a7484aa, 0x5cb0a9dc, 0x76f988da,
   0x983e5152, 0xa831c66d, 0xb00327c8, 0xbf597fc7, 0xc6e00bf3, 0xd5a79147, 0x06ca6351, 0x14292967,
   0x27b70a85, 0x2e1b2138, 0x4d2c6dfc, 0x53380d13, 0x650a7354, 0x766a0abb, 0x81c2c92e, 0x92722c85,
   0xa2bfe8a1, 0xa81a664b, 0xc24b8b70, 0xc76c51a3, 0xd192e819, 0xd6990624, 0xf40e3585, 0x106aa070,
   0x19a4c116, 0x1e376c08, 0x2748774c, 0x34b0bcb5, 0x391c0cb3, 0x4ed8aa4a, 0x5b9cca4f, 0x682e6ff3,
   0x748f82ee, 0x78a5636f, 0x84c87814, 0x8cc70208, 0x90befffa, 0xa4506ceb, 0xbef9a3f7, 0xc67178f2]

/-- The initial hash value. -/
def initialHash : List UInt32 :=
  [0x6a09e667, 0xbb67ae85, 0x3c6ef372, 0xa54ff53a, 0x510e527f, 0x9b05688c, 0x1f83d9ab, 0x5be0cd19]

/-- The big-endian 32-bit words of a byte list (a trailing partial word is dropped). -/
def words : List UInt8 → List UInt32
  | b0 :: b1 :: b2 :: b3 :: rest =>
    ((b0.toUInt32 <<< 24) ||| (b1.toUInt32 <<< 16) ||| (b2.toUInt32 <<< 8) ||| b3.toUInt32) ::
      words rest
  | _ => []

/-- The message schedule: `n` more words, each from four earlier ones. -/
def extendSchedule : Nat → List UInt32 → List UInt32
  | 0, w => w
  | n + 1, w =>
    let t := w.length
    extendSchedule n
      (w ++ [sigma1 (w.getD (t - 2) 0) + w.getD (t - 7) 0 + sigma0 (w.getD (t - 15) 0) +
        w.getD (t - 16) 0])

/-- The eight working variables `a`..`h`. -/
structure Working where
  a : UInt32
  b : UInt32
  c : UInt32
  d : UInt32
  e : UInt32
  f : UInt32
  g : UInt32
  h : UInt32

/-- One round, with round constant `kt` and schedule word `wt`. -/
def round (s : Working) (kt wt : UInt32) : Working :=
  let t1 := s.h + bigSigma1 s.e + ch s.e s.f s.g + kt + wt
  let t2 := bigSigma0 s.a + maj s.a s.b s.c
  ⟨t1 + t2, s.a, s.b, s.c, s.d + t1, s.e, s.f, s.g⟩

/-- The compression of one 16-word block into the hash value `hv`. -/
def compress (hv : List UInt32) (block : List UInt32) : List UInt32 :=
  let w := extendSchedule 48 block
  let s0 : Working := ⟨hv.getD 0 0, hv.getD 1 0, hv.getD 2 0, hv.getD 3 0, hv.getD 4 0,
    hv.getD 5 0, hv.getD 6 0, hv.getD 7 0⟩
  let s := (roundConstants.zip w).foldl (fun s kw => round s kw.1 kw.2) s0
  List.zipWith (· + ·) hv [s.a, s.b, s.c, s.d, s.e, s.f, s.g, s.h]

/-- The compression of `n` blocks of 16 words. -/
def hashBlocks : Nat → List UInt32 → List UInt32 → List UInt32
  | 0, hv, _ => hv
  | n + 1, hv, ws => hashBlocks n (compress hv (ws.take 16)) (ws.drop 16)

/-- The bit length as eight big-endian bytes. -/
def lengthBytes (bits : Nat) : List UInt8 :=
  (List.range 8).reverse.map fun i => (bits >>> (8 * i) % 256).toUInt8

/-- The padded message: `0x80`, zeros up to 56 mod 64, and the 64-bit bit length. -/
def pad (m : List UInt8) : List UInt8 :=
  m ++ [0x80] ++ List.replicate ((119 - m.length % 64) % 64) 0 ++ lengthBytes (8 * m.length)

/-- The bytes of a word, big-endian. -/
def wordBytes (x : UInt32) : List UInt8 :=
  [(x >>> 24).toUInt8, (x >>> 16).toUInt8, (x >>> 8).toUInt8, x.toUInt8]

/-- `sha256.Sum`: the 32-byte digest of a message. -/
def sha256 (m : List UInt8) : List UInt8 :=
  let p := pad m
  (hashBlocks (p.length / 64) initialHash (words p)).flatMap wordBytes

/-- A lowercase hex digit. -/
def hexDigit (n : Nat) : Char := if n < 10 then Char.ofNat (48 + n) else Char.ofNat (87 + n)

/-- `fmt.Sprintf("%x", b)` for a byte slice `b`. -/
def hexEncode (bs : List UInt8) : String :=
  String.mk (bs.flatMap fun b => [hexDigit (b.toNat / 16), hexDigit (b.toNat % 16)])

/-- The digest text the file validator compares: `fmt.Sprintf("%x", sha256 of the bytes)`. -/
def sha256Hex (m : List UInt8) : String := hexEncode (sha256 m)

set_option maxRecDepth 2000 in
/-- The digest of the empty input (FIPS 180-4's test vector). -/
theorem sha256Hex_nil :
    sha256Hex [] = "e3b0c44298fc1c149afbf4c8996fb92427ae41e4649b934ca495991b7852b855" := by
  decide

end Tarian.Sha256
