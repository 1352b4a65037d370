import QueryLayer.Text.Hex

/-! # SHA-256

The secure hash of FIPS 180-4 with 256 bits: the message is padded to blocks of 64 bytes, and each
block is mixed into a state of eight words over 64 rounds.
-/
namespace QueryLayer.Sha256

/-- The first 32 bits of the fractions of the cube roots of the first 64 primes. -/
def roundConstants : List UInt32 := [
  0x428a2f98, 0x71374491, 0xb5c0fbcf, 0xe9b5dba5, 0x3956c25b, 0x59f111f1, 0x923f82a4, 0xab1c5ed5,
  0xd807aa98, 0x12835b01, 0x243185be, 0x550c7dc3, 0x72be5d74, 0x80deb1fe, 0x9bdc06a7, 0xc19bf174,
  0xe49b69c1, 0xefbe4786, 0x0fc19dc6, 0x240ca1cc, 0x2de92c6f, 0x4a7484aa, 0x5cb0a9dc, 0x76f988da,
  0x983e5152, 0xa831c66d, 0xb00327c8, 0xbf597fc7, 0xc6e00bf3, 0xd5a79147, 0x06ca6351, 0x14292967,
  0x27b70a85, 0x2e1b2138, 0x4d2c6dfc, 0x53380d13, 0x650a7354, 0x766a0abb, 0x81c2c92e, 0x92722c85,
  0xa2bfe8a1, 0xa81a664b, 0xc24b8b70, 0xc76c51a3, 0xd192e819, 0xd6990624, 0xf40e3585, 0x106aa070,
  0x19a4c116, 0x1e376c08, 0x2748774c, 0x34b0bcb5, 0x391c0cb3, 0x4ed8aa4a, 0x5b9cca4f, 0x682e6ff3,
  0x748f82ee, 0x78a5636f, 0x84c87814, 0x8cc70208, 0x90befffa, 0xa4506ceb, 0xbef9a3f7, 0xc67178f2]

/-- The first 32 bits of the fractions of the square roots of the first 8 primes. -/
def initial : List UInt32 := [
  0x6a09e667, 0xbb67ae85, 0x3c6ef372, 0xa54ff53a, 0x510e527f, 0x9b05688c, 0x1f83d9ab, 0x5be0cd19]

def rotate (x : UInt32) (n : UInt32) : UInt32 := (x >>> n) ||| (x <<< (32 - n))

def smallSigma0 (x : UInt32) : UInt32 := rotate x 7 ^^^ rotate x 18 ^^^ (x >>> 3)

def smallSigma1 (x : UInt32) : UInt32 := rotate x 17 ^^^ rotate x 19 ^^^ (x >>> 10)

def bigSigma0 (x : UInt32) : UInt32 := rotate x 2 ^^^ rotate x 13 ^^^ rotate x 22

def bigSigma1 (x : UInt32) : UInt32 := rotate x 6 ^^^ rotate x 11 ^^^ rotate x 25

/-- The bits of `y` where `x` is set, and those of `z` elsewhere. -/
def choose (x y z : UInt32) : UInt32 := (x &&& y) ^^^ ((~~~ x) &&& z)

def majority (x y z : UInt32) : UInt32 := (x &&& y) ^^^ (x &&& z) ^^^ (y &&& z)

/-- The bytes of a number, the most significant one first. -/
def bigEndian : (width n : Nat) → List UInt8
  | 0, _ => []
  | width + 1, n => bigEndian width (n / 256) ++ [UInt8.ofNat (n % 256)]

/-- A message followed by a one bit, zeros, and its length in bits, in whole blocks. -/
def padded (message : List UInt8) : List UInt8 :=
  let zeros := (119 - message.length % 64) % 64
  message ++ [0x80] ++ List.replicate zeros 0 ++ bigEndian 8 (8 * message.length)

def words : List UInt8 → List UInt32
  | a :: b :: c :: d :: rest =>
    ((a.toUInt32 <<< 24) ||| (b.toUInt32 <<< 16) ||| (c.toUInt32 <<< 8) ||| d.toUInt32) :: words rest
  | _ => []

/-- The words of the rounds, given the last 16 of them with the latest one first. -/
def schedule : (rounds : Nat) → List UInt32 → List UInt32
  | 0, _ => []
  | rounds + 1, recent =>
    let word (back : Nat) := recent.getD (back - 1) 0
    let next := smallSigma1 (word 2) + word 7 + smallSigma0 (word 15) + word 16
    next :: schedule rounds (next :: recent.take 15)

def round (state : List UInt32) (k w : UInt32) : List UInt32 :=
  match state with
  | [a, b, c, d, e, f, g, h] =>
    let t1 := h + bigSigma1 e + choose e f g + k + w
    let t2 := bigSigma0 a + majority a b c
    [t1 + t2, a, b, c, d + t1, e, f, g]
  | _ => state

/-- Mixes the 16 words of a block into the state. -/
def compress (state block : List UInt32) : List UInt32 :=
  let mixed := (roundConstants.zip (block ++ schedule 48 block.reverse)).foldl
    (fun s e => round s e.1 e.2) state
  List.zipWith (· + ·) state mixed

/-- Mixes in the given number of blocks of 16 words. -/
def compressAll : (blocks : Nat) → List UInt32 → List UInt32 → List UInt32
  | 0, _, state => state
  | blocks + 1, ws, state => compressAll blocks (ws.drop 16) (compress state (ws.take 16))

def digest (message : List UInt8) : List UInt8 :=
  let ws := words (padded message)
  (compressAll (ws.length / 16) ws initial).flatMap fun w => bigEndian 4 w.toNat

def hex (bytes : List UInt8) : String :=
  String.ofList (bytes.flatMap fun b => [Text.hexDigit (b.toNat / 16), Text.hexDigit (b.toNat % 16)])

/-- The digest of the UTF-8 bytes of a text, in hexadecimal. -/
def ofText (s : String) : String := hex (digest s.toUTF8.toList)

end QueryLayer.Sha256
