import SqlFilter.Text.Digits

/-!
SHA-256: the digest of a run of bytes, block by block. A block is sixteen words of 32 bits, and a
state is eight.
-/
namespace SqlFilter.Digest

/-- The initial state: the fractions of the square roots of the first eight primes. -/
def initialState : List UInt32 :=
  [0x6a09e667, 0xbb67ae85, 0x3c6ef372, 0xa54ff53a, 0x510e527f, 0x9b05688c, 0x1f83d9ab, 0x5be0cd19]

/-- The constants of the rounds: the fractions of the cube roots of the first 64 primes. -/
def roundConstants : List UInt32 :=
  [0x428a2f98, 0x71374491, 0xb5c0fbcf, 0xe9b5dba5, 0x3956c25b, 0x59f111f1, 0x923f82a4, 0xab1c5ed5,
  0xd807aa98, 0x12835b01, 0x243185be, 0x550c7dc3, 0x72be5d74, 0x80deb1fe, 0x9bdc06a7, 0xc19bf174,
  0xe49b69c1, 0xefbe4786, 0x0fc19dc6, 0x240ca1cc, 0x2de92c6f, 0x4a7484aa, 0x5cb0a9dc, 0x76f988da,
  0x983e5152, 0xa831c66d, 0xb00327c8, 0xbf597fc7, 0xc6e00bf3, 0xd5a79147, 0x06ca6351, 0x14292967,
  0x27b70a85, 0x2e1b2138, 0x4d2c6dfc, 0x53380d13, 0x650a7354, 0x766a0abb, 0x81c2c92e, 0x92722c85,
  0xa2bfe8a1, 0xa81a664b, 0xc24b8b70, 0xc76c51a3, 0xd192e819, 0xd6990624, 0xf40e3585, 0x106aa070,
  0x19a4c116, 0x1e376c08, 0x2748774c, 0x34b0bcb5, 0x391c0cb3, 0x4ed8aa4a, 0x5b9cca4f, 0x682e6ff3,
  0x748f82ee, 0x78a5636f, 0x84c87814, 0x8cc70208, 0x90befffa, 0xa4506ceb, 0xbef9a3f7, 0xc67178f2]

def rotateRight (x n : UInt32) : UInt32 := (x >>> n) ||| (x <<< (32 - n))

def schedule (block : List UInt32) : List UInt32 :=
  (List.range 48).foldl
    (fun ws _ =>
      let w2 := ws.getD 1 0
      let w15 := ws.getD 14 0
      let s0 := rotateRight w15 7 ^^^ rotateRight w15 18 ^^^ (w15 >>> 3)
      let s1 := rotateRight w2 17 ^^^ rotateRight w2 19 ^^^ (w2 >>> 10)
      (ws.getD 15 0 + s0 + ws.getD 6 0 + s1) :: ws)
    block.reverse

def round : List UInt32 → UInt32 → List UInt32
  | [a, b, c, d, e, f, g, h], kw =>
    let s1 := rotateRight e 6 ^^^ rotateRight e 11 ^^^ rotateRight e 25
    let choice := (e &&& f) ^^^ (~~~e &&& g)
    let t1 := h + s1 + choice + kw
    let s0 := rotateRight a 2 ^^^ rotateRight a 13 ^^^ rotateRight a 22
    let majority := (a &&& b) ^^^ (a &&& c) ^^^ (b &&& c)
    [t1 + s0 + majority, a, b, c, d + t1, e, f, g]
  | state, _ => state

def compress (state block : List UInt32) : List UInt32 :=
  let sums := List.zipWith (· + ·) roundConstants (schedule block).reverse
  List.zipWith (· + ·) state (sums.foldl round state)

def bigEndian : Nat → Nat → List UInt8
  | 0, _ => []
  | width + 1, n => bigEndian width (n / 256) ++ [UInt8.ofNat (n % 256)]

/-- Bytes filled up to whole blocks: a one, zeros, and the number of bits. -/
def padded (bytes : List UInt8) : List UInt8 :=
  let zeros := (119 - bytes.length % 64) % 64
  bytes ++ 0x80 :: List.replicate zeros 0 ++ bigEndian 8 (8 * bytes.length)

def words : List UInt8 → List UInt32
  | a :: b :: c :: d :: rest =>
    (a.toUInt32 <<< 24 ||| b.toUInt32 <<< 16 ||| c.toUInt32 <<< 8 ||| d.toUInt32) :: words rest
  | _ => []

def compressAll (state : List UInt32) (ws : List UInt32) : List UInt32 :=
  if ws.length < 16 then state
  else compressAll (compress state (ws.take 16)) (ws.drop 16)
  termination_by ws.length
  decreasing_by simp only [List.length_drop]; omega

def sha256 (bytes : List UInt8) : List UInt8 :=
  (compressAll initialState (words (padded bytes))).flatMap fun w => bigEndian 4 w.toNat

def hexByte (b : UInt8) : List Char := [Text.hexChar (b.toNat / 16), Text.hexChar (b.toNat % 16)]

def hex (bytes : List UInt8) : String := .ofList (bytes.flatMap hexByte)

end SqlFilter.Digest
