import Provenant.Data.Json

/-!
# SHA-256

The digest of a text in hexadecimal digits. Words are natural numbers below `2 ^ 32`, so that the
digest of a short text can be evaluated in a proof.

## Main definitions

* `Sha256.digest` — the eight words of a digest.
* `Sha256.hex` — the digest as a text of 64 hexadecimal digits.
-/

namespace Sha256

open Json (Text hexDigit)

/-- Rotation to the right. -/
def rotr (x n : Nat) : Nat := (x >>> n) ||| ((x <<< (32 - n)) % 2 ^ 32)

/-- The first bits of the fractional parts of the cube roots of the first sixty-four primes. -/
def constants : List Nat :=
  [0x428a2f98, 0x71374491, 0xb5c0fbcf, 0xe9b5dba5, 0x3956c25b, 0x59f111f1, 0x923f82a4, 0xab1c5ed5,
    0xd807aa98, 0x12835b01, 0x243185be, 0x550c7dc3, 0x72be5d74, 0x80deb1fe, 0x9bdc06a7, 0xc19bf174,
    0xe49b69c1, 0xefbe4786, 0x0fc19dc6, 0x240ca1cc, 0x2de92c6f, 0x4a7484aa, 0x5cb0a9dc, 0x76f988da,
    0x983e5152, 0xa831c66d, 0xb00327c8, 0xbf597fc7, 0xc6e00bf3, 0xd5a79147, 0x06ca6351, 0x14292967,
    0x27b70a85, 0x2e1b2138, 0x4d2c6dfc, 0x53380d13, 0x650a7354, 0x766a0abb, 0x81c2c92e, 0x92722c85,
    0xa2bfe8a1, 0xa81a664b, 0xc24b8b70, 0xc76c51a3, 0xd192e819, 0xd6990624, 0xf40e3585, 0x106aa070,
    0x19a4c116, 0x1e376c08, 0x2748774c, 0x34b0bcb5, 0x391c0cb3, 0x4ed8aa4a, 0x5b9cca4f, 0x682e6ff3,
    0x748f82ee, 0x78a5636f, 0x84c87814, 0x8cc70208, 0x90befffa, 0xa4506ceb, 0xbef9a3f7, 0xc67178f2]

/-- The words before the first block. -/
def initial : List Nat :=
  [0x6a09e667, 0xbb67ae85, 0x3c6ef372, 0xa54ff53a, 0x510e527f, 0x9b05688c, 0x1f83d9ab, 0x5be0cd19]

/-- The value of some bytes, the most significant first. -/
def value (bytes : List Nat) : Nat := bytes.foldl (fun value byte => 256 * value + byte) 0

/-- The bytes of a number, the most significant first. -/
def bytesOf (n : Nat) : Nat → List Nat
  | 0 => []
  | count + 1 => bytesOf (n / 256) count ++ [n % 256]

/-- A text is closed by one bit, filled up with zeros and followed by its length in bits. -/
def padded (t : Text) : List Nat :=
  t.map UInt8.toNat ++ 0x80 :: List.replicate ((119 - t.length % 64) % 64) 0 ++
    bytesOf (8 * t.length) 8

/-- The first groups of some numbers. -/
def groups (size : Nat) : Nat → List Nat → List (List Nat)
  | 0, _ => []
  | count + 1, items => items.take size :: groups size count (items.drop size)

/-- The words of the message schedule, the latest first. -/
def schedule : Nat → List Nat → List Nat
  | 0, words => words
  | count + 1, words =>
    let old := words.getD 14 0
    let new := words.getD 1 0
    schedule count
      ((words.getD 15 0 + (rotr old 7 ^^^ rotr old 18 ^^^ (old >>> 3)) + words.getD 6 0 +
        (rotr new 17 ^^^ rotr new 19 ^^^ (new >>> 10))) % 2 ^ 32 :: words)

/-- One round: a constant and a word of the schedule are mixed into the working variables. -/
def round (state : List Nat) (term : Nat) : List Nat :=
  match state with
  | [a, b, c, d, e, f, g, h] =>
    let first := h + (rotr e 6 ^^^ rotr e 11 ^^^ rotr e 25) +
      ((e &&& f) ^^^ ((2 ^ 32 - 1 - e) &&& g)) + term
    let second := (rotr a 2 ^^^ rotr a 13 ^^^ rotr a 22) +
      ((a &&& b) ^^^ (a &&& c) ^^^ (b &&& c))
    [(first + second) % 2 ^ 32, a, b, c, (d + first) % 2 ^ 32, e, f, g]
  | other => other

/-- One block is mixed into the words of the digest. -/
def compress (state : List Nat) (block : List Nat) : List Nat :=
  let words := (schedule 48 ((groups 4 16 block).map value).reverse).reverse
  List.zipWith (fun old new => (old + new) % 2 ^ 32) state
    ((List.zipWith (· + ·) constants words).foldl round state)

/-- The eight words of a digest. -/
def digest (t : Text) : List Nat :=
  (groups 64 ((padded t).length / 64) (padded t)).foldl compress initial

/-- The digest of a text in hexadecimal digits. -/
def hex (t : Text) : Text :=
  (digest t).flatMap fun word =>
    (bytesOf word 4).flatMap fun byte => [hexDigit (byte / 16), hexDigit (byte % 16)]

end Sha256
