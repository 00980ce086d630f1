import CohortAnalytics.Text.Characters

/-!
The digests MD5 of RFC 1321, whose words and lengths have their lowest byte first, and SHA-256 of FIPS
180-4. Both pad a message to whole blocks of sixty-four bytes and cut words from bytes.
-/

namespace CohortAnalytics.Digest

-- Powers are the ones of core, whatever else is in scope.
attribute [local instance (high)] instPowNat

/-- The eight bytes of a 64-bit number, the lowest first. -/
def lengthBytes (n : Nat) : List UInt8 := (List.range 8).map fun i => (n / 256 ^ i).toUInt8

/-- The message, one set bit, zeros, and the length in bits in the last eight bytes. -/
def pad (lengthOrder : List UInt8 → List UInt8) (message : List UInt8) : List UInt8 :=
  let n := message.length
  message ++ 0x80 :: List.replicate ((119 - n % 64) % 64) 0 ++ lengthOrder (lengthBytes (8 * n))

def chunks (size : Nat) : Nat → List α → List (List α)
  | 0, _ => []
  | n + 1, xs => xs.take size :: chunks size n (xs.drop size)

def blocks (padded : List UInt8) : List (List UInt8) := chunks 64 (padded.length / 64) padded

/-- A word from bytes, the highest first. -/
def word (bytes : List UInt8) : UInt32 := bytes.foldl (fun w b => w <<< 8 ||| b.toUInt32) 0

def rotateLeft (x : UInt32) (n : UInt32) : UInt32 := x <<< n ||| x >>> (32 - n)

def rotateRight (x : UInt32) (n : UInt32) : UInt32 := x >>> n ||| x <<< (32 - n)

def wordBytes (w : UInt32) : List UInt8 :=
  [(w >>> 24).toUInt8, (w >>> 16).toUInt8, (w >>> 8).toUInt8, w.toUInt8]

namespace Md5

def constants : Array UInt32 := #[
  0xd76aa478, 0xe8c7b756, 0x242070db, 0xc1bdceee, 0xf57c0faf, 0x4787c62a, 0xa8304613, 0xfd469501,
  0x698098d8, 0x8b44f7af, 0xffff5bb1, 0x895cd7be, 0x6b901122, 0xfd987193, 0xa679438e, 0x49b40821,
  0xf61e2562, 0xc040b340, 0x265e5a51, 0xe9b6c7aa, 0xd62f105d, 0x02441453, 0xd8a1e681, 0xe7d3fbc8,
  0x21e1cde6, 0xc33707d6, 0xf4d50d87, 0x455a14ed, 0xa9e3e905, 0xfcefa3f8, 0x676f02d9, 0x8d2a4c8a,
  0xfffa3942, 0x8771f681, 0x6d9d6122, 0xfde5380c, 0xa4beea44, 0x4bdecfa9, 0xf6bb4b60, 0xbebfbc70,
  0x289b7ec6, 0xeaa127fa, 0xd4ef3085, 0x04881d05, 0xd9d4d039, 0xe6db99e5, 0x1fa27cf8, 0xc4ac5665,
  0xf4292244, 0x432aff97, 0xab9423a7, 0xfc93a039, 0x655b59c3, 0x8f0ccc92, 0xffeff47d, 0x85845dd1,
  0x6fa87e4f, 0xfe2ce6e0, 0xa3014314, 0x4e0811a1, 0xf7537e82, 0xbd3af235, 0x2ad7d2bb, 0xeb86d391]

def shifts : Array UInt32 := #[7, 12, 17, 22, 5, 9, 14, 20, 4, 11, 16, 23, 6, 10, 15, 21]

structure Registers where
  a : UInt32
  b : UInt32
  c : UInt32
  d : UInt32

def initial : Registers := ⟨0x67452301, 0xefcdab89, 0x98badcfe, 0x10325476⟩

def mix (r : Registers) (i : Nat) : UInt32 × Nat :=
  if i < 16 then ((r.b &&& r.c) ||| (~~~ r.b &&& r.d), i)
  else if i < 32 then ((r.d &&& r.b) ||| (~~~ r.d &&& r.c), (5 * i + 1) % 16)
  else if i < 48 then (r.b ^^^ r.c ^^^ r.d, (3 * i + 5) % 16)
  else (r.c ^^^ (r.b ||| ~~~ r.d), 7 * i % 16)

def step (message : Array UInt32) (r : Registers) (i : Nat) : Registers :=
  let (f, g) := mix r i
  let s := f + r.a + constants.getD i 0 + message.getD g 0
  ⟨r.d, r.b + rotateLeft s (shifts.getD (i / 16 * 4 + i % 4) 0), r.b, r.c⟩

def compress (r : Registers) (block : List UInt8) : Registers :=
  let message := ((chunks 4 16 block).map fun bytes => word bytes.reverse).toArray
  let s := (List.range 64).foldl (step message) r
  ⟨r.a + s.a, r.b + s.b, r.c + s.c, r.d + s.d⟩

def bytes (r : Registers) : List UInt8 :=
  [r.a, r.b, r.c, r.d].flatMap fun w => (wordBytes w).reverse

end Md5

def md5 (message : List UInt8) : List UInt8 :=
  Md5.bytes ((blocks (pad id message)).foldl Md5.compress Md5.initial)

namespace Sha256

def constants : Array UInt32 := #[
  0x428a2f98, 0x71374491, 0xb5c0fbcf, 0xe9b5dba5, 0x3956c25b, 0x59f111f1, 0x923f82a4, 0xab1c5ed5,
  0xd807aa98, 0x12835b01, 0x243185be, 0x550c7dc3, 0x72be5d74, 0x80deb1fe, 0x9bdc06a7, 0xc19bf174,
  0xe49b69c1, 0xefbe4786, 0x0fc19dc6, 0x240ca1cc, 0x2de92c6f, 0x4a7484aa, 0x5cb0a9dc, 0x76f988da,
  0x983e5152, 0xa831c66d, 0xb00327c8, 0xbf597fc7, 0xc6e00bf3, 0xd5a79147, 0x06ca6351, 0x14292967,
  0x27b70a85, 0x2e1b2138, 0x4d2c6dfc, 0x53380d13, 0x650a7354, 0x766a0abb, 0x81c2c92e, 0x92722c85,
  0xa2bfe8a1, 0xa81a664b, 0xc24b8b70, 0xc76c51a3, 0xd192e819, 0xd6990624, 0xf40e3585, 0x106aa070,
  0x19a4c116, 0x1e376c08, 0x2748774c, 0x34b0bcb5, 0x391c0cb3, 0x4ed8aa4a, 0x5b9cca4f, 0x682e6ff3,
  0x748f82ee, 0x78a5636f, 0x84c87814, 0x8cc70208, 0x90befffa, 0xa4506ceb, 0xbef9a3f7, 0xc67178f2]

structure Registers where
  a : UInt32
  b : UInt32
  c : UInt32
  d : UInt32
  e : UInt32
  f : UInt32
  g : UInt32
  h : UInt32

def initial : Registers :=
  ⟨0x6a09e667, 0xbb67ae85, 0x3c6ef372, 0xa54ff53a,
    0x510e527f, 0x9b05688c, 0x1f83d9ab, 0x5be0cd19⟩

def extend (w : Array UInt32) (t : Nat) : Array UInt32 :=
  let x := w.getD (t + 1) 0
  let y := w.getD (t + 14) 0
  let low := rotateRight x 7 ^^^ rotateRight x 18 ^^^ x >>> 3
  let high := rotateRight y 17 ^^^ rotateRight y 19 ^^^ y >>> 10
  w.push (w.getD t 0 + low + w.getD (t + 9) 0 + high)

def schedule (block : List UInt8) : Array UInt32 :=
  (List.range 48).foldl extend ((chunks 4 16 block).map word).toArray

def round (r : Registers) (k w : UInt32) : Registers :=
  let high := rotateRight r.e 6 ^^^ rotateRight r.e 11 ^^^ rotateRight r.e 25
  let choice := (r.e &&& r.f) ^^^ (~~~ r.e &&& r.g)
  let s := r.h + high + choice + k + w
  let low := rotateRight r.a 2 ^^^ rotateRight r.a 13 ^^^ rotateRight r.a 22
  let majority := (r.a &&& r.b) ^^^ (r.a &&& r.c) ^^^ (r.b &&& r.c)
  ⟨s + low + majority, r.a, r.b, r.c, r.d + s, r.e, r.f, r.g⟩

def add (r s : Registers) : Registers :=
  ⟨r.a + s.a, r.b + s.b, r.c + s.c, r.d + s.d, r.e + s.e, r.f + s.f, r.g + s.g, r.h + s.h⟩

def compress (r : Registers) (block : List UInt8) : Registers :=
  add r (((constants.zip (schedule block)).toList).foldl (fun s (k, w) => round s k w) r)

def bytes (r : Registers) : List UInt8 :=
  [r.a, r.b, r.c, r.d, r.e, r.f, r.g, r.h].flatMap wordBytes

end Sha256

def sha256 (message : List UInt8) : List UInt8 :=
  Sha256.bytes ((blocks (pad List.reverse message)).foldl Sha256.compress Sha256.initial)

def sha256Hex (s : String) : String := bytesHex (sha256 s.toUTF8.toList)

end CohortAnalytics.Digest
