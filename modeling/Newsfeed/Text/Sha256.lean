/-!
The hash SHA-256: eight 32-bit words, mixed with each block of sixteen words of the padded message.
-/

namespace Newsfeed.Text.Sha256

def roundConstants : List UInt32 :=
  [0x428a2f98, 0x71374491, 0xb5c0fbcf, 0xe9b5dba5, 0x3956c25b, 0x59f111f1, 0x923f82a4, 0xab1c5ed5,
   0xd807aa98, 0x12835b01, 0x243185be, 0x550c7dc3, 0x72be5d74, 0x80deb1fe, 0x9bdc06a7, 0xc19bf174,
   0xe49b69c1, 0xefbe4786, 0x0fc19dc6, 0x240ca1cc, 0x2de92c6f, 0x4a7484aa, 0x5cb0a9dc, 0x76f988da,
   0x983e5152, 0xa831c66d, 0xb00327c8, 0xbf597fc7, 0xc6e00bf3, 0xd5a79147, 0x06ca6351, 0x14292967,
   0x27b70a85, 0x2e1b2138, 0x4d2c6dfc, 0x53380d13, 0x650a7354, 0x766a0abb, 0x81c2c92e, 0x92722c85,
   0xa2bfe8a1, 0xa81a664b, 0xc24b8b70, 0xc76c51a3, 0xd192e819, 0xd6990624, 0xf40e3585, 0x106aa070,
   0x19a4c116, 0x1e376c08, 0x2748774c, 0x34b0bcb5, 0x391c0cb3, 0x4ed8aa4a, 0x5b9cca4f, 0x682e6ff3,
   0x748f82ee, 0x78a5636f, 0x84c87814, 0x8cc70208, 0x90befffa, 0xa4506ceb, 0xbef9a3f7, 0xc67178f2]

structure State where
  a : UInt32
  b : UInt32
  c : UInt32
  d : UInt32
  e : UInt32
  f : UInt32
  g : UInt32
  h : UInt32

def State.start : State :=
  ⟨0x6a09e667, 0xbb67ae85, 0x3c6ef372, 0xa54ff53a, 0x510e527f, 0x9b05688c, 0x1f83d9ab, 0x5be0cd19⟩

def State.toList (s : State) : List UInt32 := [s.a, s.b, s.c, s.d, s.e, s.f, s.g, s.h]

def State.add (s t : State) : State :=
  ⟨s.a + t.a, s.b + t.b, s.c + t.c, s.d + t.d, s.e + t.e, s.f + t.f, s.g + t.g, s.h + t.h⟩

def rotateRight (x : UInt32) (n : UInt32) : UInt32 := (x >>> n) ||| (x <<< (32 - n))

def State.round (s : State) (k w : UInt32) : State :=
  let big1 := rotateRight s.e 6 ^^^ rotateRight s.e 11 ^^^ rotateRight s.e 25
  let choice := (s.e &&& s.f) ^^^ (~~~s.e &&& s.g)
  let t1 := s.h + big1 + choice + k + w
  let big0 := rotateRight s.a 2 ^^^ rotateRight s.a 13 ^^^ rotateRight s.a 22
  let majority := (s.a &&& s.b) ^^^ (s.a &&& s.c) ^^^ (s.b &&& s.c)
  ⟨t1 + (big0 + majority), s.a, s.b, s.c, s.d + t1, s.e, s.f, s.g⟩

/-- The sixteen words after the given sixteen in the schedule follow one by one, each from four
of the last sixteen. -/
def extend : Nat → List UInt32 → List UInt32
  | 0, _ => []
  | n + 1, ws =>
    let word (i : Nat) : UInt32 := ws[i]?.getD 0
    let s0 := rotateRight (word 1) 7 ^^^ rotateRight (word 1) 18 ^^^ (word 1 >>> 3)
    let s1 := rotateRight (word 14) 17 ^^^ rotateRight (word 14) 19 ^^^ (word 14 >>> 10)
    let w := word 0 + s0 + word 9 + s1
    w :: extend n (ws.drop 1 ++ [w])

def schedule (block : List UInt32) : List UInt32 := block ++ extend 48 block

def compress (s : State) (block : List UInt32) : State :=
  ((roundConstants.zip (schedule block)).foldl (fun t kw => t.round kw.1 kw.2) s).add s

/-- The message, a bit that is set, zeros up to 56 bytes of the last block, and the length in bits
in eight bytes. -/
def pad (bytes : List UInt8) : List UInt8 :=
  let n := bytes.length
  let bits := (8 * n).toUInt64
  let zeros := (119 - n % 64) % 64
  let shifts : List UInt64 := [56, 48, 40, 32, 24, 16, 8, 0]
  let length : List UInt8 := shifts.map fun shift => (bits >>> shift).toUInt8
  bytes ++ 0x80 :: (List.replicate zeros 0 ++ length)

/-- Bytes four by four as words, the first byte the most significant. -/
def toWords : List UInt8 → List UInt32
  | a :: b :: c :: d :: rest =>
    (a.toUInt32 <<< 24 ||| b.toUInt32 <<< 16 ||| c.toUInt32 <<< 8 ||| d.toUInt32) :: toWords rest
  | _ => []

/-- Mixes in `n` blocks of sixteen words. -/
def absorb : Nat → State → List UInt32 → State
  | 0, s, _ => s
  | n + 1, s, ws => absorb n (compress s (ws.take 16)) (ws.drop 16)

def digest (bytes : List UInt8) : List UInt32 :=
  let words := toWords (pad bytes)
  (absorb (words.length / 16) State.start words).toList

def hexDigit (n : UInt32) : Char :=
  "0123456789abcdef".toList[(n &&& 15).toNat]?.getD '0'

def hexWord (w : UInt32) : List Char :=
  let shifts : List UInt32 := [28, 24, 20, 16, 12, 8, 4, 0]
  shifts.map fun shift => hexDigit (w >>> shift)

/-- The hash of a text in UTF-8, as hexadecimal digits. -/
def hex (s : String) : String :=
  String.ofList ((digest s.toUTF8.toList).flatMap hexWord)

end Newsfeed.Text.Sha256
