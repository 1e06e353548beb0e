import CrashTriage.Text.Bytes

/-
The SHA-256 digest of a byte string (FIPS 180-4): the message is padded to whole blocks of sixteen
words, and each block is mixed into a state of eight words by sixty-four rounds.
-/
namespace CrashTriage

namespace Digest

abbrev Word := UInt32

def rotate (x : Word) (n : UInt32) : Word := (x >>> n) ||| (x <<< (32 - n))

/-- The fractional parts of the cube roots of the first sixty-four primes. -/
def roundConstants : List Word :=
  [0x428a2f98, 0x71374491, 0xb5c0fbcf, 0xe9b5dba5, 0x3956c25b, 0x59f111f1, 0x923f82a4, 0xab1c5ed5,
    0xd807aa98, 0x12835b01, 0x243185be, 0x550c7dc3, 0x72be5d74, 0x80deb1fe, 0x9bdc06a7, 0xc19bf174,
    0xe49b69c1, 0xefbe4786, 0x0fc19dc6, 0x240ca1cc, 0x2de92c6f, 0x4a7484aa, 0x5cb0a9dc, 0x76f988da,
    0x983e5152, 0xa831c66d, 0xb00327c8, 0xbf597fc7, 0xc6e00bf3, 0xd5a79147, 0x06ca6351, 0x14292967,
    0x27b70a85, 0x2e1b2138, 0x4d2c6dfc, 0x53380d13, 0x650a7354, 0x766a0abb, 0x81c2c92e, 0x92722c85,
    0xa2bfe8a1, 0xa81a664b, 0xc24b8b70, 0xc76c51a3, 0xd192e819, 0xd6990624, 0xf40e3585, 0x106aa070,
    0x19a4c116, 0x1e376c08, 0x2748774c, 0x34b0bcb5, 0x391c0cb3, 0x4ed8aa4a, 0x5b9cca4f, 0x682e6ff3,
    0x748f82ee, 0x78a5636f, 0x84c87814, 0x8cc70208, 0x90befffa, 0xa4506ceb, 0xbef9a3f7, 0xc67178f2]

structure State where
  a : Word
  b : Word
  c : Word
  d : Word
  e : Word
  f : Word
  g : Word
  h : Word
deriving DecidableEq, Repr

namespace State

/-- The fractional parts of the square roots of the first eight primes. -/
def start : State :=
  ⟨0x6a09e667, 0xbb67ae85, 0x3c6ef372, 0xa54ff53a, 0x510e527f, 0x9b05688c, 0x1f83d9ab, 0x5be0cd19⟩

def add (s t : State) : State :=
  ⟨s.a + t.a, s.b + t.b, s.c + t.c, s.d + t.d, s.e + t.e, s.f + t.f, s.g + t.g, s.h + t.h⟩

/-- One round with a round constant and a word of the schedule. -/
def round (s : State) (k : Word × Word) : State :=
  let sum1 := rotate s.e 6 ^^^ rotate s.e 11 ^^^ rotate s.e 25
  let choice := (s.e &&& s.f) ^^^ (~~~s.e &&& s.g)
  let first := s.h + sum1 + choice + k.1 + k.2
  let sum0 := rotate s.a 2 ^^^ rotate s.a 13 ^^^ rotate s.a 22
  let majority := (s.a &&& s.b) ^^^ (s.a &&& s.c) ^^^ (s.b &&& s.c)
  ⟨first + sum0 + majority, s.a, s.b, s.c, s.d + first, s.e, s.f, s.g⟩

def words (s : State) : List Word := [s.a, s.b, s.c, s.d, s.e, s.f, s.g, s.h]

end State

/-- The last sixteen words of the schedule, the latest first, give the next word. -/
def nextWord (recent : List Word) : Word :=
  let word := fun i => (recent[i]?).getD 0
  let w15 := word 14
  let w2 := word 1
  word 15 + (rotate w15 7 ^^^ rotate w15 18 ^^^ (w15 >>> 3)) + word 6 +
    (rotate w2 17 ^^^ rotate w2 19 ^^^ (w2 >>> 10))

/-- Adds `count` words to a schedule that stands with the latest word first. -/
def extend : (count : Nat) → List Word → List Word
  | 0, words => words
  | count + 1, words => extend count (nextWord words :: words)

def schedule (block : List Word) : List Word := (extend 48 block.reverse).reverse

/-- Mixes a block into a state. -/
def compress (s : State) (block : List Word) : State :=
  s.add ((roundConstants.zip (schedule block)).foldl State.round s)

def bigEndian (width n : Nat) : Bytes :=
  (List.range width).reverse.map fun i => UInt8.ofNat (n / Nat.pow 256 i)

/-- A message with a one bit, zeros, and its length in bits, in whole blocks of 64 bytes. -/
def pad (message : Bytes) : Bytes :=
  let n := message.length
  message ++ 0x80 :: List.replicate ((119 - n % 64) % 64) 0 ++ bigEndian 8 (8 * n)

def toWords : Bytes → List Word
  | a :: b :: c :: d :: rest =>
    UInt32.ofNat (a.toNat * 16777216 + b.toNat * 65536 + c.toNat * 256 + d.toNat) :: toWords rest
  | _ => []

/-- Mixes words in, sixteen at a time. -/
def absorb (s : State) (words : List Word) : State :=
  if words.length < 16 then s else absorb (compress s (words.take 16)) (words.drop 16)
termination_by words.length
decreasing_by simp only [List.length_drop]; omega

def sha256 (message : Bytes) : Bytes :=
  (absorb State.start (toWords (pad message))).words.flatMap fun w => bigEndian 4 w.toNat

/-- The digest of a text in lower case hexadecimal digits. -/
def fingerprint (text : Text) : Text :=
  (sha256 text.toBytes).flatMap fun b =>
    [Nat.digitChar (b.toNat / 16), Nat.digitChar (b.toNat % 16)]

end Digest

end CrashTriage
