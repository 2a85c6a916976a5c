import Turnstile.Bytes
import Turnstile.Digest.Sha256

/-!
# SHA-1

The digest under which a Redis server keeps a script.
-/

namespace Turnstile.Digest.Sha1

/-- The five words that the blocks of a message are absorbed into. -/
structure State where
  a : UInt32
  b : UInt32
  c : UInt32
  d : UInt32
  e : UInt32
  deriving DecidableEq

/-- The state before the first block. -/
def State.initial : State :=
  ⟨0x67452301, 0xEFCDAB89, 0x98BADCFE, 0x10325476, 0xC3D2E1F0⟩

/-- Rotation of a word to the left. -/
def rotl (x : UInt32) (n : UInt32) : UInt32 :=
  (x <<< n) ||| (x >>> (32 - n))

/-- The message schedule of a block, lengthened by `n` words. -/
def extend : Nat → Array UInt32 → Array UInt32
  | 0, w => w
  | n + 1, w =>
      let at' (back : Nat) : UInt32 := w.getD (w.size - back) 0
      extend n (w.push (rotl (at' 3 ^^^ at' 8 ^^^ at' 14 ^^^ at' 16) 1))

/-- One round, given its number and its word of the message schedule. -/
def round (s : State) (tw : Nat × UInt32) : State :=
  let t := tw.1
  let mixed : UInt32 × UInt32 :=
    if t < 20 then ((s.b &&& s.c) ||| ((~~~ s.b) &&& s.d), 0x5A827999)
    else if t < 40 then (s.b ^^^ s.c ^^^ s.d, 0x6ED9EBA1)
    else if t < 60 then ((s.b &&& s.c) ||| (s.b &&& s.d) ||| (s.c &&& s.d), 0x8F1BBCDC)
    else (s.b ^^^ s.c ^^^ s.d, 0xCA62C1D6)
  { a := rotl s.a 5 + mixed.1 + s.e + mixed.2 + tw.2
    b := s.a, c := rotl s.b 30, d := s.c, e := s.d }

/-- Absorbs one block of 64 bytes. -/
def compress (s : State) (block : Bytes) : State :=
  let schedule := extend 64 (Sha256.words block).toArray
  let t := ((List.range 80).zip schedule.toList).foldl round s
  { a := s.a + t.a, b := s.b + t.b, c := s.c + t.c, d := s.d + t.d, e := s.e + t.e }

/-- Absorbs the first `n` blocks of a message. -/
def absorb : Nat → State → Bytes → State
  | 0, s, _ => s
  | n + 1, s, message => absorb n (compress s (message.take 64)) (message.drop 64)

/-- The SHA-1 digest of a message in hexadecimal digits. -/
def hexDigest (message : Bytes) : String :=
  let padded := Sha256.pad message
  let s := absorb (padded.length / 64) State.initial padded
  Bytes.hex ([s.a, s.b, s.c, s.d, s.e].flatMap fun w => Bytes.bigEndian 4 w.toNat)

end Turnstile.Digest.Sha1
