/-!
The SHA-1 digest of a list of bytes.

The message is padded to whole blocks of sixty-four bytes: a one bit, zeros, and its length in bits as
eight bytes. Each block is sixteen words, extended to eighty, and eighty rounds mix them into a state
of five words. The digest is the final state, twenty bytes.
-/

namespace StepScript.Digest.Sha1

def rotate (w : UInt32) (n : UInt32) : UInt32 :=
  (w <<< n) ||| (w >>> (32 - n))

/-- The five words that a block changes. -/
structure State where
  a : UInt32
  b : UInt32
  c : UInt32
  d : UInt32
  e : UInt32

def State.start : State :=
  ⟨0x67452301, 0xEFCDAB89, 0x98BADCFE, 0x10325476, 0xC3D2E1F0⟩

/-- The bytes of a number, most significant first. -/
def bytesOf : (count : Nat) → Nat → List UInt8
  | 0, _ => []
  | count + 1, n => (n / 256 ^ count % 256).toUInt8 :: bytesOf count n

/-- The word of four bytes, most significant first. -/
def wordOf (bytes : List UInt8) : UInt32 :=
  bytes.foldl (fun w b => (w <<< 8) ||| b.toUInt32) 0

/-- The first `count` pieces of a list, each of `size` elements. -/
def pieces {α : Type} (size : Nat) : (count : Nat) → List α → List (List α)
  | 0, _ => []
  | count + 1, xs => xs.take size :: pieces size count (xs.drop size)

def pad (message : List UInt8) : List UInt8 :=
  let zeros := (119 - message.length % 64) % 64
  message ++ 0x80 :: List.replicate zeros 0 ++ bytesOf 8 (8 * message.length)

/-- The next word of a schedule that is kept with its newest word first. -/
def nextWord (newest : List UInt32) : UInt32 :=
  rotate ((newest[2]?.getD 0) ^^^ (newest[7]?.getD 0) ^^^ (newest[13]?.getD 0) ^^^
    (newest[15]?.getD 0)) 1

/-- A schedule extended by a number of words, newest word first. -/
def extend : Nat → List UInt32 → List UInt32
  | 0, newest => newest
  | n + 1, newest => extend n (nextWord newest :: newest)

def schedule (block : List UInt8) : List UInt32 :=
  (extend 64 ((pieces 4 16 block).map wordOf).reverse).reverse

/-- The mixing function and the constant of a round. -/
def mixing (round : Nat) (b c d : UInt32) : UInt32 × UInt32 :=
  if round < 20 then ((b &&& c) ||| ((~~~b) &&& d), 0x5A827999)
  else if round < 40 then (b ^^^ c ^^^ d, 0x6ED9EBA1)
  else if round < 60 then ((b &&& c) ||| (b &&& d) ||| (c &&& d), 0x8F1BBCDC)
  else (b ^^^ c ^^^ d, 0xCA62C1D6)

def State.round (s : State) (round : Nat) (word : UInt32) : State :=
  let (f, k) := mixing round s.b s.c s.d
  ⟨rotate s.a 5 + f + s.e + k + word, s.a, rotate s.b 30, s.c, s.d⟩

def State.absorb (s : State) (block : List UInt8) : State :=
  let t := (schedule block).zipIdx.foldl (fun t (word, round) => t.round round word) s
  ⟨s.a + t.a, s.b + t.b, s.c + t.c, s.d + t.d, s.e + t.e⟩

def digest (message : List UInt8) : List UInt8 :=
  let padded := pad message
  let s := (pieces 64 (padded.length / 64) padded).foldl State.absorb .start
  [s.a, s.b, s.c, s.d, s.e].flatMap fun w => bytesOf 4 w.toNat

end StepScript.Digest.Sha1
