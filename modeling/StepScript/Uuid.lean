import StepScript.Digest.Sha1
import StepScript.Text.Ascii

/-!
Universally unique identifiers of 128 bits.

An identifier is written as thirty-two small hexadecimal digits in groups of 8, 4, 4, 4 and 12. It is
read in that form, without hyphens, in braces, or after `urn:uuid:`, with letters of either case. An
identifier can also be derived from a name, so that the same name always gives the same one.
-/

namespace StepScript

open Text

structure Uuid where
  bits : BitVec 128
  deriving DecidableEq

namespace Uuid

/-- The hexadecimal digits of the lowest `count` places of a number. -/
def hexDigits : (count : Nat) → Nat → List Char
  | 0, _ => []
  | count + 1, n => hexDigit (n / 16 ^ count % 16) :: hexDigits count n

def digits (id : Uuid) : List Char :=
  hexDigits 32 id.bits.toNat

/-- Digits in groups of 8, 4, 4, 4 and the rest, with hyphens between. -/
def hyphenate (ds : List Char) : List Char :=
  ds.take 8 ++ '-' :: (ds.drop 8).take 4 ++ '-' :: (ds.drop 12).take 4 ++
    '-' :: (ds.drop 16).take 4 ++ '-' :: ds.drop 20

def text (id : Uuid) : String :=
  String.ofList (hyphenate id.digits)

def ofDigits? (ds : List Char) : Option Uuid :=
  if ds.length = 32 then (numeral? 16 ds).map fun n => ⟨BitVec.ofNat 128 n⟩ else none

def ofHyphenated? (cs : List Char) : Option Uuid :=
  let ds := cs.take 8 ++ (cs.drop 9).take 4 ++ (cs.drop 14).take 4 ++ (cs.drop 19).take 4 ++ cs.drop 24
  if cs.length = 36 ∧ hyphenate ds = cs then ofDigits? ds else none

/-- The identifier that a text stands for, in any of the four forms. -/
def parse? (s : String) : Option Uuid :=
  let cs := s.toList
  if cs.length = 32 then ofDigits? cs
  else if cs.length = 36 then ofHyphenated? cs
  else if cs.length = 38 ∧ cs.head? = some '\x7b' ∧ cs.getLast? = some '\x7d' then
    ofHyphenated? (cs.drop 1).dropLast
  else if cs.length = 45 ∧ cs.take 9 = "urn:uuid:".toList then ofHyphenated? (cs.drop 9)
  else none

/-- The name space of object identifiers. -/
def objectNamespace : Uuid :=
  ⟨0x6ba7b8129dad11d180b400c04fd430c8⟩

/-- The identifier of sixteen bytes, with the marks of one derived from a name by SHA-1. -/
def ofDigest (bytes : List UInt8) : Uuid :=
  let n := (bytes.take 16).foldl (fun n b => n * 256 + b.toNat) 0
  let unmarked := BitVec.ofNat 128 n &&& 0xFFFFFFFFFFFF0FFF3FFFFFFFFFFFFFFF#128
  ⟨unmarked ||| 0x50008000000000000000#128⟩

/-- The identifier derived from a name in a name space. -/
def ofName (space : Uuid) (name : String) : Uuid :=
  ofDigest (Digest.Sha1.digest (Digest.Sha1.bytesOf 16 space.bits.toNat ++ name.toUTF8.toList))

end Uuid

end StepScript
