import Mathlib.Data.List.Basic

/-!
# Bytes, digests and their text

A buffer is a list of bytes and a SHA-256 output a vector of 32. The hash functions themselves are
parameters (`Crypto`): no statement depends on which bytes they answer with. The text of a digest
is its unpadded base64url, and a string that goes into a hash is ASCII.
-/

namespace Limitmark.Defense

abbrev Digest := Vector UInt8 32

/-- The hash functions of the platform. -/
structure Crypto where
  hmacSha256 : (key message : List UInt8) → Digest
  sha256 : (message : List UInt8) → Digest

/-- The unsigned 32-bit integer at an offset, least significant byte first. -/
def readUInt32LE (d : Digest) (offset : ℕ) (h : offset + 3 < 32) : UInt32 :=
  d[offset].toUInt32 ||| d[offset + 1].toUInt32 <<< 8 ||| d[offset + 2].toUInt32 <<< 16 |||
    d[offset + 3].toUInt32 <<< 24

/-- The bytes of an ASCII string. -/
def asciiBytes (s : String) : List UInt8 := s.toList.map fun c => c.toNat.toUInt8

theorem length_asciiBytes (s : String) : (asciiBytes s).length = s.length := by
  rw [asciiBytes, List.length_map, String.length_toList]

def BASE64URL_ALPHABET : List Char :=
  "ABCDEFGHIJKLMNOPQRSTUVWXYZabcdefghijklmnopqrstuvwxyz0123456789-_".toList

def isBase64url (c : Char) : Bool := BASE64URL_ALPHABET.contains c

/-- The character of a six-bit group. -/
def sextet (n : ℕ) : Char := BASE64URL_ALPHABET.getD (n % 64) 'A'

/-- Unpadded base64url. -/
def base64urlChars : List UInt8 → List Char
  | [] => []
  | [a] => [sextet (a.toNat / 4), sextet (a.toNat * 16)]
  | [a, b] =>
    [sextet (a.toNat / 4), sextet (a.toNat * 16 + b.toNat / 16), sextet (b.toNat * 4)]
  | a :: b :: c :: rest =>
    sextet (a.toNat / 4) :: sextet (a.toNat * 16 + b.toNat / 16) ::
      sextet (b.toNat * 4 + c.toNat / 64) :: sextet c.toNat :: base64urlChars rest

def base64url (bytes : List UInt8) : String := String.ofList (base64urlChars bytes)

/-- `digest.toString("base64url")`. -/
def digestBase64url (d : Digest) : String := base64url d.toList

end Limitmark.Defense
