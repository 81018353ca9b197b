/-!
# Text digests

The 64-bit FNV-1a digest: each byte is combined with the digest so far by
exclusive or, and the result is multiplied by a fixed prime modulo `2 ^ 64`.
-/

namespace Monkey.Text.Digest

/-- The digest of no bytes. -/
def basis : UInt64 := 0xcbf29ce484222325

/-- The prime that spreads a byte over the digest. -/
def prime : UInt64 := 0x100000001b3

/-- Adds a byte to a digest. -/
def step (digest : UInt64) (byte : UInt8) : UInt64 :=
  (digest ^^^ byte.toUInt64) * prime

/-- The digest of a sequence of bytes. -/
def ofBytes (bytes : List UInt8) : UInt64 :=
  bytes.foldl step basis

/-- The digest of a text, taken over its UTF-8 bytes. -/
def ofString (text : String) : UInt64 :=
  ofBytes text.toUTF8.data.toList

theorem ofBytes_append (front back : List UInt8) :
    ofBytes (front ++ back) = back.foldl step (ofBytes front) := by
  simp [ofBytes, List.foldl_append]

end Monkey.Text.Digest
