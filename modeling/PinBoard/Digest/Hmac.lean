import PinBoard.Digest.Sha256

/-!
# HMAC with SHA-256

The key is brought to the length of a block and mixed into two nested digests.
-/

namespace PinBoard.Digest

/-- The bytes of a block. -/
def blockLength : Nat := 64

/-- The key at the length of a block: a longer one is digested, a shorter one is filled up. -/
def blockKey (key : List UInt8) : List UInt8 :=
  let short := if blockLength < key.length then sha256 key else key
  short ++ List.replicate (blockLength - short.length) 0

/-- The code that authenticates a message under a key. -/
def hmac (key message : List UInt8) : List UInt8 :=
  let key := blockKey key
  sha256 (key.map (· ^^^ 0x5C) ++ sha256 (key.map (· ^^^ 0x36) ++ message))

end PinBoard.Digest
