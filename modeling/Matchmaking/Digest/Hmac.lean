import Matchmaking.Digest.Sha256
/-! Message authentication codes by HMAC over SHA-256. -/
namespace Matchmaking
namespace Digest

def blockSize : Nat := 64

/-- A key of exactly one block: a long key is digested first, a short one filled up with zeros. -/
def blockKey (key : List UInt8) : List UInt8 :=
  let key := if blockSize < key.length then sha256 key else key
  key ++ List.replicate (blockSize - key.length) 0

def hmacSha256 (key message : List UInt8) : List UInt8 :=
  let key := blockKey key
  sha256 (key.map (· ^^^ 0x5c) ++ sha256 (key.map (· ^^^ 0x36) ++ message))

end Digest
end Matchmaking
