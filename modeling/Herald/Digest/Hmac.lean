import Herald.Digest.Sha256

/-!
The keyed digest HMAC-SHA-256: a digest within a digest, with the secret mixed into both.
-/

namespace Herald.Digest

/-- The secret as one block: a long one is digested first, a short one filled up with zeros. -/
def secretBlock (secret : List UInt8) : List UInt8 :=
  let short := if secret.length ≤ 64 then secret else Sha256.digest secret
  short ++ List.replicate (64 - short.length) 0

def hmac (secret message : List UInt8) : List UInt8 :=
  let block := secretBlock secret
  let inner := Sha256.digest (block.map (· ^^^ 0x36) ++ message)
  Sha256.digest (block.map (· ^^^ 0x5c) ++ inner)

end Herald.Digest
