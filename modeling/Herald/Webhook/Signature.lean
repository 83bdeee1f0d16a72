import Herald.Digest.Hmac
import Herald.Text.Hex

/-!
How a delivery shows that its sender knows the shared secret: by a keyed digest of the body, written
`sha256=` and hexadecimal digits, or by the secret token itself.
-/

namespace Herald.Webhook.Signature

def scheme : List Char := "sha256=".toList

def parseHeader (header : String) : Option (List UInt8) :=
  if scheme.isPrefixOf header.toList then
    Text.Hex.decodeList (header.toList.drop scheme.length)
  else none

def formatHeader (signature : List UInt8) : String :=
  String.ofList (scheme ++ Text.Hex.encodeList signature)

def compute (payload secret : List UInt8) : List UInt8 :=
  Digest.hmac secret payload

/-- Compares byte by byte without stopping at the first difference. Sequences of different lengths
differ. -/
def sameBytes (a b : List UInt8) : Bool :=
  a.length == b.length && (a.zipWith (· ^^^ ·) b).foldl (· ||| ·) 0 == 0

def verify (payload : List UInt8) (header : String) (secret : List UInt8) : Bool :=
  match parseHeader header with
  | some stated => sameBytes (compute payload secret) stated
  | none => false

def verifyToken (provided expected : String) : Bool :=
  sameBytes provided.toUTF8.toList expected.toUTF8.toList

end Herald.Webhook.Signature
