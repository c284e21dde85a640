import Cerberus.Foundation.Bytes

namespace Cerberus.Security

open Foundation.Bytes

structure CryptoBridge where
  sha256 : ByteString → ByteString
  hmacSha256 : ByteString → ByteString → ByteString

variable (d : CryptoBridge)

/-- A request to a library that is missing gives the empty vector. -/
def CryptoBridge.askSha256 (up : Bool) (data : ByteString) : ByteString :=
  if up then d.sha256 data else []

def CryptoBridge.askHmacSha256 (up : Bool) (key message : ByteString) : ByteString :=
  if up then d.hmacSha256 key message else []

/-- No two strings have the same digest, and no hash is empty. -/
structure CryptoBridge.Ideal (d : CryptoBridge) : Prop where
  sha256_injective : Function.Injective d.sha256
  sha256_ne_nil : ∀ data, d.sha256 data ≠ []
  hmac_injective : ∀ message, Function.Injective (fun key ↦ d.hmacSha256 key message)

def CryptoBridge.Sized (d : CryptoBridge) : Prop :=
  ∀ key message, (d.hmacSha256 key message).length = 32

end Cerberus.Security
