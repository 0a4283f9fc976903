import Vlse.Label.Format
import Vlse.Oprf.Encoding
/-!
# Derived keys

`DomainHash` hashes a domain, a zero byte and an OPRF output; the first sixteen bytes of two such
digests are the query token, read in big-endian order, and the label key. LSE takes the last
sixteen bytes of the output itself. SHA-256 is any function of the bytes fed to it.
-/

namespace Vlse.Protocol

open ByteBits Vlse.Filter Label Oprf

/-- SHA-256 of the bytes of all updates in order. -/
abbrev Sha256 := List Byte → Bytes 32

/-- `TokenKeyPair`. -/
structure TokenKeyPair where
  /-- The query token. -/
  token : Token128
  /-- The label key. -/
  key : AeadKey128
deriving DecidableEq

/-- A default pair is zero. -/
instance : Inhabited TokenKeyPair := ⟨⟨0, Vector.replicate 16 0⟩⟩

/-- `DomainHash`. -/
def domainHash (sha256 : Sha256) (domain : String) (input : List Byte) : Bytes 32 :=
  sha256 (literalBytes domain ++ 0 :: input)

/-- `DeriveTokenAndKey`. -/
def deriveTokenAndKey (sha256 : Sha256) (output : OprfOutput) : TokenKeyPair :=
  let tokenDigest := domainHash sha256 "VLSE-H1-token-v1" output.toList
  let keyDigest := domainHash sha256 "VLSE-H2-key-v1" output.toList
  { token := (List.range 16).foldl
      (fun token i => (token <<< 8) ||| (byteAt tokenDigest i).setWidth 128) 0
    key := Vector.ofFn fun i => byteAt keyDigest i }

/-- `LseAesKey`: the least significant 128 bits of the big-endian encoding. -/
def lseAesKey (output : OprfOutput) : Bytes 16 :=
  Vector.ofFn fun i => byteAt output (groupElementBytes - 16 + i)

end Vlse.Protocol
