-- SUMMARY: Security associations and the certificates of peers.
import Mathlib.Data.List.Basic

/-!
# Security associations

What a key manager hands over to the link and to the fast path when the keys of a link are
established. The codec is a parameter: a finished handshake for the key manager, and whatever a
cipher works with for the fast path. The library's certificates are a parameter as well.
-/

namespace ZprCore.Km

abbrev HmacKey := Vector UInt8 32

structure ZPIPair where
  encr : UInt8
  hmac : UInt8
deriving DecidableEq

inductive PeerCertificate (Cert : Type) where
  | verified (cert : Cert)
  | unverified (cert : Cert)
deriving DecidableEq

namespace PeerCertificate

variable {Cert : Type}

def getCert : PeerCertificate Cert → Cert
  | verified cert => cert
  | unverified cert => cert

def isVerified : PeerCertificate Cert → Bool
  | verified _ => true
  | unverified _ => false

end PeerCertificate

structure KmTransportSA (Codec Cert : Type) where
  /-- 0 until the key manager has given the association a number -/
  saId : Nat
  recvZpis : ZPIPair
  sendZpis : ZPIPair
  sendHmacKey : HmacKey
  recvHmacKey : HmacKey
  codec : Codec
  peerCert : Option (PeerCertificate Cert)
deriving DecidableEq

end ZprCore.Km
