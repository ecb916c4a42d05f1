-- SUMMARY: Authentication challenges and blobs, and their verification.
import Mathlib.Data.BitVec

/-!
# Authentication blobs

Model of `auth.rs`: the challenge a node mints for a link, the blobs an adapter answers with,
and the checks a node makes before it forwards them to the visa service. Hashing, signing,
base64 and JSON are functions of other crates; they are the fields of `Primitives`, about
which nothing is assumed. A challenge that passes the hash check carries the node's own clock,
so that adding the age limit to it does not overflow.
-/

namespace ZprCore.Link

abbrev Bytes := List UInt8

abbrev AuthKey := Vector UInt8 32

abbrev Challenge := Vector UInt8 48

/-! ## Blobs -/

structure ZdpSelfSignedBlob where
  ts : Nat
  cn : String
  challenge : String
  sig : String
deriving DecidableEq

structure ZdpOidcBlob where
  issuer : String
  idToken : String
  challenge : String
deriving DecidableEq

inductive AuthBlob where
  | selfSigned (ssBlob : ZdpSelfSignedBlob)
  | oidc (oidcBlob : ZdpOidcBlob)
deriving DecidableEq

inductive AuthNamespace where
  | device
  | user
deriving DecidableEq

def AuthBlob.namespace : AuthBlob → AuthNamespace
  | .selfSigned _ => .device
  | .oidc _ => .user

structure NamespaceSet where
  device : Bool
  user : Bool
deriving DecidableEq

namespace NamespaceSet

def contains (s : NamespaceSet) : AuthNamespace → Bool
  | .device => s.device
  | .user => s.user

def len (s : NamespaceSet) : Nat := s.device.toNat + s.user.toNat

def deviceOnly : NamespaceSet := ⟨true, false⟩

def userOnly : NamespaceSet := ⟨false, true⟩

end NamespaceSet

def blobNamespaces (blobs : List AuthBlob) : NamespaceSet :=
  ⟨blobs.any (·.namespace == .device), blobs.any (·.namespace == .user)⟩

def firstOidc (blobs : List AuthBlob) : Option ZdpOidcBlob :=
  blobs.findSome? fun
    | .oidc oidcBlob => some oidcBlob
    | .selfSigned _ => none

def firstSelfSigned (blobs : List AuthBlob) : Option ZdpSelfSignedBlob :=
  blobs.findSome? fun
    | .selfSigned ssBlob => some ssBlob
    | .oidc _ => none

structure OidcIdpInfo where
  issuer : String
  clientId : String
  clientSecret : Option String
  scopes : List String
  allowOfflineAccess : Bool
deriving DecidableEq

/-! ## Functions of other crates -/

/-- What is read of the `blob_type` field of a JSON object. -/
structure BlobType where
  asStr : Option String
  debug : String

/-- What is read of a JSON value, with the two conversions that `serde_json` makes of it. -/
structure BlobValue where
  blobType : Option BlobType
  selfSigned : Except String ZdpSelfSignedBlob
  oidc : Except String ZdpOidcBlob
  display : String

inductive JsonValue where
  | array (items : List BlobValue)
  | other (obj : BlobValue)

structure Primitives where
  /-- blake3 keyed by an authentication key, over the nonce and the creation time -/
  keyedHash : AuthKey → Vector UInt8 8 → BitVec 64 → Vector UInt8 32
  base64Decode : String → Except String Bytes
  base64Encode : Bytes → String
  jsonFromSlice : Bytes → Except String JsonValue
  /-- base64 over the JSON text of a blob -/
  encodeBlob : ZdpSelfSignedBlob → String
  /-- base64 over the JSON array of some blobs -/
  encodeBlobs : List AuthBlob → String
  /-- base64url over the SHA-256 of a challenge -/
  oidcNonceForChallenge : Challenge → String
  /-- the bootstrap key's signature of a timestamp, a common name and a challenge -/
  signRsaKey : Nat → String → Challenge → Bytes
  /-- the `Debug` text of a duration in nanoseconds -/
  debugDuration : Nat → String

/-! ## Challenges -/

structure ZdpInitAuthenticationPayload where
  nonce : Vector UInt8 8
  ctime : BitVec 64
  hmac : Vector UInt8 32
deriving DecidableEq

def toBeBytes (n : BitVec 64) : Vector UInt8 8 :=
  Vector.ofFn fun i => UInt8.ofNat (n.toNat / 256 ^ (7 - i.val))

def fromBeBytes (bytes : Vector UInt8 8) : BitVec 64 :=
  BitVec.ofNat 64 (bytes.toList.foldl (fun n b => n * 256 + b.toNat) 0)

namespace ZdpInitAuthenticationPayload

/-- The raw challenge: nonce, creation time and hash. -/
def challenge (p : ZdpInitAuthenticationPayload) : Challenge := p.nonce ++ toBeBytes p.ctime ++ p.hmac

def readFromBytes (bytes : Bytes) : Option ZdpInitAuthenticationPayload :=
  if h : bytes.length = 48 then
    some
      { nonce := Vector.ofFn fun i => bytes.get ⟨i.val, by omega⟩
        ctime := fromBeBytes (Vector.ofFn fun i => bytes.get ⟨8 + i.val, by omega⟩)
        hmac := Vector.ofFn fun i => bytes.get ⟨16 + i.val, by omega⟩ }
  else none

/-- A fresh challenge under `key`, with `nonce` the random bytes drawn for it. -/
def new (prim : Primitives) (key : AuthKey) (now : Nat) (nonce : Vector UInt8 8) :
    ZdpInitAuthenticationPayload :=
  let ctime := BitVec.ofNat 64 now
  { nonce, ctime, hmac := prim.keyedHash key nonce ctime }

end ZdpInitAuthenticationPayload

inductive AuthError where
  | decodeError (text : String)
  | serializationError (text : String)
  | formatError (text : String)
  | invalidHmac
  | challengeTooOld
deriving DecidableEq

def AuthError.display : AuthError → String
  | .decodeError text => s!"Invalid Base64: {text}"
  | .serializationError text => s!"Serialization Error: {text}"
  | .formatError text => s!"Format error: {text}"
  | .invalidHmac => "Invalid HMAC"
  | .challengeTooOld => "Challenge Too Old"

def maxBlobAgeSeconds : Nat := 120

def maxOidcBlobAgeSeconds : Nat := 330

section Verification

variable (prim : Primitives)

def verifyChallengeBytes (payloadBytes : Bytes) (key : AuthKey) (maxAgeSeconds now : Nat) :
    Except AuthError Unit :=
  match ZdpInitAuthenticationPayload.readFromBytes payloadBytes with
  | none => .error (.formatError "challenge size is incorrect")
  | some zpayload =>
    if prim.keyedHash key zpayload.nonce zpayload.ctime ≠ zpayload.hmac then .error .invalidHmac
    else if now > zpayload.ctime.toNat + maxAgeSeconds then .error .challengeTooOld
    else .ok ()

/-- The bytes of a base64 text, as `BASE64_STANDARD.decode(..)?` reads them. -/
def decodeBase64 (text : String) : Except AuthError Bytes :=
  match prim.base64Decode text with
  | .ok bytes => .ok bytes
  | .error e => .error (.decodeError e)

/-- The two lines that both kinds of blob end their check with. -/
def verifyEncodedChallenge (challenge : String) (key : AuthKey) (maxAgeSeconds now : Nat) :
    Except AuthError Unit :=
  match decodeBase64 prim challenge with
  | .error e => .error e
  | .ok payloadBytes => verifyChallengeBytes prim payloadBytes key maxAgeSeconds now

/-- The certificate a peer presented when the link was keyed. -/
structure Certificate where
  commonName : Option String
  /-- the DER encoding of the subject, if it can be encoded -/
  subjectDer : Option Bytes
deriving DecidableEq

def ZdpSelfSignedBlob.verifyBlobChallenge (blob : ZdpSelfSignedBlob)
    (peerCert : Option Certificate) (key : AuthKey) (maxAgeSeconds now : Nat) :
    Except AuthError Unit :=
  match peerCert with
  | none => verifyEncodedChallenge prim blob.challenge key maxAgeSeconds now
  | some cert =>
    match cert.commonName with
    | none => .error (.formatError "no CN in peer cert")
    | some linkCn =>
      if linkCn ≠ blob.cn then
        .error (.formatError s!"CN mismatch: expected {linkCn} found {blob.cn}")
      else verifyEncodedChallenge prim blob.challenge key maxAgeSeconds now

def ZdpOidcBlob.verifyChallenge (blob : ZdpOidcBlob) (key : AuthKey) (now : Nat) :
    Except AuthError Unit :=
  verifyEncodedChallenge prim blob.challenge key maxOidcBlobAgeSeconds now

def AuthBlob.challenge : AuthBlob → String
  | .selfSigned ssBlob => ssBlob.challenge
  | .oidc oidcBlob => oidcBlob.challenge

/-- The challenge of a blob was hashed under `key`. -/
def AuthBlob.Verified (blob : AuthBlob) (key : AuthKey) : Prop :=
  ∃ bytes zpayload, prim.base64Decode blob.challenge = .ok bytes ∧
    ZdpInitAuthenticationPayload.readFromBytes bytes = some zpayload ∧
    prim.keyedHash key zpayload.nonce zpayload.ctime = zpayload.hmac

def hashedUnder (challenge : String) (key : AuthKey) : Bool :=
  match prim.base64Decode challenge with
  | .error _ => false
  | .ok bytes =>
    (ZdpInitAuthenticationPayload.readFromBytes bytes).any fun zpayload =>
      prim.keyedHash key zpayload.nonce zpayload.ctime = zpayload.hmac

theorem AuthBlob.verified_iff (blob : AuthBlob) (key : AuthKey) :
    blob.Verified prim key ↔ hashedUnder prim blob.challenge key := by
  unfold Verified hashedUnder
  cases prim.base64Decode blob.challenge with
  | error e => simp
  | ok bytes => simp [Option.any_eq_true]

instance (blob : AuthBlob) (key : AuthKey) : Decidable (blob.Verified prim key) :=
  decidable_of_iff _ (blob.verified_iff prim key).symm

variable {prim} {key : AuthKey} {now maxAge : Nat}

theorem verifyChallengeBytes_ok {payloadBytes : Bytes}
    (h : verifyChallengeBytes prim payloadBytes key maxAge now = .ok ()) :
    ∃ zpayload, ZdpInitAuthenticationPayload.readFromBytes payloadBytes = some zpayload ∧
      prim.keyedHash key zpayload.nonce zpayload.ctime = zpayload.hmac := by
  unfold verifyChallengeBytes at h
  split at h
  · cases h
  next zpayload hread =>
  split at h
  · cases h
  · next hhash => exact ⟨zpayload, hread, not_not.mp hhash⟩

theorem AuthBlob.verified_of_challenge {blob : AuthBlob}
    (h : verifyEncodedChallenge prim blob.challenge key maxAge now = .ok ()) :
    blob.Verified prim key := by
  unfold verifyEncodedChallenge decodeBase64 at h
  cases hdec : prim.base64Decode blob.challenge with
  | error e =>
    rw [hdec] at h
    cases h
  | ok bytes =>
    rw [hdec] at h
    obtain ⟨zpayload, hread, hhash⟩ := verifyChallengeBytes_ok h
    exact ⟨bytes, zpayload, hdec, hread, hhash⟩

theorem ZdpSelfSignedBlob.verified {blob : ZdpSelfSignedBlob} {peerCert : Option Certificate}
    (h : blob.verifyBlobChallenge prim peerCert key maxAge now = .ok ()) :
    (AuthBlob.selfSigned blob).Verified prim key := by
  unfold verifyBlobChallenge at h
  cases peerCert with
  | none => exact AuthBlob.verified_of_challenge h
  | some cert =>
    simp only at h
    split at h
    · cases h
    · split at h
      · cases h
      · exact AuthBlob.verified_of_challenge h

theorem ZdpOidcBlob.verified {blob : ZdpOidcBlob} (h : blob.verifyChallenge prim key now = .ok ()) :
    (AuthBlob.oidc blob).Verified prim key :=
  AuthBlob.verified_of_challenge h

end Verification

/-! ## Decoding and signing -/

def decodeBlobValue (jobj : BlobValue) : Except AuthError AuthBlob :=
  match jobj.blobType with
  | none => .error (.formatError s!"missing blob_type field in blob: {jobj.display}")
  | some blobType =>
    match blobType.asStr with
    | some "SS" =>
      match jobj.selfSigned with
      | .ok ssBlob => .ok (.selfSigned ssBlob)
      | .error e => .error (.serializationError e)
    | some "OIDC" =>
      match jobj.oidc with
      | .ok oidcBlob => .ok (.oidc oidcBlob)
      | .error e => .error (.serializationError e)
    | _ => .error (.formatError s!"unknown blob_type: {blobType.debug}")

/-- An empty array is refused: every accepted request carries authentication material. -/
def decodeBlobs (prim : Primitives) (blobStr : String) : Except AuthError (List AuthBlob) :=
  match decodeBase64 prim blobStr with
  | .error e => .error e
  | .ok jsonTxt =>
    match prim.jsonFromSlice jsonTxt with
    | .error e => .error (.serializationError e)
    | .ok (.array []) => .error (.formatError "empty blob array")
    | .ok (.array items) => items.mapM decodeBlobValue
    | .ok (.other obj) => (decodeBlobValue obj).map fun blob => [blob]

/-- The bootstrap key of an adapter, known by its common name. -/
structure RsaBootstrapAuth where
  cn : String
deriving DecidableEq

def RsaBootstrapAuth.authenticateBlob (prim : Primitives) (bs : RsaBootstrapAuth) (now : Nat)
    (payload : ZdpInitAuthenticationPayload) : ZdpSelfSignedBlob :=
  { ts := now
    cn := bs.cn
    challenge := prim.base64Encode payload.challenge.toList
    sig := prim.base64Encode (prim.signRsaKey now bs.cn payload.challenge) }

end ZprCore.Link
