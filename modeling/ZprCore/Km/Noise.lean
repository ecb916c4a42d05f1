-- SUMMARY: The Noise key manager of a link.
import ZprCore.Km.Association
import ZprCore.Lib.Run

/-!
# The Noise key manager

Two peers run a Noise handshake of three messages (pattern `XX`). The second and the third message
carry a payload: the ZPIs and the HMAC key the receiver is to use, and possibly a certificate. What
the key manager takes from a payload it keeps outside of the handshake, and a reset does not clear
all of it, so that a security association could be put together from two handshakes.

The handshake itself is that of the crate `snow`, and certificates are those of `x509_cert`; both are
parameters here. How long a handshake may take and how a message is encrypted afterwards is left out.
-/

namespace ZprCore.Km

abbrev Bytes := List UInt8

/-! ## Handshakes and certificates -/

/-- `snow::HandshakeState`. A function that fails may have changed the handshake. -/
structure Snow (HS T : Type) where
  /-- from the local private key and what the generator of ephemeral keys yields -/
  buildInitiator : Bytes → Nat → Except String HS
  buildResponder : Bytes → Nat → Except String HS
  /-- writes a message with a payload -/
  writeMessage : HS → Bytes → HS × Option Bytes
  /-- reads a message and returns its payload -/
  readMessage : HS → Bytes → HS × Option Bytes
  getRemoteStatic : HS → Option Bytes
  isHandshakeFinished : HS → Bool
  intoStatelessTransportMode : HS → Option T
  /-- the payloads of all the messages that the handshake has read, which the code does not see -/
  received : HS → List Bytes

/-- A handshake knows the payloads that were sent to it and no others, and once it knows the static
    key of the remote peer, it is that key. -/
structure Snow.Laws {HS T : Type} (snow : Snow HS T) : Prop where
  read_received : ∀ {hs hs' msg payload}, snow.readMessage hs msg = (hs', some payload) →
    snow.received hs' = snow.received hs ++ [payload]
  write_received : ∀ hs payload, snow.received (snow.writeMessage hs payload).1 = snow.received hs
  read_remoteStatic : ∀ {hs hs' msg payload key}, snow.readMessage hs msg = (hs', some payload) →
    snow.getRemoteStatic hs = some key → snow.getRemoteStatic hs' = some key
  write_remoteStatic : ∀ {hs key} (payload), snow.getRemoteStatic hs = some key →
    snow.getRemoteStatic (snow.writeMessage hs payload).1 = some key

structure Pki (Cert : Type) where
  fromDer : Bytes → Option Cert
  toDer : Cert → Option Bytes
  /-- the raw bytes of the subject's public key -/
  publicKey : Cert → Bytes
  /-- the signature of a certificate against the key of another; `none` if that cannot be told -/
  verify : Cert → Cert → Option Bool

inductive CertExchangeError where
  | certificateFormatError
  | certificateParseError
  | shortPayloadError
  | keyMismatchError
deriving DecidableEq

structure KmCertExchange (Cert : Type) where
  localCert : Option Cert
  authorityCert : Option Cert

variable {Cert HS T : Type}

namespace KmCertExchange

variable (pki : Pki Cert)

def writePayload (certx : KmCertExchange Cert) : Except CertExchangeError Bytes :=
  match certx.localCert with
  | none => .ok [0, 0]
  | some cert =>
    match pki.toDer cert with
    | none => .error .certificateFormatError
    | some certDer =>
      if certDer.length > 65535 then .error .certificateFormatError
      else .ok (.ofNat (certDer.length / 256) :: .ofNat certDer.length :: certDer)

/-- The authority, if there is one, has signed the certificate. -/
def isVerified (certx : KmCertExchange Cert) (cert : Cert) : Bool :=
  match certx.authorityCert with
  | some authority => pki.verify cert authority == some true
  | none => false

/-- A certificate that cannot be verified is not refused here, one for another key is. -/
def processPayload (certx : KmCertExchange Cert) (payload : Bytes) (expectedPeerPublicKey : Bytes) :
    Except CertExchangeError (Option (PeerCertificate Cert)) :=
  match payload with
  | hi :: lo :: rest =>
    let certLen := hi.toNat * 256 + lo.toNat
    if certLen = 0 then .ok none
    else if rest.length < certLen then .error .shortPayloadError
    else
      match pki.fromDer (rest.take certLen) with
      | none => .error .certificateParseError
      | some cert =>
        if pki.publicKey cert ≠ expectedPeerPublicKey then .error .keyMismatchError
        else .ok (some (if certx.isVerified pki cert then .verified cert else .unverified cert))
  | _ => .error .shortPayloadError

def requiresVerification (certx : KmCertExchange Cert) : Bool := certx.authorityCert.isSome

end KmCertExchange

/-! ## The state machine -/

/-- The fixed part of a payload. -/
structure KeyMsg where
  zpis : ZPIPair
  hmacKey : HmacKey
deriving DecidableEq

namespace KeyMsg

def size : Nat := 34

def parse (payload : Bytes) : Option KeyMsg :=
  if h : size ≤ payload.length then
    some
      { zpis := ⟨payload.get ⟨0, by unfold size at h; omega⟩, payload.get ⟨1, by unfold size at h; omega⟩⟩
        hmacKey := Vector.ofFn fun i => payload.get ⟨i.val + 2, by unfold size at h; omega⟩ }
  else none

def asBytes (km : KeyMsg) : Bytes := km.zpis.encr :: km.zpis.hmac :: km.hmacKey.toList

end KeyMsg

inductive KmId where
  | noise
  | null
  | other (id : Nat)
deriving DecidableEq

inductive Codec (T : Type) where
  | noiseCodec (t : T)
  | nullCodec

def KmId.codec {T : Type} (t : T) : KmId → Option (Codec T)
  | noise => some (.noiseCodec t)
  | null => some .nullCodec
  | other _ => none

/-- An association with the handshake that was finished, which the code does not keep. -/
structure NoiseSA (HS T Cert : Type) extends KmTransportSA (Codec T) Cert where
  handshake : HS

inductive KmSMState (HS T Cert : Type) where
  | configuring
  | transport (sa : NoiseSA HS T Cert)
  | error

inductive KmError where
  | invalidState
  | handshakeError
  | certExchangeError
  | machineError (text : String)
deriving DecidableEq

/-- What is given when a key manager is created. -/
structure KmConfig (Cert : Type) where
  initiate : Bool
  verifyCert : Bool
  localPrivateKey : Bytes
  recvZpis : ZPIPair
  certx : KmCertExchange Cert

structure KmNoise (HS T Cert : Type) where
  config : KmConfig Cert
  state : KmSMState HS T Cert
  /-- which message in the handshake is next to send or receive -/
  msgNr : UInt8
  /-- when a message was sent that is not answered -/
  hsSentT : Option Nat
  hsState : Option HS
  recvHmacKey : HmacKey
  sendHmacKey : Option HmacKey
  sendZpis : Option ZPIPair
  peerCert : Option (PeerCertificate Cert)

def msgCarriesZpiPayload (msgNr : UInt8) : Bool := msgNr == 1 || msgNr == 2

def handshakeTimeout : Nat := 15 * 1000000000

namespace KmNoise

def new (config : KmConfig Cert) : KmNoise HS T Cert where
  config
  state := .configuring
  msgNr := 0
  hsSentT := none
  hsState := none
  recvHmacKey := Vector.replicate 32 0
  sendHmacKey := none
  sendZpis := none
  peerCert := none

def fail (m : KmNoise HS T Cert) (e : KmError) : KmNoise HS T Cert × Except KmError (Option Bytes) :=
  ({ m with state := .error }, .error e)

variable (snow : Snow HS T) (pki : Pki Cert)

/-- The payload of the message that is written next. -/
def hsPayload (m : KmNoise HS T Cert) : Except KmError Bytes :=
  if msgCarriesZpiPayload m.msgNr then
    match m.config.certx.writePayload pki with
    | .error _ => .error .certExchangeError
    | .ok cert => .ok (KeyMsg.asBytes ⟨m.config.recvZpis, m.recvHmacKey⟩ ++ cert)
  else .ok []

def createHsMessage (m : KmNoise HS T Cert) (hs : HS) : KmNoise HS T Cert × HS × Except KmError Bytes :=
  match m.hsPayload pki with
  | .error e => (m, hs, .error e)
  | .ok payload =>
    match snow.writeMessage hs payload with
    | (hs, none) => (m, hs, .error .handshakeError)
    | (hs, some msg) => ({ m with msgNr := m.msgNr + 1 }, hs, .ok msg)

/-- The ZPIs and the key are stored before the certificate is looked at. -/
def parseKmPayload (m : KmNoise HS T Cert) (payload peerPublicKey : Bytes) :
    KmNoise HS T Cert × Except KmError Unit :=
  match KeyMsg.parse payload with
  | none => (m, .error .handshakeError)
  | some km =>
    let m := { m with sendZpis := some km.zpis, sendHmacKey := some km.hmacKey }
    match m.config.certx.processPayload pki (payload.drop KeyMsg.size) peerPublicKey with
    | .error _ => (m, .error .certExchangeError)
    | .ok peerCert => ({ m with peerCert }, .ok ())

/-- A handshake is started anew. The name of the pattern is a constant that `snow` knows. -/
def reset (m : KmNoise HS T Cert) (hmacKey : HmacKey) (seed now : Nat) :
    KmNoise HS T Cert × Except KmError (Option Bytes) :=
  let m := { m with state := .configuring, msgNr := 0, recvHmacKey := hmacKey, sendHmacKey := none }
  if m.config.initiate then
    match snow.buildInitiator m.config.localPrivateKey seed with
    | .error e => m.fail (.machineError s!"failed to build initiator: {e}")
    | .ok initiator =>
      match m.createHsMessage snow pki initiator with
      | (m, _, .error _) => m.fail .handshakeError
      | (m, initiator, .ok hsMsg) =>
        ({ m with hsState := some initiator, hsSentT := some now }, .ok (some hsMsg))
  else
    match snow.buildResponder m.config.localPrivateKey seed with
    | .error e => m.fail (.machineError s!"failed to build responder: {e}")
    | .ok responder => ({ m with hsState := some responder, hsSentT := none }, .ok none)

/-- The certificate that was received is to be verified and is not. -/
def isUnverified (m : KmNoise HS T Cert) : Bool :=
  m.config.verifyCert && m.config.certx.requiresVerification && !m.peerCert.any (·.isVerified)

def receivePayload (m : KmNoise HS T Cert) (hs : HS) (payload : Bytes) :
    KmNoise HS T Cert × Except KmError Unit :=
  let msgNr := m.msgNr
  let m := { m with msgNr := msgNr + 1 }
  if msgCarriesZpiPayload msgNr then
    match snow.getRemoteStatic hs with
    | none => (m, .error .certExchangeError)
    | some peerPubkey =>
      match m.parseKmPayload pki payload peerPubkey with
      | (m, .error _) => (m, .error .handshakeError)
      | (m, .ok ()) => if m.isUnverified then (m, .error .certExchangeError) else (m, .ok ())
  else (m, .ok ())

/-- The handshake is finished. An unknown implementation leaves the machine without a handshake in
    `Configuring`. -/
def finish (m : KmNoise HS T Cert) (hs : HS) (kmImpl : KmId) (hsMsg : Option Bytes) :
    KmNoise HS T Cert × Except KmError (Option Bytes) :=
  match m.sendZpis, m.sendHmacKey, snow.intoStatelessTransportMode hs with
  | some sendZpis, some sendHmacKey, some t =>
    match kmImpl.codec t with
    | none => (m, .error .handshakeError)
    | some codec =>
      let sa :=
        { saId := 0, sendZpis, recvZpis := m.config.recvZpis, sendHmacKey
          recvHmacKey := m.recvHmacKey, codec, peerCert := m.peerCert, handshake := hs }
      ({ m with state := .transport sa }, .ok hsMsg)
  | _, _, _ => m.fail .handshakeError

/-- The message is answered, unless it was the last one. -/
def proceed (m : KmNoise HS T Cert) (hs : HS) (kmImpl : KmId) (now : Nat) :
    KmNoise HS T Cert × Except KmError (Option Bytes) :=
  if snow.isHandshakeFinished hs then m.finish snow hs kmImpl none
  else
    match m.createHsMessage snow pki hs with
    | (m, hs, .error _) => { m with hsState := some hs }.fail .handshakeError
    | (m, hs, .ok hsMsg) =>
      let m := { m with hsSentT := some now }
      if snow.isHandshakeFinished hs then m.finish snow hs kmImpl (some hsMsg)
      else ({ m with hsState := some hs }, .ok (some hsMsg))

/-- There is no result where the source asserts that there is a handshake. -/
def handleMessage (m : KmNoise HS T Cert) (message : Bytes) (kmImpl : KmId) (now : Nat) :
    Option (KmNoise HS T Cert × Except KmError (Option Bytes)) :=
  match m.state with
  | .configuring =>
    match m.hsState with
    | none => none
    | some hs =>
      let m := { m with hsSentT := none, hsState := none }
      match snow.readMessage hs message with
      | (hs, none) => some ({ m with hsState := some hs }.fail .handshakeError)
      | (hs, some payload) =>
        match m.receivePayload snow pki hs payload with
        | (m, .error e) => some ({ m with hsState := some hs }.fail e)
        | (m, .ok ()) => some (m.proceed snow pki hs kmImpl now)
  | _ => some (m, .error .invalidState)

def tick (m : KmNoise HS T Cert) (now : Nat) : KmNoise HS T Cert × Except KmError (Option Bytes) :=
  match m.state, m.hsState, m.hsSentT with
  | .configuring, some _, some sent =>
    if now - sent > handshakeTimeout then
      { m with hsState := none, hsSentT := none }.fail .handshakeError
    else (m, .ok none)
  | _, _, _ => (m, .ok none)

end KmNoise

inductive KmAction where
  | reset (hmacKey : HmacKey) (seed now : Nat)
  | tick (now : Nat)
  | message (message : Bytes) (kmImpl : KmId) (now : Nat)

def KmNoise.step {HS T Cert : Type} (snow : Snow HS T) (pki : Pki Cert) (m : KmNoise HS T Cert) :
    KmAction → Option (KmNoise HS T Cert)
  | .reset hmacKey seed now => some (m.reset snow pki hmacKey seed now).1
  | .tick now => some (m.tick now).1
  | .message message kmImpl now => (m.handleMessage snow pki message kmImpl now).map Prod.fst

/-! ## What a payload is bound to -/

section Sound

variable {snow : Snow HS T} {pki : Pki Cert} {payload key : Bytes} {certx : KmCertExchange Cert}
  {cert : PeerCertificate Cert} {config : KmConfig Cert} {hs : HS}

section

variable (h : certx.processPayload pki payload key = .ok (some cert))

include h

theorem KmCertExchange.processPayload_eq_some :
    ∃ c, pki.publicKey c = key ∧
      cert = if certx.isVerified pki c then .verified c else .unverified c := by
  unfold processPayload at h
  split at h
  · dsimp only at h
    split at h
    · cases h
    split at h
    · cases h
    split at h
    · cases h
    next c _ =>
    split at h
    · cases h
    · next hkey => exact ⟨c, not_not.mp hkey, (Option.some.inj (Except.ok.inj h)).symm⟩
  · cases h

theorem KmCertExchange.publicKey_of_processPayload : pki.publicKey cert.getCert = key := by
  obtain ⟨c, hkey, rfl⟩ := processPayload_eq_some h
  split <;> exact hkey

theorem KmCertExchange.verify_of_processPayload (hverified : cert.isVerified = true)
    {authority : Cert} (hauthority : certx.authorityCert = some authority) :
    ∃ c, cert = .verified c ∧ pki.verify c authority = some true := by
  obtain ⟨c, -, rfl⟩ := processPayload_eq_some h
  split at hverified
  · next hc =>
    refine ⟨c, if_pos hc, ?_⟩
    simpa only [isVerified, hauthority, beq_iff_eq] using hc
  · cases hverified

end

variable (snow pki) in
/-- The ZPIs, the key and the certificate are those of one payload that the handshake has received,
    and the certificate was checked as it had to be. -/
structure Bound (config : KmConfig Cert) (hs : HS) (zpis : ZPIPair) (hmacKey : HmacKey)
    (cert : Option (PeerCertificate Cert)) : Prop where
  payload : ∃ payload ∈ snow.received hs, KeyMsg.parse payload = some ⟨zpis, hmacKey⟩ ∧
    ∃ key, snow.getRemoteStatic hs = some key ∧
      config.certx.processPayload pki (payload.drop KeyMsg.size) key = .ok cert
  verified : config.verifyCert = true → config.certx.requiresVerification = true →
    cert.any (·.isVerified) = true

namespace Bound

variable {zpis : ZPIPair} {hmacKey : HmacKey} {cert : Option (PeerCertificate Cert)}

theorem write (laws : snow.Laws) (hb : Bound snow pki config hs zpis hmacKey cert) (msg : Bytes) :
    Bound snow pki config (snow.writeMessage hs msg).1 zpis hmacKey cert := by
  obtain ⟨payload, hmem, hparse, key, hkey, hcert⟩ := hb.payload
  refine ⟨⟨payload, ?_, hparse, key, laws.write_remoteStatic msg hkey, hcert⟩, hb.verified⟩
  rw [laws.write_received]
  exact hmem

theorem read (laws : snow.Laws) (hb : Bound snow pki config hs zpis hmacKey cert) {hs' : HS}
    {msg : Bytes} (hread : snow.readMessage hs msg = (hs', some payload)) :
    Bound snow pki config hs' zpis hmacKey cert := by
  obtain ⟨payload', hmem, hparse, key, hkey, hcert⟩ := hb.payload
  refine ⟨⟨payload', ?_, hparse, key, laws.read_remoteStatic hread hkey, hcert⟩, hb.verified⟩
  rw [laws.read_received hread]
  exact List.mem_append_left _ hmem

end Bound

namespace KmNoise

variable {m m' : KmNoise HS T Cert} {hs' : HS}

variable (snow pki) in
/-- What the machine has stored is bound to the handshake `hs`. The key tells whether anything was
    stored, since a reset clears the key and leaves the ZPIs and the certificate. -/
def BoundTo (m : KmNoise HS T Cert) (hs : HS) : Prop :=
  ∀ key ∈ m.sendHmacKey, ∃ zpis ∈ m.sendZpis, Bound snow pki m.config hs zpis key m.peerCert

variable (snow pki) {r : Except KmError Unit} in
structure Sound (config : KmConfig Cert) (m : KmNoise HS T Cert) : Prop where
  configured : m.config = config
  handshake : m.state = .configuring → ∀ hs ∈ m.hsState, m.BoundTo snow pki hs
  association : ∀ sa, m.state = .transport sa →
    (∃ t kmImpl, snow.intoStatelessTransportMode sa.handshake = some t ∧
      KmId.codec t kmImpl = some sa.codec) ∧
    Bound snow pki config sa.handshake sa.sendZpis sa.sendHmacKey sa.peerCert

theorem sound_fail (hconfig : m.config = config) (e : KmError) :
    Sound snow pki config (m.fail e).1 :=
  ⟨hconfig, nofun, nofun⟩

theorem createHsMessage_spec (laws : snow.Laws) {r : Except KmError Bytes}
    (h : m.createHsMessage snow pki hs = (m', hs', r)) :
    (∃ n, m' = { m with msgNr := n }) ∧ (m.BoundTo snow pki hs → m'.BoundTo snow pki hs') := by
  unfold createHsMessage at h
  split at h
  · cases h
    exact ⟨⟨_, rfl⟩, id⟩
  next payload _ =>
  have hbound : m.BoundTo snow pki hs → m.BoundTo snow pki (snow.writeMessage hs payload).1 := by
    intro hm key hkey
    obtain ⟨zpis, hzpis, hb⟩ := hm key hkey
    exact ⟨zpis, hzpis, hb.write laws payload⟩
  split at h
  all_goals next hwrite =>
    rw [hwrite] at hbound
    cases h
    exact ⟨⟨_, rfl⟩, hbound⟩

/-- A payload that is parsed replaces what was stored, and the certificate is the last of it. -/
theorem parseKmPayload_spec (hkey : snow.getRemoteStatic hs = some key)
    (hmem : payload ∈ snow.received hs) (h : m.parseKmPayload pki payload key = (m', r)) :
    m'.config = m.config ∧ m'.hsState = m.hsState ∧ m'.state = m.state ∧
      (r = .ok () → m'.isUnverified = false → m'.BoundTo snow pki hs) := by
  unfold parseKmPayload at h
  split at h
  · cases h
    exact ⟨rfl, rfl, rfl, nofun⟩
  next km hparse =>
  dsimp only at h
  split at h
  · cases h
    exact ⟨rfl, rfl, rfl, nofun⟩
  next cert hcert =>
  cases h
  refine ⟨rfl, rfl, rfl, fun _ hverified => ?_⟩
  rintro _ ⟨⟩
  refine ⟨km.zpis, rfl, ⟨payload, hmem, hparse, key, hkey, hcert⟩, fun hv hr => ?_⟩
  simpa [isUnverified, show m.config.verifyCert = true from hv, hr] using hverified

theorem receivePayload_spec (laws : snow.Laws) {msg : Bytes}
    (hread : snow.readMessage hs msg = (hs', some payload))
    (h : m.receivePayload snow pki hs' payload = (m', r)) :
    m'.config = m.config ∧ m'.hsState = m.hsState ∧ m'.state = m.state ∧
      (r = .ok () → m.BoundTo snow pki hs → m'.BoundTo snow pki hs') := by
  unfold receivePayload at h
  dsimp only at h
  split at h
  · split at h
    · cases h
      exact ⟨rfl, rfl, rfl, nofun⟩
    · next key hkey =>
      have hmem : payload ∈ snow.received hs' := by
        rw [laws.read_received hread]
        exact List.mem_append_right _ (List.mem_singleton.mpr rfl)
      split at h
      · next hparse =>
        obtain ⟨hc, hh, hs, -⟩ := parseKmPayload_spec hkey hmem hparse
        cases h
        exact ⟨hc, hh, hs, nofun⟩
      next hparse =>
      obtain ⟨hc, hh, hs, hbound⟩ := parseKmPayload_spec hkey hmem hparse
      split at h
      · cases h
        exact ⟨hc, hh, hs, nofun⟩
      · next hverified =>
        cases h
        exact ⟨hc, hh, hs, fun _ _ => hbound rfl (Bool.eq_false_iff.mpr hverified)⟩
  · cases h
    refine ⟨rfl, rfl, rfl, fun _ hm key hkey => ?_⟩
    obtain ⟨zpis, hzpis, hb⟩ := hm key hkey
    exact ⟨zpis, hzpis, hb.read laws hread⟩

/-! ## Every step keeps what is stored bound to one handshake -/

theorem sound_finish (hconfig : m.config = config) (hnone : m.hsState = none)
    (hstate : m.state = .configuring) (hbound : m.BoundTo snow pki hs) (kmImpl : KmId)
    (hsMsg : Option Bytes) : Sound snow pki config (m.finish snow hs kmImpl hsMsg).1 := by
  unfold finish
  split
  · next zpis key t hzpis hkey ht =>
    split
    · refine ⟨hconfig, fun _ hs' hhs => ?_, fun sa hsa => ?_⟩
      · rw [hnone] at hhs
        cases hhs
      · rw [hstate] at hsa
        cases hsa
    · next codec hcodec =>
      refine ⟨hconfig, nofun, ?_⟩
      rintro _ ⟨⟩
      obtain ⟨zpis', hzpis', hb⟩ := hbound key hkey
      cases hzpis.symm.trans hzpis'
      exact ⟨⟨t, kmImpl, ht, hcodec⟩, hconfig ▸ hb⟩
  · exact sound_fail (by exact hconfig) _

theorem sound_proceed (laws : snow.Laws) (hconfig : m.config = config) (hnone : m.hsState = none)
    (hstate : m.state = .configuring) (hbound : m.BoundTo snow pki hs) (kmImpl : KmId) (now : Nat) :
    Sound snow pki config (m.proceed snow pki hs kmImpl now).1 := by
  unfold proceed
  split
  · exact sound_finish hconfig hnone hstate hbound kmImpl none
  split
  · next hmsg =>
    obtain ⟨⟨_, rfl⟩, -⟩ := createHsMessage_spec laws hmsg
    exact sound_fail (by exact hconfig) _
  next hs' hsMsg hmsg =>
  obtain ⟨⟨_, rfl⟩, hbound'⟩ := createHsMessage_spec laws hmsg
  split
  · refine sound_finish ?_ ?_ ?_ ?_ kmImpl _
    exacts [hconfig, hnone, hstate, hbound' hbound]
  refine ⟨hconfig, ?_, fun sa hsa => ?_⟩
  · rintro _ _ ⟨⟩
    exact hbound' hbound
  · rw [hstate] at hsa
    cases hsa

theorem sound_handleMessage (laws : snow.Laws) (hm : m.Sound snow pki config) {message : Bytes}
    {kmImpl : KmId} {now : Nat} {r : Except KmError (Option Bytes)}
    (h : m.handleMessage snow pki message kmImpl now = some (m', r)) : m'.Sound snow pki config := by
  unfold handleMessage at h
  split at h
  · next hstate =>
    split at h
    · cases h
    next hs hhs =>
    dsimp only at h
    split at h
    · cases h
      exact sound_fail (by exact hm.configured) .handshakeError
    next hs' payload hread =>
    split at h
    · next e hpayload =>
      obtain ⟨hc, -⟩ := receivePayload_spec laws hread hpayload
      cases h
      exact sound_fail (by exact hc.trans hm.configured) e
    · next m₁ hpayload =>
      obtain ⟨hc, hh, hs, hbound⟩ := receivePayload_spec laws hread hpayload
      have hm₁ : Sound snow pki config (m₁.proceed snow pki hs' kmImpl now).1 :=
        sound_proceed laws (hc.trans hm.configured) hh (hs.trans hstate)
          (hbound rfl (hm.handshake hstate _ hhs)) kmImpl now
      rw [Option.some.inj h] at hm₁
      exact hm₁
  · cases h
    exact hm

/-- A new handshake starts with nothing stored. If it cannot be started, the handshake from before
    stays, and no message is read in it. -/
theorem sound_reset (laws : snow.Laws) (hm : m.Sound snow pki config) (hmacKey : HmacKey)
    (seed now : Nat) : Sound snow pki config (m.reset snow pki hmacKey seed now).1 := by
  unfold reset
  dsimp only
  split
  · split
    · exact sound_fail (by exact hm.configured) _
    · split
      · next hmsg =>
        obtain ⟨⟨_, rfl⟩, -⟩ := createHsMessage_spec laws hmsg
        exact sound_fail (by exact hm.configured) _
      · next hmsg =>
        obtain ⟨⟨_, rfl⟩, -⟩ := createHsMessage_spec laws hmsg
        exact ⟨hm.configured, fun _ _ _ _ => nofun, nofun⟩
  · split
    · exact sound_fail (by exact hm.configured) _
    · exact ⟨hm.configured, fun _ _ _ _ => nofun, nofun⟩

theorem sound_tick (hm : m.Sound snow pki config) (now : Nat) :
    Sound snow pki config (m.tick now).1 := by
  unfold tick
  split
  · split
    · exact sound_fail (by exact hm.configured) _
    · exact hm
  · exact hm

theorem sound_step (laws : snow.Laws) (hm : m.Sound snow pki config) {a : KmAction}
    (h : m.step snow pki a = some m') : m'.Sound snow pki config := by
  cases a with
  | reset hmacKey seed now =>
    cases h
    exact sound_reset laws hm hmacKey seed now
  | tick now =>
    cases h
    exact sound_tick hm now
  | message message kmImpl now =>
    obtain ⟨⟨m', r⟩, hmessage, rfl⟩ := Option.map_eq_some_iff.mp h
    exact sound_handleMessage laws hm hmessage

theorem sound_of_run (laws : snow.Laws)
    (hrun : Run (step snow pki) (· = new config) (fun _ _ => True) m) : m.Sound snow pki config := by
  refine hrun.invariant (P := Sound snow pki config) ?_ fun _ _ _ hm _ h => sound_step laws hm h
  rintro _ rfl
  exact ⟨rfl, nofun, nofun⟩

/-- In every run, a security association is made of one payload of the handshake its codec is from,
    and a certificate in it is one for the remote static key of that handshake. If the key manager
    verifies certificates, as that of an adapter's link does, and knows an authority, the authority has
    signed the certificate. No message changes the association. -/
theorem association_of_one_handshake (laws : snow.Laws)
    (hrun : Run (step snow pki) (· = new config) (fun _ _ => True) m)
    {sa : NoiseSA HS T Cert} (hsa : m.state = .transport sa) :
    (∃ t kmImpl, snow.intoStatelessTransportMode sa.handshake = some t ∧
      KmId.codec t kmImpl = some sa.codec) ∧
    (∃ payload ∈ snow.received sa.handshake,
      KeyMsg.parse payload = some ⟨sa.sendZpis, sa.sendHmacKey⟩ ∧
      ∃ key, snow.getRemoteStatic sa.handshake = some key ∧
        config.certx.processPayload pki (payload.drop KeyMsg.size) key = .ok sa.peerCert ∧
        ∀ cert ∈ sa.peerCert, pki.publicKey cert.getCert = key) ∧
    (config.verifyCert = true → ∀ authority ∈ config.certx.authorityCert,
      ∃ cert, sa.peerCert = some (.verified cert) ∧ pki.verify cert authority = some true) ∧
    ∀ message kmImpl now, m.step snow pki (.message message kmImpl now) = some m := by
  obtain ⟨hcodec, hb⟩ := (sound_of_run laws hrun).association sa hsa
  obtain ⟨payload, hmem, hparse, key, hkey, hcert⟩ := hb.payload
  refine ⟨hcodec, ⟨payload, hmem, hparse, key, hkey, hcert, fun cert hpeer => ?_⟩,
    fun hverify authority hauthority => ?_, fun message kmImpl now => ?_⟩
  · rw [Option.mem_def.mp hpeer] at hcert
    exact KmCertExchange.publicKey_of_processPayload hcert
  · have hrequires : config.certx.requiresVerification = true := by
      rw [KmCertExchange.requiresVerification, Option.mem_def.mp hauthority]
      rfl
    obtain ⟨cert, hpeer, hverified⟩ := (Option.any_eq_true _ _).mp (hb.verified hverify hrequires)
    rw [hpeer] at hcert
    obtain ⟨c, rfl, hsigned⟩ := KmCertExchange.verify_of_processPayload hcert hverified hauthority
    exact ⟨c, hpeer, hsigned⟩
  · simp only [step, handleMessage, hsa, Option.map_some]

end KmNoise

end Sound

/-- A handshake that shows the static key in the first byte of a message and hides nothing. -/
structure SampleHandshake where
  messages : Nat
  received : List Bytes
  remoteStatic : Option Bytes

def sampleSnow : Snow SampleHandshake Unit where
  buildInitiator _ _ := .ok ⟨0, [], none⟩
  buildResponder _ _ := .ok ⟨0, [], none⟩
  writeMessage hs payload := (⟨hs.messages + 1, hs.received, hs.remoteStatic⟩, some (9 :: payload))
  readMessage
    | hs, [] => (hs, none)
    | hs, key :: payload =>
      (⟨hs.messages + 1, hs.received ++ [payload], hs.remoteStatic.or (some [key])⟩, some payload)
  getRemoteStatic := SampleHandshake.remoteStatic
  isHandshakeFinished hs := hs.messages == 3
  intoStatelessTransportMode _ := some ()
  received := SampleHandshake.received

theorem sampleSnow_laws : sampleSnow.Laws where
  read_received := by
    rintro hs _ (_ | ⟨key, payload⟩) _ ⟨⟩
    rfl
  write_received _ _ := rfl
  read_remoteStatic := by
    rintro hs _ (_ | ⟨key, payload⟩) _ _ ⟨⟩ hkey
    exact congrArg (Option.or · _) hkey
  write_remoteStatic _ h := h

/-- A certificate is its public key, and every authority has signed the one for 7. -/
def samplePki : Pki Bytes where
  fromDer der := some der
  toDer cert := some cert
  publicKey cert := cert
  verify cert _ := some (cert == [7])

def sampleConfig : KmConfig Bytes where
  initiate := true
  verifyCert := true
  localPrivateKey := [1]
  recvZpis := ⟨3, 4⟩
  certx := ⟨none, some [8]⟩

def sampleAnswer (key zpi : UInt8) : Bytes :=
  key :: zpi :: zpi :: List.replicate 32 zpi ++ [0, 1, key]

/-- The certificate of the first peer is not verified, and the ZPIs it sent are still stored when the
    second handshake is finished. -/
theorem association_of_second_handshake :
    ∃ m sa, Run (KmNoise.step sampleSnow samplePki) (· = .new sampleConfig) (fun _ _ => True) m ∧
      m.state = .transport sa ∧ sa.sendZpis = ⟨6, 6⟩ ∧
      sa.peerCert = some (.verified [7]) ∧ samplePki.verify [7] [8] = some true ∧
      m.step sampleSnow samplePki (.message (sampleAnswer 5 2) .noise 3) = some m := by
  obtain ⟨m, hrun, hm⟩ : ∃ m, Run (KmNoise.step sampleSnow samplePki) (· = .new sampleConfig)
      (fun _ _ => True) m ∧ (match m.state with
        | .transport sa => decide (sa.sendZpis = ⟨6, 6⟩)
        | _ => false) = true :=
    Run.reaches rfl [.reset (Vector.replicate 32 1) 0 0, .message (sampleAnswer 5 5) .noise 1,
      .reset (Vector.replicate 32 2) 1 2, .message (sampleAnswer 7 6) .noise 3] (by decide +kernel)
  split at hm
  · next sa hsa =>
    obtain ⟨-, -, hverified, hkept⟩ :=
      KmNoise.association_of_one_handshake sampleSnow_laws hrun hsa
    obtain ⟨cert, hcert, hverify⟩ := hverified rfl [8] rfl
    have hseven : cert = [7] := by
      simpa [samplePki] using hverify
    subst hseven
    exact ⟨m, sa, hrun, hsa, of_decide_eq_true hm, hcert, hverify, hkept _ _ _⟩
  · cases hm

end ZprCore.Km
