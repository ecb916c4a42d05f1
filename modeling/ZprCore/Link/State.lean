-- SUMMARY: States, events and data of a link.
import ZprCore.Link.Auth
import ZprCore.Mgmt.Process

/-!
# Link state

The data types of `link_state.rs` and the operations of `LinkStateMachine` itself. Times and
durations are nanoseconds since the epoch. Fields that are only displayed (echo statistics,
latency samples, the time of the last state change) and the unused `timeout_count` are left
out. The handle of a task is the logical clock at which the task was spawned, and the channel
to an `AuthAgent` is a number.
-/

namespace ZprCore.Link

export Mgmt (LinkId linkIdUnknown)

/-! ## Addresses and codes -/

inductive IpAddr where
  | v4 (bits : BitVec 32)
  | v6 (bits : BitVec 128)
deriving DecidableEq

def IpAddr.unspecified : IpAddr := .v6 0

inductive TerminateReason where
  | other
  | unused1
  | requestTimedOut
  | reset
  | shutdown
  | unknown (code : UInt8)
deriving DecidableEq

/-- The `Debug` spelling that is part of a recorded failure. -/
def TerminateReason.debug : TerminateReason → String
  | .other => "Other"
  | .unused1 => "Unused1"
  | .requestTimedOut => "RequestTimedOut"
  | .reset => "Reset"
  | .shutdown => "Shutdown"
  | .unknown code => s!"TerminateReason({code})"

inductive ResponseCode where
  | success
  | other
  | authFailed
  | policyDenied
  | authUnavailable
  | unknown (code : UInt8)
deriving DecidableEq

def ResponseCode.debug : ResponseCode → String
  | .success => "Success"
  | .other => "Other"
  | .authFailed => "AuthFailed"
  | .policyDenied => "PolicyDenied"
  | .authUnavailable => "AuthUnavailable"
  | .unknown code => s!"ResponseCode({code})"

inductive ErrorCode where
  | internal
  | invalidSignature
  | authError
  | paramError
  | policyDenied
  | temporarilyUnavailable
  | notFound
  | fail
  | quotaExceeded
  | other
deriving DecidableEq

/-! ## States and failures -/

inductive LinkState where
  | inactive
  | keying
  | helloing
  | disconnecting (reason : TerminateReason)
  | closing
  | resetting
  | active
  | registerAA
  | waitForInitAuth
  | waitForAcquireZprAddress
  | waitForUserAuth
  | error
deriving DecidableEq

def LinkState.debug : LinkState → String
  | .inactive => "Inactive"
  | .keying => "Keying"
  | .helloing => "Helloing"
  | .disconnecting reason => s!"Disconnecting({reason.debug})"
  | .closing => "Closing"
  | .resetting => "Resetting"
  | .active => "Active"
  | .registerAA => "RegisterAA"
  | .waitForInitAuth => "WaitForInitAuth"
  | .waitForAcquireZprAddress => "WaitForAcquireZprAddress"
  | .waitForUserAuth => "WaitForUserAuth"
  | .error => "Error"

inductive LinkType where
  | internal
  | adapterToNode
  | nodeToNode
  | nodeToAdapter
deriving DecidableEq

inductive LinkStatus where
  | up
  | down
deriving DecidableEq

inductive AuthFailureReason where
  | noAgent
  | userDeclined
  | interactionTimeout
  | idpUnreachable (text : String)
  | agentError (text : String)
  | visaServiceRejected (text : String)
  | policyDenied
  | authUnavailable
  | deviceBlobRejected
  | linkFailed (text : String)
  | grantedAddressMismatch (requested granted : List IpAddr)
  | activationFailed (text : String)
deriving DecidableEq

def AuthFailureReason.isActivationFailed : AuthFailureReason → Bool
  | .activationFailed _ => true
  | _ => false

inductive LinkStateError where
  | unexpectedTransition (state : LinkState) (event : String)
  | invalidOperation (text : String)
  | notFound (id : LinkId)
  | operationNotSupportedYet
deriving DecidableEq

/-- What a handler returns; `panic` where it unwraps a missing value. -/
inductive Result where
  | ok
  | err (e : LinkStateError)
  | panic
deriving DecidableEq

inductive RenewalStart where
  | accepted
  | coalesced
  | ignored
deriving DecidableEq

structure RenewalIdentity where
  idp : OidcIdpInfo
  nonce : String
deriving DecidableEq

inductive LinkEvent where
  | start
  | keyingDone
  | receivedHelloRequest
  | assignedAAA (addr : IpAddr)
  | receivedHelloResponse (code : ResponseCode) (aaaAddr : Option IpAddr)
      (oidcIdps : Option (List OidcIdpInfo))
  | receivedInitAuth (bootstrap : Bool) (challenge : Option ZdpInitAuthenticationPayload)
  | receivedInitAuthAck
  | receivedInitAuthTimeout
  | receivedRenewAuthRequest (challenge : ZdpInitAuthenticationPayload)
  | receivedRenewAuthResponse (challenge : Challenge) (result : Except ResponseCode String)
  | receivedAcquireZprAddressRequest (addrs : Option (List IpAddr)) (blob : String)
  | receivedGrantZprAddressRequest (result : Except ResponseCode (List IpAddr))
  | authenticationSuccess (blobs : List AuthBlob)
  | authenticationFailure (reason : AuthFailureReason)
  | receivedAuthorizeResponse (addr : IpAddr)
  | receivedAuthorizeFailure (code : ErrorCode) (msg : String)
  | receivedKeepAliveResponse
  | receivedTerminateLink (reason : TerminateReason)
  | receivedTerminateAck
  | receivedDisconnectAck
  | close (reason : TerminateReason)
  | closeDone
  | error
  | timeout (logicalClock : BitVec 64)

/-! ## Renewal times -/

def secs (n : Nat) : Nat := n * 10 ^ 9

def oidcUserInteractionTimeout : Nat := secs 300

def renewalAttemptTimeoutFloor : Nat := secs 5

def renewalLead (configured grantedLifetime : Nat) : Nat := min configured (grantedLifetime / 2)

/-- The lead is at most half the lifetime, so that the subtraction does not underflow. -/
def renewalDeadline (grantedAt authExpires configuredLead : Nat) : Nat :=
  authExpires - renewalLead configuredLead (authExpires - grantedAt)

def renewalAttemptTimeout (now authExpires : Nat) : Nat :=
  max renewalAttemptTimeoutFloor (min oidcUserInteractionTimeout ((authExpires - now) / 2))

/-! ## The state machine -/

structure InitAuthData where
  bootstrap : Bool
  challenge : Option ZdpInitAuthenticationPayload
deriving DecidableEq

structure LinkStateMachine where
  state : LinkState
  status : LinkStatus
  silent : Bool
  /-- on a node, the addresses assigned to the remote peer -/
  actorAddresses : List IpAddr
  /-- tells the timeouts of different states apart -/
  logicalClock : BitVec 64
  timeoutHandle : Option (BitVec 64)
  stowedInitAuth : Option InitAuthData
  /-- the outstanding echo, if any -/
  echoHandle : Option (BitVec 64)
  keepAliveMisses : Nat
  shuttingDown : Bool
deriving DecidableEq

namespace LinkStateMachine

def new : LinkStateMachine where
  state := .inactive
  status := .down
  silent := false
  actorAddresses := []
  logicalClock := 0
  timeoutHandle := none
  stowedInitAuth := none
  echoHandle := none
  keepAliveMisses := 0
  shuttingDown := false

def cancelTimeout (m : LinkStateMachine) : LinkStateMachine :=
  { m with timeoutHandle := none, logicalClock := m.logicalClock + 1 }

def setState (m : LinkStateMachine) (newState : LinkState) : LinkStateMachine :=
  { m with state := newState }.cancelTimeout

/-- The timeout task is tied to the logical clock after the increment. -/
def setTimeoutCallback (m : LinkStateMachine) : LinkStateMachine :=
  { m.cancelTimeout with timeoutHandle := some (m.logicalClock + 1) }

end LinkStateMachine

structure LinkData where
  /-- the AAA address assigned to this link, if any -/
  aaaAddress : Option IpAddr
  oidcIdps : Option (List OidcIdpInfo)
  authAgent : Option Nat
  lastAuthFailure : Option AuthFailureReason
  authExpires : Option Nat
  authRenewalDeadline : Option Nat
  renewalIdentity : Option RenewalIdentity
  authenticatedNamespaces : Option NamespaceSet
  renewalInFlight : Bool
  renewalChallenge : Option Challenge
  /-- the challenge that the waiting renewal task of an adapter answers -/
  adapterRenewalTask : Option Challenge
  renewalNoAgentWarned : Bool
deriving DecidableEq

namespace LinkData

def new : LinkData where
  aaaAddress := none
  oidcIdps := none
  authAgent := none
  lastAuthFailure := none
  authExpires := none
  authRenewalDeadline := none
  renewalIdentity := none
  authenticatedNamespaces := none
  renewalInFlight := false
  renewalChallenge := none
  adapterRenewalTask := none
  renewalNoAgentWarned := false

def setAuthExpires (d : LinkData) (grantedAt authExpires configuredLead : Nat) : LinkData :=
  { d with
    authExpires := some authExpires
    authRenewalDeadline := some (renewalDeadline grantedAt authExpires configuredLead)
    renewalInFlight := false
    renewalNoAgentWarned := false }

/-- The stashed challenge is taken only by the attempt it was minted for. -/
def takeRenewalChallengeIf (d : LinkData) (challenge : Challenge) : Bool × LinkData :=
  if d.renewalChallenge = some challenge then (true, { d with renewalChallenge := none })
  else (false, d)

end LinkData

end ZprCore.Link
