-- SUMMARY: The dispatch of management packets, and which packets are parsed without a panic.
import ZprCore.Wire.Messages

/-!
# Dispatch of management packets

`dispatch_mgmt_packet_with_link` of `mgmt/dispatch.rs`, followed by `handle_packet` for a packet
that it puts into the queue of the link. What ZDP-R says about a sequence number, and whether
there is room in the queue, is left open.
-/

namespace ZprCore.Wire

open ZprCore.Flow (byteAt u16At)
open Fastpath (ZdpPacketType readBaseHeader)
open Scanner

inductive ManagementCounterType where
  | badStructure
  | peerRemoved
  | queueBackpressure
  | otherError
deriving DecidableEq

/-- What becomes of a packet with a sequence number that was not seen to be a control packet. -/
inductive Admission where
  | queued
  | full
  | notProcessed
deriving DecidableEq

abbrev SeqNum := BitVec 64

inductive Dispatched where
  | counted (event : ManagementCounterType)
  /-- `handle_inbound_km_msg` -/
  | keyManagement (msg : Bytes)
  | acknowledgement (seqNum : SeqNum) (isCanceled : Bool)
  | cancel (seqNum : SeqNum)
  | queued (seqNum : SeqNum)
  | notProcessed (seqNum : SeqNum)
deriving DecidableEq

def handleKeyManagement (cx : Context) (b : Bytes) : Dispatched :=
  if b.length < 4 then .counted .badStructure
  else if cx.kmMismatch (u16At b 0) then .counted .otherError
  else
    let msg := b.drop 4
    let kmMsgLen := (u16At b 2).toNat
    if msg.length < kmMsgLen then .counted .badStructure else .keyManagement (msg.take kmMsgLen)

/-- A control packet of ZDP-R, which has nothing but a sequence number. -/
def handleControl (cx : Context) (b : Bytes) (control : SeqNum → Dispatched) : Dispatched :=
  if b.length < 8 then .counted .badStructure
  else if cx.linkType.isNone then .counted .peerRemoved
  else control (.ofNat 64 (beNat (b.take 8)))

/-- `dispatch_mgmt_packet_with_link`; `none` is a panic -/
def dispatchMgmtPacketWithLink (cx : Context) (admission : SeqNum → Admission) (pkt : Bytes) :
    Option Dispatched :=
  match readBaseHeader pkt with
  | none => some (.counted .badStructure)
  | some (packetType, rest) =>
    if packetType = .keyManagement then some (handleKeyManagement cx rest)
    else if packetType = .acknowledgement then
      some (handleControl cx rest (.acknowledgement · false))
    else if packetType = .cancel then some (handleControl cx rest .cancel)
    else if packetType = .canceled then some (handleControl cx rest (.acknowledgement · true))
    -- the management header is unwrapped
    else if rest.length < 8 then none
    else if cx.linkType.isNone then some (.counted .peerRemoved)
    else
      let seqNum : SeqNum := .ofNat 64 (beNat (rest.take 8))
      match admission seqNum with
      | .queued => some (.queued seqNum)
      | .full => some (.counted .queueBackpressure)
      | .notProcessed => some (.notProcessed seqNum)

inductive Outcome where
  | dispatched (d : Dispatched)
  | handled (h : Handled)
  | refused (e : HandleMgmtError)

/-- A packet is dispatched in one state of the process and the link, and handled in a later one;
    `none` is a panic. -/
def receiveMgmtPacket (cx cx' : Context) (admission : SeqNum → Admission) (pkt : Bytes) : Option Outcome :=
  (dispatchMgmtPacketWithLink cx admission pkt).bind fun
    | .queued _ =>
      match handlePacket cx' pkt with
      | .ok h _ => some (.handled h)
      | .error e => some (.refused e)
      | .panic => none
    | d => some (.dispatched d)

/-! ## Handlers that do not panic -/

section

variable {cx : Context} {packetType : ZdpPacketType} {stream : StreamId}
  {len dataLen addrCount : Nat}

theorem safe_readText : Safe (readText len) := by
  intro b
  simp [readText]

theorem safe_readPayload : Safe (readPayload dataLen) :=
  .bind .ensure fun _ => .bind .remaining fun _ => .bind .ensure fun _ =>
    .bind .read fun _ => .pure

theorem safe_handleInitAuthenticationRequest : Safe handleInitAuthenticationRequest :=
  .bind .read fun _ => .ite
    (fun _ => .bind .ensure fun _ => .bind safe_readPayload fun _ => .pure)
    fun _ => .pure

theorem safe_handleRenewAuthenticationRequest : Safe handleRenewAuthenticationRequest :=
  .bind .read fun _ => .bind safe_readPayload fun _ => .pure

theorem safe_handleRenewAuthenticationResponse : Safe handleRenewAuthenticationResponse :=
  .bind .read fun _ => .ite (fun _ => .bind safe_readText fun _ => .pure) fun _ => .pure

theorem safe_parseFromBuf {crates : Crates} : Safe (parseFromBuf crates) := fun b =>
  wp_mono (wp_parseFromBuf b) fun _ _ _ => trivial

theorem safe_handleHelloRequest : Safe (handleHelloRequest cx) :=
  .bind .ensure fun _ => .bind safe_parseFromBuf fun _ => .bind .ensure fun _ =>
    .bind .ensure fun _ => .pure

theorem safe_logFirst {tlvData : TlvData} {tlvType : TlvType} : Safe (logFirst tlvData tlvType) := by
  intro b
  unfold logFirst
  cases tlvData.values tlvType <;> simp

theorem safe_parseAaa {values : List TlvValue} : Safe (parseAaa values) := by
  unfold parseAaa
  split
  · exact .pure
  · exact .pure
  · exact .pure
  · exact .fail

theorem safe_handleHelloResponse : Safe (handleHelloResponse cx) :=
  .bind .read fun _ => .bind safe_parseFromBuf fun _ => .bind safe_logFirst fun _ =>
    .bind safe_logFirst fun _ => .bind .ensure fun _ => .bind safe_parseAaa fun _ =>
      .bind .ensure fun _ => .pure

/-- The version of the addresses has been checked before the first of them is read. -/
theorem safe_readAddresses {ipVersion : Flow.L3Type} :
    Safe (readAddresses ipVersion addrCount) := by
  cases ipVersion with
  | ipv4 | ipv6 =>
    exact .bind .orFail fun _ => .bind .remaining fun _ => .bind .ensure fun _ =>
      .times (.bind .read fun _ => .pure)
  | other code => exact fun _ => trivial

theorem safe_handleAcquireZprAddressRequest : Safe (handleAcquireZprAddressRequest cx) :=
  .bind .read fun _ => .bind safe_readText fun _ => .ite
    (fun _ => .bind safe_readAddresses fun _ => .pure) fun _ => .pure

theorem safe_handleGrantZprAddressRequest : Safe (handleGrantZprAddressRequest cx) :=
  .bind .read fun _ => .ite (fun _ => .pure) fun _ =>
    .bind safe_readAddresses fun _ => .bind .ensure fun _ => .pure

theorem safe_fromPeer {peerType : PeerType} {handled : Handled} : Safe (fromPeer cx peerType handled) :=
  .ite (fun _ => .pure) fun _ => .bind .ensure fun _ => .pure

theorem safe_readPeerKey : Safe readPeerKey := by
  intro b
  unfold readPeerKey
  simp only [wp_bind, wp_remaining, wp_ensure, wp_get, decide_eq_true_eq]
  intro hlen
  refine ⟨hlen, ?_⟩
  exact Safe.ite (fun _ => .pure) (fun _ => .bind .remaining fun _ => .bind .ensure fun _ =>
    .bind .ensure fun _ => .bind .body fun _ => .pure) _

theorem safe_readTether : Safe (readTether cx) :=
  .bind .read fun _ => .bind .ensure fun _ => .bind safe_deserializeTc fun _ =>
    .bind safe_readPeerKey fun _ => .pure

theorem safe_handleResponse {txn : TxnId} {onSuccess : Reader Handled} {onOther : String → Handled}
    (h : Safe onSuccess) : Safe (handleResponse cx txn onSuccess onOther) := by
  refine .bind (.bind .ensure fun _ => .ensure) fun _ => .bind .read fun hdr => ?_
  split
  · exact h
  · exact .bind (.bind .body fun _ => .bind .ensure fun _ => .orFail) fun _ => .pure
  · exact .fail

theorem safe_handleUnbindIndication : Safe (handleUnbindIndication cx stream) := by
  refine .ite (fun _ => .pure) fun _ => ?_
  split
  · exact .fail
  · exact .pure
  · exact .pure
  · exact .fail

theorem safe_handleStreamIdWithdrawal : Safe (handleStreamIdWithdrawal cx stream) := by
  refine .ite (fun _ => .pure) fun _ => ?_
  split
  · exact .fail
  · exact .pure
  · exact .fail

theorem safe_withTxn {handler : TxnId → Reader Handled} (h : ∀ txn, Safe (handler txn)) :
    Safe (withTxn handler) :=
  .bind .read fun _ => h _

theorem safe_handlePerFlow (h : packetType ≠ .transitPacket) :
    Safe (handlePerFlow cx packetType) := by
  refine .bind .read fun hdr => ?_
  rw [if_neg h]
  refine .ite (fun _ => safe_withTxn fun txn => ?_) fun _ => ?_
  · exact .bind .read fun _ => .bind .body fun _ => .bind .ensure fun _ => safe_fromPeer
  refine .ite (fun _ => safe_withTxn fun txn => ?_) fun _ => ?_
  · exact safe_handleResponse (.bind safe_readTether fun _ => .pure)
  refine .ite (fun _ => safe_withTxn fun txn => ?_) fun _ => ?_
  · exact .bind .read fun _ => safe_fromPeer
  refine .ite (fun _ => safe_withTxn fun txn => safe_handleResponse (.pure)) fun _ => ?_
  refine .ite (fun _ => safe_withTxn fun txn => ?_) fun _ => ?_
  · exact .bind safe_readTether fun _ => safe_fromPeer
  refine .ite (fun _ => safe_withTxn fun txn => safe_handleResponse (.pure)) fun _ => ?_
  refine .ite (fun _ => safe_handleUnbindIndication) fun _ => ?_
  exact .ite (fun _ => safe_handleStreamIdWithdrawal) fun _ => .fail

theorem safe_handleNotPerFlow (hreport : packetType ≠ .report) (hkm : packetType ≠ .keyManagement) :
    Safe (handleNotPerFlow cx packetType) := by
  unfold handleNotPerFlow
  rw [if_neg hreport]
  refine .ite (fun _ => .pure) fun _ => ?_
  rw [if_neg hkm]
  refine .ite (fun _ => .bind .read fun _ => .pure) fun _ => ?_
  refine .ite (fun _ => safe_handleHelloRequest) fun _ => ?_
  refine .ite (fun _ => safe_handleHelloResponse) fun _ => ?_
  refine .ite (fun _ => safe_handleInitAuthenticationRequest) fun _ => ?_
  refine .ite (fun _ => safe_handleRenewAuthenticationRequest) fun _ => ?_
  refine .ite (fun _ => safe_handleRenewAuthenticationResponse) fun _ => ?_
  refine .ite (fun _ => safe_handleAcquireZprAddressRequest) fun _ => ?_
  exact .ite (fun _ => safe_handleGrantZprAddressRequest) fun _ => .fail

end

/-! ## Packets that do not panic -/

/-- A report without room for a length, or with two more bytes and then either less text than it
    says, text that is not logged, or text that is UTF-8. -/
def reportReadable (cx : Context) (b : Bytes) : Bool :=
  b.length < 2 ||
    (4 ≤ b.length &&
      (!cx.logsReports || b.length - 4 < (u16At b 0).toNat ||
        (fromUtf8 ((b.drop 4).take (u16At b 0).toNat)).isSome))

/-- Packets that never come to a message handler. -/
def isControl (packetType : ZdpPacketType) : Bool :=
  packetType = .keyManagement || packetType = .acknowledgement || packetType = .cancel ||
    packetType = .canceled

/-- A packet without a whole base header; a control packet; or one with a whole management header
    that is not a report, or is a readable one, or is not put into the queue. -/
def parsable (cx cx' : Context) (admission : SeqNum → Admission) (pkt : Bytes) : Bool :=
  match readBaseHeader pkt with
  | none => true
  | some (packetType, rest) =>
    isControl packetType ||
      (8 ≤ rest.length &&
        (packetType ≠ .report || cx.linkType.isNone ||
          admission (.ofNat 64 (beNat (rest.take 8))) ≠ .queued || reportReadable cx' (rest.drop 8)))

section

variable {cx cx' : Context} {admission : SeqNum → Admission} {pkt rest : Bytes}
  {packetType : ZdpPacketType} {b : Bytes} {d : Dispatched}

theorem u16At_take (h : 2 ≤ b.length) : u16At (b.take 2) 0 = u16At b 0 := by
  match b with
  | x :: y :: rest => rfl

theorem wp_handleReport :
    wp (handleReport cx) (fun _ _ => True) b ↔ reportReadable cx b = true := by
  unfold handleReport reportReadable
  simp only [wp_bind, wp_read, wp_get, wp_body, wp_ite, wp_unwrap, wp_pure, List.length_drop,
    List.drop_drop, Bool.or_eq_true, Bool.and_eq_true, decide_eq_true_eq]
  by_cases hlen : 2 ≤ b.length
  · rw [u16At_take hlen]
    have hshort : ¬b.length < 2 := by omega
    simp only [hlen, hshort, true_implies, false_or, and_true]
    refine and_congr (by omega) ?_
    split
    · next hlog =>
      rw [or_iff_right, Option.isSome_iff_exists]
      simp only [hlog.2, Bool.not_true, Bool.false_eq_true, false_or, not_lt]
      exact hlog.1
    · next hlog =>
      refine iff_of_true trivial (.inl ?_)
      by_cases hlogs : cx.logsReports = true
      · exact .inr (Nat.lt_of_not_le fun hle => hlog ⟨hle, hlogs⟩)
      · exact .inl (by simp [hlogs])
  · omega

theorem handlePacket_cons (x : UInt8) (hlen : 8 ≤ rest.length) :
    handlePacket cx (packetType :: x :: rest) =
      if packetType.isPerFlow then handlePerFlow cx packetType (rest.drop 8)
      else handleNotPerFlow cx packetType (rest.drop 8) := by
  have hread : (Scanner.read 8 HandleMgmtError.badStructure : Reader Bytes) rest =
      .ok (rest.take 8) (rest.drop 8) := if_neg (Nat.not_lt.mpr hlen)
  change Scanner.bind (Scanner.read 8 HandleMgmtError.badStructure) _ rest = _
  rw [Scanner.bind, hread]
  change (if packetType.isPerFlow then _ else _ : Reader Handled) _ = _
  split <;> rfl

/-- The only message whose parsing can panic is a report. -/
theorem handlePacket_ne_panic_iff (htransit : packetType ≠ .transitPacket)
    (hkm : packetType ≠ .keyManagement) (x : UInt8) (hlen : 8 ≤ rest.length) :
    handlePacket cx (packetType :: x :: rest) ≠ .panic ↔
      (packetType ≠ .report ∨ reportReadable cx (rest.drop 8) = true) := by
  rw [handlePacket_cons x hlen]
  by_cases hreport : packetType = .report
  · subst hreport
    rw [if_neg (by decide), ← wp_handleReport, ne_panic_iff, or_iff_right (by simp)]
    exact Iff.rfl
  · refine iff_of_true ?_ (.inl hreport)
    split
    · exact ne_panic_iff.mpr (safe_handlePerFlow htransit _)
    · exact ne_panic_iff.mpr (safe_handleNotPerFlow hreport hkm _)

/-- The receiver was asked about the sequence number. -/
def Dispatched.isManaged : Dispatched → Bool
  | .queued _ | .notProcessed _ => true
  | _ => false

theorem isManaged_handleKeyManagement : (handleKeyManagement cx rest).isManaged = false := by
  fun_cases handleKeyManagement <;> rfl

theorem isManaged_handleControl {control : SeqNum → Dispatched} (h : ∀ n, (control n).isManaged = false) :
    (handleControl cx rest control).isManaged = false := by
  fun_cases handleControl with
  | case1 | case2 => rfl
  | case3 => exact h _

theorem receiveMgmtPacket_of_not_queued
    (hd : dispatchMgmtPacketWithLink cx admission pkt = some d) (hq : ∀ n, d ≠ .queued n) :
    receiveMgmtPacket cx cx' admission pkt = some (.dispatched d) := by
  rw [receiveMgmtPacket, hd]
  cases d with
  | queued n => exact absurd rfl (hq n)
  | _ => rfl

theorem receiveMgmtPacket_of_queued {n : SeqNum}
    (hd : dispatchMgmtPacketWithLink cx admission pkt = some (.queued n)) :
    (receiveMgmtPacket cx cx' admission pkt).isSome = true ↔ handlePacket cx' pkt ≠ .panic := by
  rw [receiveMgmtPacket, hd]
  cases handlePacket cx' pkt <;> simp

theorem dispatch_control (x : UInt8) (h : isControl packetType = true) :
    ∃ d, dispatchMgmtPacketWithLink cx admission (packetType :: x :: rest) = some d ∧
      d.isManaged = false := by
  simp only [isControl, Bool.or_eq_true, decide_eq_true_eq] at h
  obtain ((rfl | rfl) | rfl) | rfl := h
  · exact ⟨_, rfl, isManaged_handleKeyManagement⟩
  all_goals exact ⟨_, rfl, isManaged_handleControl fun _ => rfl⟩

/-- Behind the control packets, the management header is read unchecked. -/
theorem dispatch_not_control (x : UInt8) (h : isControl packetType = false) :
    dispatchMgmtPacketWithLink cx admission (packetType :: x :: rest) =
      if rest.length < 8 then none
      else if cx.linkType.isNone then some (.counted .peerRemoved)
      else match admission (.ofNat 64 (beNat (rest.take 8))) with
        | .queued => some (.queued (.ofNat 64 (beNat (rest.take 8))))
        | .full => some (.counted .queueBackpressure)
        | .notProcessed => some (.notProcessed (.ofNat 64 (beNat (rest.take 8)))) := by
  simp only [isControl, Bool.or_eq_false_iff, decide_eq_false_iff_not] at h
  obtain ⟨⟨⟨hkm, hack⟩, hcancel⟩, hcanceled⟩ := h
  simp only [dispatchMgmtPacketWithLink, readBaseHeader]
  rw [if_neg hkm, if_neg hack, if_neg hcancel, if_neg hcanceled]

theorem admission_of_dispatch (h : dispatchMgmtPacketWithLink cx admission pkt = some d) :
    (∀ n, d = .queued n → admission n = .queued) ∧
      ∀ n, d = .notProcessed n → admission n = .notProcessed := by
  match pkt, h with
  | [], h | [_], h =>
    cases h
    exact ⟨nofun, nofun⟩
  | packetType :: x :: rest, h =>
    cases hcontrol : isControl packetType with
    | true =>
      obtain ⟨d', hd, hno⟩ := @dispatch_control cx admission rest packetType x hcontrol
      cases h.symm.trans hd
      constructor <;> intro n hn <;> rw [hn] at hno <;> cases hno
    | false =>
      rw [dispatch_not_control x hcontrol] at h
      split at h
      · cases h
      split at h
      · cases h
        exact ⟨nofun, nofun⟩
      split at h
      · next ha =>
        cases h
        exact ⟨fun n hn => by cases hn; exact ha, nofun⟩
      · cases h
        exact ⟨nofun, nofun⟩
      · next ha =>
        cases h
        exact ⟨nofun, fun n hn => by cases hn; exact ha⟩

end

def sampleContext : Context where
  crates := {
    l3TypeSize := 1
    l3Type := fun _ => .ipv6
    tcstSize := 1
    isIp5Tuple := fun _ => false
    fromUtf8Lossy := fun _ => ""
    oidcIdpInfo := fun _ => none
    isVisa := fun _ => false }
  phMode := .node
  linkId := 5
  linkType := some .nodeToAdapter
  knownTxn := fun _ => false
  kmMismatch := fun _ => false
  logsReports := true

end ZprCore.Wire
