-- SUMMARY: When at most one renewal of a link is under way.
import ZprCore.Link.Credentials
import ZprCore.Link.Renewal

/-!
# Renewal attempts

An attempt to renew the credentials of a link is unresolved while its challenge is outstanding or one
of its tasks has not ended. As long as no expiry is recorded on a link in the middle of an attempt, the
mark `renewal_in_flight` is set exactly while an attempt is unresolved, and there is never more than
one. Such an attempt is in one of three phases, and the last challenge that was issued is the one that
its blobs answer.
-/

namespace ZprCore.Link

open Node

/-! ## Phases of an attempt -/

/-- The renewal of a link and the tasks of its attempt. `issued` is known of an outstanding challenge,
    and `accepted` of blobs that are about to be submitted. -/
inductive Phase (issued : Challenge → Prop) (accepted : List VsBlob → Prop) :
    Bool × Option Challenge → List Work → Prop where
  | idle : Phase issued accepted (false, none) []
  | waiting {c : Challenge} (hc : issued c) : Phase issued accepted (true, some c) []
  | busy {w : Work} (hw : w.isAttempt = true) (hb : ∀ blobs, w = .reauthorize blobs → accepted blobs) :
      Phase issued accepted (true, none) [w]

variable {A : Challenge → List VsBlob → Prop} {blobs : List VsBlob} {R : Prop}
  {v' v : Bool × Option Challenge} {ended : Option Work} {started : List Work} {prim : Primitives}
  {cfg : Config} {n n' : Node} {id : LinkId} {uid : Nat} {p p' : PeerState} {act : NodeAction}
  {ok : Node → NodeAction → Prop}

namespace Phase

variable {I I' : Challenge → Prop} {B B' : List VsBlob → Prop} {works rest : List Work}

theorem eq_of_perm {l : List Work} (h : Phase I B v works) (hperm : works.Perm l) : works = l := by
  cases h with
  | idle | waiting => exact (List.nil_perm.mp hperm).symm
  | busy => exact List.singleton_perm.mp hperm

/-- A step of the protocol leads from one phase to another, unless it records an expiry in the middle
    of an attempt. -/
theorem step (h : Phase I B v works) (hprog : Progress A R v v' ended started)
    (hrest : works.Perm ((ended.filter (·.isAttempt)).toList ++ rest)) (hR : R → v.1 = false)
    (hkeep : v' = v → started = [] → (∀ c, I c → I' c) ∧ ∀ blobs, B blobs → B' blobs)
    (hissue : ∀ c timeout, started = [.renewalTimeout c timeout] → I' c)
    (haccept : ∀ c blobs, A c blobs → I c → started = [.reauthorize blobs] → B' blobs) :
    Phase I' B' v' (rest ++ started.filter (·.isAttempt)) := by
  -- there is one attempt at most, so the permutation is an equation
  have heq := h.eq_of_perm hrest
  cases hprog with
  | quiet hended =>
    have hnone : ended.filter (·.isAttempt) = none :=
      Option.filter_eq_none_iff.mpr fun w hw => by simp [hended w hw]
    rw [hnone] at heq
    subst heq
    obtain ⟨hI, hB⟩ := hkeep rfl rfl
    cases h with
    | idle => exact .idle
    | waiting hc => exact .waiting (hI _ hc)
    | busy hw hb => exact .busy hw fun blobs hw' => hB _ (hb blobs hw')
  | issue c timeout =>
    cases h with
    | idle =>
      cases heq
      exact .waiting (hissue c timeout rfl)
  | ask issuer nonce timeout =>
    cases h with
    | idle =>
      cases heq
      exact .busy rfl nofun
  | refuse hended =>
    cases h with
    | waiting hc =>
      have hnil : rest = [] := (List.append_eq_nil_iff.mp heq.symm).2
      subst hnil
      exact .idle
  | accept ha =>
    cases h with
    | waiting hc =>
      cases heq
      refine .busy rfl fun blobs hb => ?_
      cases hb
      exact haccept _ _ ha hc rfl
  | @submit _ w _ _ hw =>
    have hattempt : w.isAttempt = true := by
      rcases hw with rfl | ⟨_, _, _, rfl⟩ <;> rfl
    rw [Option.filter_some_pos hattempt] at heq
    cases h with
    | idle | waiting => cases heq
    | busy =>
      cases heq
      exact .busy rfl nofun
  | settle hw =>
    rw [Option.filter_some_pos hw] at heq
    cases h with
    | idle | waiting => cases heq
    | busy =>
      cases heq
      exact .idle
  | record hr =>
    cases h with
    | idle =>
      cases heq
      exact .idle
    | waiting | busy => cases hR hr

theorem accepted (h : Phase I B v (.reauthorize blobs :: rest)) : B blobs := by
  cases h with
  | busy _ hb => exact hb blobs rfl

theorem count (h : Phase I B v works) :
    works.length + v.2.toList.length = if v.1 then 1 else 0 := by
  cases h <;> rfl

end Phase

theorem Progress.accepted (h : Progress A R v v' ended [.reauthorize blobs]) : v'.2 = none := by
  cases h with
  | accept ha => rfl

/-! ## Attempts of a node -/

/-- The tasks of the link `uid` that carry on an attempt. -/
def Node.attempts (n : Node) (uid : Nat) : List Work := (n.renewals uid).filter (·.isAttempt)

/-- How many attempts on the link `p` are unresolved. -/
def Node.unresolved (n : Node) (p : PeerState) : Nat :=
  (n.attempts p.uid).length + p.data.renewalChallenge.toList.length

/-- The blobs that a task has taken from a response. -/
def Work.response : Work → Option (List VsBlob)
  | .reauthorize blobs => some blobs
  | _ => none

/-- The address and the blobs that a task has submitted to the visa service. -/
def Work.submission : Work → Option (IpAddr × List VsBlob)
  | .reauthorizing addr blobs => some (addr, blobs)
  | _ => none

/-- The requests for the link `uid` that the visa service has not answered. -/
def Node.submissions (n : Node) (uid : Nat) : List (IpAddr × List VsBlob) :=
  (n.renewals uid).filterMap Work.submission

theorem Progress.submitted {submitted : List VsBlob} {addr : IpAddr}
    (h : Progress A R v v' ended started) (hended : ended.bind Work.response = some blobs)
    (hstarted : started.filterMap Work.submission = [(addr, submitted)]) :
    ended = some (.reauthorize blobs) ∧ submitted = blobs := by
  cases h with
  | submit hw =>
    cases hstarted
    rcases hw with rfl | ⟨_, _, _, rfl⟩
    · cases hended
      exact ⟨rfl, rfl⟩
    · cases hended
  | _ => cases hstarted

/-- The step starts just these renewal tasks for the link `uid`. -/
def Node.Starts (n : Node) (act : NodeAction) (n' : Node) (uid : Nat) (started : List Work) : Prop :=
  n'.renewals uid = (n.release act).renewals uid ++ started

section

variable {id' : LinkId}

theorem Node.attempts_release (n : Node) (uid : Nat) (act : NodeAction) :
    (n.attempts uid).Perm
      (((n.ended uid act).filter (·.isAttempt)).toList ++ (n.release act).attempts uid) := by
  cases act with
  | run i outcome io =>
    simp only [ended, release]
    cases ha : n.activities[i]? with
    | none =>
      rw [List.eraseIdx_of_length_le (List.getElem?_eq_none_iff.mp ha)]
      exact .refl _
    | some a =>
      obtain ⟨hi, hget⟩ := List.getElem?_eq_some_iff.mp ha
      have hperm := ((List.getElem_cons_eraseIdx_perm hi).symm.filter (·.renews uid)).map (·.work)
      refine (hperm.filter (·.isAttempt)).trans (.of_eq ?_)
      rw [hget]
      simp only [Option.bind_some, Node.attempts, renewals, List.filter_cons]
      cases hr : a.renews uid with
      | false => rfl
      | true =>
        cases hw : a.work.isAttempt with
        | false | true => simp [hw, Option.filter]
  | _ => exact .refl _

/-! ## Links that a step creates -/

theorem Incoming.labels_create (msg : Incoming) :
    .create id ∉ msg.labels cfg id' := by
  unfold Incoming.labels
  split
  · simp
  · split <;> simp

theorem Work.labels_create (w : Work) (outcome : Outcome) :
    .create id ∉ w.labels prim cfg id' outcome := by
  cases w with
  | message msg => exact msg.labels_create
  | oidc clock issuer challenge blobs => cases outcome <;> simp [Work.labels]
  | authorize request evidence =>
    cases outcome with
    | authorized addr authExpires => cases addr <;> simp [Work.labels]
    | _ => simp [Work.labels]
  | dropLink dropped => cases dropped <;> simp [Work.labels]
  | _ => simp [Work.labels]

theorem Node.labels_create (hl : .create id ∈ n.labels prim cfg act) :
    ∀ l ∈ n.labels prim cfg act, ∀ id', l.renews id' = false := by
  cases act with
  | insertInternalPeer | startTether => simp [labels, Label.renews, LinkEvent.renews]
  | command id' command io => cases command <;> simp [labels] at hl
  | run i outcome io =>
    simp only [labels] at hl
    split at hl
    · cases hl
    · exact (Work.labels_create _ _ hl).elim
  | _ => simp [labels] at hl

theorem Steady.created {linkType : LinkType} {key : AuthKey} (hs : n.Sound) (hpl : n.Placed) :
    Steady id n.nextUid (false, none) []
      { n.setPeer id (some (.new id n.nextUid linkType key)) with nextUid := n.nextUid + 1 } := by
  refine ⟨Nat.lt_succ_self _, fun id' q hq hqu => ?_, ?_, fun q hq _ => ?_⟩
  · rcases setPeer_back hq with ⟨-, hq⟩ | ⟨hid, -⟩
    · exact absurd hqu (Nat.ne_of_lt (hs.below hq))
    · exact hid
  · refine List.map_eq_nil_iff.mpr (List.filter_eq_nil_iff.mpr fun a ha hr => ?_)
    rw [Activity.renews, Bool.and_eq_true, beq_iff_eq] at hr
    exact absurd hr.1 (Nat.ne_of_lt (hpl a ha hr.2).1)
  · cases (n.setPeer_self id _).symm.trans hq
    rfl

theorem step_back (hs : n.Sound) (hpl : n.Placed) (h : n.step prim cfg act = some n')
    (hp' : n'.peers id = some p') :
    (∃ p, n.peers id = some p ∧ SameLink p p') ∨ Steady id p'.uid (false, none) [] n' := by
  let P (m : Node) : Prop := m.Sound ∧ m.Placed ∧ ∀ q, m.peers id = some q →
    (∃ p, n.peers id = some p ∧ SameLink p q) ∨
      .create id ∈ n.labels prim cfg act ∧ Steady id q.uid (false, none) [] m
  have hinit : P (n.release act) := by
    refine ⟨hs.release act, hpl.release act, fun q hq => .inl ⟨q, ?_, .refl q⟩⟩
    cases act <;> exact hq
  have hP : P n' := by
    refine (step_moves hs.deferred h).invariant (P := P) (fun {l m m'} hl hm hmove => ?_) hinit
    obtain ⟨hsm, hplm, hback⟩ := hm
    refine ⟨hsm.move hmove, hplm.move hsm hmove, fun q hq => ?_⟩
    rcases hmove.peers_back hq with ⟨q₀, hq₀, hsame⟩ | ⟨rfl, huid, -⟩
    · rcases hback q₀ hq₀ with ⟨p, hp, hsame₀⟩ | ⟨hcreate, hsteady⟩
      · exact .inl ⟨p, hp, hsame₀.trans hsame⟩
      · rw [← hsame.uid] at hsteady
        exact .inr ⟨hcreate, hsteady.move (Node.labels_create hcreate l hl id) hmove⟩
    · rw [huid]
      cases hmove with
      | create linkType key _ => exact .inr ⟨hl, .created hsm hplm⟩
  exact (hP.2.2 p' hp').imp_right And.right

end

/-! ## Runs -/

/-- The step records an expiry on a link in the middle of an attempt. -/
def Node.clearsRenewal (n : Node) : NodeAction → Bool
  | .run i outcome _ =>
    (n.activities[i]?).any fun a =>
      a.work.recordsExpiry outcome && (n.peers a.linkId).any (·.data.renewalInFlight)
  | _ => false

/-- The step issues the challenge `c` on the link `uid` under `id`. -/
def Issues (id : LinkId) (uid : Nat) (c : Challenge) (t : Taken Node NodeAction) : Prop :=
  (∃ p, t.pre.peers id = some p ∧ p.uid = uid) ∧
    ∃ timeout, t.pre.Starts t.act t.post uid [.renewalTimeout c timeout]

/-- The step leaves the renewal of the link `uid` under `id` as it is. -/
def Rests (id : LinkId) (uid : Nat) (t : Taken Node NodeAction) : Prop :=
  (∃ p p', t.pre.peers id = some p ∧ t.post.peers id = some p' ∧ p.uid = uid ∧ p'.uid = uid ∧
    p'.data.renewal = p.data.renewal) ∧ t.pre.Starts t.act t.post uid []

/-- The step submits blobs for the link `uid` to the visa service. -/
def Submits (uid : Nat) (t : Taken Node NodeAction) : Prop :=
  ∃ submission, t.post.submissions uid = (t.pre.release t.act).submissions uid ++ [submission]

/-- The challenge `c` was issued on the link, and nothing has happened to its renewal since. -/
def SinceIssued (id : LinkId) (uid : Nat) (c : Challenge) : List (Taken Node NodeAction) → Prop :=
  Since (fun t _ => Issues id uid c t) (Rests id uid)

section

variable (prim : Primitives)

/-- The step accepts blobs that answer the challenge `c`. The link has the credentials that it had
    when it became active, and `c` was the last challenge to be issued on it and has been outstanding
    since. -/
def AcceptsLast (id : LinkId) (uid : Nat) (c : Challenge) (blobs : List VsBlob)
    (t : Taken Node NodeAction) (l : List (Taken Node NodeAction)) : Prop :=
  (∃ p, t.pre.peers id = some p ∧ p.uid = uid ∧ Accepts prim t.pre id p t.act c blobs ∧
    Since (Connects id uid p.data.credentials) (StaysConnected id uid) l) ∧
    t.pre.Starts t.act t.post uid [.reauthorize blobs] ∧ SinceIssued id uid c l

/-- Such blobs were accepted, and nothing has happened to the renewal of the link since. -/
def SinceAccepted (id : LinkId) (uid : Nat) (c : Challenge) (blobs : List VsBlob) :
    List (Taken Node NodeAction) → Prop :=
  Since (AcceptsLast prim id uid c blobs) (Rests id uid)

/-- Every link is in a phase of an attempt, with the history that belongs to it. -/
def Node.InPhase (n : Node) (l : List (Taken Node NodeAction)) : Prop :=
  ∀ id p, n.peers id = some p →
    Phase (SinceIssued id p.uid · l) (fun blobs => ∃ c, SinceAccepted prim id p.uid c blobs l)
      p.data.renewal (n.attempts p.uid)

variable {prim}

variable {l : List (Taken Node NodeAction)} {t : Taken Node NodeAction} {c : Challenge}

theorem Node.Starts.submissions (h : n.Starts act n' uid started) :
    n'.submissions uid = (n.release act).submissions uid ++ started.filterMap Work.submission := by
  rw [Node.submissions, h, List.filterMap_append]
  rfl

/-- A step that starts no request submits nothing. -/
theorem Submits.starts (h : Submits uid t) (hs : t.pre.Starts t.act t.post uid started) :
    started.filterMap Work.submission ≠ [] := by
  obtain ⟨submission, h⟩ := h
  rw [List.append_cancel_left (hs.submissions.symm.trans h)]
  exact List.cons_ne_nil _ _

/-- The challenge that was answered last was issued after every earlier submission for the link. -/
theorem SinceAccepted.issued_after {later earlier : List (Taken Node NodeAction)}
    (h : SinceAccepted prim id uid c blobs (later ++ t :: earlier)) (ht : Submits uid t) :
    ∃ e ∈ later, Issues id uid c e := by
  have hrests : ¬Rests id uid t := fun hr => ht.starts hr.2 rfl
  obtain ⟨later₁, e, later₂, rfl, -, -, hissued⟩ := h.later (fun ha => ht.starts ha.2.1 rfl) hrests
  obtain ⟨later₃, e', later₄, rfl, hissue⟩ := hissued.later (fun ⟨_, _, hi⟩ => ht.starts hi rfl) hrests
  exact ⟨e', by simp, hissue⟩

theorem Node.recordsExpiry_unmarked (hok : n.clearsRenewal act = false)
    (hr : n.recordsExpiry id act = true) (hp : n.peers id = some p) :
    p.data.renewalInFlight = false := by
  cases act with
  | run i outcome io =>
    simp only [recordsExpiry, Node.clearsRenewal] at hr hok
    obtain ⟨a, ha, hra⟩ := (Option.any_eq_true _ _).mp hr
    rw [Bool.and_eq_true, beq_iff_eq] at hra
    rw [ha, Option.any_some, hra.1, hra.2, hp] at hok
    exact hok
  | _ => cases hr

theorem Node.InPhase.step (hrun : Trace (Node.step prim cfg) (· = init) ok l n)
    (hn : n.InPhase prim l) (hclear : n.clearsRenewal act = false)
    (h : n.step prim cfg act = some n') : n'.InPhase prim (⟨n, act, n'⟩ :: l) := by
  have hs : n.Sound := .of_run hrun.run
  have hpl : n.Placed := .of_run hrun.run
  intro id p' hp'
  rcases step_back hs hpl h hp' with ⟨p, hp, hsame⟩ | hsteady
  · obtain ⟨started, v', hsteady, hprog⟩ := step_progress hs hpl hp h
    have hview : p'.data.renewal = v' := hsteady.view p' hp' hsame.uid
    have hstarts : n.Starts act n' p.uid started := hsteady.tasks
    have hattempts : n'.attempts p.uid =
        (n.release act).attempts p.uid ++ started.filter (·.isAttempt) := by
      rw [Node.attempts, hstarts, List.filter_append]
      rfl
    rw [hsame.uid, hview, hattempts]
    refine (hn id p hp).step hprog (n.attempts_release p.uid act)
      (fun hr => n.recordsExpiry_unmarked hclear hr hp) (fun hv hnil => ?_) (fun c timeout hc => ?_)
      fun c blobs ha hc hb => ?_
    · have hrests : Rests id p.uid ⟨n, act, n'⟩ :=
        ⟨⟨p, p', hp, hp', rfl, hsame.uid, hview.trans hv⟩, hnil ▸ hstarts⟩
      exact ⟨fun c hc => .inr ⟨hrests, hc⟩, fun blobs ⟨c, hb⟩ => ⟨c, .inr ⟨hrests, hb⟩⟩⟩
    · exact .inl ⟨⟨p, hp, rfl⟩, timeout, hc ▸ hstarts⟩
    · obtain ⟨blobs', hrenews⟩ := ha.renews
      have hconn := since_connected hrun hp hrenews.linkType hrenews.active
      exact ⟨c, .inl ⟨⟨p, hp, rfl, ha, hconn⟩, hb ▸ hstarts, hc⟩⟩
  · rw [hsteady.view p' hp' rfl, Node.attempts, hsteady.tasks]
    exact .idle

theorem Node.InPhase.of_trace
    (hrun : Trace (Node.step prim cfg) (· = init) (fun n act => n.clearsRenewal act = false) l n) :
    n.InPhase prim l := by
  induction hrun with
  | start h =>
    subst h
    exact fun _ _ hp => nomatch hp
  | next hrun hok h ih => exact ih.step hrun hok h

theorem SinceAccepted.consumed (hrun : Trace (Node.step prim cfg) (· = init) ok l n)
    (hsince : SinceAccepted prim id uid c blobs l) (hp : n.peers id = some p) (hu : p.uid = uid) :
    p.data.renewalChallenge = none := by
  induction hrun generalizing p with
  | start => exact hsince.elim
  | next hrun _ h ih =>
    rcases hsince with ⟨⟨q, hq, hqu, -⟩, hstarts, -⟩ |
      ⟨⟨⟨q, q', hq, hq', hqu, -, hview⟩, -⟩, hsince⟩
    · obtain ⟨started, v', hsteady, hprog⟩ := step_progress (.of_run hrun.run) (.of_run hrun.run) hq h
      have hstarted : started = [.reauthorize blobs] :=
        List.append_cancel_left (hsteady.tasks.symm.trans (hqu ▸ hstarts))
      subst hstarted
      rw [← hprog.accepted, ← hsteady.view p hp (hu.trans hqu.symm)]
      rfl
    · cases hp.symm.trans hq'
      exact (congrArg Prod.snd hview).trans (ih hsince hq hqu)

/-- As long as no expiry is recorded on a link in the middle of an attempt, the mark is set exactly
    while an attempt on the link is unresolved, and there is never more than one. -/
theorem renewal_mark_exact
    (hrun : Run (Node.step prim cfg) (· = init) (fun n act => n.clearsRenewal act = false) n)
    (hp : n.peers id = some p) :
    n.unresolved p = if p.data.renewalInFlight then 1 else 0 := by
  obtain ⟨l, hl⟩ := hrun.trace
  exact (Node.InPhase.of_trace hl id p hp).count

end

/-- The adapter of the visa service connects; its registration with the visa service is put off. -/
def sampleVsAdapter : List NodeAction :=
  [.startTether 5 .nodeToAdapter true (Vector.replicate 32 1) sampleIo,
    .run 1 (.established (sampleSa 1 (some (.verified ⟨some "", some [1]⟩)))) sampleIo,
    .run 2 .due sampleIo,
    .receive 5 (.helloRequest none),
    .run 2 .due sampleIo,
    .receive 5 (.acquireZprAddress (some [sampleZprAddr]) "1"),
    .run 3 .due sampleIo]

def sampleRenewalChallenge : Challenge := ⟨(sampleChallenge 1).toArray, by decide⟩

def sampleRenewal : List NodeAction :=
  [.command 5 .requestRenewalNow sampleIo,
    .receive 5 (.renewAuthenticationResponse sampleRenewalChallenge (.ok "1")),
    .run 5 .due sampleIo]

/-- A renewal was requested and is not answered yet. -/
theorem renewal_mark_exact_requested :
    ∃ n p, Run (Node.step samplePrimitives sampleConfig) (· = init)
        (fun n act => n.clearsRenewal act = false) n ∧ n.peers 5 = some p ∧
      p.data.renewalInFlight = true ∧
      n.unresolved p = if p.data.renewalInFlight then 1 else 0 := by
  refine Run.reaches_some_imp (P := fun _ p => p.data.renewalInFlight = true) rfl
    (sampleVsAdapter ++ sampleRenewal.take 1) (by decide +kernel) ?_
  intro n p hrun hp hmark
  exact ⟨hmark, renewal_mark_exact hrun hp⟩

/-- The expiry that comes with the registration of the visa service adapter clears the mark of a
    renewal that waits for its response, or whose blobs are about to be submitted. The next request
    then starts a second attempt. -/
theorem deferred_connect_clears_mark :
    (∃ n p, Run (Node.step samplePrimitives sampleConfig) (· = init) (fun _ _ => True) n ∧
      n.peers 5 = some p ∧ p.data.renewalInFlight = false ∧ n.unresolved p = 1) ∧
    ∃ n p, Run (Node.step samplePrimitives sampleConfig) (· = init) (fun _ _ => True) n ∧
      n.peers 5 = some p ∧ p.data.renewalInFlight = true ∧ n.unresolved p = 2 := by
  refine ⟨?_, ?_⟩
  · exact Run.reaches_some rfl (sampleVsAdapter ++ sampleRenewal.take 1 ++
      [.takeDeferredVsConnect, .run 5 (.authorized sampleZprAddr 9) sampleIo]) (by decide +kernel)
  · exact Run.reaches_some rfl (sampleVsAdapter ++ sampleRenewal ++
      [.takeDeferredVsConnect, .run 6 (.authorized sampleZprAddr 9) sampleIo,
        .command 5 .requestRenewalNow sampleIo]) (by decide +kernel)

/-- In such a run, blobs from the response to a renewal request are submitted to the visa service only
    if they answer the last challenge that was issued on the link, and were accepted once since then.
    That challenge was issued after every earlier submission, so that no challenge leads to two. -/
theorem reauthorization_sound {l : List (Taken Node NodeAction)} {blobs submitted : List VsBlob}
    {addr : IpAddr}
    (hrun : Trace (Node.step prim cfg) (· = init) (fun n act => n.clearsRenewal act = false) l n)
    (hp : n.peers id = some p) (h : n.step prim cfg act = some n')
    (hended : (n.ended p.uid act).bind Work.response = some blobs)
    (hsubmit : n'.submissions p.uid = (n.release act).submissions p.uid ++ [(addr, submitted)]) :
    submitted = blobs ∧ ∃ c, SinceAccepted prim id p.uid c blobs l ∧
      ∀ later t earlier, l = later ++ t :: earlier → Submits p.uid t →
        ∃ e ∈ later, Issues id p.uid c e := by
  obtain ⟨started, v', hsteady, hprog⟩ := step_progress (.of_run hrun.run) (.of_run hrun.run) hp h
  have hstarts : n.Starts act n' p.uid started := hsteady.tasks
  have hstarted : started.filterMap Work.submission = [(addr, submitted)] :=
    List.append_cancel_left (hstarts.submissions.symm.trans hsubmit)
  obtain ⟨hended, hsame⟩ := hprog.submitted hended hstarted
  have hperm := n.attempts_release p.uid act
  rw [hended, Option.filter_some_pos rfl] at hperm
  have hphase := Node.InPhase.of_trace hrun id p hp
  rw [hphase.eq_of_perm hperm] at hphase
  obtain ⟨c, hc⟩ := hphase.accepted
  refine ⟨hsame, c, hc, fun later t earlier hl ht => ?_⟩
  subst hl
  exact hc.issued_after ht

def sampleRenewalBlob : VsBlob := .ss (sampleChallenge 1) "" 0 []

/-- The accepted blob of the adapter is submitted. -/
theorem reauthorization_sound_answered :
    ∃ l n n' p c, Trace (Node.step samplePrimitives sampleConfig) (· = init)
        (fun n act => n.clearsRenewal act = false) l n ∧ n.peers 5 = some p ∧
      n.step samplePrimitives sampleConfig (.run 5 .due sampleIo) = some n' ∧
      n'.submissions p.uid = (n.release (.run 5 .due sampleIo)).submissions p.uid ++
        [(sampleZprAddr, [sampleRenewalBlob])] ∧
      SinceAccepted samplePrimitives 5 p.uid c [sampleRenewalBlob] l := by
  obtain ⟨n, p, hrun, hp, n', hstep, hended, hsub⟩ : ∃ n p, Run (Node.step samplePrimitives
      sampleConfig) (· = init) (fun n act => n.clearsRenewal act = false) n ∧
      n.peers 5 = some p ∧ ∃ n', n.step samplePrimitives sampleConfig (.run 5 .due sampleIo) = some n' ∧
      (n.ended p.uid (.run 5 .due sampleIo)).bind Work.response = some [sampleRenewalBlob] ∧
      n'.submissions p.uid = (n.release (.run 5 .due sampleIo)).submissions p.uid ++
        [(sampleZprAddr, [sampleRenewalBlob])] :=
    Run.reaches_some rfl (sampleVsAdapter ++ sampleRenewal) (by decide +kernel)
  obtain ⟨l, hl⟩ := hrun.trace
  obtain ⟨-, c, hc, -⟩ := reauthorization_sound hl hp hstep hended hsub
  exact ⟨l, n, n', p, c, hl, hp, hstep, hsub, hc⟩

/-- An expiry is recorded between the acceptance of the adapter's blob and its submission, and a new
    challenge is issued. The blob is submitted all the same, although it answers the challenge
    before, and the new one is outstanding. -/
theorem superseded_challenge_reauthorized :
    ∃ l n n' p c, Trace (Node.step samplePrimitives sampleConfig) (· = init) (fun _ _ => True) l n ∧
      n.peers 5 = some p ∧ p.data.renewalChallenge = some c ∧ c ≠ sampleRenewalChallenge ∧
      n.step samplePrimitives sampleConfig (.run 5 .due sampleIo) = some n' ∧
      (n.ended p.uid (.run 5 .due sampleIo)).bind Work.response = some [sampleRenewalBlob] ∧
      n'.submissions p.uid = (n.release (.run 5 .due sampleIo)).submissions p.uid ++
        [(sampleZprAddr, [sampleRenewalBlob])] ∧
      ¬∃ c, SinceAccepted samplePrimitives 5 p.uid c [sampleRenewalBlob] l := by
  obtain ⟨n, p, hrun, hp, ⟨c, hc, hne⟩, n', hstep, hended, hsub⟩ : ∃ n p, Run (Node.step
      samplePrimitives sampleConfig) (· = init) (fun _ _ => True) n ∧ n.peers 5 = some p ∧
      (∃ c, p.data.renewalChallenge = some c ∧ c ≠ sampleRenewalChallenge) ∧
      ∃ n', n.step samplePrimitives sampleConfig (.run 5 .due sampleIo) = some n' ∧
      (n.ended p.uid (.run 5 .due sampleIo)).bind Work.response = some [sampleRenewalBlob] ∧
      n'.submissions p.uid = (n.release (.run 5 .due sampleIo)).submissions p.uid ++
        [(sampleZprAddr, [sampleRenewalBlob])] :=
    Run.reaches_some rfl (sampleVsAdapter ++ sampleRenewal ++
      [.takeDeferredVsConnect, .run 6 (.authorized sampleZprAddr 9) sampleIo,
        .command 5 .requestRenewalNow { sampleIo with nonce := Vector.replicate 8 7 }])
      (by decide +kernel)
  obtain ⟨l, hl⟩ := hrun.trace
  refine ⟨l, n, n', p, c, hl, hp, hc, hne, hstep, hended, hsub, ?_⟩
  rintro ⟨c', hsince⟩
  rw [hsince.consumed hl hp rfl] at hc
  cases hc

/-! ## Links that have been active -/

theorem step_nextUid_le (hs : n.Sound) (h : n.step prim cfg act = some n') :
    n.nextUid ≤ n'.nextUid := by
  refine (step_moves hs.deferred h).invariant (P := fun m => n.nextUid ≤ m.nextUid)
    (fun _ hm hmove => hm.trans hmove.nextUid_le) ?_
  cases act <;> exact Nat.le_refl _

/-- A link that is upright at one time is so at any later time. -/
theorem upright_of_run {cr : Option NamespaceSet × Option RenewalIdentity}
    (hrun : Run (Node.step prim cfg) (· = init) ok n) (hp : n.peers id = some p)
    (hup : Upright cr p) (hrun' : Run (Node.step prim cfg) (· = n) ok n')
    (hp' : n'.peers id = some p') (huid : p'.uid = p.uid) : Upright cr p' := by
  -- the id may be given to a later link, whose uid is not below `nextUid` yet
  have hkept : p.uid < n'.nextUid ∧
      ∀ q, n'.peers id = some q → q.uid = p.uid → Upright cr q := by
    clear hp'
    induction hrun' with
    | start h =>
      subst h
      refine ⟨(Sound.of_run hrun).below hp, fun q hq _ => ?_⟩
      cases hp.symm.trans hq
      exact hup
    | next hrun' _ h ih =>
      have hs := Sound.of_run (hrun.trans hrun')
      refine ⟨Nat.lt_of_lt_of_le ih.1 (step_nextUid_le hs h), fun q' hq' hu => ?_⟩
      obtain ⟨q, hq, hsame, hkeep⟩ := step_upright hs h hq' (hu ▸ ih.1)
      exact hkeep _ (ih.2 q hq (hsame.uid.symm.trans hu))
  exact hkept.2 p' hp' huid

/-- A link that is active has some credentials only. -/
theorem Upright.ending (h : ∀ cr, Upright cr p) : p.fsm.state.isEnding = true := by
  rcases (h (none, none)).state with ⟨-, hnone⟩ | hends
  · rcases (h (some ⟨false, false⟩, none)).state with ⟨-, hsome⟩ | hends
    · cases hnone.symm.trans hsome
    · exact hends
  · exact hends

/-- A node's link to an adapter is active once: it stays so with the credentials that it has, until it
    is on its way out, and then it stays on its way out. -/
theorem adapter_link_active_once (hrun : Run (Node.step prim cfg) (· = init) ok n)
    (hp : n.peers id = some p) (hty : p.linkType = .nodeToAdapter) (hst : p.fsm.state = .active)
    (hrun' : Run (Node.step prim cfg) (· = n) ok n') (hp' : n'.peers id = some p')
    (huid : p'.uid = p.uid) :
    (p'.fsm.state = .active ∧ p'.data.credentials = p.data.credentials ∨
      p'.fsm.state.isEnding = true) ∧
    ∀ n'' p'', p'.fsm.state.isEnding = true → Run (Node.step prim cfg) (· = n') ok n'' →
      n''.peers id = some p'' → p''.uid = p.uid → p''.fsm.state.isEnding = true := by
  have hup := upright_of_run hrun hp ⟨hty, .inl ⟨hst, rfl⟩⟩ hrun' hp' huid
  refine ⟨hup.state, fun n'' p'' hends hrun'' hp'' hu => ?_⟩
  -- on its way out it is upright with any credentials
  exact Upright.ending fun _ => upright_of_run (hrun.trans hrun') hp' ⟨hup.linkType, .inr hends⟩
    hrun'' hp'' (hu.trans huid.symm)

/-- The link of an adapter that was active is reset. -/
theorem adapter_link_active_once_reset :
    ∃ n p n' p', Run (Node.step samplePrimitives sampleConfig) (· = init) (fun _ _ => True) n ∧
      n.peers 5 = some p ∧ p.linkType = .nodeToAdapter ∧ p.fsm.state = .active ∧
      n.step samplePrimitives sampleConfig (.command 5 .reset sampleIo) = some n' ∧
      n'.peers 5 = some p' ∧ p'.uid = p.uid ∧ p'.fsm.state ≠ .active ∧ p'.fsm.state.isEnding = true := by
  obtain ⟨n, p, hrun, hp, hty, hst, n', hn', p', hp', hu, hne⟩ : ∃ n p, Run (Node.step
      samplePrimitives sampleConfig) (· = init) (fun _ _ => True) n ∧ n.peers 5 = some p ∧
      p.linkType = .nodeToAdapter ∧ p.fsm.state = .active ∧
      ∃ n', n.step samplePrimitives sampleConfig (.command 5 .reset sampleIo) = some n' ∧
      ∃ p', n'.peers 5 = some p' ∧ p'.uid = p.uid ∧ p'.fsm.state ≠ .active :=
    Run.reaches_some rfl sampleVsAdapter (by decide +kernel)
  have hends := (adapter_link_active_once hrun hp hty hst (.next (.start rfl) trivial hn') hp'
    hu).1.resolve_left fun h => hne h.1
  exact ⟨n, p, n', p', hrun, hp, hty, hst, hn', hp', hu, hne, hends⟩

end ZprCore.Link
