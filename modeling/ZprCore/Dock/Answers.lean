-- SUMMARY: Every bind request of an adapter is answered exactly once.
import ZprCore.Dock.Consistency

/-!
# Answers to bind requests

A request is at the visa service, at the next hop, or answered, and it moves from one to the
other. It is lost if the link that it waits for goes away, since a link that is dropped takes
its next-hop binds with it; and it may be answered twice, or for somebody else, if the link id
comes into use again while something is outstanding for its former owner.
-/

namespace ZprCore.Dock

open ZprCore.Flow

variable {count : Nat → TxnId → Nat} {egress : LinkId} {σ : Nat} {link : LinkId} {txn : TxnId}

namespace Desk

variable {d d' : Desk} {key : LinkId × TxnId} {h : TxnHandle}

def tasksFor (d : Desk) (key : LinkId × TxnId) : Nat := d.tasks.countP (·.key = key)

/-- Where the requests of an incarnation with one transaction id have got to. -/
inductive Stage (d : Desk) (key : LinkId × TxnId) (σ : Nat) : Prop where
  | idle : (∀ egress h, d.awaiting egress h ≠ some key) → d.tasksFor key = 0 →
      d.state key.1 key.2 = none → d.asked σ key.2 = d.answered σ key.2 → Stage d key σ
  | atVisaService : (∀ egress h, d.awaiting egress h ≠ some key) → d.tasksFor key = 1 →
      d.asked σ key.2 = d.answered σ key.2 + 1 → Stage d key σ
  | atNextHop {egress : LinkId} {h : TxnHandle} : d.awaiting egress h = some key →
      (∀ egress' h', d.awaiting egress' h' = some key → egress' = egress ∧ h' = h) →
      d.tasksFor key = 0 → d.asked σ key.2 = d.answered σ key.2 + 1 → Stage d key σ

section

variable (hs : Stage d key σ)

include hs

theorem Stage.congr (hst : d'.state key.1 key.2 = d.state key.1 key.2)
    (haw : ∀ egress h, d'.awaiting egress h = some key ↔ d.awaiting egress h = some key)
    (ht : d'.tasksFor key = d.tasksFor key) (hask : d'.asked σ key.2 = d.asked σ key.2)
    (hans : d'.answered σ key.2 = d.answered σ key.2) : Stage d' key σ := by
  cases hs with
  | idle hno h0 hnone hc =>
    exact .idle (fun egress h hd => hno egress h ((haw egress h).mp hd)) (ht.trans h0)
      (hst.trans hnone) (by rw [hask, hans, hc])
  | atVisaService hno h1 hc =>
    exact .atVisaService (fun egress h hd => hno egress h ((haw egress h).mp hd)) (ht.trans h1)
      (by rw [hask, hans, hc])
  | atNextHop hin huniq h0 hc =>
    exact .atNextHop ((haw _ _).mpr hin) (fun egress h hd => huniq egress h ((haw egress h).mp hd))
      (ht.trans h0) (by rw [hask, hans, hc])

/-- The request is neither at the visa service nor at the next hop. -/
theorem Stage.idle_of_free (hno : ∀ egress h, d.awaiting egress h ≠ some key)
    (h0 : d.tasksFor key = 0) :
    d.state key.1 key.2 = none ∧ d.asked σ key.2 = d.answered σ key.2 := by
  cases hs with
  | idle _ _ hnone hc => exact ⟨hnone, hc⟩
  | atVisaService _ h1 _ =>
    rw [h0] at h1
    cases h1
  | atNextHop hin => exact absurd hin (hno _ _)

theorem Stage.free_of_answered (hc : d.asked σ key.2 = d.answered σ key.2) :
    (∀ egress h, d.awaiting egress h ≠ some key) ∧ d.tasksFor key = 0 := by
  cases hs with
  | idle hno h0 _ _ => exact ⟨hno, h0⟩
  | atVisaService _ _ hc' | atNextHop _ _ _ hc' =>
    exact absurd (hc.symm.trans hc') (Nat.ne_of_lt (Nat.lt_succ_self _))

theorem Stage.le :
    d.answered σ key.2 ≤ d.asked σ key.2 ∧ d.asked σ key.2 ≤ d.answered σ key.2 + 1 := by
  cases hs with
  | idle | atVisaService | atNextHop => omega

end

theorem tasksFor_eq_zero : d.tasksFor key = 0 ↔ ∀ task ∈ d.tasks, task.key ≠ key := by
  simp [tasksFor, List.countP_eq_zero]

theorem tasksFor_eraseIdx {i : Nat} {task : VisaTask} (ht : d.tasks[i]? = some task) :
    d.tasksFor key = (d.setTasks (d.tasks.eraseIdx i)).tasksFor key + if task.key = key then 1 else 0 := by
  obtain ⟨hi, rfl⟩ := List.getElem?_eq_some_iff.mp ht
  have hperm := List.getElem_cons_eraseIdx_perm hi
  rw [tasksFor, ← hperm.countP_eq, List.countP_cons]
  simp [tasksFor, setTasks]

theorem tally_eq (hσ : d.serial link = some σ → link = key.1) (hne : (link, txn) ≠ key) :
    d.tally count link txn σ key.2 = count σ key.2 := by
  refine if_neg ?_
  rintro ⟨-, hs, ht⟩
  exact hne (Prod.ext (hσ hs) ht.symm)

theorem tally_self (ht : d.tethered link = true) (hs : d.serial link = some σ) :
    d.tally count link txn σ txn = count σ txn + 1 :=
  if_pos ⟨ht, hs, rfl⟩

theorem Stage.answer_other (h : Stage d key σ) (hσ : d.serial link = some σ → link = key.1)
    (hne : (link, txn) ≠ key) : Stage (d.answer link txn) key σ := by
  refine h.congr (if_neg ?_) (fun _ _ => Iff.rfl) rfl rfl (tally_eq hσ hne)
  rintro ⟨h1, h2⟩
  exact hne (Prod.ext h1.symm h2.symm)

theorem Stage.resolve_other (hs : Stage d key σ) {other : LinkId × TxnId}
    (haw : d.awaiting egress h = some other) (hne : other ≠ key) :
    Stage (d.resolve egress h) key σ := by
  refine hs.congr rfl (fun egress' h' => ?_) rfl rfl rfl
  simp only [resolve]
  split
  · next heq =>
    rw [heq.1, heq.2, haw]
    exact ⟨nofun, fun heq => absurd (Option.some.inj heq) hne⟩
  · exact Iff.rfl

/-- The next hop answers the request, and so does the node. -/
theorem Stage.settle (hs : Stage d (link, txn) σ)
    (haw : d.awaiting egress h = some (link, txn)) (ht : d.tethered link = true)
    (hup : d.serial link = some σ) : Stage ((d.resolve egress h).answer link txn) (link, txn) σ := by
  cases hs with
  | idle hno | atVisaService hno => exact absurd haw (hno _ _)
  | atNextHop hin huniq h0 hc =>
    refine .idle (fun egress' h' haw' => ?_) h0 (if_pos ⟨rfl, rfl⟩) (hc.trans ?_)
    · obtain ⟨hne, haw'⟩ := Option.ite_none_left_eq_some.mp haw'
      obtain ⟨rfl, rfl⟩ := huniq egress h haw
      exact hne (huniq egress' h' haw')
    · exact (tally_self (d := d.resolve egress h) ht hup).symm

end Desk

namespace Node

variable {n n' m : Node} {key : LinkId × TxnId} {a : Action} {sums : Checksums}
  {lookup : FiveTupleLookup} {Q : VisaQuery → Prop} {G : VisaId → Prop}

section

variable (ho : Outcome m link txn G Q n')

include ho

theorem Outcome.links :
    n'.desk.serial = m.desk.serial ∧ n'.desk.tethered = m.desk.tethered := by
  cases ho with
  | gone _ hd | rejected _ _ hd | spawned _ _ _ hd | forwarded _ _ _ _ _ _ hd =>
    exact hd ▸ ⟨rfl, rfl⟩

/-- A request in hand is counted and not yet anywhere. -/
theorem Outcome.stage (hs : m.desk.serial link = some σ)
    (ht : m.desk.tethered link = true) (hno : ∀ egress h, m.awaiting egress h ≠ some (link, txn))
    (h0 : m.desk.tasksFor (link, txn) = 0) (hc : m.asked σ txn = m.answered σ txn + 1) :
    n'.desk.Stage (link, txn) σ := by
  cases ho with
  | gone hnone _ => cases hnone.symm.trans hs
  | rejected _ _ hd =>
    rw [hd]
    refine .idle hno h0 (if_pos ⟨rfl, rfl⟩) (hc.trans ?_)
    exact (Desk.tally_self (d := m.desk) ht hs).symm
  | @spawned query st σ' _ _ _ hd =>
    rw [hd]
    refine .atVisaService hno ?_ hc
    rw [Desk.tasksFor, Desk.setTasks, List.countP_append, List.countP_singleton,
      if_pos (by exact decide_eq_true rfl)]
    exact congrArg (· + 1) h0
  | @forwarded v egress h visa _ _ _ _ _ hopen hd =>
    rw [hd]
    refine @Desk.Stage.atNextHop _ _ _ egress h (if_pos ⟨rfl, rfl⟩) (fun egress' h' haw => ?_) h0 hc
    simp only [Desk.setAwaiting] at haw
    split at haw
    · assumption
    · exact absurd haw (hno egress' h')

theorem Outcome.stage_other (hσ : m.desk.serial link = some σ → link = key.1)
    (hne : (link, txn) ≠ key) (h : m.desk.Stage key σ) : n'.desk.Stage key σ := by
  have hstate {st : BindRequestState} :
      (m.desk.setState link txn st).state key.1 key.2 = m.desk.state key.1 key.2 := by
    refine if_neg ?_
    rintro ⟨h1, h2⟩
    exact hne (Prod.ext h1.symm h2.symm)
  cases ho with
  | gone _ hd => exact hd ▸ h
  | rejected _ _ hd => exact hd ▸ h.answer_other hσ hne
  | @spawned query st σ' _ _ _ hd =>
    rw [hd]
    refine h.congr hstate (fun _ _ => Iff.rfl) ?_ rfl rfl
    rw [Desk.tasksFor, Desk.setTasks, List.countP_append, List.countP_singleton,
      if_neg (by rw [decide_eq_true_eq]; exact hne)]
    rfl
  | @forwarded v egress h' visa _ _ _ _ _ hopen hd =>
    rw [hd]
    refine h.congr hstate (fun egress' h'' => ?_) rfl rfl rfl
    simp only [Desk.setAwaiting]
    split
    · next heq =>
      -- nothing was kept under the new handle
      have hnone : m.desk.awaiting egress' h'' = none := heq.2 ▸ (not_held_of_isOpen hopen).1 egress'
      rw [hnone]
      constructor
      · exact fun heq => absurd (Option.some.inj heq) hne
      · rintro ⟨⟩
    · exact Iff.rfl

end

/-! ## Serials that are not in use yet -/

/-- Nothing has been counted for an incarnation that does not exist yet. -/
def Uncounted (n : Node) : Prop :=
  ∀ σ t, n.nextSerial ≤ σ → n.asked σ t = 0 ∧ n.answered σ t = 0

/-- Only incarnations that are up are counted for. -/
theorem tally_of_serials {t : TxnId} (hs : Serials n) (hσ : n.nextSerial ≤ σ) :
    n.desk.tally count link txn σ t = count σ t :=
  if_neg fun h => absurd (hs.lt h.2.1) (Nat.not_lt.mpr hσ)

theorem Uncounted.step (h : Uncounted n) (hs : Serials n)
    (hstep : n.handle sums lookup a = .ok n') : Uncounted n' := by
  intro σ t hσ
  have hσ := (handle_effect hstep).nextSerial_le.trans hσ
  have hzero := h σ t hσ
  -- links that are up are the same as before while a request is handled
  have houtcome {m : Node} {l : LinkId} {u : TxnId} {G : VisaId → Prop} {Q : VisaQuery → Prop}
      (ho : Outcome m l u G Q n') (hserial : m.desk.serial = n.serial) :
      n'.desk.asked σ t = m.desk.asked σ t ∧ n'.desk.answered σ t = m.desk.answered σ t := by
    cases ho with
    | gone _ hd | spawned _ _ _ hd | forwarded _ _ _ _ _ _ hd =>
      rw [hd]
      exact ⟨rfl, rfl⟩
    | rejected _ _ hd =>
      rw [hd]
      refine ⟨rfl, if_neg fun hc => ?_⟩
      have hup : n.serial l = some σ := hserial ▸ hc.2.1
      exact absurd (hs.lt hup) (Nat.not_lt.mpr hσ)
  suffices n'.desk.asked σ t = 0 ∧ n'.desk.answered σ t = 0 from this
  cases handle_desk hstep with
  | kept hd | opened _ hd | dropped hd | resolved _ _ hd => exact hd ▸ hzero
  | asked _ _ _ hd _ ho =>
    obtain ⟨hask, hans⟩ := houtcome ho (by rw [hd]; rfl)
    rw [hask, hans, hd]
    exact ⟨(tally_of_serials hs hσ).trans hzero.1, hzero.2⟩
  | answered _ _ hd ho =>
    obtain ⟨hask, hans⟩ := houtcome ho (by rw [hd]; rfl)
    rw [hask, hans, hd]
    exact hzero
  | settled _ _ hd =>
    rw [hd]
    exact ⟨hzero.1, (tally_of_serials hs hσ).trans hzero.2⟩

/-! ## Runs -/

/-- For the requests of one link with one transaction id: the adapter uses the id again only
    after all its requests with it were answered; a link that has to answer a next-hop bind for
    them is not dropped; and the link does not come up while anything is outstanding for them. -/
def answerable (link : LinkId) (txn : TxnId) (n : Node) (a : Action) : Bool :=
  (a.asks.all fun key => key ≠ (link, txn) ||
    (n.serial link).all fun σ => n.asked σ txn = n.answered σ txn) &&
  match a with
  | .dropPeer egress => egress = link || (n.peers.lookup egress).all fun q =>
      !q.nodeState.awaitingNextHopBindTable.any fun _ key => key = (link, txn)
  | .startTether other _ => other ≠ link || !n.inUse (link, txn)
  | _ => true

theorem awaiting_ne_of_answerable {h : TxnHandle} (hne : egress ≠ link)
    (hk : answerable link txn n (.dropPeer egress) = true) :
    n.awaiting egress h ≠ some (link, txn) := by
  intro haw
  obtain ⟨q, hq, hkey⟩ := awaiting_eq_some.mp haw
  simp only [answerable, Bool.and_eq_true, Bool.or_eq_true, decide_eq_true_eq, hne, false_or, hq,
    Option.all_some, Bool.not_eq_true', Table.any_eq_false, decide_eq_false_iff_not] at hk
  exact hk.2 h _ hkey rfl

/-- The requests of the adapter on the link have all got somewhere. -/
def Tracked (n : Node) (key : LinkId × TxnId) : Prop :=
  ∀ σ, n.desk.serial key.1 = some σ → n.desk.tethered key.1 = true → n.desk.Stage key σ

section

variable (h : Tracked n (link, txn)) {other l : LinkId}

include h

theorem Tracked.opened (hun : Uncounted n) {linkType : LinkType} (hdown : n.serial other = none)
    (hk : answerable link txn n (.startTether other linkType) = true)
    (hd : n'.desk = n.desk.relink other (some n.nextSerial) (peerTypeOf linkType other = .adapter)) :
    Tracked n' (link, txn) := by
  intro σ hs ht
  rw [hd] at hs ht ⊢
  simp only [Desk.relink] at hs ht
  -- a link that is down answers no next-hop binds
  have haw (egress : LinkId) (t : TxnHandle) :
      (n.desk.relink other (some n.nextSerial) (peerTypeOf linkType other = .adapter)).awaiting egress t =
        n.desk.awaiting egress t := by
    simp only [Desk.relink]
    split
    · next heq =>
      have hnone : n.awaiting egress t = none := by
        rw [heq, awaiting, serial_eq_none.mp hdown]
        rfl
      exact hnone.symm
    · rfl
  by_cases hl : link = other
  · subst hl
    rw [if_pos rfl] at hs
    cases hs
    simp only [answerable, Bool.and_eq_true, Bool.or_eq_true, decide_eq_true_eq, ne_eq,
      not_true_eq_false, false_or, Bool.not_eq_true', inUse_eq_false] at hk
    obtain ⟨hno, h0⟩ := hk.2
    obtain ⟨hask, hans⟩ := hun n.nextSerial txn le_rfl
    exact .idle (fun egress t => by rw [haw]; exact hno egress t) (Desk.tasksFor_eq_zero.mpr h0)
      (if_pos rfl) (hask.trans hans.symm)
  · rw [if_neg hl] at hs ht
    exact (h σ hs ht).congr (if_neg hl) (fun egress t => by rw [haw]) rfl rfl rfl

theorem Tracked.dropped (hk : answerable link txn n (.dropPeer other) = true)
    (hd : n'.desk = n.desk.relink other none false) : Tracked n' (link, txn) := by
  intro σ hs ht
  rw [hd] at hs ht ⊢
  simp only [Desk.relink] at hs ht
  by_cases hl : link = other
  · rw [if_pos hl] at hs
    cases hs
  rw [if_neg hl] at hs ht
  refine (h σ hs ht).congr (if_neg hl) (fun egress t => ?_) rfl rfl rfl
  simp only [Desk.relink]
  split
  · next heq =>
    have hno : n.desk.awaiting egress t ≠ some (link, txn) := by
      subst heq
      exact awaiting_ne_of_answerable (Ne.symm hl) hk
    exact ⟨by rintro ⟨⟩, fun haw => absurd haw hno⟩
  · exact Iff.rfl

theorem Tracked.asked (hs : Serials n) {u : TxnId}
    (ha : a.asks = some (l, u)) (hk : answerable link txn n a = true)
    (hd : m.desk = n.desk.ask l u) (ho : Outcome m l u G Q n') : Tracked n' (link, txn) := by
  intro σ hup ht
  rw [ho.links.1, hd] at hup
  rw [ho.links.2, hd] at ht
  have hstage := h σ hup ht
  by_cases hkey : (l, u) = (link, txn)
  · cases hkey
    simp only [answerable, ha, Option.all_some, ne_eq, not_true_eq_false, decide_false,
      Bool.false_or, Bool.and_eq_true] at hk
    have hall := hk.1
    rw [show n.serial link = some σ from hup] at hall
    obtain ⟨hno, h0⟩ := hstage.free_of_answered (of_decide_eq_true hall)
    refine ho.stage (by rw [hd, hup]) (by rw [hd, ht]) ?_ ?_ ?_
    · rw [show m.awaiting = n.awaiting from congrArg Desk.awaiting hd]
      exact hno
    · rw [hd]
      exact h0
    · rw [show m.asked = n.desk.tally n.asked link txn from congrArg Desk.asked hd,
        show m.answered = n.answered from congrArg Desk.answered hd, Desk.tally_self (d := n.desk) ht hup]
      exact congrArg (· + 1) (of_decide_eq_true hall)
  · have hσ : n.serial l = some σ → l = link := fun hl => hs.inj hl hup
    refine ho.stage_other (by rw [hd]; exact hσ) hkey ?_
    rw [hd]
    exact hstage.congr rfl (fun _ _ => Iff.rfl) rfl (Desk.tally_eq hσ hkey) rfl

theorem Tracked.answered (hs : Serials n) {i : Nat} {task : VisaTask}
    (htask : n.tasks[i]? = some task) (hd : m.desk = n.desk.setTasks (n.tasks.eraseIdx i))
    (ho : Outcome m task.link task.txn G Q n') : Tracked n' (link, txn) := by
  intro σ hup ht
  rw [ho.links.1, hd] at hup
  rw [ho.links.2, hd] at ht
  have hstage := h σ hup ht
  have hcount := @Desk.tasksFor_eraseIdx n.desk (link, txn) _ _ htask
  by_cases hkey : task.key = (link, txn)
  · -- the task was the one that had the request
    rw [if_pos hkey] at hcount
    obtain ⟨hl, ht'⟩ := Prod.mk.inj hkey
    rw [hl, ht'] at ho
    cases hstage with
    | idle | atNextHop => omega
    | atVisaService hno h1 hc =>
      refine ho.stage (by rw [hd, hup]) (by rw [hd, ht]) ?_ ?_ ?_
      · rw [show m.awaiting = n.awaiting from congrArg Desk.awaiting hd]
        exact hno
      · rw [hd]
        exact Nat.succ.inj (hcount.symm.trans h1)
      · rw [show m.asked = n.asked from congrArg Desk.asked hd,
          show m.answered = n.answered from congrArg Desk.answered hd]
        exact hc
  · rw [if_neg hkey] at hcount
    refine ho.stage_other (by rw [hd]; exact fun hl => hs.inj hl hup) hkey ?_
    rw [hd]
    exact hstage.congr rfl (fun _ _ => Iff.rfl) hcount.symm rfl rfl

theorem Tracked.step (hs : Serials n) (hun : Uncounted n)
    (hk : answerable link txn n a = true) (hstep : n.handle sums lookup a = .ok n') :
    Tracked n' (link, txn) := by
  cases handle_desk hstep with
  | kept hd =>
    intro σ hup ht
    rw [hd] at hup ht ⊢
    exact h σ hup ht
  | opened hdown hd => exact h.opened hun hdown hk hd
  | dropped hd => exact h.dropped hk hd
  | asked ha _ _ hd _ ho => exact h.asked hs ha hk hd ho
  | answered _ htask hd ho => exact h.answered hs htask hd ho
  | @resolved _ egress l t u _ haw hdown hd =>
    intro σ hup ht
    rw [hd] at hup ht ⊢
    -- the answered request is on a link that is down
    have hne : (l, u) ≠ (link, txn) := by
      intro heq
      cases heq
      rw [show n.serial link = some σ from hup] at hdown
      cases hdown
    exact (h σ hup ht).resolve_other haw hne
  | @settled _ egress l t u v _ haw hst hd =>
    intro σ hup ht
    rw [hd] at hup ht ⊢
    by_cases hkey : (l, u) = (link, txn)
    · cases hkey
      exact (h σ hup ht).settle haw ht hup
    · refine ((h σ hup ht).resolve_other haw hkey).answer_other (fun hl => ?_) hkey
      exact hs.inj hl hup

end

theorem Tracked.of_run
    (h : Run (Node.step sums lookup) Booted (fun n a => answerable link txn n a = true) n) :
    Tracked n (link, txn) ∧ Uncounted n := by
  induction h with
  | start h =>
    obtain ⟨cfg, rfl⟩ := h
    refine ⟨fun σ _ _ => .idle (fun egress t haw => ?_) rfl ((views_boot cfg link).2.1 txn) rfl,
      fun σ t _ => ⟨rfl, rfl⟩⟩
    rw [show (boot cfg).desk.awaiting egress t = none from (views_boot cfg egress).2.2 t] at haw
    cases haw
  | next hrun hk hstep ih =>
    have hstep := step_eq_some.mp hstep
    exact ⟨ih.1.step (.of_run hrun) ih.2 hk hstep, ih.2.step (.of_run hrun) hstep⟩

/-- Every bind request is answered exactly once: of the requests that an adapter has made with
    one transaction id, at most the last is not answered yet, and that one only while it is at
    the visa service or at the next hop. -/
theorem answered_exactly_once
    (hrun : Run (Node.step sums lookup) Booted (fun n a => answerable link txn n a = true) n)
    (hup : n.serial link = some σ) (ht : n.tethered link = true) :
    (n.answered σ txn ≤ n.asked σ txn ∧ n.asked σ txn ≤ n.answered σ txn + 1) ∧
    (n.inUse (link, txn) = false →
      n.bindState link txn = none ∧ n.asked σ txn = n.answered σ txn) := by
  have hstage := (Tracked.of_run hrun).1 σ hup ht
  refine ⟨hstage.le, fun hfree => ?_⟩
  obtain ⟨hno, h0⟩ := inUse_eq_false.mp hfree
  exact hstage.idle_of_free hno (Desk.tasksFor_eq_zero.mpr h0)

theorem answered_exactly_once_boundStream :
    ∃ n, Run (Node.step .internet firstMatch) Booted (fun n a => answerable 3 0 n a = true) n ∧
      n.serial 3 = some 2 ∧ n.tethered 3 = true ∧ n.inUse (3, 0) = false ∧ n.asked 2 0 = 1 ∧
      n.bindState 3 0 = none ∧ n.answered 2 0 = 1 := by
  refine Run.reaches_imp (P := fun n => n.serial 3 = some 2 ∧ n.tethered 3 = true ∧
    n.inUse (3, 0) = false ∧ n.asked 2 0 = 1) ⟨sampleConfig, rfl⟩
    (sampleAdapters ++ sampleBind 1000) (by decide +kernel) ?_
  rintro n hrun ⟨hup, ht, hfree, hask⟩
  obtain ⟨hst, hans⟩ := (answered_exactly_once hrun hup ht).2 hfree
  exact ⟨hup, ht, hfree, hask, hst, hans ▸ hask⟩

/-- The link that should answer the next-hop bind is dropped: the request is never answered. -/
theorem request_lost_with_its_next_hop :
    ∃ n, Run (Node.step .internet firstMatch) Booted (fun _ _ => True) n ∧
      n.serial 3 = some 2 ∧ n.tethered 3 = true ∧ n.inUse (3, 0) = false ∧
      n.asked 2 0 = 1 ∧ n.answered 2 0 = 0 ∧
      n.bindState 3 0 = some (.awaitingNextHopBind 1000 4 ⟨3, 0⟩) :=
  Run.reaches ⟨sampleConfig, rfl⟩ (sampleAdapters ++ sampleRequest 1000 ++ [.dropPeer 4])
    (by decide +kernel)

end Node

end ZprCore.Dock
