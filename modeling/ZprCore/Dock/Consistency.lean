-- SUMMARY: Next-hop binds and the requests that wait for them refer to each other.
import ZprCore.Dock.Panics
import ZprCore.Dock.Revocation

/-!
# Consistency of bind requests

A next-hop bind is kept on the egress link and names the request it was made for; the request
names the next-hop bind it waits for. The node asserts in several places that the two agree.
They do as long as nobody makes a request with a transaction id that is still in use, and no
link comes up while a next-hop bind for its former owner is outstanding.
-/

namespace ZprCore.Dock

open ZprCore.Flow

/-! ## Consistent desks -/

def VisaTask.key (task : VisaTask) : LinkId × TxnId := (task.link, task.txn)

variable {link : LinkId} {txn : TxnId}

namespace Desk

variable {d : Desk}

/-- Neither a next-hop bind nor a task is for the request. -/
def Free (d : Desk) (key : LinkId × TxnId) : Prop :=
  (∀ egress h, d.awaiting egress h ≠ some key) ∧ ∀ task ∈ d.tasks, task.key ≠ key

structure Consistent (d : Desk) : Prop where
  /-- The request of a next-hop bind waits for it. -/
  paired : ∀ {egress h link txn}, d.awaiting egress h = some (link, txn) →
    (d.serial link).isSome → ∃ v, d.state link txn = some (.awaitingNextHopBind v egress h)
  /-- What a request waits for was made for it. -/
  own : ∀ {egress h link txn v key}, d.state link txn = some (.awaitingNextHopBind v egress h) →
    d.awaiting egress h = some key → key = (link, txn)
  /-- A request is not at the visa service and at the next hop at once. -/
  tasks : ∀ task ∈ d.tasks, ∀ egress h, d.awaiting egress h ≠ some task.key
  distinct : (d.tasks.map VisaTask.key).Nodup

section

variable (hc : Consistent d) {egress : LinkId} {h h' : TxnHandle} {v : VisaId}

include hc

theorem Consistent.resolve (egress : LinkId) (h : TxnHandle) : Consistent (d.resolve egress h) where
  paired haw hup := hc.paired (Option.ite_none_left_eq_some.mp haw).2 hup
  own hst haw := hc.own hst (Option.ite_none_left_eq_some.mp haw).2
  tasks task ht _ _ haw := hc.tasks task ht _ _ (Option.ite_none_left_eq_some.mp haw).2
  distinct := hc.distinct

theorem Consistent.ask (link : LinkId) (txn : TxnId) : Consistent (d.ask link txn) :=
  { hc with }

theorem Consistent.eraseTask (i : Nat) : Consistent (d.setTasks (d.tasks.eraseIdx i)) :=
  { hc with
    tasks := fun task ht => hc.tasks task (List.mem_of_mem_eraseIdx ht)
    distinct := hc.distinct.sublist ((List.eraseIdx_sublist ..).map _) }

/-- A request that no next-hop bind names can be answered. -/
theorem Consistent.answer (hfree : ∀ egress h, d.awaiting egress h ≠ some (link, txn)) :
    Consistent (d.answer link txn) where
  paired haw hup := by
    obtain ⟨v, hst⟩ := hc.paired haw hup
    refine ⟨v, Option.ite_none_left_eq_some.mpr ⟨?_, hst⟩⟩
    rintro ⟨rfl, rfl⟩
    exact hfree _ _ haw
  own hst haw := hc.own (Option.ite_none_left_eq_some.mp hst).2 haw
  tasks := hc.tasks
  distinct := hc.distinct

/-- The next-hop bind of a request that waits for it is the only one that names it. -/
theorem Consistent.awaiting_unique {egress' : LinkId}
    (hup : (d.serial link).isSome) (hst : d.state link txn = some (.awaitingNextHopBind v egress h))
    (haw : d.awaiting egress' h' = some (link, txn)) : egress' = egress ∧ h' = h := by
  obtain ⟨u, hst'⟩ := hc.paired haw hup
  rw [hst] at hst'
  cases hst'
  exact ⟨rfl, rfl⟩

theorem Consistent.spawn {st : BindRequestState} (task : VisaTask) (hfree : d.Free task.key)
    (hst : st.egressBindTxn? = none) :
    Consistent ((d.setState task.link task.txn st).setTasks (d.tasks ++ [task])) where
  paired haw hup := by
    obtain ⟨v, hst⟩ := hc.paired haw hup
    refine ⟨v, (if_neg ?_).trans hst⟩
    rintro ⟨rfl, rfl⟩
    exact hfree.1 _ _ haw
  own {egress h link txn v key} hstate haw := by
    simp only [setTasks, setState] at hstate
    split at hstate
    · cases hstate
      cases hst
    · exact hc.own hstate haw
  tasks t ht egress h haw := by
    rcases List.mem_append.mp ht with ht | ht
    · exact hc.tasks t ht egress h haw
    · rw [List.mem_singleton.mp ht] at haw
      exact hfree.1 egress h haw
  distinct := by
    rw [setTasks, List.map_append, List.nodup_append]
    refine ⟨hc.distinct, List.nodup_singleton _, ?_⟩
    rintro x hx y hy rfl
    obtain ⟨t, ht, rfl⟩ := List.mem_map.mp hx
    exact hfree.2 t ht (List.mem_singleton.mp hy)

theorem Consistent.forward (hfree : d.Free (link, txn)) (haw : ∀ l, d.awaiting l h = none)
    (hst : ∀ l t u e, d.state l t ≠ some (.awaitingNextHopBind u e h)) :
    Consistent ((d.setState link txn (.awaitingNextHopBind v egress h)).setAwaiting egress h
      (link, txn)) where
  paired {egress' h' link' txn'} haw' hup := by
    simp only [setAwaiting, setState] at haw' hup ⊢
    split at haw'
    · next heq =>
      cases haw'
      obtain ⟨rfl, rfl⟩ := heq
      exact ⟨v, if_pos ⟨rfl, rfl⟩⟩
    · obtain ⟨u, hst'⟩ := hc.paired haw' hup
      refine ⟨u, (if_neg ?_).trans hst'⟩
      rintro ⟨rfl, rfl⟩
      exact hfree.1 _ _ haw'
  own {egress' h' link' txn' u key} hst' haw' := by
    simp only [setAwaiting, setState] at haw' hst'
    split at hst'
    · next heq =>
      cases hst'
      rw [if_pos ⟨rfl, rfl⟩] at haw'
      cases haw'
      rw [heq.1, heq.2]
    · split at haw'
      · next heq =>
        rw [heq.2] at hst'
        exact absurd hst' (hst _ _ _ _)
      · exact hc.own hst' haw'
  tasks task ht egress' h' haw' := by
    simp only [setAwaiting] at haw'
    split at haw'
    · exact hfree.2 task ht (Option.some.inj haw').symm
    · exact hc.tasks task ht egress' h' haw'
  distinct := hc.distinct

theorem Consistent.relink {serial : Option Nat} {tethered : Bool}
    (hfree : serial.isSome → ∀ egress h txn, d.awaiting egress h ≠ some (link, txn)) :
    Consistent (d.relink link serial tethered) where
  paired {egress h link' txn} haw hup := by
    have haw := (Option.ite_none_left_eq_some.mp haw).2
    have hne : link' ≠ link := by
      intro heq
      simp only [Desk.relink, if_pos heq] at hup
      exact hfree hup egress h txn (heq ▸ haw)
    simp only [Desk.relink, if_neg hne] at hup ⊢
    exact hc.paired haw hup
  own hst haw :=
    hc.own (Option.ite_none_left_eq_some.mp hst).2 (Option.ite_none_left_eq_some.mp haw).2
  tasks task ht _ _ haw := hc.tasks task ht _ _ (Option.ite_none_left_eq_some.mp haw).2
  distinct := hc.distinct

theorem Consistent.free_of_task {i : Nat} {task : VisaTask} (ht : d.tasks[i]? = some task) :
    (d.setTasks (d.tasks.eraseIdx i)).Free task.key := by
  refine ⟨hc.tasks task (List.mem_of_getElem? ht), fun other ho heq => ?_⟩
  obtain ⟨j, hj, hother⟩ := List.mem_eraseIdx_iff_getElem?.mp ho
  refine hj ?_
  have hi : (d.tasks.map VisaTask.key)[i]? = some task.key := by rw [List.getElem?_map, ht]; rfl
  have hj : (d.tasks.map VisaTask.key)[j]? = some task.key := by
    rw [List.getElem?_map, hother, Option.map_some, heq]
  have hlt : j < (d.tasks.map VisaTask.key).length := (List.getElem?_eq_some_iff.mp hj).1
  exact (List.getElem?_inj hlt hc.distinct).mp (hj.trans hi.symm)

end

end Desk

namespace Node

variable {n n' m : Node} {a : Action} {sums : Checksums} {lookup : FiveTupleLookup}

/-! ## Steps -/

/-- Does a next-hop bind satisfy `p`? -/
def anyAwaiting (n : Node) (p : LinkId × TxnId → Bool) : Bool :=
  n.peers.any fun _ q => q.nodeState.awaitingNextHopBindTable.any fun _ key => p key

theorem anyAwaiting_eq_false {p : LinkId × TxnId → Bool} :
    n.anyAwaiting p = false ↔ ∀ egress h key, n.awaiting egress h = some key → p key = false := by
  simp only [anyAwaiting, Table.any_eq_false, awaiting_eq_some]
  constructor
  · rintro h egress t key ⟨q, hq, hkey⟩
    exact h egress q hq t key hkey
  · intro h egress q hq t key hkey
    exact h egress t key ⟨q, hq, hkey⟩

/-- Is a task or a next-hop bind for the request? -/
def inUse (n : Node) (key : LinkId × TxnId) : Bool :=
  n.anyAwaiting (· = key) || n.tasks.any (·.key = key)

theorem inUse_eq_false {key : LinkId × TxnId} : n.inUse key = false ↔ n.desk.Free key := by
  simp only [inUse, Bool.or_eq_false_iff, anyAwaiting_eq_false, decide_eq_false_iff_not,
    List.any_eq_false, decide_eq_true_eq, Desk.Free]
  refine and_congr ⟨fun h egress t haw => h egress t key haw rfl, ?_⟩ Iff.rfl
  rintro h egress t _ haw rfl
  exact h egress t haw

/-- No request is made with a transaction id that is in use, and no link comes up while a
    next-hop bind for that link id is outstanding. -/
def keepsBooks (n : Node) (a : Action) : Bool :=
  (a.asks.all fun key => !n.inUse key) &&
    match a with
    | .startTether link _ => !n.anyAwaiting (·.1 = link)
    | _ => true

theorem Outcome.consistent {G : VisaId → Prop} {Q : VisaQuery → Prop}
    (ho : Outcome m link txn G Q n') (hc : m.desk.Consistent) (hfree : m.desk.Free (link, txn)) :
    n'.desk.Consistent := by
  cases ho with
  | gone _ hd => exact hd ▸ hc
  | rejected _ _ hd => exact hd ▸ hc.answer hfree.1
  | @spawned query st σ _ _ hst hd =>
    exact hd ▸ hc.spawn ⟨link, σ, txn, query⟩ hfree hst
  | forwarded _ _ _ _ _ hopen hd =>
    obtain ⟨haw, hst⟩ := not_held_of_isOpen hopen
    exact hd ▸ hc.forward hfree haw hst

theorem consistent_step (hc : n.desk.Consistent) (hk : n.keepsBooks a = true)
    (hstep : n.handle sums lookup a = .ok n') : n'.desk.Consistent := by
  simp only [keepsBooks, Bool.and_eq_true] at hk
  cases handle_desk hstep with
  | kept hd => exact hd ▸ hc
  | opened _ hd =>
    have hfree := hk.2
    simp only [Bool.not_eq_true', anyAwaiting_eq_false, decide_eq_false_iff_not] at hfree
    rw [hd]
    exact hc.relink fun _ egress h txn haw => hfree egress h _ haw rfl
  | dropped hd => exact hd ▸ hc.relink (by rintro ⟨⟩)
  | @asked _ link txn p m _ ha _ _ hd _ ho =>
    have hfree : n.desk.Free (link, txn) := by
      rw [← inUse_eq_false]
      simpa [ha] using hk.1
    exact ho.consistent (hd ▸ hc.ask link txn) (hd ▸ hfree)
  | answered _ ht hd ho => exact ho.consistent (hd ▸ hc.eraseTask _) (hd ▸ hc.free_of_task ht)
  | resolved _ _ hd => exact hd ▸ hc.resolve ..
  | @settled _ egress link h txn v _ haw hst hd =>
    rw [hd]
    refine (hc.resolve egress h).answer fun egress' h' haw' => ?_
    obtain ⟨hne, haw'⟩ := Option.ite_none_left_eq_some.mp haw'
    obtain ⟨p, hp, -⟩ := bindState_eq_some.mp hst
    have hup : (n.serial link).isSome := by
      rw [serial_eq_some hp]
      rfl
    exact hne (hc.awaiting_unique hup hst haw')

theorem consistent_of_run
    (h : Run (Node.step sums lookup) Booted (fun n a => n.keepsBooks a = true) n) :
    n.desk.Consistent := by
  refine h.invariant ?_ fun _ _ _ hc hk hstep => consistent_step hc hk (step_eq_some.mp hstep)
  rintro _ ⟨cfg, rfl⟩
  have haw {egress : LinkId} {t : TxnHandle} {key : LinkId × TxnId}
      (h : (boot cfg).desk.awaiting egress t = some key) : False := by
    rw [show (boot cfg).desk.awaiting egress t = none from (views_boot cfg egress).2.2 t] at h
    cases h
  exact ⟨fun h _ => (haw h).elim, fun _ h => (haw h).elim, nofun, List.nodup_nil⟩

theorem lingers_eq_false_of_free (hc : n.desk.Consistent)
    (hfree : ∀ egress h, n.awaiting egress h ≠ some (link, txn)) : n.lingers link txn = false := by
  unfold lingers
  split
  · next v egress h hst =>
    cases haw : n.awaiting egress h with
    | none => rfl
    | some key => exact absurd (hc.own hst haw ▸ haw) (hfree egress h)
  · rfl

/-- The dock's bind state is consistent: every next-hop bind whose request is on a link that is
    up is the one that the request waits for, and no assertion about this fails. -/
theorem bind_state_consistent
    (hrun : Run (Node.step sums lookup) Booted (fun n a => n.keepsBooks a = true) n) :
    (∀ egress h link txn, n.awaiting egress h = some (link, txn) → (n.serial link).isSome →
      ∃ v, n.bindState link txn = some (.awaitingNextHopBind v egress h)) ∧
    ∀ a, n.keepsBooks a = true → n.handle sums lookup a ≠ .error (.panic .dockConsistency) := by
  have hc := consistent_of_run hrun
  refine ⟨fun _ _ _ _ => hc.paired, fun a hk herr => ?_⟩
  cases handle_fault herr with
  | benign hb =>
    rcases hb with hb | ⟨p, hp, -, hne⟩
    · cases hb
    · exact hne (Halt.panic.inj hp).symm
  | vacant _ _ hr => cases revokeAll_error hr
  | @asked link txn ha hl =>
    have hfree : n.desk.Free (link, txn) := by
      simp only [keepsBooks, Bool.and_eq_true] at hk
      rw [← inUse_eq_false]
      simpa [ha] using hk.1
    rw [lingers_eq_false_of_free hc hfree.1] at hl
    cases hl
  | answered ht hl =>
    rw [lingers_eq_false_of_free hc (hc.tasks _ (List.mem_of_getElem? ht))] at hl
    cases hl
  | unresolved haw hup hst =>
    obtain ⟨v, hv⟩ := hc.paired haw hup
    exact hst v hv

def sampleRequest (v : VisaId) : List Action :=
  [.grantVisa (sampleVisa v 1000), .bindActorAddressRequest 3 0 28 samplePacket]

theorem bind_state_consistent_atNextHop :
    ∃ n, Run (Node.step .internet firstMatch) Booted (fun n a => n.keepsBooks a = true) n ∧
      n.awaiting 4 ⟨3, 0⟩ = some (3, 0) ∧ (n.serial 3).isSome = true ∧
      (∃ v, n.bindState 3 0 = some (.awaitingNextHopBind v 4 ⟨3, 0⟩)) ∧
      n.handle .internet firstMatch (.tetherResponse 4 0 (.success 7) 1) ≠
        .error (.panic .dockConsistency) := by
  refine Run.reaches_imp (P := fun n => n.awaiting 4 ⟨3, 0⟩ = some (3, 0) ∧
    (n.serial 3).isSome = true) ⟨sampleConfig, rfl⟩ (sampleAdapters ++ sampleRequest 1000)
    (by decide +kernel) ?_
  rintro n hrun ⟨hat, hup⟩
  obtain ⟨hpaired, hsafe⟩ := bind_state_consistent hrun
  exact ⟨hat, hup, hpaired _ _ _ _ hat hup, hsafe _ rfl⟩

/-- Two requests with the same transaction id: the first next-hop bind has lost its request, and
    its answer makes the node panic. -/
theorem repeated_transaction_panics :
    ∃ n, Run (Node.step .internet firstMatch) Booted (fun _ _ => True) n ∧
      n.awaiting 4 ⟨3, 0⟩ = some (3, 0) ∧ (n.serial 3).isSome = true ∧
      n.bindState 3 0 = some (.awaitingNextHopBind 1000 4 ⟨3, 1⟩) ∧
      n.handle .internet firstMatch (.tetherResponse 4 0 (.success 7) 1) =
        .error (.panic .dockConsistency) :=
  Run.reaches ⟨sampleConfig, rfl⟩ (sampleAdapters ++ sampleRequest 1000 ++
    [.bindActorAddressRequest 3 0 28 samplePacket]) (by decide +kernel)

end Node

end ZprCore.Dock
