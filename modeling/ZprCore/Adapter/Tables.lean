-- SUMMARY: The lookup tables of an adapter, which hold its outbound and inbound tethers.
import ZprCore.Dock.Tables

/-!
# Adapter lookup tables

`adapter_tables.rs`. The endpoint lookup table maps the flows of the local actor to tethers, or
to the bind request that has been sent for them. It keeps an index of these requests by
transaction. `EltMaps` are these two maps with the calls of the source, whose assertions may fire
and whose `insert_pending` may leave the maps in disagreement. Callers draw their transactions from
those that are not pending; for them the table is the `EndpointLookupTable`, which has the agreement
as a field.
-/

namespace ZprCore.Adapter

open ZprCore.Flow

export Dock (StreamId TxnId)

/-! ## Security between adapters -/

/-- What adapters use of other crates to secure packets between them: BLAKE3, and the size of a
    security association id. -/
structure A2a where
  saidSize : Nat
  /-- `blake3::derive_key` in the context `ZDP_A2A_MICV_KEY_CONTEXT` -/
  deriveKey : Bytes → Bytes
  keyedHash : Bytes → Bytes → Vector UInt8 32
  hash : Bytes → Vector UInt8 32

variable {f : FiveTuple} {txn : TxnId} {pkt : Bytes} {pep : EltPep} {m : EltMaps}

namespace A2a

def macSize : Nat := 8

/-- The integrity check value of a packet, which is truncated for the wire. -/
def micv (a2a : A2a) (key : Option Bytes) (body : Bytes) : Bytes :=
  let hash := match key with
    | some key => a2a.keyedHash key body
    | none => a2a.hash body
  hash.toList.take macSize

@[simp] theorem length_micv (a2a : A2a) (key : Option Bytes) (body : Bytes) :
    (a2a.micv key body).length = macSize := by
  simp [micv, macSize]

/-- `ZdpA2aHeader` of the only security association there is. -/
def header (a2a : A2a) : Bytes := List.replicate a2a.saidSize 0

end A2a

/-! ## Outbound tethers -/

structure EltPep where
  compressionMode : CompressionMode
  tetherId : StreamId
  a2aSharedSecret : Option Bytes
  a2aMicvKey : Option Bytes
deriving DecidableEq

def EltPep.new (a2a : A2a) (compressionMode : CompressionMode) (tetherId : StreamId)
    (a2aSharedSecret : Option Bytes) : EltPep where
  compressionMode := compressionMode
  tetherId := tetherId
  a2aSharedSecret := a2aSharedSecret
  a2aMicvKey := a2aSharedSecret.map a2a.deriveKey

inductive EltEntry where
  /-- The packet that waits for the tether, and the transaction of the request. Handles all
      belong to the manager of the dock link. -/
  | pending (pkt : Bytes) (txn : TxnId)
  | active (pep : EltPep)
deriving DecidableEq

def EltEntry.isTether (tether : StreamId) : EltEntry → Bool
  | .active pep => pep.tetherId = tether
  | .pending .. => false

section Paired

variable {table table' : Table FiveTuple EltEntry} {pending : Table TxnId FiveTuple}

/-- The table and the index of its requests are in bijection. -/
def Paired (table : Table FiveTuple EltEntry) (pending : Table TxnId FiveTuple) : Prop :=
  ∀ txn f, pending.lookup txn = some f ↔ ∃ pkt, table.lookup f = some (.pending pkt txn)

namespace Paired

variable (h : Paired table pending)
include h

theorem insert (hf : table.lookup f = none) (ht : pending.lookup txn = none) :
    Paired (table.insert f (.pending pkt txn)) (pending.insert txn f) := by
  intro t g
  simp only [Table.lookup_insert]
  have hnone (pkt' : Bytes) : table.lookup g ≠ some (.pending pkt' txn) := fun hg => by
    rw [(h txn g).mpr ⟨pkt', hg⟩] at ht
    cases ht
  by_cases htxn : t = txn <;> by_cases hfg : g = f
  · simp [htxn, hfg]
  · simp [htxn, hfg, Ne.symm hfg, hnone]
  · have hfree : pending.lookup t ≠ some f := fun hp => by
      obtain ⟨pkt', hg⟩ := (h t f).mp hp
      rw [hf] at hg
      cases hg
    simp [htxn, hfg, Ne.symm htxn, hfree]
  · simp [htxn, hfg, h t g]

/-- The request of a flow goes out of the index and something else is in its place. -/
theorem close (hget : table.lookup f = some (.pending pkt txn))
    (hothers : ∀ g, g ≠ f → table'.lookup g = table.lookup g)
    (hclosed : ∀ pkt t, table'.lookup f ≠ some (.pending pkt t)) :
    Paired table' (pending.erase txn) := by
  intro t g
  rw [Table.lookup_erase]
  by_cases hgf : g = f
  · subst hgf
    have hfree : pending.lookup t = some g → t = txn := fun ht => by
      obtain ⟨pkt', hg'⟩ := (h t g).mp ht
      rw [hget] at hg'
      cases hg'
      rfl
    simp only [hclosed, exists_false, iff_false]
    split
    · exact nofun
    · next hne => exact fun ht => hne (hfree ht)
  · rw [hothers g hgf, ← h t g]
    split
    · next ht =>
      rw [ht, (h txn f).mpr ⟨pkt, hget⟩]
      simp [Ne.symm hgf]
    · rfl

theorem erase (hget : table.lookup f = some (.active pep)) : Paired (table.erase f) pending := by
  intro t g
  rw [Table.lookup_erase, h t g]
  split
  · next hg =>
    rw [hg, hget]
    simp
  · rfl

end Paired

end Paired

/-! ## The maps of the table -/

inductive InsertPendingError where
  | alreadyPending
  | duplicateTransaction
deriving DecidableEq

structure EltMaps where
  table : Table FiveTuple EltEntry
  pending : Table TxnId FiveTuple

inductive EltCall where
  | insertPending (f : FiveTuple) (pkt : Bytes) (txn : TxnId)
  | setActive (f : FiveTuple) (pep : EltPep)
  | remove (f : FiveTuple)
  | removeByTetherId (tether : StreamId)
  | clear

namespace EltMaps

def new : EltMaps := ⟨∅, ∅⟩

def insertPending (m : EltMaps) (f : FiveTuple) (pkt : Bytes) (txn : TxnId) :
    EltMaps × Except InsertPendingError Unit :=
  match m.table.lookup f with
  | some _ => (m, .error .alreadyPending)
  | none =>
    let pending := m.pending.insert txn f
    if (m.pending.lookup txn).isSome then (⟨m.table, pending⟩, .error .duplicateTransaction)
    else (⟨m.table.insert f (.pending pkt txn), pending⟩, .ok ())

/-- Take a request out of the index; `none` is an "ELT consistency error". -/
def removePending (m : EltMaps) (f : FiveTuple) (txn : TxnId) : Option EltMaps :=
  if m.pending.lookup txn = some f then some { m with pending := m.pending.erase txn } else none

def setActive (m : EltMaps) (f : FiveTuple) (pep : EltPep) : Option EltMaps :=
  match m.table.lookup f with
  | some (.pending _ txn) => removePending { m with table := m.table.insert f (.active pep) } f txn
  | _ => some m

def remove (m : EltMaps) (f : FiveTuple) : Option EltMaps :=
  match m.table.lookup f with
  | none => some m
  | some (.pending _ txn) => removePending { m with table := m.table.erase f } f txn
  | some (.active _) => some { m with table := m.table.erase f }

/-- One call; `none` is a panic. The flows of a table come in the order of `keys` when they are
    gone through. -/
def step (keys : Table FiveTuple EltEntry → List FiveTuple) (m : EltMaps) :
    EltCall → Option EltMaps
  | .insertPending f pkt txn => some (m.insertPending f pkt txn).1
  | .setActive f pep => m.setActive f pep
  | .remove f => m.remove f
  | .removeByTetherId tether =>
    match (keys m.table).find? fun f => (m.table.lookup f).any (EltEntry.isTether tether) with
    | none => some m
    | some f => m.remove f
  | .clear => (keys m.table).foldlM remove m

/-- A request for a new flow comes with a transaction that is not pending. -/
def Fresh (m : EltMaps) : EltCall → Prop
  | .insertPending f _ txn => m.table.lookup f = none → m.pending.lookup txn = none
  | _ => True

instance (m : EltMaps) : (c : EltCall) → Decidable (Fresh m c)
  | .insertPending .. => inferInstanceAs (Decidable (_ → _))
  | .setActive .. | .remove _ | .removeByTetherId _ | .clear => isTrue trivial

/-- An `insert_pending` that returns an error. -/
def Fails (m : EltMaps) : EltCall → Prop
  | .insertPending f pkt txn => (m.insertPending f pkt txn).2 ≠ .ok ()
  | _ => False

/-- The call does not panic, the maps agree after it, and it changes nothing if it fails. -/
def Consistent (keys : Table FiveTuple EltEntry → List FiveTuple) (m : EltMaps) (c : EltCall) :
    Prop :=
  ∃ m', m.step keys c = some m' ∧ Paired m'.table m'.pending ∧ (m.Fails c → m' = m)

section

variable {keys : Table FiveTuple EltEntry → List FiveTuple} (h : Paired m.table m.pending)
include h

theorem remove_paired : ∃ m', m.remove f = some m' ∧ Paired m'.table m'.pending := by
  unfold remove
  split
  · exact ⟨m, rfl, h⟩
  · next hget =>
    refine ⟨_, if_pos ((h _ _).mpr ⟨_, hget⟩), h.close hget (fun g hg => ?_) fun _ _ => ?_⟩
    · rw [Table.lookup_erase, if_neg hg]
    · rw [Table.lookup_erase, if_pos rfl]
      exact nofun
  · next hget => exact ⟨_, rfl, h.erase hget⟩

theorem setActive_paired :
    ∃ m', m.setActive f pep = some m' ∧ Paired m'.table m'.pending := by
  unfold setActive
  split
  · next hget =>
    refine ⟨_, if_pos ((h _ _).mpr ⟨_, hget⟩), h.close hget (fun g hg => ?_) fun _ _ => ?_⟩
    · rw [Table.lookup_insert, if_neg hg]
    · rw [Table.lookup_insert, if_pos rfl]
      exact nofun
  · exact ⟨m, rfl, h⟩

theorem foldlM_remove_paired (fs : List FiveTuple) :
    ∃ m', fs.foldlM remove m = some m' ∧ Paired m'.table m'.pending := by
  induction fs generalizing m with
  | nil => exact ⟨m, rfl, h⟩
  | cons f fs ih =>
    obtain ⟨m', hm, h'⟩ := remove_paired h
    rw [List.foldlM_cons, hm]
    exact ih h'

theorem step_consistent_iff (c : EltCall) : Consistent keys m c ↔ Fresh m c := by
  have hkept (hr : ∃ m', m.step keys c = some m' ∧ Paired m'.table m'.pending)
      (hfails : ¬m.Fails c) : Consistent keys m c := by
    obtain ⟨m', hm, h'⟩ := hr
    exact ⟨m', hm, h', fun hf => absurd hf hfails⟩
  cases c with
  | insertPending f pkt txn =>
    simp only [Consistent, step, Fails, Fresh, insertPending]
    cases hf : m.table.lookup f with
    | some e => simp [h]
    | none =>
      cases ht : m.pending.lookup txn with
      | none => simp [h.insert hf ht]
      | some g =>
        -- the index leads to a flow that has no entry
        have hdouble : ¬Paired m.table (m.pending.insert txn f) := fun h' => by
          obtain ⟨pkt', hget⟩ := (h' txn f).mp (by rw [Table.lookup_insert, if_pos rfl])
          rw [hf] at hget
          cases hget
        simp [hdouble]
  | setActive f pep => exact iff_of_true (hkept (setActive_paired h) id) trivial
  | remove f => exact iff_of_true (hkept (remove_paired h) id) trivial
  | removeByTetherId tether =>
    refine iff_of_true (hkept ?_ id) trivial
    rw [step]
    split
    · exact ⟨m, rfl, h⟩
    · exact remove_paired h
  | clear => exact iff_of_true (hkept (foldlM_remove_paired h _) id) trivial

end

/-- The maps agree and every call is consistent as long as no new flow is requested with a pending
    transaction, and such a request is not. -/
theorem calls_consistent_iff {keys : Table FiveTuple EltEntry → List FiveTuple} {m : EltMaps}
    (h : Run (step keys) (· = new) Fresh m) :
    Paired m.table m.pending ∧ ∀ c, Consistent keys m c ↔ Fresh m c := by
  have hpaired : Paired m.table m.pending := by
    refine h.invariant (P := fun m => Paired m.table m.pending) ?_ fun m c m' h hfresh hstep => ?_
    · rintro _ rfl
      exact fun _ _ => by simp [new]
    · obtain ⟨_, hm, hp, -⟩ := (step_consistent_iff h c).mpr hfresh
      cases hstep.symm.trans hm
      exact hp
  exact ⟨hpaired, step_consistent_iff hpaired⟩

def sampleFlow (srcPort : UInt16) : FiveTuple := { FiveTuple.zeroed with srcPort }

/-- Three flows are requested; the first one gets a tether, and the request of the third is given up. -/
theorem calls_consistent_requested :
    ∃ m, Run (step AList.keys) (· = new) Fresh m ∧
      m.table.lookup (sampleFlow 1) = some (.active ⟨⟨true, true⟩, 7, none, none⟩) ∧
      m.table.lookup (sampleFlow 2) = some (.pending [2] 1) ∧ m.pending.lookup 2 = none ∧
      Consistent AList.keys m (.insertPending (sampleFlow 3) [3] 0) ∧
      Consistent AList.keys m (.removeByTetherId 7) ∧ Consistent AList.keys m .clear := by
  refine Run.reaches_imp (P := fun m =>
    m.table.lookup (sampleFlow 1) = some (.active ⟨⟨true, true⟩, 7, none, none⟩) ∧
    m.table.lookup (sampleFlow 2) = some (.pending [2] 1) ∧ m.pending.lookup 2 = none ∧
    m.Fresh (.insertPending (sampleFlow 3) [3] 0)) rfl
    [.insertPending (sampleFlow 1) [1] 0, .insertPending (sampleFlow 2) [2] 1,
      .insertPending (sampleFlow 3) [3] 2, .setActive (sampleFlow 1) ⟨⟨true, true⟩, 7, none, none⟩,
      .remove (sampleFlow 3)] (by decide +kernel) ?_
  rintro m h ⟨hactive, hpending, hgiven, hfresh⟩
  have hall := (calls_consistent_iff h).2
  exact ⟨hactive, hpending, hgiven, (hall _).mpr hfresh, (hall _).mpr trivial, (hall _).mpr trivial⟩

/-- The request for a second flow has the transaction of the first. It fails, but now the index
    leads to the second flow, and the response for the first one panics. -/
theorem duplicate_transaction_panics :
    ∃ m f m', Run (step AList.keys) (· = new) Fresh m ∧
      m.insertPending f [] 0 = (m', .error .duplicateTransaction) ∧
      m'.pending.lookup 0 ≠ m.pending.lookup 0 ∧ ∀ pep, m'.setActive .zeroed pep = none :=
  ⟨_, { FiveTuple.zeroed with srcPort := 1 }, _,
    .next (.start rfl) (fun _ => rfl) (a := .insertPending .zeroed [] 0) rfl, rfl, by decide, fun _ => rfl⟩

end EltMaps

/-! ## The table -/

namespace Paired

variable {m' : EltMaps} (h : Paired m.table m.pending)
include h

theorem of_insertPending (hins : m.insertPending f pkt txn = (m', .ok ())) :
    Paired m'.table m'.pending := by
  unfold EltMaps.insertPending at hins
  split at hins
  · cases hins
  next hf =>
  dsimp only at hins
  split at hins
  · cases hins
  · next ht =>
    cases hins
    exact h.insert hf (Option.not_isSome_iff_eq_none.mp ht)

theorem of_setActive (hset : m.setActive f pep = some m') : Paired m'.table m'.pending := by
  obtain ⟨_, hset', hp⟩ := EltMaps.setActive_paired h
  cases hset.symm.trans hset'
  exact hp

theorem of_remove (hrem : m.remove f = some m') : Paired m'.table m'.pending := by
  obtain ⟨_, hrem', hp⟩ := EltMaps.remove_paired h
  cases hrem.symm.trans hrem'
  exact hp

end Paired

structure EndpointLookupTable extends EltMaps where
  paired : Paired table pending

namespace EndpointLookupTable

variable {elt : EndpointLookupTable} {g : FiveTuple} {elt' : EndpointLookupTable} {e : EltEntry}

def new : EndpointLookupTable where
  toEltMaps := .new
  paired := fun _ _ => by simp [EltMaps.new]

/-- A pending transaction is refused before it is in the index. -/
def insertPending (elt : EndpointLookupTable) (f : FiveTuple) (pkt : Bytes) (txn : TxnId) :
    Except InsertPendingError EndpointLookupTable :=
  match h : elt.toEltMaps.insertPending f pkt txn with
  | (m, .ok ()) => .ok ⟨m, elt.paired.of_insertPending h⟩
  | (_, .error err) => .error err

def lookupPending (elt : EndpointLookupTable) (txn : TxnId) : Option FiveTuple :=
  elt.pending.lookup txn

/-- `none` is one of the two errors, for a flow without an entry or with an active one. -/
def setActive (elt : EndpointLookupTable) (f : FiveTuple) (pep : EltPep) :
    Option (EndpointLookupTable × Bytes) :=
  match elt.table.lookup f, h : elt.toEltMaps.setActive f pep with
  | some (.pending pkt _), some m => some (⟨m, elt.paired.of_setActive h⟩, pkt)
  | _, _ => none

def remove (elt : EndpointLookupTable) (f : FiveTuple) : Option (EndpointLookupTable × EltEntry) :=
  match elt.table.lookup f, h : elt.toEltMaps.remove f with
  | some entry, some m => some (⟨m, elt.paired.of_remove h⟩, entry)
  | _, _ => none

/-- The flow of the first active entry for the tether goes. The order in which the source looks
    through its map is left open there. -/
def removeByTetherId (elt : EndpointLookupTable) (tether : StreamId) : EndpointLookupTable :=
  match elt.table.entries.find? fun e => EltEntry.isTether tether e.2 with
  | none => elt
  | some e => ((elt.remove e.1).map (·.1)).getD elt

theorem lookup_insertPending (h : elt.insertPending f pkt txn = .ok elt') :
    elt'.table.lookup g = if g = f then some (.pending pkt txn) else elt.table.lookup g := by
  unfold insertPending at h
  split at h
  · next hins =>
    cases h
    unfold EltMaps.insertPending at hins
    split at hins
    · cases hins
    split at hins
    · cases hins
    · cases hins
      exact Table.lookup_insert ..
  · cases h

theorem lookup_setActive (h : elt.setActive f pep = some (elt', pkt)) :
    elt'.table.lookup g = if g = f then some (.active pep) else elt.table.lookup g := by
  unfold setActive at h
  split at h
  · next txn m hget hset =>
    cases h
    simp only [EltMaps.setActive, hget, EltMaps.removePending] at hset
    split at hset
    · cases hset
      exact Table.lookup_insert ..
    · cases hset
  · cases h

theorem lookup_remove (h : elt.remove f = some (elt', e)) :
    elt'.table.lookup g = if g = f then none else elt.table.lookup g := by
  unfold remove at h
  split at h
  · next m hget hrem =>
    cases h
    cases e with
    | pending =>
      simp only [EltMaps.remove, hget, EltMaps.removePending] at hrem
      split at hrem
      · cases hrem
        exact Table.lookup_erase ..
      · cases hrem
    | active =>
      simp only [EltMaps.remove, hget] at hrem
      cases hrem
      exact Table.lookup_erase ..
  · cases h

theorem lookup_removeByTetherId {tether : StreamId}
    (h : (elt.removeByTetherId tether).table.lookup g = some e) : elt.table.lookup g = some e := by
  unfold removeByTetherId at h
  split at h
  · exact h
  next found _ =>
  cases hr : elt.remove found.1 with
  | none =>
    rw [hr] at h
    exact h
  | some removed =>
    rw [hr] at h
    change removed.1.table.lookup g = some e at h
    rw [lookup_remove hr] at h
    exact (Option.ite_none_left_eq_some.mp h).2

end EndpointLookupTable

/-! ## Inbound tethers -/

structure DltPep where
  tc : Ip5TupleTc
  a2aSharedSecret : Option Bytes
  a2aMicvKey : Option Bytes
deriving DecidableEq

abbrev DockLookupTable := Table StreamId DltPep

end ZprCore.Adapter
