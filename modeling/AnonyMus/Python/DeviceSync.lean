import AnonyMus.Lib.Simulation
import AnonyMus.Python.DoubleRatchet
import Mathlib.Data.Finset.Basic
import Mathlib.Data.Finset.Lattice.Lemmas
import Mathlib.Data.List.DropRight

/-!
# Python core — envelopes of linked devices

`core/sync.py`: a manager takes the envelopes of its owner's devices. It refuses
what is not fresh, and remembers the sequence ids of the envelopes that it has
applied last, as many as the capability tier of its machine allows.

* `processIncomingEnvelope` — the code, with the value of `time.time()`;
* `ExactlyOnce` — an envelope is applied once while its timestamp is accepted, and
  is never taken for that of another device;
* `Remembered` — no envelope comes again after so many others, and none has the
  sequence id of a recent one of another device;
* `exactlyOnce_of_remembered` — every such run applies each envelope once;
* `coinciding_ids` — two devices count alike.
-/

namespace AnonyMus.Python.DeviceSync

open EStateM

/-! ## The manager -/

inductive CapabilityTierLevel
  | l0 | l1 | l2 | l3
deriving DecidableEq

/-- In `TIER_PROFILES`. -/
def CapabilityTierLevel.maxInMemoryMessages : CapabilityTierLevel → ℕ
  | l0 => 50
  | l1 => 250
  | l2 => 1000
  | l3 => 5000

/-- What is used of `float`. -/
structure FloatOps (τ : Type) where
  ofNat : ℕ → τ
  sub   : τ → τ → τ
  abs   : τ → τ
  lt    : τ → τ → Bool

structure SyncEnvelope (τ : Type) where
  deviceId            : String
  ownerOnion          : String
  payloadType         : String
  encryptedPayloadB64 : String
  nonceB64            : String
  timestamp           : τ
  sequenceId          : ℤ
deriving DecidableEq

structure MultiDeviceSyncManager where
  ownerOnion           : String
  deviceId             : String
  syncedDevices        : Finset String := ∅
  processedSequenceIds : Finset ℤ := ∅
  sequenceFifo         : List ℤ := []
  capabilityProfile    : CapabilityTierLevel

inductive Status
  | duplicate (sequenceId : ℤ)
  | applied (type : String) (sequenceId : ℤ)
deriving DecidableEq

def registerPairedDevice (pairedDeviceId : String) (m : MultiDeviceSyncManager) :
    MultiDeviceSyncManager :=
  { m with syncedDevices := insert pairedDeviceId m.syncedDevices }

def isDeviceAuthorized (m : MultiDeviceSyncManager) (deviceId : String) : Bool :=
  deviceId = m.deviceId ∨ deviceId ∈ m.syncedDevices

/-- The `while` loop: the oldest ids go until there is room. -/
def evict (maxItems : ℕ) : List ℤ → Finset ℤ → List ℤ × Finset ℤ
  | [], ids => ([], ids)
  | oldest :: rest, ids =>
    if maxItems ≤ (oldest :: rest).length then evict maxItems rest (ids.erase oldest)
    else (oldest :: rest, ids)

/-- The manager after it has applied an envelope with the id. -/
def remember (sequenceId : ℤ) (m : MultiDeviceSyncManager) : MultiDeviceSyncManager :=
  let (fifo, ids) := evict m.capabilityProfile.maxInMemoryMessages m.sequenceFifo
    m.processedSequenceIds
  { m with
    sequenceFifo         := fifo ++ [sequenceId]
    processedSequenceIds := insert sequenceId ids }

section

variable {τ : Type} (F : FloatOps τ)

def outOfBounds (now timestamp : τ) : Bool := F.lt (F.ofNat 300) (F.abs (F.sub now timestamp))

def processIncomingEnvelope (envelope : SyncEnvelope τ) (now : τ) :
    EStateM PyError MultiDeviceSyncManager Status := do
  let m ← get
  if isDeviceAuthorized m envelope.deviceId then
    if envelope.sequenceId ∈ m.processedSequenceIds then
      return .duplicate envelope.sequenceId
    else if outOfBounds F now envelope.timestamp then
      throw (.valueError "Sync envelope timestamp out of acceptable bounds")
    else
      set (remember envelope.sequenceId m)
      return .applied envelope.payloadType envelope.sequenceId
  else
    throw (.valueError ("Device " ++ envelope.deviceId ++ " is not authorized for sync"))

/-- What becomes of an envelope. -/
theorem process_cases (envelope : SyncEnvelope τ) (now : τ) (m : MultiDeviceSyncManager) :
    (isDeviceAuthorized m envelope.deviceId ∧ ¬ outOfBounds F now envelope.timestamp ∧
      envelope.sequenceId ∉ m.processedSequenceIds ∧
      processIncomingEnvelope F envelope now m =
        .ok (.applied envelope.payloadType envelope.sequenceId) (remember envelope.sequenceId m)) ∨
    (envelope.sequenceId ∈ m.processedSequenceIds ∧
      processIncomingEnvelope F envelope now m = .ok (.duplicate envelope.sequenceId) m) ∨
    ¬ (isDeviceAuthorized m envelope.deviceId ∧ ¬ outOfBounds F now envelope.timestamp) ∧
      ∃ e, processIncomingEnvelope F envelope now m = .error e m := by
  unfold processIncomingEnvelope
  rw [apply_bind, apply_get]
  dsimp only
  split_ifs with hdevice hmem hlate
  · exact .inr (.inl ⟨hmem, rfl⟩)
  · exact .inr (.inr ⟨fun h => h.2 hlate, _, rfl⟩)
  · exact .inl ⟨hdevice, hlate, hmem, rfl⟩
  · exact .inr (.inr ⟨fun h => hdevice h.1, _, rfl⟩)

end

/-! ## What is remembered -/

section

variable {α β : Type}

theorem rtake_map (f : α → β) (n : ℕ) (l : List α) : (l.map f).rtake n = (l.rtake n).map f := by
  unfold List.rtake
  rw [List.length_map, List.map_drop]

theorem rtake_of_length_le {n : ℕ} {l : List α} (h : l.length ≤ n) : l.rtake n = l := by
  unfold List.rtake
  rw [Nat.sub_eq_zero_of_le h, List.drop_zero]

theorem rtake_cons_of_le {n : ℕ} {x : α} {l : List α} (h : n ≤ l.length) :
    (x :: l).rtake n = l.rtake n := by
  unfold List.rtake
  rw [List.length_cons, Nat.succ_sub h, List.drop_succ_cons]

theorem rtake_rtake_succ (n : ℕ) (l : List α) : (l.rtake (n + 1)).rtake n = l.rtake n := by
  unfold List.rtake
  rw [List.drop_drop, List.length_drop]
  congr 1
  omega

/-- The loop keeps the last ids, and the set of these. -/
theorem evict_eq (n : ℕ) {fifo : List ℤ} (hnodup : fifo.Nodup) :
    evict (n + 1) fifo fifo.toFinset = (fifo.rtake n, (fifo.rtake n).toFinset) := by
  induction fifo with
  | nil =>
    rw [List.rtake_nil]
    rfl
  | cons oldest rest ih =>
    obtain ⟨hnot, hrest⟩ := List.nodup_cons.mp hnodup
    unfold evict
    split_ifs with hroom
    · have herase : (oldest :: rest).toFinset.erase oldest = rest.toFinset := by
        rw [List.toFinset_cons, Finset.erase_insert (by rwa [List.mem_toFinset])]
      rw [herase, ih hrest, rtake_cons_of_le (Nat.le_of_succ_le_succ hroom)]
    · rw [rtake_of_length_le (Nat.le_of_lt_succ (Nat.lt_of_not_le hroom))]

end

/-! ## Runs -/

section

variable {τ : Type}

inductive SyncEvent (τ : Type)
  | registerPairedDevice (pairedDeviceId : String)
  | incoming (envelope : SyncEnvelope τ) (now : τ)

structure Applied (τ : Type) where
  envelope : SyncEnvelope τ
  now      : τ
deriving DecidableEq

/-- A manager, and the envelopes that it has answered with `applied`. -/
structure Synced (τ : Type) where
  manager : MultiDeviceSyncManager
  applied : List (Applied τ) := []

def SyncEvent.step (F : FloatOps τ) : SyncEvent τ → Synced τ → Synced τ
  | registerPairedDevice pairedDeviceId, w =>
    { w with manager := DeviceSync.registerPairedDevice pairedDeviceId w.manager }
  | incoming envelope now, w =>
    match processIncomingEnvelope F envelope now w.manager with
    | .ok (.applied _ _) m => ⟨m, w.applied ++ [⟨envelope, now⟩]⟩
    | .ok (.duplicate _) m => { w with manager := m }
    | .error _ m => { w with manager := m }

/-- The event as an action that cannot fail. -/
def SyncEvent.run (F : FloatOps τ) (e : SyncEvent τ) : EStateM Empty (Synced τ) Unit :=
  modify (e.step F)

/-- An envelope is known by its device id, sequence id and payload. -/
def SyncEnvelope.Same (e e' : SyncEnvelope τ) : Prop :=
  e.deviceId = e'.deviceId ∧ e.sequenceId = e'.sequenceId ∧
    e.encryptedPayloadB64 = e'.encryptedPayloadB64

variable (F : FloatOps τ)

/-- An envelope that comes from an authorized device while its timestamp is accepted. -/
def Accepted (w : Synced τ) (envelope : SyncEnvelope τ) (now : τ) : Prop :=
  isDeviceAuthorized w.manager envelope.deviceId ∧ ¬ outOfBounds F now envelope.timestamp

structure ExactlyOnce (events : List (SyncEvent τ)) (w₀ : Synced τ) : Prop where
  /-- When an envelope is applied again, its first timestamp has run out. -/
  once : (after (SyncEvent.run F) events w₀).applied.Pairwise fun a b =>
    a.envelope.Same b.envelope → outOfBounds F b.now a.envelope.timestamp
  /-- What is not applied has the sequence id of an earlier envelope of its own device. -/
  each : ∀ done envelope now todo, events = done ++ .incoming envelope now :: todo →
    Accepted F (after (SyncEvent.run F) done w₀) envelope now →
      ⟨envelope, now⟩ ∈ (after (SyncEvent.run F) (done ++ [.incoming envelope now]) w₀).applied ∨
      ∃ a ∈ (after (SyncEvent.run F) done w₀).applied,
        a.envelope.deviceId = envelope.deviceId ∧ a.envelope.sequenceId = envelope.sequenceId

/-- The envelopes that were applied last, as many as are remembered. -/
def Synced.recent (w : Synced τ) : List (Applied τ) :=
  w.applied.rtake w.manager.capabilityProfile.maxInMemoryMessages

/-- When an envelope is accepted: if it has been applied within the time of its first timestamp, it
is among the recent ones, and none of these has its sequence id and comes from another device. -/
def Remembered : SyncEvent τ → Synced τ → Prop
  | .registerPairedDevice _, _ => True
  | .incoming envelope now, w => Accepted F w envelope now →
    (∀ a ∈ w.applied, a.envelope.Same envelope → ¬ outOfBounds F now a.envelope.timestamp →
      a ∈ w.recent) ∧
    ∀ a ∈ w.recent, a.envelope.sequenceId = envelope.sequenceId →
      a.envelope.deviceId = envelope.deviceId

/-- The memory holds the ids of the recent envelopes. -/
structure Synced.Sound (w : Synced τ) : Prop where
  fifo  : w.manager.sequenceFifo = w.recent.map fun a => a.envelope.sequenceId
  ids   : w.manager.processedSequenceIds = w.manager.sequenceFifo.toFinset
  nodup : w.manager.sequenceFifo.Nodup
  once  : w.applied.Pairwise fun a b =>
    a.envelope.Same b.envelope → outOfBounds F b.now a.envelope.timestamp

variable {F} {w : Synced τ}

theorem Synced.Sound.mem_ids_iff (h : w.Sound F) (sequenceId : ℤ) :
    sequenceId ∈ w.manager.processedSequenceIds ↔
      ∃ a ∈ w.recent, a.envelope.sequenceId = sequenceId := by
  rw [h.ids, h.fifo, List.mem_toFinset, List.mem_map]

theorem maxInMemoryMessages_pos (tier : CapabilityTierLevel) : 0 < tier.maxInMemoryMessages := by
  cases tier <;> decide

/-- The memory after one more envelope. -/
theorem Synced.Sound.remember (h : w.Sound F) {envelope : SyncEnvelope τ} {now : τ}
    (hnew : envelope.sequenceId ∉ w.manager.processedSequenceIds)
    (honce : ∀ a ∈ w.applied, a.envelope.Same envelope → outOfBounds F now a.envelope.timestamp) :
    Synced.Sound F ⟨DeviceSync.remember envelope.sequenceId w.manager,
      w.applied ++ [⟨envelope, now⟩]⟩ := by
  obtain ⟨n, hn⟩ := Nat.exists_eq_succ_of_ne_zero
    (Nat.ne_of_gt (maxInMemoryMessages_pos w.manager.capabilityProfile))
  have hevict := evict_eq n h.nodup
  have hrecent : w.manager.sequenceFifo.rtake n =
      (w.applied.rtake n).map fun a => a.envelope.sequenceId := by
    rw [h.fifo, Synced.recent, hn, rtake_map, rtake_rtake_succ]
  have hremember : DeviceSync.remember envelope.sequenceId w.manager =
      { w.manager with
        sequenceFifo         := w.manager.sequenceFifo.rtake n ++ [envelope.sequenceId]
        processedSequenceIds :=
          insert envelope.sequenceId (w.manager.sequenceFifo.rtake n).toFinset } := by
    unfold DeviceSync.remember
    rw [hn, h.ids, hevict]
  have hsub : w.manager.sequenceFifo.rtake n <:+ w.manager.sequenceFifo := List.drop_suffix _ _
  rw [hremember]
  constructor
  · show _ ++ [_] = ((w.applied ++ [_]).rtake w.manager.capabilityProfile.maxInMemoryMessages).map _
    rw [hn, List.rtake_concat_succ, List.map_append, hrecent]
    rfl
  · show insert _ _ = (_ ++ [_]).toFinset
    rw [List.toFinset_append, Finset.union_comm]
    rfl
  · -- the new id is not among those that stay
    show (_ ++ [_]).Nodup
    rw [List.nodup_append]
    refine ⟨h.nodup.sublist hsub.sublist, List.nodup_singleton _, ?_⟩
    intro id hid id' hid' heq
    rw [List.mem_singleton.mp hid'] at heq
    rw [h.ids, List.mem_toFinset, ← heq] at hnew
    exact hnew (hsub.subset hid)
  · show (w.applied ++ [_]).Pairwise _
    rw [List.pairwise_append]
    refine ⟨h.once, List.pairwise_singleton _ _, ?_⟩
    intro a ha b hb
    rw [List.mem_singleton.mp hb]
    exact honce a ha

theorem sound_step (e : SyncEvent τ) (h : w.Sound F) (hremembered : Remembered F e w) :
    (e.step F w).Sound F := by
  rcases e with pairedDeviceId | ⟨envelope, now⟩
  · exact ⟨h.fifo, h.ids, h.nodup, h.once⟩
  · unfold SyncEvent.step
    dsimp only
    rcases process_cases F envelope now w.manager with ⟨hdevice, hfresh, hnew, heq⟩ | ⟨-, heq⟩ |
      ⟨-, e, heq⟩
    · rw [heq]
      refine h.remember hnew fun a ha hsame => ?_
      by_contra hfirst
      -- it would be among the recent ones, and so its id would be known
      have hrecent := (hremembered ⟨hdevice, hfresh⟩).1 a ha hsame hfirst
      exact hnew ((h.mem_ids_iff _).mpr ⟨a, hrecent, hsame.2.1⟩)
    · rw [heq]
      exact h
    · rw [heq]
      exact h

/-- What an accepted envelope comes to. -/
theorem applied_or_known (h : w.Sound F) {envelope : SyncEnvelope τ} {now : τ}
    (haccepted : Accepted F w envelope now)
    (hremembered : Remembered F (.incoming envelope now) w) :
    ⟨envelope, now⟩ ∈ ((SyncEvent.incoming envelope now).step F w).applied ∨
      ∃ a ∈ w.applied, a.envelope.deviceId = envelope.deviceId ∧
        a.envelope.sequenceId = envelope.sequenceId := by
  rcases process_cases F envelope now w.manager with ⟨-, -, -, heq⟩ | ⟨hknown, -⟩ | ⟨hnot, -⟩
  · left
    unfold SyncEvent.step
    dsimp only
    rw [heq]
    exact List.mem_append_right _ (List.mem_singleton_self _)
  · right
    obtain ⟨a, ha, hid⟩ := (h.mem_ids_iff _).mp hknown
    exact ⟨a, List.mem_of_mem_drop ha, (hremembered haccepted).2 a ha hid, hid⟩
  · exact absurd haccepted hnot

/-- A manager that has not applied anything. -/
def Synced.fresh (ownerOnion deviceId : String) (tier : CapabilityTierLevel) : Synced τ :=
  { manager := { ownerOnion, deviceId, capabilityProfile := tier } }

theorem sound_fresh (ownerOnion deviceId : String) (tier : CapabilityTierLevel) :
    (Synced.fresh ownerOnion deviceId tier : Synced τ).Sound F where
  fifo  := by
    show [] = (([] : List (Applied τ)).rtake _).map _
    rw [List.rtake_nil]
    rfl
  ids   := rfl
  nodup := List.nodup_nil
  once  := .nil

end

/-- Every envelope is applied exactly once in a run where none comes again after so many others that
it is forgotten, and none has the sequence id of a recent envelope of another device. -/
theorem exactlyOnce_of_remembered {τ : Type} (F : FloatOps τ) (ownerOnion deviceId : String)
    (tier : CapabilityTierLevel) (events : List (SyncEvent τ))
    (hmeet : AllMeet (SyncEvent.run F) (Remembered F) events
      (Synced.fresh ownerOnion deviceId tier)) :
    ExactlyOnce F events (Synced.fresh ownerOnion deviceId tier) := by
  have hstep : ∀ e (w : Synced τ), w.Sound F → Remembered F e w →
      ((SyncEvent.run F e) w).state.Sound F := fun e w h hr => sound_step e h hr
  refine ⟨(AllMeet.invariant hstep hmeet (sound_fresh ownerOnion deviceId tier)).once, ?_⟩
  rintro done envelope now todo rfl haccepted
  obtain ⟨hdone, hremembered, -⟩ := (allMeet_append _).mp hmeet
  have hsound := AllMeet.invariant hstep hdone (sound_fresh ownerOnion deviceId tier)
  rw [after_append]
  exact applied_or_known hsound haccepted hremembered

/-! ## Samples -/

/-- Whole seconds. -/
def wholeSeconds : FloatOps ℤ where
  ofNat n := n
  sub a b := a - b
  abs a := a.natAbs
  lt a b := a < b

def sampleEnvelope (deviceId : String) (sequenceId : ℤ) : SyncEnvelope ℤ where
  deviceId            := deviceId
  ownerOnion          := "alice.onion"
  payloadType         := "contact_sync"
  encryptedPayloadB64 := "payload"
  nonceB64            := "nonce"
  timestamp           := 0
  sequenceId          := sequenceId

/-- Two devices, and one envelope that comes twice. -/
def sampleEvents : List (SyncEvent ℤ) :=
  [.registerPairedDevice "phone", .incoming (sampleEnvelope "laptop" 1) 0,
    .incoming (sampleEnvelope "phone" 2) 10, .incoming (sampleEnvelope "laptop" 1) 20]

theorem exactlyOnce_sampleEvents :
    AllMeet (SyncEvent.run wholeSeconds) (Remembered wholeSeconds) sampleEvents
        (Synced.fresh "alice.onion" "laptop" .l0) ∧
      ExactlyOnce wholeSeconds sampleEvents (Synced.fresh "alice.onion" "laptop" .l0) := by
  have hmeet : AllMeet (SyncEvent.run wholeSeconds) (Remembered wholeSeconds) sampleEvents
      (Synced.fresh "alice.onion" "laptop" .l0) := by
    refine ⟨trivial, fun _ => ⟨?_, ?_⟩, fun _ => ⟨?_, ?_⟩, fun _ => ⟨?_, ?_⟩, trivial⟩
    · intro a ha
      cases ha
    · intro a ha
      cases ha
    · exact fun a ha _ _ => ha
    · intro a ha hid
      obtain rfl := List.mem_singleton.mp ha
      exact absurd hid (by decide)
    · exact fun a ha _ _ => ha
    · -- of the two recent ones, only the envelope itself has its id
      intro a ha hid
      rcases List.mem_cons.mp ha with rfl | ha
      · rfl
      · obtain rfl := List.mem_singleton.mp ha
        exact absurd hid (by decide)
  exact ⟨hmeet, exactlyOnce_of_remembered wholeSeconds _ _ _ sampleEvents hmeet⟩

/-- The second device has the same sequence id. -/
theorem coinciding_ids :
    ¬ ExactlyOnce wholeSeconds
      [.registerPairedDevice "phone", .incoming (sampleEnvelope "laptop" 7) 0,
        .incoming (sampleEnvelope "phone" 7) 0] (Synced.fresh "alice.onion" "laptop" .l0) := by
  intro honce
  have heach := honce.each
    [.registerPairedDevice "phone", .incoming (sampleEnvelope "laptop" 7) 0]
    (sampleEnvelope "phone" 7) 0 [] rfl ⟨by decide, by decide⟩
  exact absurd heach (by decide)

end AnonyMus.Python.DeviceSync
