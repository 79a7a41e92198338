import AnonyMus.Lib.Interleave
import Mathlib.Data.Nat.Notation

/-!
# Web client — calls

`stores/calls.ts`, and the dispatch of call signals in `stores/messages.ts`. An
async function runs until its next `await`; what is awaited settles later, with
any result. `RTCPeerConnection` is what has been given to it; a candidate that the
constructor `RTCIceCandidate` would throw at counts as given.

* `Store`, `Task` — the state of the call, and the functions that wait;
* `startCall`, `answerCall`, `handleIncomingSignal`, `hangupCall`, `resume`;
* `unchanged_iff` — which signals of others leave a call alone;
* `calls_controlled` — a call is connected after an offer and an answer.
-/

namespace AnonyMus.Web.Calls

open Interleave

/-! ## State -/

inductive CallState
  | idle
  | calling
  | incoming
  | connected
deriving DecidableEq

/-- A signal, by its `type`; what is `undefined` is `none`. -/
inductive Signal
  | offer (sdp : Option String)
  | answer (sdp : Option String)
  | ice (candidate : Option String)
  | hangup
  | other
deriving DecidableEq

/-- What has been given to a peer connection. -/
structure PeerConnection where
  stream             : String
  localDescriptions  : List String
  remoteDescriptions : List Signal
  candidates         : List String
deriving DecidableEq

/-- The signals and variables of the store. -/
structure Call where
  callState       : CallState
  activePeerOnion : Option String
  localStream     : Option String
  remoteStream    : Option String
  peerConnection  : Option PeerConnection
  pendingOfferSdp : Option String
deriving DecidableEq

structure Store extends Call where
  /-- The signals that were handed to `sendMessage`. -/
  sent     : List (String × Signal)
  /-- For the proofs: how many calls have begun or ended, and with whom the offer and the answer of
  which of them were exchanged. -/
  call     : ℕ
  offered  : List (ℕ × String)
  answered : List (ℕ × String)
deriving DecidableEq

/-- Where an async function waits. -/
inductive Point
  -- startCall
  | startMedia
  | startOffer
  | startLocal (sdp : String)
  | startSent
  -- answerCall
  | answerMedia
  | answerRemote
  | answerCreate
  | answerLocal (sdp : String)
  | answerSent
  -- handleIncomingSignal
  | signalRemote
  | signalDone
deriving DecidableEq

/-- A function that waits, with its `peerOnion` and the call in which it began. -/
structure Task where
  peerOnion : String
  call      : ℕ
  point     : Point
deriving DecidableEq

def Call.idle : Call where
  callState := .idle
  activePeerOnion := none
  localStream := none
  remoteStream := none
  peerConnection := none
  pendingOfferSdp := none

def Store.init : Store where
  toCall := .idle
  sent := []
  call := 0
  offered := []
  answered := []

namespace Store

variable (s : Store)

/-! ## Functions -/

def cleanupCall : Store := { s with toCall := .idle, call := s.call + 1 }

def sendSignal (peerOnion : String) (signal : Signal) : Store :=
  { s with sent := s.sent ++ [(peerOnion, signal)] }

/-- `startCall` up to the wait for `getUserMedia`. -/
def startCall (peerOnion : String) : Store × Option Task :=
  if s.callState ≠ .idle then (s, none)
  else
    ({ s with callState := .calling, activePeerOnion := some peerOnion, call := s.call + 1 },
      some ⟨peerOnion, s.call + 1, .startMedia⟩)

/-- `answerCall` up to the wait for `getUserMedia`. -/
def answerCall : Store × Option Task :=
  match s.activePeerOnion with
  | none => (s, none)
  | some peerOnion =>
    if s.callState ≠ .incoming ∨ peerOnion = "" then (s, none)
    else (s, some ⟨peerOnion, s.call, .answerMedia⟩)

/-- `myOnion` is optional; an empty text is none. -/
def hangupCall (myOnion : Option String) : Store :=
  match s.activePeerOnion with
  | none => s.cleanupCall
  | some peerOnion =>
    if peerOnion ≠ "" ∧ myOnion.getD "" ≠ "" then (s.sendSignal peerOnion .hangup).cleanupCall
    else s.cleanupCall

/-- `handleIncomingSignal` up to its first wait. -/
def handleIncomingSignal (peerOnion : String) : Signal → Store × Option Task
  | .offer sdp =>
    if s.callState ≠ .idle then
      -- busy: auto-reject call
      (s.sendSignal peerOnion .hangup, some ⟨peerOnion, s.call, .signalDone⟩)
    else
      ({ s with
        callState := .incoming
        activePeerOnion := some peerOnion
        pendingOfferSdp := sdp
        call := s.call + 1
        offered := s.offered ++ [(s.call + 1, peerOnion)] }, none)
  | .answer sdp =>
    match s.peerConnection with
    | none => (s, none)
    | some pc =>
      if s.callState = .calling then
        ({ s with peerConnection := some { pc with
          remoteDescriptions := pc.remoteDescriptions ++ [.answer sdp] } },
          some ⟨peerOnion, s.call, .signalRemote⟩)
      else (s, none)
  | .ice candidate =>
    match s.peerConnection, candidate with
    | some pc, some candidate =>
      ({ s with peerConnection := some { pc with candidates := pc.candidates ++ [candidate] } },
        some ⟨peerOnion, s.call, .signalDone⟩)
    | _, _ => (s, none)
  | .hangup => (s.cleanupCall, none)
  | .other => (s, none)

/-- What follows a wait: what was awaited is resolved with a value, or what comes next throws. -/
def resume (task : Task) (outcome : Option String) : Store × Option Task :=
  let wait (point : Point) : Option Task := some { task with point := point }
  match task.point, outcome with
  | .startMedia, some stream =>
    ({ s with localStream := some stream, peerConnection := some ⟨stream, [], [], []⟩ },
      wait .startOffer)
  | .startOffer, some sdp =>
    match s.peerConnection with
    | none => (s.cleanupCall, none)
    | some pc =>
      ({ s with peerConnection := some { pc with
        localDescriptions := pc.localDescriptions ++ [sdp] } }, wait (.startLocal sdp))
  | .startLocal sdp, some _ =>
    ({ s.sendSignal task.peerOnion (.offer (some sdp)) with
      offered := s.offered ++ [(task.call, task.peerOnion)] }, wait .startSent)
  | .startSent, _ => (s, none)
  | .answerMedia, some stream =>
    match s.pendingOfferSdp with
    | none =>
      ({ s with localStream := some stream, peerConnection := some ⟨stream, [], [], []⟩ }, none)
    | some sdp =>
      if sdp = "" then
        ({ s with localStream := some stream, peerConnection := some ⟨stream, [], [], []⟩ }, none)
      else
        ({ s with
          localStream := some stream
          peerConnection := some ⟨stream, [], [.offer (some sdp)], []⟩ }, wait .answerRemote)
  | .answerRemote, some _ =>
    match s.peerConnection with
    | none => (s.cleanupCall, none)
    | some _ => (s, wait .answerCreate)
  | .answerCreate, some sdp =>
    match s.peerConnection with
    | none => (s.cleanupCall, none)
    | some pc =>
      ({ s with peerConnection := some { pc with
        localDescriptions := pc.localDescriptions ++ [sdp] } }, wait (.answerLocal sdp))
  | .answerLocal sdp, some _ =>
    (s.sendSignal task.peerOnion (.answer (some sdp)), wait .answerSent)
  | .answerSent, outcome =>
    -- sendMessage returns false when it fails, which is not looked at
    ({ s with
      callState := .connected
      answered := if outcome = none then s.answered
        else s.answered ++ [(task.call, task.peerOnion)] }, none)
  | .signalRemote, some _ =>
    ({ s with
      callState := .connected
      answered := s.answered ++ [(task.call, task.peerOnion)] }, none)
  | .signalRemote, none | .signalDone, _ => (s, none)
  | .startMedia, none | .startOffer, none | .startLocal _, none | .answerMedia, none
  | .answerRemote, none | .answerCreate, none | .answerLocal _, none => (s.cleanupCall, none)

end Store

/-! ## Runs -/

structure System where
  store : Store
  tasks : List Task

def System.init : System := ⟨.init, []⟩

def callPrefix : String := "__CALL_SIGNAL__:"

/-- The signal in a message, if it is one; `parse` is `JSON.parse`. -/
def callSignal (parse : String → Option Signal) (plaintext : String) : Option Signal :=
  if callPrefix.toList <+: plaintext.toList then
    parse (String.ofList (plaintext.toList.drop callPrefix.toList.length))
  else none

inductive Event
  | startCall (peerOnion : String)
  | answerCall
  | hangupCall (myOnion : Option String)
  /-- A message of a peer has been decrypted. -/
  | receiveMessage (peerOnion plaintext : String)
  | resume (i : ℕ) (outcome : Option String)
  /-- A connection gets a stream. -/
  | track (stream : String)

section

variable (parse : String → Option Signal)

/-- The store after a part of a function, which may wait. -/
def System.after (sys : System) (r : Store × Option Task) : System :=
  ⟨r.1, sys.tasks ++ r.2.toList⟩

def receiveMessage (s : Store) (peerOnion plaintext : String) : Store × Option Task :=
  match callSignal parse plaintext with
  | none => (s, none)
  | some signal => s.handleIncomingSignal peerOnion signal

def apply (sys : System) : Event → Option System
  | .startCall peerOnion => some (sys.after (sys.store.startCall peerOnion))
  | .answerCall => some (sys.after sys.store.answerCall)
  | .hangupCall myOnion => some (sys.after (sys.store.hangupCall myOnion, none))
  | .receiveMessage peerOnion plaintext =>
    some (sys.after (receiveMessage parse sys.store peerOnion plaintext))
  | .resume i outcome =>
    match sys.tasks[i]? with
    | none => none
    | some task => some (System.after ⟨sys.store, sys.tasks.eraseIdx i⟩ (sys.store.resume task outcome))
  | .track stream => some (sys.after ({ sys.store with remoteStream := some stream }, none))

variable {parse} in
/-- A function that goes on is one of those that wait. -/
theorem apply_resume {sys sys' : System} {i : ℕ} {outcome : Option String}
    (happly : apply parse sys (.resume i outcome) = some sys') :
    ∃ task, sys.tasks[i]? = some task ∧
      sys' = System.after ⟨sys.store, sys.tasks.eraseIdx i⟩ (sys.store.resume task outcome) := by
  simp only [apply] at happly
  cases htask : sys.tasks[i]? with
  | none =>
    rw [htask] at happly
    cases happly
  | some task =>
    rw [htask] at happly
    exact ⟨task, rfl, (Option.some.inj happly).symm⟩

end

/-! ## Signals of others -/

/-- The signal changes nothing of this call, whoever sends it. -/
def Harmless (c : Call) : Signal → Prop
  | .offer _ => c.callState ≠ .idle
  | .answer _ => c.callState = .calling → c.peerConnection = none
  | .ice candidate => c.peerConnection = none ∨ candidate = none
  | .hangup => c = .idle
  | .other => True

/-- Whether a signal leaves the call alone depends on the signal and the call only: `peerOnion`
is compared with nothing. -/
theorem unchanged_iff (s : Store) (peerOnion : String) (signal : Signal) :
    (s.handleIncomingSignal peerOnion signal).1.toCall = s.toCall ↔ Harmless s.toCall signal := by
  cases signal with
  | offer sdp =>
    simp only [Store.handleIncomingSignal, Harmless]
    split
    · rename_i hbusy
      exact ⟨fun _ => hbusy, fun _ => rfl⟩
    · rename_i hidle
      refine ⟨fun h => ?_, fun hbusy => absurd hbusy hidle⟩
      -- the call would be incoming already
      have hstate : CallState.incoming = s.callState := congrArg Call.callState h
      rw [← hstate]
      exact CallState.noConfusion
  | answer sdp =>
    simp only [Store.handleIncomingSignal, Harmless]
    rcases hpc : s.peerConnection with _ | pc
    · exact ⟨fun _ _ => rfl, fun _ => rfl⟩
    · dsimp only
      split
      · rename_i hcalling
        refine ⟨fun h => ?_, fun h => nomatch h hcalling⟩
        have hremote := congrArg Call.peerConnection h
        rw [hpc] at hremote
        have hlength := congrArg (fun pc => pc.remoteDescriptions.length) (Option.some.inj hremote)
        simp at hlength
      · rename_i hcalling
        exact ⟨fun _ h => absurd h hcalling, fun _ => rfl⟩
  | ice candidate =>
    simp only [Store.handleIncomingSignal, Harmless]
    rcases hpc : s.peerConnection with _ | pc
    · exact ⟨fun _ => .inl rfl, fun _ => rfl⟩
    · rcases candidate with _ | candidate
      · exact ⟨fun _ => .inr rfl, fun _ => rfl⟩
      · refine ⟨fun h => ?_, by rintro (h | h) <;> cases h⟩
        have hadded := congrArg Call.peerConnection h
        rw [hpc] at hadded
        have hlength := congrArg (fun pc => pc.candidates.length) (Option.some.inj hadded)
        simp at hlength
  | hangup => exact ⟨Eq.symm, Eq.symm⟩
  | other => exact ⟨fun _ => trivial, fun _ => rfl⟩

/-! ## Calls that are connected -/

/-- The offer of the current call was exchanged with this peer, and it is the active one. -/
def Store.Offered (s : Store) (peerOnion : String) : Prop :=
  s.activePeerOnion = some peerOnion ∧ (s.call, peerOnion) ∈ s.offered

/-- What holds of the current call. -/
structure Sound (s : Store) : Prop where
  incoming  : s.callState = .incoming → ∃ peerOnion, s.Offered peerOnion
  connected : s.callState = .connected →
    ∃ peerOnion, s.Offered peerOnion ∧ (s.call, peerOnion) ∈ s.answered

/-- The function may connect the call when it goes on. -/
def Point.Connects : Point → Prop
  | .answerMedia | .answerRemote | .answerCreate | .answerLocal _ | .answerSent
  | .signalRemote => True
  | .startMedia | .startOffer | .startLocal _ | .startSent | .signalDone => False

structure Task.Fits (task : Task) (s : Store) : Prop where
  begun   : task.call ≤ s.call
  current : task.call = s.call → task.point.Connects → s.Offered task.peerOnion

structure Inv (sys : System) : Prop where
  sound : Sound sys.store
  fits  : ∀ task ∈ sys.tasks, task.Fits sys.store

/-- The call of `s` goes on in `s'`, or another one has begun. -/
structure Advances (s s' : Store) : Prop where
  call : s.call ≤ s'.call
  same : s'.call = s.call → s'.activePeerOnion = s.activePeerOnion ∧ s.offered ⊆ s'.offered

theorem Task.Fits.advance {task : Task} {s s' : Store} (h : task.Fits s) (hadv : Advances s s') :
    task.Fits s' := by
  refine ⟨Nat.le_trans h.begun hadv.call, fun hcall hconnects => ?_⟩
  have hbegun := h.begun
  have hadvanced := hadv.call
  have hsame : s'.call = s.call := by omega
  obtain ⟨hactive, hoffered⟩ := hadv.same hsame
  obtain ⟨hpeer, hmem⟩ := h.current (by omega) hconnects
  exact ⟨hactive.trans hpeer, by rw [hsame]; exact hoffered hmem⟩

theorem Inv.after {sys : System} (h : Inv sys) {r : Store × Option Task}
    (hadv : Advances sys.store r.1) (hsound : Sound r.1) (htask : ∀ task ∈ r.2, task.Fits r.1) :
    Inv (sys.after r) := by
  refine ⟨hsound, fun task htasks => ?_⟩
  rcases List.mem_append.mp htasks with hold | hnew
  · exact (h.fits task hold).advance hadv
  · exact htask task (Option.mem_toList.mp hnew)

section

variable {s s' : Store}

theorem Advances.refl (s : Store) : Advances s s :=
  ⟨Nat.le_refl _, fun _ => ⟨rfl, fun _ hx => hx⟩⟩

theorem Advances.next (h : s.call < s'.call) : Advances s s' :=
  ⟨Nat.le_of_lt h, fun heq => absurd heq (Nat.ne_of_gt h)⟩

theorem Sound.of_state (hincoming : s.callState ≠ .incoming) (hconnected : s.callState ≠ .connected) :
    Sound s :=
  ⟨fun h => absurd h hincoming, fun h => absurd h hconnected⟩

theorem sound_cleanupCall (s : Store) : Sound s.cleanupCall := .of_state nofun nofun

/-- The call as it was; of the offers and answers there may be more. -/
theorem Sound.keep (h : Sound s) (hstate : s'.callState = s.callState)
    (hactive : s'.activePeerOnion = s.activePeerOnion) (hcall : s'.call = s.call)
    (hoffered : s.offered ⊆ s'.offered) (hanswered : s.answered ⊆ s'.answered) : Sound s' := by
  have hkeep {peerOnion : String} (hp : s.Offered peerOnion) : s'.Offered peerOnion :=
    ⟨hactive.trans hp.1, by rw [hcall]; exact hoffered hp.2⟩
  refine ⟨fun hs => ?_, fun hs => ?_⟩
  · obtain ⟨peerOnion, hp⟩ := h.incoming (hstate ▸ hs)
    exact ⟨peerOnion, hkeep hp⟩
  · obtain ⟨peerOnion, hp, hanswer⟩ := h.connected (hstate ▸ hs)
    exact ⟨peerOnion, hkeep hp, by rw [hcall]; exact hanswered hanswer⟩

end

section

variable {parse : String → Option Signal} {sys : System}

/-- A function that cleans up and does not wait. -/
theorem Inv.cleanup (h : Inv sys) (sent : List (String × Signal)) :
    Inv (sys.after ({ sys.store with sent := sent }.cleanupCall, none)) :=
  h.after (.next (Nat.lt_succ_self _)) (sound_cleanupCall _) nofun

/-- A part of a function that leaves `callState` and `activePeerOnion` alone. -/
theorem Inv.keep (h : Inv sys) {s' : Store} {next : Option Task}
    (hstate : s'.callState = sys.store.callState)
    (hactive : s'.activePeerOnion = sys.store.activePeerOnion) (hcall : s'.call = sys.store.call)
    (hoffered : sys.store.offered ⊆ s'.offered) (hanswered : sys.store.answered ⊆ s'.answered)
    (htask : ∀ task ∈ next, task.Fits sys.store) : Inv (sys.after (s', next)) := by
  have hadv : Advances sys.store s' :=
    ⟨Nat.le_of_eq hcall.symm, fun _ => ⟨hactive, hoffered⟩⟩
  exact h.after hadv (h.sound.keep hstate hactive hcall hoffered hanswered)
    fun task hmem => (htask task hmem).advance hadv

theorem Inv.rest (h : Inv sys) : Inv (sys.after (sys.store, none)) :=
  h.after (.refl _) h.sound nofun

theorem Inv.startCall (h : Inv sys) (peerOnion : String) :
    Inv (sys.after (sys.store.startCall peerOnion)) := by
  unfold Store.startCall
  split
  · exact h.rest
  · refine h.after (.next (Nat.lt_succ_self _)) (.of_state nofun nofun) fun task htask => ?_
    obtain rfl := Option.some.inj htask
    exact ⟨Nat.le_refl _, fun _ => False.elim⟩

theorem Inv.answerCall (h : Inv sys) : Inv (sys.after sys.store.answerCall) := by
  unfold Store.answerCall
  rcases hactive : sys.store.activePeerOnion with _ | peerOnion
  · exact h.rest
  · dsimp only
    split
    · exact h.rest
    · rename_i hincoming
      rw [not_or, not_not] at hincoming
      refine h.keep rfl rfl rfl (fun _ hx => hx) (fun _ hx => hx) fun task htask => ?_
      obtain rfl := Option.some.inj htask
      obtain ⟨peer, hoffered⟩ := h.sound.incoming hincoming.1
      obtain rfl : peerOnion = peer := Option.some.inj (hactive.symm.trans hoffered.1)
      exact ⟨Nat.le_refl _, fun _ _ => hoffered⟩

theorem Inv.hangupCall (h : Inv sys) (myOnion : Option String) :
    Inv (sys.after (sys.store.hangupCall myOnion, none)) := by
  unfold Store.hangupCall
  split
  · exact h.cleanup sys.store.sent
  · split
    · exact h.cleanup _
    · exact h.cleanup sys.store.sent

/-- A signal is handled; an answer must be from the active peer, after the offer. -/
theorem Inv.handleIncomingSignal (h : Inv sys) {peerOnion : String} {signal : Signal}
    (hanswer : ∀ sdp, signal = .answer sdp → sys.store.callState = .calling →
      sys.store.peerConnection ≠ none → sys.store.Offered peerOnion) :
    Inv (sys.after (sys.store.handleIncomingSignal peerOnion signal)) := by
  cases signal with
  | offer sdp =>
    simp only [Store.handleIncomingSignal]
    split
    · refine h.keep rfl rfl rfl (fun _ hx => hx) (fun _ hx => hx) fun task htask => ?_
      obtain rfl := Option.some.inj htask
      exact ⟨Nat.le_refl _, fun _ => False.elim⟩
    · refine h.after (.next (Nat.lt_succ_self _)) ⟨fun _ => ⟨peerOnion, rfl, ?_⟩, nofun⟩ nofun
      exact List.mem_append_right _ (List.mem_singleton.mpr rfl)
  | answer sdp =>
    simp only [Store.handleIncomingSignal]
    rcases hpc : sys.store.peerConnection with _ | pc
    · exact h.rest
    · dsimp only
      split
      · rename_i hcalling
        refine h.keep rfl rfl rfl (fun _ hx => hx) (fun _ hx => hx) fun task htask => ?_
        obtain rfl := Option.some.inj htask
        exact ⟨Nat.le_refl _, fun _ _ => hanswer sdp rfl hcalling (hpc ▸ Option.some_ne_none pc)⟩
      · exact h.rest
  | ice candidate =>
    simp only [Store.handleIncomingSignal]
    split
    · refine h.keep rfl rfl rfl (fun _ hx => hx) (fun _ hx => hx) fun task htask => ?_
      obtain rfl := Option.some.inj htask
      exact ⟨Nat.le_refl _, fun _ => False.elim⟩
    · exact h.rest
  | hangup => exact h.cleanup sys.store.sent
  | other => exact h.rest

theorem Task.Fits.goOn {task : Task} {s : Store} (h : task.Fits s) {point : Point}
    (hpoint : point.Connects → task.point.Connects) : Task.Fits { task with point := point } s :=
  ⟨h.begun, fun hcall hconnects => h.current hcall (hpoint hconnects)⟩

/-- A function goes on: the ones that connect the call do so in the call in which they began. -/
theorem Inv.resume (h : Inv sys) {task : Task} (hfits : task.Fits sys.store)
    {outcome : Option String}
    (hsent : task.point = .answerSent → task.call = sys.store.call ∧ outcome ≠ none)
    (hremote : task.point = .signalRemote → outcome ≠ none → task.call = sys.store.call) :
    Inv (sys.after (sys.store.resume task outcome)) := by
  have hkeep {s' : Store} {point : Point} (hstate : s'.callState = sys.store.callState)
      (hactive : s'.activePeerOnion = sys.store.activePeerOnion)
      (hcall : s'.call = sys.store.call) (hoffered : sys.store.offered ⊆ s'.offered)
      (hanswered : s'.answered = sys.store.answered)
      (hpoint : point.Connects → task.point.Connects) :
      Inv (sys.after (s', some { task with point := point })) := by
    refine h.keep hstate hactive hcall hoffered (hanswered ▸ fun _ hx => hx) fun next hnext => ?_
    obtain rfl := Option.some.inj hnext
    exact hfits.goOn hpoint
  have hclean := h.cleanup sys.store.sent
  -- the call is connected, with the peer of the function
  have hconnect (hcall : task.call = sys.store.call) (hconnects : task.point.Connects) :
      Inv (sys.after ({ sys.store with
        callState := .connected
        answered := sys.store.answered ++ [(task.call, task.peerOnion)] }, none)) := by
    have hoffered := hfits.current hcall hconnects
    refine h.after ⟨Nat.le_refl _, fun _ => ⟨rfl, fun _ hx => hx⟩⟩ ⟨nofun, fun _ => ?_⟩ nofun
    refine ⟨task.peerOnion, hoffered, List.mem_append_right _ ?_⟩
    rw [hcall]
    exact List.mem_singleton.mpr rfl
  rcases task with ⟨peerOnion, call, point⟩
  cases point with
  | startMedia =>
    cases outcome with
    | none => exact hclean
    | some stream => exact hkeep rfl rfl rfl (fun _ hx => hx) rfl id
  | startOffer =>
    cases outcome with
    | none => exact hclean
    | some sdp =>
      simp only [Store.resume]
      split
      · exact hclean
      · exact hkeep rfl rfl rfl (fun _ hx => hx) rfl id
  | startLocal sdp =>
    cases outcome with
    | none => exact hclean
    | some _ => exact hkeep rfl rfl rfl (List.subset_append_left _ _) rfl id
  | startSent => exact h.rest
  | answerMedia =>
    cases outcome with
    | none => exact hclean
    | some stream =>
      have hmedia (pc : PeerConnection) : Inv (sys.after ({ sys.store with
          localStream := some stream, peerConnection := some pc }, none)) :=
        h.keep rfl rfl rfl (fun _ hx => hx) (fun _ hx => hx) nofun
      simp only [Store.resume]
      split
      · exact hmedia _
      · split
        · exact hmedia _
        · exact hkeep rfl rfl rfl (fun _ hx => hx) rfl id
  | answerRemote =>
    cases outcome with
    | none => exact hclean
    | some _ =>
      simp only [Store.resume]
      split
      · exact hclean
      · exact hkeep rfl rfl rfl (fun _ hx => hx) rfl id
  | answerCreate =>
    cases outcome with
    | none => exact hclean
    | some sdp =>
      simp only [Store.resume]
      split
      · exact hclean
      · exact hkeep rfl rfl rfl (fun _ hx => hx) rfl id
  | answerLocal sdp =>
    cases outcome with
    | none => exact hclean
    | some _ => exact hkeep rfl rfl rfl (fun _ hx => hx) rfl id
  | answerSent =>
    obtain ⟨hcall, houtcome⟩ := hsent rfl
    simp only [Store.resume]
    rw [if_neg houtcome]
    exact hconnect hcall trivial
  | signalRemote =>
    cases outcome with
    | none => exact h.rest
    | some _ => exact hconnect (hremote rfl (Option.some_ne_none _)) trivial
  | signalDone => exact h.rest

def Signal.isAnswer : Signal → Bool
  | .answer _ => true
  | _ => false

/-- An answer that is applied comes from the active peer, to whom the offer of the call was sent,
and a function connects only the call in which it began, after its answer was sent. -/
def Matching (parse : String → Option Signal) (sys : System) : Event → Prop
  | .receiveMessage peerOnion plaintext => ∀ signal ∈ callSignal parse plaintext, signal.isAnswer →
      sys.store.callState = .calling → sys.store.peerConnection ≠ none →
        sys.store.activePeerOnion = some peerOnion ∧
          (sys.store.call, peerOnion) ∈ sys.store.offered
  | .resume i outcome => ∀ task ∈ sys.tasks[i]?,
      (task.point = .answerSent → task.call = sys.store.call ∧ outcome ≠ none) ∧
        (task.point = .signalRemote → outcome ≠ none → task.call = sys.store.call)
  | _ => True

theorem inv_apply (h : Inv sys) {sys' : System} {e : Event} (hok : Matching parse sys e)
    (happly : apply parse sys e = some sys') : Inv sys' := by
  cases e with
  | startCall peerOnion =>
    obtain rfl := Option.some.inj happly
    exact h.startCall peerOnion
  | answerCall =>
    obtain rfl := Option.some.inj happly
    exact h.answerCall
  | hangupCall myOnion =>
    obtain rfl := Option.some.inj happly
    exact h.hangupCall myOnion
  | receiveMessage peerOnion plaintext =>
    obtain rfl := Option.some.inj happly
    unfold receiveMessage
    rcases hsignal : callSignal parse plaintext with _ | signal
    · exact h.rest
    · refine h.handleIncomingSignal ?_
      rintro sdp rfl hcalling hpc
      exact hok _ hsignal rfl hcalling hpc
  | resume i outcome =>
    obtain ⟨task, htask, rfl⟩ := apply_resume happly
    obtain ⟨hsent, hremote⟩ := hok task htask
    have hrest : Inv ⟨sys.store, sys.tasks.eraseIdx i⟩ :=
      ⟨h.sound, fun task hmem => h.fits task (List.mem_of_mem_eraseIdx hmem)⟩
    exact hrest.resume (h.fits task (List.mem_of_getElem? htask)) hsent hremote
  | track stream =>
    obtain rfl := Option.some.inj happly
    exact h.keep rfl rfl rfl (fun _ hx => hx) (fun _ hx => hx) nofun

end

/-- In every run in which answers match, a call is connected only after its offer and its answer
were exchanged with the active peer; and a signal of another peer leaves the call alone exactly if
it is harmless to it. -/
theorem calls_controlled (parse : String → Option Signal) {sys : System}
    (hrun : Run (apply parse) (Matching parse) .init sys) :
    (sys.store.callState = .connected → ∃ peerOnion,
      sys.store.activePeerOnion = some peerOnion ∧
        (sys.store.call, peerOnion) ∈ sys.store.offered ∧
          (sys.store.call, peerOnion) ∈ sys.store.answered) ∧
    ∀ peerOnion signal, sys.store.activePeerOnion ≠ some peerOnion →
      ((sys.store.handleIncomingSignal peerOnion signal).1.toCall = sys.store.toCall ↔
        Harmless sys.store.toCall signal) := by
  have hinv : Inv sys := by
    refine hrun.invariant (I := Inv) ⟨.of_state (by decide) (by decide), List.forall_mem_nil _⟩ ?_
    exact fun sys e sys' h hok happly => inv_apply h hok happly
  refine ⟨fun hconnected => ?_, fun peerOnion signal _ => unchanged_iff _ peerOnion signal⟩
  obtain ⟨peerOnion, ⟨hactive, hoffered⟩, hanswered⟩ := hinv.sound.connected hconnected
  exact ⟨peerOnion, hactive, hoffered, hanswered⟩

instance (parse : String → Option Signal) (sys : System) :
    (e : Event) → Decidable (Matching parse sys e)
  | .receiveMessage _ plaintext =>
    inferInstanceAs (Decidable (∀ signal ∈ callSignal parse plaintext, _ → _ → _ → _ ∧ _))
  | .resume i _ => inferInstanceAs (Decidable (∀ task ∈ sys.tasks[i]?, _ ∧ _))
  | .startCall _ | .answerCall | .hangupCall _ | .track _ => .isTrue trivial

/-- `JSON.parse` on three signals. -/
def sampleParse : String → Option Signal
  | "o" => some (.offer (some "sdp"))
  | "a" => some (.answer (some "sdp"))
  | "h" => some .hangup
  | _ => none

/-- A call of alice is answered. -/
def answeredCall : List Event :=
  [.receiveMessage "alice" "__CALL_SIGNAL__:o", .answerCall, .resume 0 (some "mic"),
    .resume 0 (some ""), .resume 0 (some "sdp"), .resume 0 (some ""), .resume 0 (some "")]

/-- Alice is called, and somebody else answers. -/
def forgedAnswer : List Event :=
  [.startCall "alice", .resume 0 (some "mic"), .resume 0 (some "sdp"), .resume 0 (some ""),
    .receiveMessage "mallory" "__CALL_SIGNAL__:a", .resume 1 (some "")]

theorem answeredCall_controlled : ∃ sys : System,
    Run (apply sampleParse) (Matching sampleParse) .init sys ∧
      sys.store.callState = .connected ∧
      (∃ peerOnion, sys.store.activePeerOnion = some peerOnion ∧
        (sys.store.call, peerOnion) ∈ sys.store.offered ∧
          (sys.store.call, peerOnion) ∈ sys.store.answered) ∧
      (sys.store.handleIncomingSignal "mallory" (.offer (some "sdp"))).1.toCall =
        sys.store.toCall := by
  obtain ⟨sys, hrun, h⟩ := @Run.exists_of_runAll _ _ (apply sampleParse) (Matching sampleParse)
    .init _ answeredCall (fun sys => sys.store.callState = .connected ∧
      sys.store.activePeerOnion = some "alice") (by decide +kernel)
  obtain ⟨hconnected, hactive⟩ := of_decide_eq_true h
  obtain ⟨hexchanged, hothers⟩ := calls_controlled sampleParse hrun
  refine ⟨sys, hrun, hconnected, hexchanged hconnected, (hothers "mallory" _ ?_).mpr ?_⟩
  · rw [hactive]
    decide
  · show sys.store.callState ≠ .idle
    rw [hconnected]
    decide

/-- The answer of another peer connects the call, and another peer can end it. -/
theorem forged_answer : ∃ sys : System,
    Run (apply sampleParse) (fun _ _ => True) .init sys ∧
      sys.store.callState = .connected ∧ sys.store.activePeerOnion = some "alice" ∧
      (sys.store.call, "alice") ∉ sys.store.answered ∧
      (sys.store.handleIncomingSignal "mallory" .hangup).1.callState = .idle := by
  obtain ⟨sys, hrun, h⟩ := @Run.exists_of_runAll _ _ (apply sampleParse) (fun _ _ => True)
    .init _ forgedAnswer (fun sys => sys.store.callState = .connected ∧
      sys.store.activePeerOnion = some "alice" ∧
      (sys.store.call, "alice") ∉ sys.store.answered ∧
      (sys.store.handleIncomingSignal "mallory" .hangup).1.callState = .idle) (by decide +kernel)
  exact ⟨sys, hrun, of_decide_eq_true h⟩

end AnonyMus.Web.Calls
