import AnonyMus.Web.Calls

/-!
# Web client — what a call holds

The streams and the connections of `stores/calls.ts`, each with an identity: a variable
that is set again forgets what it held, and `cleanupCall` stops and closes only what the
variables hold.

* `Handle` — a variable of the store, and all that it has held and not let go;
* `Tracked` — a run of the store with its streams, its connections and a log;
* `Released`, `Obeys` — an idle store holds nothing, and a call that has ended does nothing;
* `Meets` — a stream is taken when a call has none, and a function that waited sends and
  connects in the call in which it began;
* `held_run` — in runs whose events meet that, both hold.
-/

namespace AnonyMus.Web.Calls

open Interleave

/-! ## Streams and connections -/

/-- A variable, and what was assigned to it and has not been stopped or closed. -/
structure Handle where
  current : Option ℕ
  live    : List ℕ
deriving DecidableEq

namespace Handle

def empty : Handle := ⟨none, []⟩

variable (h : Handle)

def set (id : ℕ) : Handle := ⟨some id, h.live ++ [id]⟩

/-- What the variable holds is stopped or closed. -/
def drop : Handle := ⟨none, h.live.filter fun id => some id ≠ h.current⟩

/-- Nothing has been forgotten. -/
def Tight : Prop := h.live = h.current.toList

variable {h}

theorem Tight.live_eq_nil (htight : h.Tight) (hnone : h.current = none) : h.live = [] := by
  unfold Tight at htight
  rw [htight, hnone]
  rfl

theorem Tight.set (htight : h.Tight) (hnone : h.current = none) (id : ℕ) : (h.set id).Tight := by
  show h.live ++ [id] = [id]
  rw [htight.live_eq_nil hnone, List.nil_append]

theorem Tight.drop (htight : h.Tight) : h.drop.Tight := by
  show h.live.filter _ = []
  rw [show h.live = h.current.toList from htight]
  cases h.current with
  | none => rfl
  | some id => simp

theorem mem_live_drop {id : ℕ} : id ∈ h.drop.live ↔ id ∈ h.live ∧ some id ≠ h.current := by
  unfold Handle.drop
  simp

end Handle

/-! ## The log -/

inductive Act
  | offer
  | answer
  | connect
deriving DecidableEq

inductive Entry
  /-- A call was hung up, or has failed. -/
  | ended (call : ℕ)
  | did (call : ℕ) (act : Act)
deriving DecidableEq

/-- A call that has ended does nothing more. -/
def Entry.Allows (first then' : Entry) : Prop :=
  ∀ call act, first = .ended call → then' ≠ .did call act

/-- The function waits for `getUserMedia`. -/
def Point.isMedia : Point → Bool
  | .startMedia | .answerMedia => true
  | _ => false

/-- What a function does, when it goes on, for its call. -/
def Task.act (task : Task) (outcome : Option String) : Option Act :=
  match task.point, outcome with
  | .startLocal _, some _ => some .offer
  | .answerLocal _, some _ => some .answer
  | .answerSent, _ | .signalRemote, some _ => some .connect
  | _, _ => none

def resumed (sys : System) : Event → Option (Task × Option String)
  | .resume i outcome => sys.tasks[i]?.map (·, outcome)
  | _ => none

/-- What an event does for a call. -/
def did (sys : System) (e : Event) : Option (ℕ × Act) :=
  (resumed sys e).bind fun (task, outcome) => (task.act outcome).map (task.call, ·)

/-- `getUserMedia` has returned. -/
def takesMedia (sys : System) (e : Event) : Bool :=
  (resumed sys e).any fun (task, _) => task.point.isMedia

section

variable {sys : System} {i : ℕ} {task : Task}

theorem did_resume (htask : sys.tasks[i]? = some task) (outcome : Option String) :
    did sys (.resume i outcome) = (task.act outcome).map (task.call, ·) := by
  simp [did, resumed, htask]

theorem takesMedia_resume (htask : sys.tasks[i]? = some task) (outcome : Option String) :
    takesMedia sys (.resume i outcome) = task.point.isMedia := by
  simp [takesMedia, resumed, htask]

end

/-- `cleanupCall` has run: nothing else makes an idle store with a new number. -/
def Ends (s s' : Store) : Prop := s'.call ≠ s.call ∧ s'.callState = .idle

instance (s s' : Store) : Decidable (Ends s s') := inferInstanceAs (Decidable (_ ∧ _))

structure Tracked where
  sys        : System
  /-- A new number; a stream and the connection that is made with it share one. -/
  fresh      : ℕ
  /-- `localStream`. -/
  stream     : Handle
  /-- `peerConnection`. -/
  connection : Handle
  log        : List Entry

namespace Tracked

def init : Tracked := ⟨.init, 0, .empty, .empty, []⟩

variable (t : Tracked)

/-- The streams, when `getUserMedia` may have returned. -/
def taken (e : Event) : Handle := if takesMedia t.sys e then t.stream.set t.fresh else t.stream

/-- The connections, when it has and nothing has failed since. -/
def connected (e : Event) : Handle :=
  if takesMedia t.sys e then t.connection.set t.fresh else t.connection

def logged (e : Event) : List Entry :=
  t.log ++ ((did t.sys e).map fun (call, act) => .did call act).toList

/-- The next state, when the store has made its step. What fails after `getUserMedia` does so
before there is a connection. -/
def after (e : Event) (sys' : System) : Tracked :=
  if Ends t.sys.store sys'.store then
    ⟨sys', t.fresh + 1, (t.taken e).drop, t.connection.drop,
      t.logged e ++ [.ended t.sys.store.call]⟩
  else ⟨sys', t.fresh + 1, t.taken e, t.connected e, t.logged e⟩

/-- A closed connection gets no stream. -/
def Fires : Event → Prop
  | .track _ => t.connection.live ≠ []
  | _ => True

instance : (e : Event) → Decidable (t.Fires e)
  | .track _ => inferInstanceAs (Decidable (_ ≠ _))
  | .startCall _ | .answerCall | .hangupCall _ | .receiveMessage _ _ | .resume _ _ =>
    .isTrue trivial

def step (parse : String → Option Signal) (e : Event) : Option Tracked :=
  if t.Fires e then (Calls.apply parse t.sys e).map (t.after e) else none

/-! ## What is wanted -/

/-- An idle store with nothing pending holds nothing. -/
def Released : Prop :=
  t.sys.store.callState = .idle → t.sys.tasks = [] →
    t.connection.live = [] ∧ t.stream.live = [] ∧ t.sys.store.localStream = none ∧
      t.sys.store.remoteStream = none ∧ t.sys.store.activePeerOnion = none

/-- For a call that has ended no offer and no answer is sent, and it does not become connected. -/
def Obeys : Prop := t.log.Pairwise Entry.Allows

/-- When `getUserMedia` returns there is no stream, and the store is not idle unless what follows
fails; and what a function then does for its call it does while that is the current one. -/
def Meets : Event → Prop
  | .resume i outcome => ∀ task ∈ t.sys.tasks[i]?,
      (task.point.isMedia → t.sys.store.localStream = none ∧
        (outcome ≠ none → t.sys.store.callState ≠ .idle)) ∧
      (task.act outcome ≠ none → task.call = t.sys.store.call)
  | _ => True

instance : (e : Event) → Decidable (t.Meets e)
  | .resume i _ =>
    inferInstanceAs (Decidable (∀ task ∈ t.sys.tasks[i]?, (_ → _ ∧ (_ → _)) ∧ (_ → _)))
  | .startCall _ | .answerCall | .hangupCall _ | .receiveMessage _ _ | .track _ => .isTrue trivial

end Tracked

/-! ## What each step does -/

/-- The call goes on, with the streams and the connection that it has. -/
structure Stays (s s' : Store) : Prop where
  call       : s'.call = s.call
  state      : s'.callState = s.callState ∨ s'.callState = .connected
  active     : s'.activePeerOnion = s.activePeerOnion
  stream     : s'.localStream = s.localStream
  remote     : s'.remoteStream = s.remoteStream
  connection : s'.peerConnection = none ↔ s.peerConnection = none
  pending    : s'.pendingOfferSdp = s.pendingOfferSdp

/-- All that can become of the store; `media` if `getUserMedia` has returned. -/
inductive Turn (s : Store) : (media : Bool) → Store → Prop
  | ends (media : Bool) (sent : List (String × Signal)) :
      Turn s media { s with sent := sent }.cleanupCall
  | begins {s' : Store} (hidle : s.callState = .idle) (hbusy : s'.callState ≠ .idle)
      (hcall : s'.call = s.call + 1) (hstream : s'.localStream = s.localStream)
      (hconnection : s'.peerConnection = s.peerConnection) : Turn s false s'
  | takes {s' : Store} (hcall : s'.call = s.call) (hstate : s'.callState = s.callState)
      (hstream : s'.localStream ≠ none) (hconnection : s'.peerConnection ≠ none) : Turn s true s'
  | stays {s' : Store} (hstays : Stays s s') : Turn s false s'

/-- A function that waits for the first time, of a call that is not idle. -/
def Task.New (task : Task) (s : Store) : Prop :=
  task.call = s.call ∧ (s.callState ≠ .idle ∨ s.peerConnection ≠ none)

section

variable {s : Store}

theorem Task.forall_mem_none {p : Task → Prop} : ∀ task ∈ (none : Option Task), p task :=
  fun _ hmem => absurd hmem (Option.not_mem_none _)

theorem Stays.refl (s : Store) : Stays s s := ⟨rfl, .inl rfl, rfl, rfl, rfl, .rfl, rfl⟩

/-- An idle store that has stayed was idle before. -/
theorem Stays.idle {s' : Store} (h : Stays s s') (hidle : s'.callState = .idle)
    (hs : s.callState = .idle → s.toCall = .idle) : s'.toCall = .idle := by
  rcases h.state with hstate | hstate
  · have hcall := hs (hstate.symm.trans hidle)
    have hnone := h.connection.mpr (congrArg Call.peerConnection hcall)
    calc s'.toCall = ⟨s'.callState, s'.activePeerOnion, s'.localStream, s'.remoteStream,
          s'.peerConnection, s'.pendingOfferSdp⟩ := rfl
      _ = ⟨s.callState, s.activePeerOnion, s.localStream, s.remoteStream, none,
          s.pendingOfferSdp⟩ := by
        rw [hstate, h.active, h.stream, h.remote, hnone, h.pending]
      _ = .idle := by
        rw [congrArg Call.callState hcall, congrArg Call.activePeerOnion hcall,
          congrArg Call.localStream hcall, congrArg Call.remoteStream hcall,
          congrArg Call.pendingOfferSdp hcall]
        rfl
  · rw [hstate] at hidle
    cases hidle

theorem turn_startCall (s : Store) (peerOnion : String) :
    Turn s false (s.startCall peerOnion).1 ∧
      ∀ task ∈ (s.startCall peerOnion).2, task.New (s.startCall peerOnion).1 := by
  unfold Store.startCall
  by_cases hidle : s.callState = .idle
  · rw [if_neg (not_not.mpr hidle)]
    refine ⟨.begins hidle CallState.noConfusion rfl rfl rfl, fun task htask => ?_⟩
    obtain rfl := Option.some.inj htask
    exact ⟨rfl, .inl CallState.noConfusion⟩
  · rw [if_pos hidle]
    exact ⟨.stays (.refl s), Task.forall_mem_none⟩

theorem turn_answerCall (s : Store) :
    Turn s false s.answerCall.1 ∧ ∀ task ∈ s.answerCall.2, task.New s.answerCall.1 := by
  unfold Store.answerCall
  cases s.activePeerOnion with
  | none => exact ⟨.stays (.refl s), Task.forall_mem_none⟩
  | some peerOnion =>
    dsimp only
    split
    · exact ⟨.stays (.refl s), Task.forall_mem_none⟩
    · rename_i hincoming
      rw [not_or, not_not] at hincoming
      refine ⟨.stays (.refl s), fun task htask => ?_⟩
      obtain rfl := Option.some.inj htask
      refine ⟨rfl, .inl ?_⟩
      rw [hincoming.1]
      exact CallState.noConfusion

theorem turn_hangupCall (s : Store) (myOnion : Option String) :
    Turn s false (s.hangupCall myOnion) := by
  unfold Store.hangupCall
  split
  · exact .ends false s.sent
  · split
    · exact .ends false _
    · exact .ends false s.sent

theorem turn_handleIncomingSignal (s : Store) (peerOnion : String) (signal : Signal) :
    Turn s false (s.handleIncomingSignal peerOnion signal).1 ∧
      ∀ task ∈ (s.handleIncomingSignal peerOnion signal).2,
        task.New (s.handleIncomingSignal peerOnion signal).1 := by
  cases signal with
  | offer sdp =>
    simp only [Store.handleIncomingSignal]
    by_cases hidle : s.callState = .idle
    · rw [if_neg (not_not.mpr hidle)]
      exact ⟨.begins hidle CallState.noConfusion rfl rfl rfl, Task.forall_mem_none⟩
    · rw [if_pos hidle]
      refine ⟨.stays ⟨rfl, .inl rfl, rfl, rfl, rfl, .rfl, rfl⟩, fun task htask => ?_⟩
      obtain rfl := Option.some.inj htask
      exact ⟨rfl, .inl hidle⟩
  | answer sdp =>
    simp only [Store.handleIncomingSignal]
    cases hpc : s.peerConnection with
    | none => exact ⟨.stays (.refl s), Task.forall_mem_none⟩
    | some pc =>
      dsimp only
      split
      · refine ⟨.stays ⟨rfl, .inl rfl, rfl, rfl, rfl, by simp [hpc], rfl⟩, fun task htask => ?_⟩
        obtain rfl := Option.some.inj htask
        exact ⟨rfl, .inr (Option.some_ne_none _)⟩
      · exact ⟨.stays (.refl s), Task.forall_mem_none⟩
  | ice candidate =>
    simp only [Store.handleIncomingSignal]
    split
    · rename_i pc candidate hpc
      refine ⟨.stays ⟨rfl, .inl rfl, rfl, rfl, rfl, by simp [hpc], rfl⟩, fun task htask => ?_⟩
      obtain rfl := Option.some.inj htask
      exact ⟨rfl, .inr (Option.some_ne_none _)⟩
    · exact ⟨.stays (.refl s), Task.forall_mem_none⟩
  | hangup => exact ⟨.ends false s.sent, Task.forall_mem_none⟩
  | other => exact ⟨.stays (.refl s), Task.forall_mem_none⟩

/-- A function that goes on waits for the same call, if it waits again. -/
theorem turn_resume (s : Store) (task : Task) (outcome : Option String) :
    Turn s task.point.isMedia (s.resume task outcome).1 ∧
      ∀ next ∈ (s.resume task outcome).2, next.call = task.call := by
  have hfails (media : Bool) : Turn s media (s.cleanupCall, (none : Option Task)).1 ∧
      ∀ next ∈ (s.cleanupCall, (none : Option Task)).2, next.call = task.call :=
    ⟨.ends media s.sent, Task.forall_mem_none⟩
  have hnext (point : Point) :
      ∀ next ∈ some { task with point := point }, next.call = task.call := by
    intro next hnext
    obtain rfl := Option.some.inj hnext
    rfl
  -- a rejected promise ends the call, except where a signal is being handled
  rcases task with ⟨peerOnion, call, point⟩
  cases point with
  | startMedia =>
    cases outcome with
    | none => exact hfails true
    | some stream => exact ⟨.takes rfl rfl (Option.some_ne_none _) (Option.some_ne_none _), hnext _⟩
  | startOffer =>
    cases outcome with
    | none => exact hfails false
    | some sdp =>
      simp only [Store.resume]
      split
      · exact hfails false
      · rename_i pc hpc
        exact ⟨.stays ⟨rfl, .inl rfl, rfl, rfl, rfl, by simp [hpc], rfl⟩, hnext _⟩
  | startLocal sdp =>
    cases outcome with
    | none => exact hfails false
    | some _ => exact ⟨.stays ⟨rfl, .inl rfl, rfl, rfl, rfl, .rfl, rfl⟩, hnext _⟩
  | startSent => exact ⟨.stays (.refl s), Task.forall_mem_none⟩
  | answerMedia =>
    cases outcome with
    | none => exact hfails true
    | some stream =>
      have htakes (pc : PeerConnection) :
          Turn s true { s with localStream := some stream, peerConnection := some pc } :=
        .takes rfl rfl (Option.some_ne_none _) (Option.some_ne_none _)
      simp only [Store.resume]
      split
      · exact ⟨htakes _, Task.forall_mem_none⟩
      · split
        · exact ⟨htakes _, Task.forall_mem_none⟩
        · exact ⟨htakes _, hnext _⟩
  | answerRemote =>
    cases outcome with
    | none => exact hfails false
    | some _ =>
      simp only [Store.resume]
      split
      · exact hfails false
      · exact ⟨.stays (.refl s), hnext _⟩
  | answerCreate =>
    cases outcome with
    | none => exact hfails false
    | some sdp =>
      simp only [Store.resume]
      split
      · exact hfails false
      · rename_i pc hpc
        exact ⟨.stays ⟨rfl, .inl rfl, rfl, rfl, rfl, by simp [hpc], rfl⟩, hnext _⟩
  | answerLocal sdp =>
    cases outcome with
    | none => exact hfails false
    | some _ => exact ⟨.stays ⟨rfl, .inl rfl, rfl, rfl, rfl, .rfl, rfl⟩, hnext _⟩
  | answerSent => exact ⟨.stays ⟨rfl, .inr rfl, rfl, rfl, rfl, .rfl, rfl⟩, Task.forall_mem_none⟩
  | signalRemote =>
    cases outcome with
    | none => exact ⟨.stays (.refl s), Task.forall_mem_none⟩
    | some _ => exact ⟨.stays ⟨rfl, .inr rfl, rfl, rfl, rfl, .rfl, rfl⟩, Task.forall_mem_none⟩
  | signalDone => exact ⟨.stays (.refl s), Task.forall_mem_none⟩

variable {parse : String → Option Signal} {sys sys' : System} {e : Event}

theorem turn_apply (happly : apply parse sys e = some sys') (htrack : ∀ stream, e ≠ .track stream) :
    Turn sys.store (takesMedia sys e) sys'.store ∧
      ∀ task ∈ sys'.tasks, (∃ old ∈ sys.tasks, task.call = old.call) ∨ task.New sys'.store := by
  -- a task afterwards is one of before or the one just begun
  have hafter {tasks : List Task} {r : Store × Option Task} {task : Task}
      (hold : ∀ old ∈ tasks, old ∈ sys.tasks)
      (hnew : ∀ next ∈ r.2, (∃ old ∈ sys.tasks, next.call = old.call) ∨ next.New r.1)
      (htask : task ∈ (System.after ⟨sys.store, tasks⟩ r).tasks) :
      (∃ old ∈ sys.tasks, task.call = old.call) ∨ task.New r.1 := by
    rcases List.mem_append.mp htask with hmem | hmem
    · exact .inl ⟨task, hold task hmem, rfl⟩
    · exact hnew task (Option.mem_toList.mp hmem)
  cases e with
  | startCall peerOnion =>
    obtain rfl := Option.some.inj happly
    obtain ⟨hturn, hnew⟩ := turn_startCall sys.store peerOnion
    exact ⟨hturn, fun task => hafter (fun _ => id) fun next hnext => .inr (hnew next hnext)⟩
  | answerCall =>
    obtain rfl := Option.some.inj happly
    obtain ⟨hturn, hnew⟩ := turn_answerCall sys.store
    exact ⟨hturn, fun task => hafter (fun _ => id) fun next hnext => .inr (hnew next hnext)⟩
  | hangupCall myOnion =>
    obtain rfl := Option.some.inj happly
    exact ⟨turn_hangupCall sys.store myOnion, fun task => hafter (fun _ => id) Task.forall_mem_none⟩
  | receiveMessage peerOnion plaintext =>
    obtain rfl := Option.some.inj happly
    unfold receiveMessage
    cases callSignal parse plaintext with
    | none => exact ⟨.stays (.refl _), fun task => hafter (fun _ => id) Task.forall_mem_none⟩
    | some signal =>
      obtain ⟨hturn, hnew⟩ := turn_handleIncomingSignal sys.store peerOnion signal
      exact ⟨hturn, fun task => hafter (fun _ => id) fun next hnext => .inr (hnew next hnext)⟩
  | resume i outcome =>
    obtain ⟨task, htask, rfl⟩ := apply_resume happly
    obtain ⟨hturn, hnext⟩ := turn_resume sys.store task outcome
    rw [takesMedia_resume htask]
    refine ⟨hturn, fun _ => hafter (fun _ => List.mem_of_mem_eraseIdx) fun next hmem => ?_⟩
    exact .inl ⟨task, List.mem_of_getElem? htask, hnext next hmem⟩
  | track stream => exact absurd rfl (htrack stream)

end

/-! ## Runs -/

namespace Tracked

/-- What the variables hold is all that is held, an idle store holds nothing, and a function waits
for the current call, which is not idle, or for one that has ended. -/
structure Holds (t : Tracked) : Prop where
  idle       : t.sys.store.callState = .idle → t.sys.store.toCall = .idle
  together   : t.sys.store.localStream = none ↔ t.sys.store.peerConnection = none
  stream     : t.stream.Tight ∧ (t.stream.current = none ↔ t.sys.store.localStream = none)
  connection : t.connection.Tight ∧
    (t.connection.current = none ↔ t.sys.store.peerConnection = none)
  fresh      : ∀ id ∈ t.stream.live, id < t.fresh
  tasks      : ∀ task ∈ t.sys.tasks, .ended task.call ∈ t.log ∨
    task.call = t.sys.store.call ∧ t.sys.store.callState ≠ .idle
  ended      : ∀ call, .ended call ∈ t.log → call < t.sys.store.call
  obeys      : t.Obeys

section

variable {t : Tracked}

theorem holds_init : Holds init where
  idle _     := rfl
  together   := ⟨fun _ => rfl, fun _ => rfl⟩
  stream     := ⟨rfl, fun _ => rfl, fun _ => rfl⟩
  connection := ⟨rfl, fun _ => rfl, fun _ => rfl⟩
  fresh      := nofun
  tasks      := nofun
  ended      := nofun
  obeys      := .nil

theorem Holds.released (h : Holds t) : t.Released := by
  intro hidle _
  have hcall := h.idle hidle
  have hstream : t.sys.store.localStream = none := congrArg Call.localStream hcall
  have hconnection : t.sys.store.peerConnection = none := congrArg Call.peerConnection hcall
  refine ⟨?_, ?_, hstream, congrArg Call.remoteStream hcall, congrArg Call.activePeerOnion hcall⟩
  · exact h.connection.1.live_eq_nil (h.connection.2.mpr hconnection)
  · exact h.stream.1.live_eq_nil (h.stream.2.mpr hstream)

theorem not_ends_of_call {s s' : Store} (hcall : s'.call = s.call) : ¬ Ends s s' :=
  fun hends => hends.1 hcall

/-- Something is done for the current call, which has not ended. -/
theorem Holds.logged (h : Holds t) {e : Event}
    (hcurrent : ∀ call act, did t.sys e = some (call, act) → call = t.sys.store.call) :
    (t.logged e).Pairwise Entry.Allows := by
  unfold Tracked.logged
  cases hdid : did t.sys e with
  | none =>
    rw [Option.map_none, Option.toList_none, List.append_nil]
    exact h.obeys
  | some done =>
    obtain ⟨call, act⟩ := done
    obtain rfl := hcurrent call act hdid
    refine List.pairwise_append.mpr ⟨h.obeys, List.pairwise_singleton _ _, ?_⟩
    rintro first hfirst then' hthen call act' rfl hact
    rw [hact] at hthen
    cases List.mem_singleton.mp hthen
    exact Nat.lt_irrefl _ (h.ended _ hfirst)

theorem mem_logged_of_mem {entry : Entry} (hmem : entry ∈ t.log) (e : Event) :
    entry ∈ t.logged e := List.mem_append_left _ hmem

theorem ended_mem_logged {call : ℕ} {e : Event} (hmem : .ended call ∈ t.logged e) :
    .ended call ∈ t.log := by
  rcases List.mem_append.mp hmem with hold | hnew
  · exact hold
  · simp at hnew

theorem Meets.current {e : Event} (hmeets : t.Meets e) {call : ℕ} {act : Act}
    (hdid : did t.sys e = some (call, act)) : call = t.sys.store.call := by
  cases e with
  | resume i outcome =>
    cases htask : t.sys.tasks[i]? with
    | none => simp [did, resumed, htask] at hdid
    | some task =>
      rw [did_resume htask] at hdid
      obtain ⟨act', hact, heq⟩ := Option.map_eq_some_iff.mp hdid
      obtain ⟨rfl, rfl⟩ := Prod.mk.inj heq
      refine (hmeets task htask).2 fun hnone => ?_
      cases hnone.symm.trans hact
  | startCall peerOnion | answerCall | hangupCall myOnion | receiveMessage peerOnion plaintext
  | track stream => cases hdid

/-- A stream is taken when there is none; and if it stays, by a store that is not idle. -/
theorem Meets.media {parse : String → Option Signal} {sys' : System} {e : Event}
    (hmeets : t.Meets e) (happly : apply parse t.sys e = some sys')
    (hmedia : takesMedia t.sys e = true) : t.sys.store.localStream = none ∧
      (sys'.store.localStream ≠ none → t.sys.store.callState ≠ .idle) := by
  cases e with
  | resume i outcome =>
    obtain ⟨task, htask, rfl⟩ := apply_resume happly
    have hpoint : task.point.isMedia = true := (takesMedia_resume htask outcome).symm.trans hmedia
    obtain ⟨hnone, hbusy⟩ := (hmeets task htask).1 hpoint
    refine ⟨hnone, fun hstream => hbusy ?_⟩
    rintro rfl
    -- what fails after `getUserMedia` cleans up
    rcases task with ⟨peerOnion, call, point⟩
    cases point with
    | startMedia | answerMedia => exact hstream rfl
    | _ => cases hpoint
  | startCall peerOnion | answerCall | hangupCall myOnion | receiveMessage peerOnion plaintext
  | track stream => cases hmedia

theorem Holds.fresh_taken (h : Holds t) (e : Event) :
    ∀ id ∈ (t.taken e).live, id < t.fresh + 1 := by
  intro id hmem
  unfold taken at hmem
  split_ifs at hmem
  · rcases List.mem_append.mp hmem with hold | hnew
    · have := h.fresh id hold
      omega
    · rw [List.mem_singleton.mp hnew]
      exact Nat.lt_succ_self _
  · have := h.fresh id hmem
    omega

variable {sys' : System} {e : Event}

/-- A function that waits does so for a call that has ended, or for the one that goes on. -/
theorem Holds.tasks_next (h : Holds t) {log : List Entry}
    (htasks : ∀ task ∈ sys'.tasks,
      (∃ old ∈ t.sys.tasks, task.call = old.call) ∨ task.New sys'.store)
    (hlog : ∀ call, .ended call ∈ t.log → .ended call ∈ log)
    (hgoesOn : t.sys.store.callState ≠ .idle → .ended t.sys.store.call ∈ log ∨
      sys'.store.call = t.sys.store.call ∧ sys'.store.callState ≠ .idle)
    (hidle : sys'.store.callState = .idle → sys'.store.toCall = .idle) :
    ∀ task ∈ sys'.tasks, .ended task.call ∈ log ∨
      task.call = sys'.store.call ∧ sys'.store.callState ≠ .idle := by
  intro task hmem
  rcases htasks task hmem with ⟨old, hold, hsame⟩ | ⟨hnew, hstate⟩
  · -- it waited before, for the same call
    rw [hsame]
    rcases h.tasks old hold with hended | ⟨hcurrent, hbusy⟩
    · exact .inl (hlog _ hended)
    · rw [hcurrent]
      rcases hgoesOn hbusy with hended | ⟨hcall, hbusy'⟩
      · exact .inl hended
      · exact .inr ⟨hcall.symm, hbusy'⟩
  · refine .inr ⟨hnew, ?_⟩
    rcases hstate with hstate | hconnection
    · exact hstate
    · exact fun heq => hconnection (congrArg Call.peerConnection (hidle heq))

/-- `cleanupCall` lets go of what the variables hold, and that is all there is. -/
theorem Holds.ends (h : Holds t) {sent : List (String × Signal)}
    (hstore : sys'.store = { t.sys.store with sent := sent }.cleanupCall)
    (htaken : (t.taken e).Tight)
    (htasks : ∀ task ∈ sys'.tasks,
      (∃ old ∈ t.sys.tasks, task.call = old.call) ∨ task.New sys'.store)
    (hlog : (t.logged e).Pairwise Entry.Allows) : Holds (t.after e sys') := by
  have hcall : sys'.store.call = t.sys.store.call + 1 := by
    rw [hstore]
    rfl
  have hnone : sys'.store.toCall = .idle := by
    rw [hstore]
    rfl
  have hstream : sys'.store.localStream = none := congrArg Call.localStream hnone
  have hconnection : sys'.store.peerConnection = none := congrArg Call.peerConnection hnone
  have hends : Ends t.sys.store sys'.store := ⟨by omega, congrArg Call.callState hnone⟩
  unfold after
  rw [if_pos hends]
  refine {
    idle := fun _ => hnone
    together := iff_of_true hstream hconnection
    stream := ⟨htaken.drop, iff_of_true rfl hstream⟩
    connection := ⟨h.connection.1.drop, iff_of_true rfl hconnection⟩
    fresh := fun id hmem => h.fresh_taken e id (Handle.mem_live_drop.mp hmem).1
    tasks := ?_
    ended := fun call hmem => ?_
    obeys := ?_ }
  · refine h.tasks_next htasks (fun call hmem => ?_) (fun _ => ?_) fun _ => hnone
    · exact List.mem_append_left _ (mem_logged_of_mem hmem e)
    · exact .inl (List.mem_append_right _ (List.mem_singleton_self _))
  · show call < sys'.store.call
    rcases List.mem_append.mp hmem with hold | hnew
    · have := h.ended call (ended_mem_logged hold)
      omega
    · cases List.mem_singleton.mp hnew
      omega
  · -- an end is no act, so every entry allows it
    refine List.pairwise_append.mpr ⟨hlog, List.pairwise_singleton _ _, ?_⟩
    intro first _ then' hthen call act _ heq
    cases (List.mem_singleton.mp hthen).symm.trans heq

/-- Where no call ends, the log grows by what is done. -/
theorem Holds.goesOn (h : Holds t) (hends : ¬ Ends t.sys.store sys'.store)
    (hcall : t.sys.store.call ≤ sys'.store.call)
    (hidle : sys'.store.callState = .idle → sys'.store.toCall = .idle)
    (hbusy : t.sys.store.callState ≠ .idle →
      sys'.store.call = t.sys.store.call ∧ sys'.store.callState ≠ .idle)
    (htogether : sys'.store.localStream = none ↔ sys'.store.peerConnection = none)
    (hstream : (t.taken e).Tight ∧
      ((t.taken e).current = none ↔ sys'.store.localStream = none))
    (hconnection : (t.connected e).Tight ∧
      ((t.connected e).current = none ↔ sys'.store.peerConnection = none))
    (htasks : ∀ task ∈ sys'.tasks,
      (∃ old ∈ t.sys.tasks, task.call = old.call) ∨ task.New sys'.store)
    (hlog : (t.logged e).Pairwise Entry.Allows) : Holds (t.after e sys') := by
  unfold after
  rw [if_neg hends]
  refine {
    idle := hidle
    together := htogether
    stream := hstream
    connection := hconnection
    fresh := h.fresh_taken e
    tasks := ?_
    ended := fun call hmem => ?_
    obeys := hlog }
  · refine h.tasks_next htasks (fun call hmem => mem_logged_of_mem hmem e) (fun hs => ?_) hidle
    exact .inr (hbusy hs)
  · exact Nat.lt_of_lt_of_le (h.ended call (ended_mem_logged hmem)) hcall

/-- One step of the store. -/
theorem Holds.step {parse : String → Option Signal} {t' : Tracked} (h : Holds t)
    (hmeets : t.Meets e) (hstep : t.step parse e = some t') : Holds t' := by
  unfold Tracked.step at hstep
  split_ifs at hstep with hfires
  obtain ⟨sys', happly, rfl⟩ := Option.map_eq_some_iff.mp hstep
  have hlog := h.logged fun call act => hmeets.current
  by_cases htrack : ∃ stream, e = .track stream
  · obtain ⟨stream, rfl⟩ := htrack
    obtain rfl := Option.some.inj happly
    -- the connection that got the stream is that of the store
    have hbusy : t.sys.store.callState ≠ .idle := by
      intro hidle
      have hnone : t.sys.store.peerConnection = none :=
        congrArg Call.peerConnection (h.idle hidle)
      exact hfires (h.connection.1.live_eq_nil (h.connection.2.mpr hnone))
    refine h.goesOn (not_ends_of_call rfl) (Nat.le_refl _) (fun hidle => absurd hidle hbusy)
      (fun _ => ⟨rfl, hbusy⟩) h.together h.stream h.connection (fun task hmem => ?_) hlog
    rcases List.mem_append.mp hmem with hold | hnew
    · exact .inl ⟨task, hold, rfl⟩
    · cases hnew
  obtain ⟨hturn, htasks⟩ := turn_apply happly fun stream heq => htrack ⟨stream, heq⟩
  have htakes := hmeets.media happly
  have htaken : (t.taken e).Tight := by
    unfold taken
    split_ifs with hmedia
    · exact h.stream.1.set (h.stream.2.mpr (htakes hmedia).1) t.fresh
    · exact h.stream.1
  generalize hstore : sys'.store = s' at hturn
  generalize hmedia : takesMedia t.sys e = media at hturn
  have hsame : media = false → t.taken e = t.stream ∧ t.connected e = t.connection := by
    rintro rfl
    exact ⟨if_neg (by simp [hmedia]), if_neg (by simp [hmedia])⟩
  cases hturn with
  | ends media sent => exact h.ends hstore htaken htasks hlog
  | begins hidle hbusy hcall hstream hconnection =>
    -- the store was idle, so whoever waits does so for a call that has ended
    subst hstore
    obtain ⟨htaken', hconnected⟩ := hsame rfl
    refine h.goesOn (fun hends => hbusy hends.2) (by omega) (fun hidle' => absurd hidle' hbusy)
      (fun hs => absurd hidle hs) ?_ ?_ ?_ htasks hlog
    · rw [hstream, hconnection]
      exact h.together
    · rw [htaken', hstream]
      exact h.stream
    · rw [hconnected, hconnection]
      exact h.connection
  | takes hcall hstate hstream hconnection =>
    -- there was no stream, hence no connection: none is forgotten
    subst hstore
    obtain ⟨hnone, hbusy⟩ := htakes hmedia
    have hbusy' : sys'.store.callState ≠ .idle := hstate ▸ hbusy hstream
    have hset : t.taken e = t.stream.set t.fresh := if_pos hmedia
    have hset' : t.connected e = t.connection.set t.fresh := if_pos hmedia
    refine h.goesOn (not_ends_of_call hcall) (Nat.le_of_eq hcall.symm)
      (fun hidle => absurd hidle hbusy') (fun _ => ⟨hcall, hbusy'⟩)
      (iff_of_false hstream hconnection) ⟨htaken, ?_⟩ ?_ htasks hlog
    · rw [hset]
      exact iff_of_false (Option.some_ne_none _) hstream
    · rw [hset']
      exact ⟨h.connection.1.set (h.connection.2.mpr (h.together.mp hnone)) t.fresh,
        iff_of_false (Option.some_ne_none _) hconnection⟩
  | stays hstays =>
    -- also where the call has become connected
    subst hstore
    obtain ⟨htaken', hconnected⟩ := hsame rfl
    refine h.goesOn (not_ends_of_call hstays.call) (Nat.le_of_eq hstays.call.symm)
      (fun hidle => hstays.idle hidle h.idle) (fun hbusy => ⟨hstays.call, ?_⟩) ?_ ?_ ?_ htasks hlog
    · rcases hstays.state with hstate | hstate
      · rw [hstate]
        exact hbusy
      · rw [hstate]
        exact CallState.noConfusion
    · rw [hstays.stream, hstays.connection]
      exact h.together
    · rw [htaken', hstays.stream]
      exact h.stream
    · rw [hconnected, hstays.connection]
      exact h.connection

end

/-- In every run whose events meet the condition, an idle store with nothing pending holds nothing;
and no call that has ended sends an offer or an answer, or becomes connected. -/
theorem held_run (parse : String → Option Signal) {t : Tracked}
    (hrun : Run (step · parse) Meets init t) : t.Released ∧ t.Obeys := by
  have hholds : Holds t := by
    refine hrun.invariant holds_init ?_
    exact fun t e t' h hmeets hstep => h.step hmeets hstep
  exact ⟨hholds.released, hholds.obeys⟩

/-! ## Calls of the user -/

/-- Bob is called, answers, and is hung up. -/
def calledBob : List Event :=
  [.startCall "bob", .resume 0 (some "mic"), .resume 0 (some "sdp"), .resume 0 (some ""),
    .resume 0 (some ""), .receiveMessage "bob" "__CALL_SIGNAL__:a", .resume 0 (some ""),
    .track "voice", .hangupCall (some "me")]

/-- The user hangs up before there is a microphone. -/
def hungUpEarly : List Event :=
  [.startCall "bob", .hangupCall (some "me"), .resume 0 (some "mic"), .resume 0 (some "sdp"),
    .resume 0 (some ""), .resume 0 (some "")]

/-- The user answers twice, and hangs up. -/
def answeredTwice : List Event :=
  [.receiveMessage "alice" "__CALL_SIGNAL__:o", .answerCall, .answerCall, .resume 0 (some "mic"),
    .resume 0 (some "mic"), .resume 0 (some ""), .resume 0 (some ""), .resume 0 (some "sdp"),
    .resume 0 (some "sdp"), .resume 0 (some ""), .resume 0 (some ""), .resume 0 (some ""),
    .resume 0 (some ""), .hangupCall (some "me")]

theorem calledBob_released : ∃ t : Tracked, Run (step · sampleParse) Meets init t ∧
    t.sys.store.offered ≠ [] ∧ t.sys.store.callState = .idle ∧ t.connection.live = [] ∧
      t.stream.live = [] ∧ t.Obeys := by
  obtain ⟨t, hrun, h⟩ := @Run.exists_of_runAll _ _ (step · sampleParse) Meets init _ calledBob
    (fun t => t.sys.store.offered ≠ [] ∧ t.sys.store.callState = .idle ∧ t.sys.tasks = [])
    (by decide +kernel)
  obtain ⟨hoffered, hidle, htasks⟩ := of_decide_eq_true h
  obtain ⟨hreleased, hobeys⟩ := held_run sampleParse hrun
  obtain ⟨hconnection, hstream, -⟩ := hreleased hidle htasks
  exact ⟨t, hrun, hoffered, hidle, hconnection, hstream, hobeys⟩

/-- The function that was hung up goes on, sends its offer and keeps a connection open; and of two
answers one keeps its connection. -/
theorem hungUp_holds_on :
    (∃ t : Tracked, Run (step · sampleParse) (fun _ _ => True) init t ∧ ¬ t.Released ∧ ¬ t.Obeys) ∧
      ∃ t : Tracked, Run (step · sampleParse) (fun _ _ => True) init t ∧ ¬ t.Released := by
  constructor
  · obtain ⟨t, hrun, h⟩ := @Run.exists_of_runAll _ _ (step · sampleParse) (fun _ _ => True) init _
      hungUpEarly (fun t => (t.sys.store.callState = .idle ∧ t.sys.tasks = []) ∧
        t.connection.live ≠ [] ∧ t.log = [.ended 1, .did 1 .offer]) (by decide +kernel)
    obtain ⟨⟨hidle, htasks⟩, hlive, hlog⟩ := of_decide_eq_true h
    refine ⟨t, hrun, fun hreleased => hlive (hreleased hidle htasks).1, fun hobeys => ?_⟩
    unfold Obeys at hobeys
    rw [hlog, List.pairwise_cons] at hobeys
    exact hobeys.1 _ (List.mem_singleton_self _) 1 .offer rfl rfl
  · obtain ⟨t, hrun, h⟩ := @Run.exists_of_runAll _ _ (step · sampleParse) (fun _ _ => True) init _
      answeredTwice (fun t => (t.sys.store.callState = .idle ∧ t.sys.tasks = []) ∧
        t.connection.live ≠ []) (by decide +kernel)
    obtain ⟨⟨hidle, htasks⟩, hlive⟩ := of_decide_eq_true h
    exact ⟨t, hrun, fun hreleased => hlive (hreleased hidle htasks).1⟩

end Tracked

end AnonyMus.Web.Calls
