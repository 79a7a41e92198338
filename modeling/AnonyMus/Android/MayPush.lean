import AnonyMus.Android.Outsider
import AnonyMus.Relay.InMemory

/-!
# Android clients and the relay — who may push

Any number of clients on one relay without Redis. What a client emits is handled
by the relay at once and in order while its socket is connected, and is kept for
the next connection otherwise; what the relay sends waits in an inbox.

* `System`, `apply` — the clients, the relay and their events;
* `Idle`, `idle_local` — a client that has accepted no invite pushes nothing;
* `System.Before`, `before_apply` — invites stay accepted, pushes stay refused;
* `pushes_pass_iff` — the relay refuses no push exactly if no invite has been
  accepted: an invite is answered before the answer is announced.
-/

namespace AnonyMus.Android.Chat

open EStateM (Keeps Preserves)
open Interleave
open Relay.InMemory

variable {Text Base64 ι : Type} [DecidableEq ι]

/-! ## Clients on a relay -/

/-- A client, and its end of the socket. -/
structure Endpoint (Base64 : Type) where
  client : ChatManager Base64
  /-- The socket id, while the socket is connected. -/
  sid    : Option String
  inbox  : List (Outgoing (Payload Base64))

/-- The clients, and the relay between them. -/
structure System (ι Base64 : Type) where
  ends   : ι → Endpoint Base64
  server : Server (Payload Base64)
  /-- The socket ids so far. -/
  sids   : List String

/-- Nobody has a socket yet. -/
def System.init (clock : ι → ℕ → ℤ) (nonces : ι → ℕ → List UInt8) : System ι Base64 where
  ends i := ⟨.init (clock i) (nonces i), none, []⟩
  server := .init
  sids := []

/-- What `parsed.get("ephemeral")` finds. -/
def Payload.ephemeral : Payload Base64 → Bool
  | .message _ _ ephemeral => ephemeral
  | _ => false

namespace System

variable (P : CryptoProvider Text Base64) (uuids : ℕ → String) (large : Payload Base64 → Bool)
  (sys : System ι Base64)

def setEnd (i : ι) (e : Endpoint Base64) : System ι Base64 :=
  { sys with ends := Function.update sys.ends i e }

def setClient (i : ι) (client : ChatManager Base64) : System ι Base64 :=
  sys.setEnd i { sys.ends i with client := client }

@[simp] theorem setEnd_self (i : ι) (e : Endpoint Base64) : (sys.setEnd i e).ends i = e :=
  Function.update_self ..

theorem setEnd_of_ne {i j : ι} (hj : j ≠ i) (e : Endpoint Base64) :
    (sys.setEnd i e).ends j = sys.ends j :=
  Function.update_of_ne hj ..

theorem setClient_setEnd (i : ι) (e : Endpoint Base64) (client : ChatManager Base64) :
    (sys.setEnd i e).setClient i client = sys.setEnd i { e with client := client } := by
  unfold setClient
  rw [setEnd_self]
  unfold setEnd
  rw [Function.update_idem]

/-- Put what the relay sends into the inboxes of the sockets. -/
def post (sent : Sent (Payload Base64)) : System ι Base64 :=
  { sys with
    ends := fun i => { sys.ends i with
      inbox := (sys.ends i).inbox ++
        (sent.filter fun out => (sys.ends i).sid = some out.1).map Prod.snd } }

/-- The relay handles an event of a socket. -/
def serve (sid : String) : Emit Base64 → System ι Base64
  | .createQueue =>
    let (server, sent) := sys.server.handleCreateQueue sid (uuids sys.server.drawn)
    { sys with server := server }.post sent
  | .registerPeer myQueue peerQueue =>
    { sys with server := sys.server.handleRegisterPeer sid myQueue peerQueue }
  | .pushQueue queueId payload =>
    let (server, sent) := sys.server.handlePushQueue large Payload.ephemeral sid queueId payload
    { sys with server := server }.post sent

/-- The relay handles what client `i` has emitted, if its socket is connected. -/
def transmit (i : ι) : System ι Base64 :=
  match (sys.ends i).sid with
  | none => sys
  | some sid =>
    let emitted := (sys.ends i).client.emitted
    emitted.foldl (fun sys e => sys.serve uuids large sid e)
      (sys.setClient i { (sys.ends i).client with emitted := [] })

/-- The socket of client `i` is gone. -/
def hangUp (i : ι) : System ι Base64 :=
  match (sys.ends i).sid with
  | none => sys
  | some sid =>
    { sys with server := sys.server.handleDisconnect sid }.setEnd i
      { sys.ends i with sid := none, inbox := [] }

/-- A client without a socket has closed it. -/
def settle (i : ι) : System ι Base64 :=
  if (sys.ends i).client.hasSocket then sys else sys.hangUp i

end System

/-- What the user and the main thread do; the rest comes from the socket. -/
def Input.IsLocal : Input Base64 → Prop
  | .connected _ | .disconnected | .queueCreated _ | .queuePayload _ _ | .pushQueueError _ => False
  | _ => True

instance : (input : Input Base64) → Decidable input.IsLocal
  | .connected _ | .disconnected | .queueCreated _ | .queuePayload _ _ | .pushQueueError _ =>
    .isFalse id
  | .connectError _ | .connect | .acceptInvite _ _ | .sendPrivateMessage _
  | .setDisappearingTimer _ | .sendTypingDraft _ | .sendReaction _ _ | .sendEditMessage _ _
  | .sendDeleteMessage _ | .obliviate | .resetClient | .keepAlive | .countdown _ _ | .runPosted =>
    .isTrue trivial

/-- The input that an event of the relay is. -/
def inputOf : Outgoing (Payload Base64) → Input Base64
  | .queueCreated queueId => .queueCreated queueId
  | .queuePayload queueId payload => .queuePayload queueId payload
  | .pushQueueError _ error => .pushQueueError error

/-- The socket of a client connects, with a new id, or disconnects; a client receives what is next
in its inbox, or does something on its own. -/
inductive Event (ι Base64 : Type)
  | connect (i : ι) (sid : String) (generated : Option KeyPair)
  | disconnect (i : ι)
  | deliver (i : ι)
  | act (i : ι) (input : Input Base64)

section

variable (P : CryptoProvider Text Base64) (uuids : ℕ → String) (large : Payload Base64 → Bool)

/-- The client once its socket is connected: `EVENT_CONNECT` is handled before what was kept is
sent. -/
def ChatManager.online (s : ChatManager Base64) (generated : Option KeyPair) :
    ChatManager Base64 :=
  let fresh := { s with emitted := [] }.after P (.connected generated)
  { fresh with emitted := fresh.emitted ++ s.emitted }

/-- What an event does, if it can happen. -/
def apply (sys : System ι Base64) : Event ι Base64 → Option (System ι Base64)
  | .connect i sid generated =>
    let e := sys.ends i
    if e.sid = none ∧ e.client.hasSocket ∧ sid ∉ sys.sids then
      some (({ sys with
        server := sys.server.handleConnect sid
        sids := sid :: sys.sids }.setEnd i
          ⟨e.client.online P generated, some sid, []⟩).transmit uuids large i)
    else none
  | .disconnect i =>
    if (sys.ends i).sid = none then none
    else some ((sys.hangUp i).setClient i ((sys.ends i).client.after P .disconnected))
  | .deliver i =>
    match (sys.ends i).inbox with
    | [] => none
    | out :: inbox =>
      some ((sys.setEnd i { sys.ends i with
        client := (sys.ends i).client.after P (inputOf out), inbox := inbox }).transmit uuids large i)
  | .act i input =>
    if input.IsLocal then
      some (((sys.setClient i ((sys.ends i).client.after P input)).transmit uuids large i).settle i)
    else none

end

/-! ## Clients that have accepted no invite -/

/-- A client that can send nothing but requests for a queue; when it is connected, it is `live`. -/
structure Idle (live : Prop) (s : ChatManager Base64) : Prop where
  unkeyed   : s.sendChainKey = none
  unpaired  : s.accepted = 0
  emitted   : ∀ e ∈ s.emitted, e = Emit.createQueue
  connected : s.connectionStatus = .connected → s.hasSocket = true ∧ live

section

variable {live : Prop} (P : CryptoProvider Text Base64)

/-- What touches neither session nor socket. -/
theorem idle_of_silent {α : Type} {x : Handler Base64 α} (hx : Keeps ChatManager.silent x) :
    Preserves (Idle live) x := by
  intro s hs
  have hcore := congrArg Prod.fst (hx s)
  refine ⟨?_, ?_, ?_, ?_⟩
  · rw [show (x s).state.sendChainKey = s.sendChainKey from congrArg (·.sendChainKey) hcore]
    exact hs.unkeyed
  · rw [show (x s).state.accepted = s.accepted from congrArg Core.accepted hcore]
    exact hs.unpaired
  · rw [show (x s).state.emitted = s.emitted from congrArg Prod.snd (hx s)]
    exact hs.emitted
  · rw [show (x s).state.connectionStatus = s.connectionStatus from
        congrArg Core.connectionStatus hcore,
      show (x s).state.hasSocket = s.hasSocket from congrArg Core.hasSocket hcore]
    exact hs.connected

/-- Without a sending chain nothing is encrypted. -/
theorem idle_pushEncrypted (payload : Content) (ephemeral : Bool) :
    Preserves (Idle live) (pushEncrypted P payload ephemeral) := by
  refine .get fun s hs => ?_
  rw [hs.unkeyed]
  exact hs

theorem idle_sendAndMark (payload : Content) (f : List ChatMessage → List ChatMessage) :
    Preserves (Idle live) (do if ← pushEncrypted P payload then updateCurrent f) := by
  refine .bind (idle_pushEncrypted P payload false) fun _ => ?_
  split
  · exact idle_of_silent (keeps_silent_updateCurrent f)
  · exact .pure _

theorem idle_sendPrivateMessage (text : String) : Preserves (Idle live) (sendPrivateMessage P text) := by
  refine .get fun s hs => ?_
  rw [hs.unkeyed, if_neg fun h => h.1 rfl]
  exact hs

theorem idle_onQueueCreated (queueId : String) : Preserves (Idle live) (@onQueueCreated Base64 queueId) := by
  refine .get fun s hs => ?_
  rw [hs.unkeyed, EStateM.apply_bind, EStateM.apply_modify]
  dsimp only
  rcases s.theirQueueId with _ | theirQueueId
  · dsimp only
    rcases s.pendingInvite with _ | ⟨queueId', pubKeyBase64⟩
    · exact ⟨hs.unkeyed, hs.unpaired, hs.emitted, hs.connected⟩
    · exact ⟨hs.unkeyed, hs.unpaired, hs.emitted, hs.connected⟩
  · dsimp only
    rcases s.pendingInvite with _ | ⟨queueId', pubKeyBase64⟩
    · exact ⟨hs.unkeyed, hs.unpaired, hs.emitted, hs.connected⟩
    · exact ⟨hs.unkeyed, hs.unpaired, hs.emitted, hs.connected⟩

theorem emit_of_hasSocket (e : Emit Base64) {s : ChatManager Base64} (h : s.hasSocket = true) :
    emit e s = .ok () { s with emitted := s.emitted ++ [e] } := by
  rw [emit_eq, if_pos h]

/-- What an accepted invite makes a client do: the handshake is pushed before the peer is
registered. -/
theorem idle_acceptInvite {queueId pubKeyBase64 : String} {s : ChatManager Base64} (hs : Idle live s) :
    Idle live (acceptInvite P queueId pubKeyBase64 s).state ∨
      (s.Ready ∧ 0 < (acceptInvite P queueId pubKeyBase64 s).state.accepted ∧
        (acceptInvite P queueId pubKeyBase64 s).state.emitted = s.emitted ++
          [.pushQueue queueId (.handshake s.myQueueId (s.myPublicKeyExported.getD "")),
            .registerPeer s.myQueueId (some queueId)]) := by
  unfold acceptInvite
  rw [EStateM.apply_bind, EStateM.apply_get]
  dsimp only
  by_cases hready : s.Ready
  · rw [if_neg (not_not_intro hready), EStateM.apply_bind, EStateM.apply_modify]
    dsimp only
    rw [EStateM.apply_bind]
    rcases deriveSession_cases P pubKeyBase64 { s with
      theirQueueId := some queueId, theirPublicKeyExported := some pubKeyBase64 } with
        h | ⟨theirKey, myKeyPair, myPublicKey, sessionKeys, -, -, -, -, h⟩
    · rw [h]
      exact .inl ⟨hs.unkeyed, hs.unpaired, hs.emitted, hs.connected⟩
    · rw [h]
      have hsocket : s.hasSocket = true := (hs.connected hready.1).1
      refine .inr ⟨hready, ?_⟩
      dsimp only
      rw [EStateM.apply_bind, EStateM.apply_get]
      dsimp only
      rw [EStateM.apply_bind, EStateM.apply_modify]
      dsimp only
      rw [EStateM.apply_bind, emit_of_hasSocket _ (by exact hsocket)]
      dsimp only
      rw [EStateM.apply_bind, emit_of_hasSocket _ (by exact hsocket)]
      dsimp only
      -- what is left shows the handshake and opens the session
      have hshown : Keeps (fun s : ChatManager Base64 => (s.accepted, s.emitted)) (do
          appendNow .peer "[Sent handshake to Peer]"
          modify fun s => { s with isSessionActive := true }) := by
        refine .bind (fun s => ?_) fun _ _ => rfl
        have hsilent := keeps_silent_appendNow .peer "[Sent handshake to Peer]" true s
        exact congrArg (fun p => (p.1.accepted, p.2)) hsilent
      obtain ⟨haccepted, hemitted⟩ := Prod.mk.inj (hshown _)
      refine ⟨?_, hemitted.trans (List.append_assoc _ _ _)⟩
      rw [show (_ : ChatManager Base64).accepted = _ from haccepted]
      exact Nat.succ_pos _
  · rw [if_pos hready]
    exact .inl ⟨hs.unkeyed, hs.unpaired, hs.emitted, hs.connected⟩

/-- The queue of the invite that an input makes a client accept. -/
def ChatManager.accepting (s : ChatManager Base64) : Input Base64 → Option String
  | .acceptInvite queueId _ => some queueId
  | .runPosted =>
    match s.posted with
    | .acceptInvite queueId _ :: _ => some queueId
    | _ => none
  | _ => none

theorem idle_resetClient : Preserves (Idle live) (@resetClient Base64) :=
  .modify fun _ hs => ⟨rfl, hs.unpaired, hs.emitted, nofun⟩

theorem idle_onConnect {live' : Prop} (generated : Option KeyPair) {s : ChatManager Base64}
    (hs : Idle live' s) (hsocket : s.hasSocket = true) (hlive : live) : Idle live (onConnect P generated s).state := by
  unfold onConnect
  cases generated with
  | none => exact ⟨hs.unkeyed, hs.unpaired, hs.emitted, nofun⟩
  | some keyPair =>
    dsimp only
    rw [EStateM.apply_bind, EStateM.apply_modify]
    dsimp only
    rw [emit_of_hasSocket _ (by exact hsocket)]
    refine ⟨hs.unkeyed, hs.unpaired, fun e he => ?_, fun _ => ⟨hsocket, hlive⟩⟩
    rcases List.mem_append.mp he with he | he
    · exact hs.emitted e he
    · exact List.mem_singleton.mp he

theorem idle_online {live' : Prop} {s : ChatManager Base64} (hs : Idle live' s)
    (generated : Option KeyPair) (hsocket : s.hasSocket = true) (hlive : live) :
    Idle live (s.online P generated) := by
  have hempty : Idle live' ({ s with emitted := [] } : ChatManager Base64) :=
    ⟨hs.unkeyed, hs.unpaired, nofun, hs.connected⟩
  have hfresh := idle_onConnect P generated hempty hsocket hlive
  refine ⟨hfresh.unkeyed, hfresh.unpaired, fun e he => ?_, hfresh.connected⟩
  rcases List.mem_append.mp he with he | he
  · exact hfresh.emitted e he
  · exact hs.emitted e he

theorem idle_connect : Preserves (Idle live) (@connect Base64) := by
  refine .get fun s hs => ?_
  split
  · exact ⟨hs.unkeyed, hs.unpaired, nofun, nofun⟩
  · exact hs

/-- A client stays idle, or accepts an invite: what it then emits comes after what it had. -/
theorem idle_local {s : ChatManager Base64} (hs : Idle live s) {input : Input Base64}
    (hlocal : input.IsLocal) :
    Idle live (s.after P input) ∨
      ∃ queueId payload register, s.accepting input = some queueId ∧ s.Ready ∧
        0 < (s.after P input).accepted ∧
          (s.after P input).emitted = s.emitted ++ [.pushQueue queueId payload, register] := by
  have hpush (payload : Content) (ephemeral : Bool) :
      Preserves (Idle live) (discard (pushEncrypted P payload ephemeral)) :=
    .discard (idle_pushEncrypted P payload ephemeral)
  cases input with
  | connected generated => exact hlocal.elim
  | disconnected => exact hlocal.elim
  | queueCreated queueId => exact hlocal.elim
  | queuePayload queueId payload => exact hlocal.elim
  | pushQueueError error => exact hlocal.elim
  | connectError rejected =>
    left
    show Idle live (onConnectError rejected s).state
    unfold onConnectError
    split
    · exact idle_of_silent (keeps_silent_post _) s hs
    · exact ⟨hs.unkeyed, hs.unpaired, hs.emitted, nofun⟩
  | connect => exact .inl (idle_connect s hs)
  | acceptInvite queueId pubKeyBase64 =>
    refine (idle_acceptInvite P hs).imp_right ?_
    rintro ⟨hready, haccepted, hemitted⟩
    exact ⟨queueId, _, _, rfl, hready, haccepted, hemitted⟩
  | sendPrivateMessage text => exact .inl (idle_sendPrivateMessage P text s hs)
  | setDisappearingTimer seconds =>
    exact .inl (hpush _ _ { s with disappearTimerSeconds := seconds }
      ⟨hs.unkeyed, hs.unpaired, hs.emitted, hs.connected⟩)
  | sendTypingDraft text => exact .inl (hpush _ _ s hs)
  | sendReaction targetTimestamp emoji => exact .inl (idle_sendAndMark P _ _ s hs)
  | sendEditMessage targetTimestamp newText => exact .inl (idle_sendAndMark P _ _ s hs)
  | sendDeleteMessage targetTimestamp => exact .inl (idle_sendAndMark P _ _ s hs)
  | obliviate => exact .inl ((hpush _ _).bind (fun _ => idle_resetClient) s hs)
  | resetClient => exact .inl (idle_resetClient s hs)
  | keepAlive => exact .inl (hpush _ _ s hs)
  | countdown chatPartner messageId =>
    exact .inl ⟨hs.unkeyed, hs.unpaired, hs.emitted, hs.connected⟩
  | runPosted =>
    rw [show s.after P .runPosted = _ from state_runPosted P s]
    unfold ChatManager.accepting
    dsimp only
    -- a posted task finds the client idle
    rcases hposted : s.posted with _ | ⟨task, tasks⟩
    · exact .inl hs
    · have hs' : Idle live { s with posted := tasks } :=
        ⟨hs.unkeyed, hs.unpaired, hs.emitted, hs.connected⟩
      cases task with
      | append chatPartner message =>
        exact .inl ⟨hs.unkeyed, hs.unpaired, hs.emitted, hs.connected⟩
      | acceptInvite queueId pubKeyBase64 =>
        refine (idle_acceptInvite P hs').imp_right ?_
        rintro ⟨hready, haccepted, hemitted⟩
        exact ⟨queueId, _, _, rfl, hready, haccepted, hemitted⟩
      | infinitySnap => exact .inl (idle_resetClient _ hs')

/-! ## What only grows -/

open ChatManager (accepted unsent unchained core)

theorem keeps_accepted_of_unsent {α : Type} {x : Handler Base64 α} (hx : Keeps unsent x) :
    Keeps accepted x :=
  fun s => congrArg Core.accepted (hx s)

theorem keeps_accepted_of_core {α : Type} {x : Handler Base64 α} (hx : Keeps core x) :
    Keeps accepted x :=
  fun s => congrArg Core.accepted (hx s)

theorem keeps_accepted_deriveSession (theirPublicKey : String) :
    Keeps accepted (deriveSession P theirPublicKey) := by
  intro s
  rcases deriveSession_cases P theirPublicKey s with h | ⟨_, _, _, _, -, -, -, -, h⟩
  · rw [h]
    rfl
  · rw [h]
    rfl

theorem keeps_accepted_onHandshake (queueId : String) (replyQueue : Option String)
    (publicKey : String) : Keeps accepted (onHandshake P queueId replyQueue publicKey) := by
  have hcore {α : Type} {x : Handler Base64 α} (hx : Keeps core x) : Keeps accepted x :=
    keeps_accepted_of_core hx
  refine .bind (fun _ => rfl) fun _ => .bind (keeps_accepted_deriveSession P _) fun _ => ?_
  refine .bind (fun _ => rfl) fun _ => .bind (hcore (keeps_core_emit _)) fun _ => ?_
  exact .bind (hcore (keeps_core_emit _)) fun _ => .bind (fun _ => rfl) fun _ =>
    hcore (keeps_core_appendNow _ _ _)

mutual

/-- No payload accepts an invite. -/
theorem keeps_accepted_processPayload (queueId : String) : (payload : Payload Base64) →
    Keeps accepted (processPayload P queueId payload)
  | .handshake replyQueue publicKey => keeps_accepted_onHandshake P queueId replyQueue publicKey
  | .queueUpdate _ =>
    .bind (fun _ => rfl) fun _ => keeps_accepted_of_core (keeps_core_appendNow _ _ _)
  | .message iv ciphertext _ =>
    fun s => congrArg Core.accepted (keeps_unchained_onMessage P iv ciphertext s)
  | .batch events => keeps_accepted_processEvents queueId events
  | .other => .pure _
  | .broken => .throw _

theorem keeps_accepted_processEvents (queueId : String) : (events : List (Payload Base64)) →
    Keeps accepted (processEvents P queueId events)
  | [] => .pure _
  | payload :: events =>
    .bind (keeps_accepted_processPayload queueId payload) fun _ =>
      keeps_accepted_processEvents queueId events

end

theorem keeps_accepted_onQueueCreated (queueId : String) :
    Keeps accepted (@onQueueCreated Base64 queueId) := by
  have hcore {α : Type} {x : Handler Base64 α} (hx : Keeps core x) : Keeps accepted x :=
    keeps_accepted_of_core hx
  refine .bind (fun _ => rfl) fun s => .bind (fun _ => rfl) fun _ => ?_
  split
  · exact .bind (hcore (keeps_core_emit _)) fun _ => hcore (keeps_core_emit _)
  · split
    · exact .pure _
    · exact .bind (fun _ => rfl) fun _ => hcore (keeps_core_post _)

theorem le_accepted_acceptInvite {n : ℕ} (queueId pubKeyBase64 : String) :
    Preserves (fun s => n ≤ s.accepted) (acceptInvite P queueId pubKeyBase64) := by
  have hkeeps {α : Type} {x : Handler Base64 α} (hx : Keeps accepted x) :
      Preserves (fun s => n ≤ s.accepted) x := fun s hs => Nat.le_trans hs (Nat.le_of_eq (hx s).symm)
  refine .get fun s hs => ?_
  split
  · exact hs
  · refine Preserves.bind (hkeeps fun _ => rfl) (fun _ => ?_) s hs
    refine .bind (hkeeps (keeps_accepted_deriveSession P _)) fun _ => ?_
    refine .bind (hkeeps fun _ => rfl) fun _ => ?_
    refine .bind (.modify fun _ hs => Nat.le_succ_of_le hs) fun _ => ?_
    refine .bind (hkeeps (keeps_accepted_of_core (keeps_core_emit _))) fun _ => ?_
    refine .bind (hkeeps (keeps_accepted_of_core (keeps_core_emit _))) fun _ => ?_
    refine .bind (hkeeps (keeps_accepted_of_core (keeps_core_appendNow _ _ _))) fun _ => ?_
    exact hkeeps fun _ => rfl

/-- An invite that was accepted stays so. -/
theorem accepted_le_after (s : ChatManager Base64) (input : Input Base64) :
    s.accepted ≤ (s.after P input).accepted := by
  have hkeeps {α : Type} {x : Handler Base64 α} (hx : Keeps accepted x) :
      s.accepted ≤ (x s).state.accepted := Nat.le_of_eq (hx s).symm
  have hpush (payload : Content) (ephemeral : Bool) :
      Keeps accepted (pushEncrypted P payload ephemeral) :=
    keeps_accepted_of_unsent (keeps_unsent_pushEncrypted P payload ephemeral)
  have hmark (payload : Content) (f : List ChatMessage → List ChatMessage) :
      Keeps accepted (do if ← pushEncrypted P payload then updateCurrent f) :=
    .bind (hpush payload false) fun _ => .ite (fun _ => rfl) (.pure _)
  -- only an invite that is accepted counts, by itself or as a posted task
  cases input with
  | connected generated =>
    cases generated with
    | none => exact Nat.le_refl _
    | some keyPair =>
      exact hkeeps (.bind (fun _ => rfl) fun _ => keeps_accepted_of_core (keeps_core_emit _))
  | disconnected => exact Nat.le_refl _
  | connectError rejected => exact hkeeps (.ite (fun _ => rfl) fun _ => rfl)
  | queueCreated queueId => exact hkeeps (keeps_accepted_onQueueCreated queueId)
  | queuePayload queueId payload => exact hkeeps (keeps_accepted_processPayload P queueId payload)
  | pushQueueError error =>
    exact hkeeps (.ite (keeps_accepted_of_core (keeps_core_appendNow _ _ _)) (.pure _))
  | connect => exact hkeeps (.bind (fun _ => rfl) fun _ => .ite (fun _ => rfl) (.pure _))
  | acceptInvite queueId pubKeyBase64 =>
    exact le_accepted_acceptInvite P queueId pubKeyBase64 s (Nat.le_refl _)
  | sendPrivateMessage text =>
    exact hkeeps (.bind (fun _ => rfl) fun _ => .ite
      (.bind (fun _ => rfl) fun _ => .bind (hpush _ _) fun _ =>
        .ite (keeps_accepted_of_core (keeps_core_appendNow _ _ _)) (.pure _)) (.pure _))
  | setDisappearingTimer seconds =>
    exact hkeeps (.bind (fun _ => rfl) fun _ => .discard (hpush _ _))
  | sendTypingDraft text => exact hkeeps (.discard (hpush _ _))
  | sendReaction target emoji => exact hkeeps (hmark _ _)
  | sendEditMessage target newText => exact hkeeps (hmark _ _)
  | sendDeleteMessage target => exact hkeeps (hmark _ _)
  | obliviate => exact hkeeps (.bind (.discard (hpush _ _)) fun _ _ => rfl)
  | resetClient => exact Nat.le_refl _
  | keepAlive => exact hkeeps (.discard (hpush _ _))
  | countdown chatPartner messageId => exact Nat.le_refl _
  | runPosted =>
    rw [show s.after P .runPosted = _ from state_runPosted P s]
    rcases s.posted with _ | ⟨task, tasks⟩
    · exact Nat.le_refl _
    · cases task with
      | append chatPartner message => exact Nat.le_refl _
      | acceptInvite queueId pubKeyBase64 =>
        exact le_accepted_acceptInvite P queueId pubKeyBase64 { s with posted := tasks } (Nat.le_refl _)
      | infinitySnap => exact Nat.le_refl _

end

/-- What has happened to the clients and the relay by `sys` has also happened by `sys'`. -/
structure System.Before (sys sys' : System ι Base64) : Prop where
  accepted : ∀ i, (sys.ends i).client.accepted ≤ (sys'.ends i).client.accepted
  refused  : sys.server.refused <+: sys'.server.refused

omit [DecidableEq ι] in
theorem System.Before.refl (sys : System ι Base64) : sys.Before sys :=
  ⟨fun _ => Nat.le_refl _, List.prefix_refl _⟩

omit [DecidableEq ι] in
theorem System.Before.trans {sys₁ sys₂ sys₃ : System ι Base64} (h₁ : sys₁.Before sys₂)
    (h₂ : sys₂.Before sys₃) : sys₁.Before sys₃ :=
  ⟨fun i => Nat.le_trans (h₁.accepted i) (h₂.accepted i), h₁.refused.trans h₂.refused⟩

section

variable (P : CryptoProvider Text Base64) (uuids : ℕ → String) (large : Payload Base64 → Bool)
  (sys : System ι Base64)

theorem System.before_replace (server : Server (Payload Base64)) (sids : List String) {i : ι}
    {e : Endpoint Base64} (hserver : sys.server.refused <+: server.refused)
    (he : (sys.ends i).client.accepted ≤ e.client.accepted) :
    sys.Before ({ sys with server := server, sids := sids }.setEnd i e) := by
  refine ⟨fun j => ?_, hserver⟩
  by_cases hj : j = i
  · rw [hj, System.setEnd_self]
    exact he
  · exact Nat.le_of_eq (congrArg (·.client.accepted) (System.setEnd_of_ne _ hj e).symm)

theorem System.before_setEnd {i : ι} {e : Endpoint Base64}
    (he : (sys.ends i).client.accepted ≤ e.client.accepted) : sys.Before (sys.setEnd i e) :=
  sys.before_replace sys.server sys.sids (List.prefix_refl _) he

omit [DecidableEq ι] in
/-- The relay forgets no refusal. -/
theorem System.before_serve (sid : String) (e : Emit Base64) :
    sys.Before (sys.serve uuids large sid e) := by
  refine ⟨fun i => ?_, ?_⟩
  · cases e <;> exact Nat.le_refl _
  · cases e with
    | createQueue => exact List.prefix_refl _
    | registerPeer myQueue peerQueue =>
      show _ <+: (sys.server.handleRegisterPeer sid myQueue peerQueue).refused
      unfold Server.handleRegisterPeer
      split
      · split
        · exact List.prefix_refl _
        · split <;> exact List.prefix_refl _
      · exact List.prefix_refl _
    | pushQueue queueId payload =>
      show _ <+: (sys.server.handlePushQueue large Payload.ephemeral sid queueId payload).1.refused
      rw [Server.refused_handlePushQueue]
      split
      · exact List.prefix_refl _
      · exact List.prefix_append _ _

omit [DecidableEq ι] in
theorem System.before_foldl_serve (sid : String) (emitted : List (Emit Base64)) :
    sys.Before (emitted.foldl (fun sys e => sys.serve uuids large sid e) sys) := by
  induction emitted generalizing sys with
  | nil => exact .refl sys
  | cons e emitted ih => exact (sys.before_serve uuids large sid e).trans (ih _)

theorem System.before_transmit (i : ι) : sys.Before (sys.transmit uuids large i) := by
  unfold System.transmit
  split
  · exact .refl sys
  · exact (sys.before_setEnd (i := i) (e := { sys.ends i with
      client := { (sys.ends i).client with emitted := [] } }) (Nat.le_refl _)).trans
        (System.before_foldl_serve uuids large _ _ _)

@[simp] theorem System.client_hangUp (i j : ι) :
    ((sys.hangUp i).ends j).client = (sys.ends j).client := by
  unfold System.hangUp
  split
  · rfl
  · by_cases hj : j = i
    · rw [hj, System.setEnd_self]
    · rw [System.setEnd_of_ne _ hj]

theorem System.before_hangUp (i : ι) : sys.Before (sys.hangUp i) := by
  unfold System.hangUp
  split
  · exact .refl sys
  · exact sys.before_replace _ _ (List.prefix_refl _) (Nat.le_refl _)

theorem System.before_settle (i : ι) : sys.Before (sys.settle i) := by
  unfold System.settle
  split
  · exact .refl sys
  · exact sys.before_hangUp i

/-- No event undoes what has happened. -/
theorem before_apply {sys sys' : System ι Base64} {e : Event ι Base64}
    (happly : apply P uuids large sys e = some sys') : sys.Before sys' := by
  cases e with
  | connect i sid generated =>
    rw [apply, Option.ite_none_right_eq_some] at happly
    obtain ⟨-, happly⟩ := happly
    obtain rfl := Option.some.inj happly
    refine .trans ?_ (System.before_transmit uuids large _ i)
    exact sys.before_replace _ _ (List.prefix_refl _) (accepted_le_after P
      { (sys.ends i).client with emitted := [] } (.connected generated))
  | disconnect i =>
    rw [apply, Option.ite_none_left_eq_some] at happly
    obtain ⟨-, happly⟩ := happly
    obtain rfl := Option.some.inj happly
    refine (sys.before_hangUp i).trans (System.before_setEnd _ ?_)
    rw [System.client_hangUp]
    exact Nat.le_refl _
  | deliver i =>
    simp only [apply] at happly
    rcases hinbox : (sys.ends i).inbox with _ | ⟨out, inbox⟩
    · rw [hinbox] at happly
      cases happly
    · rw [hinbox] at happly
      obtain rfl := Option.some.inj happly
      refine .trans ?_ (System.before_transmit uuids large _ i)
      exact sys.before_setEnd (accepted_le_after P _ _)
  | act i input =>
    rw [apply, Option.ite_none_right_eq_some] at happly
    obtain ⟨-, happly⟩ := happly
    obtain rfl := Option.some.inj happly
    -- what the client does, what it sends, and the socket that it may close
    refine .trans ?_ (System.before_settle _ i)
    refine .trans ?_ (System.before_transmit uuids large _ i)
    exact sys.before_setEnd (accepted_le_after P _ _)

end

/-! ## Runs -/

/-- A relay on which no peer is registered. -/
structure Calm (uuids : ℕ → String) (server : Server (Payload Base64)) : Prop where
  refused : server.refused = []
  offline : ∀ q, server.offlineQueue q = []
  owners  : ∀ q, ∀ sid ∈ server.queueOwners q, server.queueCreators q = some sid
  fresh   : ∀ n, server.drawn ≤ n → server.queueOwners (uuids n) = []

/-- An idle client that has been told of queues only. -/
structure Tame (e : Endpoint Base64) : Prop where
  idle  : Idle (e.sid ≠ none) e.client
  inbox : ∀ out ∈ e.inbox, ∃ queueId, out = .queueCreated queueId

/-- Nobody has accepted an invite, and what the clients on a socket have emitted is sent. -/
structure Quiet (uuids : ℕ → String) (sys : System ι Base64) : Prop where
  tame : ∀ i, Tame (sys.ends i)
  sent : ∀ i, (sys.ends i).sid ≠ none → (sys.ends i).client.emitted = []
  calm : Calm uuids sys.server

/-- Somebody has, and a push was refused. -/
def Broken (sys : System ι Base64) : Prop :=
  (∃ i, (sys.ends i).client.accepted ≠ 0) ∧ sys.server.refused ≠ []

section

variable {P : CryptoProvider Text Base64} {uuids : ℕ → String} {large : Payload Base64 → Bool}
  {sys : System ι Base64} {server : Server (Payload Base64)}

omit [DecidableEq ι] in
/-- What is broken stays broken. -/
theorem Broken.mono {sys' : System ι Base64} (h : Broken sys) (hbefore : sys.Before sys') :
    Broken sys' := by
  obtain ⟨⟨i, hi⟩, hrefused⟩ := h
  refine ⟨⟨i, fun hzero => hi ?_⟩, fun hnil => hrefused ?_⟩
  · exact Nat.le_zero.mp (hzero ▸ hbefore.accepted i)
  · exact List.prefix_nil.mp (hnil ▸ hbefore.refused)

/-- A new queue belongs to whoever asked for it. -/
theorem Calm.handleCreateQueue (huuids : Function.Injective uuids) (h : Calm uuids server)
    (sid : String) : Calm uuids (server.handleCreateQueue sid (uuids server.drawn)).1 := by
  -- the new queue had no owner yet
  have howners (q : String) : (server.handleCreateQueue sid (uuids server.drawn)).1.queueOwners q =
      if q = uuids server.drawn then [sid] else server.queueOwners q := by
    show Function.update server.queueOwners (uuids server.drawn) _ q = _
    rw [Function.update_apply, h.fresh _ (Nat.le_refl _)]
    rfl
  have hcreators (q : String) :
      (server.handleCreateQueue sid (uuids server.drawn)).1.queueCreators q =
        if q = uuids server.drawn then some sid else server.queueCreators q :=
    Function.update_apply ..
  refine ⟨h.refused, fun q => ?_, fun q sid' hsid' => ?_, fun n hn => ?_⟩
  · show Function.update server.offlineQueue (uuids server.drawn) [] q = []
    rw [Function.update_apply]
    split
    · rfl
    · exact h.offline q
  · rw [howners] at hsid'
    rw [hcreators]
    split
    · rename_i hq
      rw [if_pos hq] at hsid'
      rw [List.mem_singleton.mp hsid']
    · rename_i hq
      rw [if_neg hq] at hsid'
      exact h.owners q sid' hsid'
  · have hlt : server.drawn < n := hn
    rw [howners, if_neg fun heq => by
      have := huuids heq
      omega]
    exact h.fresh n (by omega)

/-- A socket that goes gives up its queues. -/
theorem Calm.handleDisconnect (h : Calm uuids server) (sid : String) :
    Calm uuids (server.handleDisconnect sid) := by
  refine ⟨h.refused, h.offline, fun q sid' hsid' => ?_, fun n hn => ?_⟩
  · obtain ⟨hmem, hne⟩ := List.mem_filter.mp hsid'
    show (if server.queueCreators q = some sid then none else server.queueCreators q) = _
    rw [h.owners q sid' hmem, if_neg fun heq => of_decide_eq_true hne (Option.some.inj heq)]
  · show (server.queueOwners (uuids n)).filter _ = []
    rw [h.fresh n hn]
    rfl

/-- One end changes, and the relay. -/
theorem Quiet.replace (h : Quiet uuids sys) (sids : List String) {i : ι} {e : Endpoint Base64}
    (htame : Tame e) (hsent : e.sid ≠ none → e.client.emitted = []) (hcalm : Calm uuids server) :
    Quiet uuids ({ sys with server := server, sids := sids }.setEnd i e) := by
  refine ⟨fun j => ?_, fun j => ?_, hcalm⟩
  · by_cases hj : j = i
    · rw [hj, System.setEnd_self]
      exact htame
    · rw [System.setEnd_of_ne _ hj]
      exact h.tame j
  · by_cases hj : j = i
    · rw [hj, System.setEnd_self]
      exact hsent
    · rw [System.setEnd_of_ne _ hj]
      exact h.sent j

omit [DecidableEq ι] in
/-- A new queue is the only answer. -/
theorem Quiet.createQueue (huuids : Function.Injective uuids) (h : Quiet uuids sys) (sid : String) :
    Quiet uuids (sys.serve uuids large sid .createQueue) := by
  refine ⟨fun i => ⟨(h.tame i).idle, fun out hout => ?_⟩, h.sent, h.calm.handleCreateQueue huuids sid⟩
  rcases List.mem_append.mp hout with hold | hnew
  · exact (h.tame i).inbox out hold
  · -- nothing is flushed to the new queue
    have hsent : (sys.server.handleCreateQueue sid (uuids sys.server.drawn)).2 =
        [(sid, .queueCreated (uuids sys.server.drawn))] := by
      show _ :: (sys.server.offlineQueue _).map _ = _
      rw [h.calm.offline]
      rfl
    obtain ⟨sent, hmem, rfl⟩ := List.mem_map.mp hnew
    have hmem' : sent ∈ (sys.server.handleCreateQueue sid (uuids sys.server.drawn)).2 :=
      List.mem_of_mem_filter hmem
    rw [hsent] at hmem'
    rw [List.mem_singleton.mp hmem']
    exact ⟨_, rfl⟩

omit [DecidableEq ι] in
theorem Quiet.createQueues (huuids : Function.Injective uuids) (h : Quiet uuids sys) (sid : String)
    {emitted : List (Emit Base64)} (hemitted : ∀ e ∈ emitted, e = Emit.createQueue) :
    Quiet uuids (emitted.foldl (fun sys e => sys.serve uuids large sid e) sys) := by
  induction emitted generalizing sys with
  | nil => exact h
  | cons e emitted ih =>
    rw [List.forall_mem_cons] at hemitted
    rw [List.foldl_cons, hemitted.1]
    exact ih (h.createQueue huuids sid) hemitted.2

/-- A tame client sends what it has emitted. -/
theorem Quiet.transmit (huuids : Function.Injective uuids) (h : Quiet uuids sys) (sids : List String)
    {i : ι} {e : Endpoint Base64} (htame : Tame e) (hcalm : Calm uuids server) :
    Quiet uuids (({ sys with server := server, sids := sids }.setEnd i e).transmit uuids large i) := by
  unfold System.transmit
  rw [System.setEnd_self]
  split
  · rename_i hsid
    exact h.replace sids htame (fun hne => absurd hsid hne) hcalm
  · refine Quiet.createQueues huuids ?_ _ htame.idle.emitted
    rw [System.setClient_setEnd]
    refine h.replace sids ⟨?_, htame.inbox⟩ (fun _ => rfl) hcalm
    exact ⟨htame.idle.unkeyed, htame.idle.unpaired, nofun, htame.idle.connected⟩

theorem Quiet.hangUp (h : Quiet uuids sys) {i : ι}
    (hstatus : (sys.ends i).client.connectionStatus ≠ .connected) : Quiet uuids (sys.hangUp i) := by
  unfold System.hangUp
  split
  · exact h
  · have hidle := (h.tame i).idle
    refine h.replace sys.sids ⟨?_, nofun⟩ (fun hne => absurd rfl hne) (h.calm.handleDisconnect _)
    exact ⟨hidle.unkeyed, hidle.unpaired, hidle.emitted, fun hconnected => absurd hconnected hstatus⟩

theorem Quiet.settle (h : Quiet uuids sys) (i : ι) : Quiet uuids (sys.settle i) := by
  unfold System.settle
  split
  · exact h
  · rename_i hsocket
    exact h.hangUp fun hconnected => hsocket ((h.tame i).idle.connected hconnected).1

/-- The first invite that is accepted: the relay does not know who pushes the handshake. -/
theorem broken_transmit (h : Quiet uuids sys) {i : ι} {sid queueId : String}
    {client : ChatManager Base64} {payload : Payload Base64} {register : Emit Base64}
    (hsid : (sys.ends i).sid = some sid) (hcreator : sys.server.queueCreators queueId ≠ some sid)
    (haccepted : 0 < client.accepted)
    (hemitted : client.emitted = [.pushQueue queueId payload, register]) :
    Broken ((sys.setClient i client).transmit uuids large i) := by
  have howner : ¬ sys.server.isQueueOwner queueId sid :=
    fun hmem => hcreator (h.calm.owners queueId sid hmem)
  unfold System.transmit
  rw [show ((sys.setClient i client).ends i).sid = some sid by rw [System.setClient, System.setEnd_self, hsid],
    show ((sys.setClient i client).ends i).client = client by rw [System.setClient, System.setEnd_self]]
  dsimp only
  rw [hemitted, List.foldl_cons]
  refine Broken.mono ?_ (System.before_foldl_serve uuids large _ sid [register])
  refine ⟨⟨i, ?_⟩, ?_⟩
  · have hstart := (System.before_serve uuids large
      ((sys.setClient i client).setClient i { client with emitted := [] }) sid
      (.pushQueue queueId payload)).accepted i
    have hset : (((sys.setClient i client).setClient i { client with emitted := [] }).ends i).client =
        { client with emitted := [] } := by
      rw [System.setClient, System.setEnd_self]
    rw [hset] at hstart
    exact Nat.pos_iff_ne_zero.mp (Nat.lt_of_lt_of_le haccepted hstart)
  · show (sys.server.handlePushQueue large Payload.ephemeral sid queueId payload).1.refused ≠ []
    rw [Server.refused_handlePushQueue, if_neg howner]
    exact List.append_ne_nil_of_right_ne_nil _ (List.cons_ne_nil _ _)

/-- An act of a client accepts no invite to a queue of its own. -/
def NotOwn (sys : System ι Base64) : Event ι Base64 → Prop
  | .act i input =>
    match (sys.ends i).client.accepting input, (sys.ends i).sid with
    | some queueId, some sid => sys.server.queueCreators queueId ≠ some sid
    | _, _ => True
  | _ => True

/-- Up to the first invite all is quiet; that one breaks it. -/
theorem quiet_apply (huuids : Function.Injective uuids) (h : Quiet uuids sys)
    {sys' : System ι Base64} {e : Event ι Base64} (hown : NotOwn sys e)
    (happly : apply P uuids large sys e = some sys') : Quiet uuids sys' ∨ Broken sys' := by
  cases e with
  | connect i sid generated =>
    rw [apply, Option.ite_none_right_eq_some] at happly
    obtain ⟨⟨hsid, hsocket, -⟩, happly⟩ := happly
    obtain rfl := Option.some.inj happly
    left
    have hcalm := h.calm
    refine h.transmit huuids _ ⟨?_, nofun⟩
      ⟨hcalm.refused, hcalm.offline, hcalm.owners, hcalm.fresh⟩
    exact idle_online P (h.tame i).idle generated hsocket (Option.some_ne_none sid)
  | disconnect i =>
    rw [apply, Option.ite_none_left_eq_some] at happly
    obtain ⟨hsid, happly⟩ := happly
    obtain rfl := Option.some.inj happly
    left
    obtain ⟨sid, hsid⟩ := Option.ne_none_iff_exists'.mp hsid
    have hidle := (h.tame i).idle
    unfold System.hangUp
    rw [hsid]
    dsimp only
    rw [System.setClient_setEnd]
    refine h.replace sys.sids ⟨?_, nofun⟩ (fun hne => absurd rfl hne) (h.calm.handleDisconnect sid)
    exact ⟨hidle.unkeyed, hidle.unpaired, hidle.emitted, nofun⟩
  | deliver i =>
    simp only [apply] at happly
    rcases hinbox : (sys.ends i).inbox with _ | ⟨out, inbox⟩
    · rw [hinbox] at happly
      cases happly
    · rw [hinbox] at happly
      obtain rfl := Option.some.inj happly
      left
      have hall := (h.tame i).inbox
      rw [hinbox, List.forall_mem_cons] at hall
      -- a tame client hears of queues only
      obtain ⟨⟨queueId, rfl⟩, hrest⟩ := hall
      exact h.transmit huuids sys.sids ⟨idle_onQueueCreated queueId _ (h.tame i).idle, hrest⟩ h.calm
  | act i input =>
    rw [apply, Option.ite_none_right_eq_some] at happly
    obtain ⟨hlocal, happly⟩ := happly
    obtain rfl := Option.some.inj happly
    rcases idle_local P (h.tame i).idle hlocal with
      hidle | ⟨queueId, payload, register, haccepting, hready, haccepted, hemitted⟩
    · left
      refine Quiet.settle ?_ i
      exact h.transmit huuids sys.sids ⟨hidle, (h.tame i).inbox⟩ h.calm
    · -- the first invite: its handshake is refused
      right
      refine Broken.mono ?_ (System.before_settle _ i)
      have hlive : (sys.ends i).sid ≠ none := ((h.tame i).idle.connected hready.1).2
      obtain ⟨sid, hsid⟩ := Option.ne_none_iff_exists'.mp hlive
      rw [h.sent i hlive, List.nil_append] at hemitted
      refine broken_transmit h hsid ?_ haccepted hemitted
      simp only [NotOwn] at hown
      rwa [haccepting, hsid] at hown

omit [DecidableEq ι] in
theorem quiet_init (clock : ι → ℕ → ℤ) (nonces : ι → ℕ → List UInt8) :
    Quiet uuids (System.init clock nonces : System ι Base64) :=
  ⟨fun _ => ⟨⟨rfl, rfl, nofun, nofun⟩, nofun⟩, fun _ h => absurd rfl h,
    ⟨rfl, fun _ => rfl, nofun, fun _ _ => rfl⟩⟩

end

/-- In every run the relay refuses no push exactly if no client has accepted an invite. -/
theorem pushes_pass_iff (P : CryptoProvider Text Base64) {uuids : ℕ → String}
    (huuids : Function.Injective uuids) (large : Payload Base64 → Bool) {clock : ι → ℕ → ℤ}
    {nonces : ι → ℕ → List UInt8} {sys : System ι Base64}
    (hrun : Run (apply P uuids large) NotOwn (.init clock nonces) sys) :
    sys.server.refused = [] ↔ ∀ i, (sys.ends i).client.accepted = 0 := by
  have hinv : Quiet uuids sys ∨ Broken sys := by
    refine hrun.invariant (I := fun sys => Quiet uuids sys ∨ Broken sys)
      (.inl (quiet_init clock nonces)) ?_
    rintro sys e sys' (hquiet | hbroken) hown happly
    · exact quiet_apply huuids hquiet hown happly
    · exact .inr (hbroken.mono (before_apply P uuids large happly))
  rcases hinv with hquiet | ⟨⟨i, haccepted⟩, hrefused⟩
  · exact ⟨fun _ i => (hquiet.tame i).idle.unpaired, fun _ => hquiet.calm.refused⟩
  · exact ⟨fun hnil => absurd hnil hrefused, fun hnone => absurd (hnone i) haccepted⟩

instance (sys : System ι Base64) : (e : Event ι Base64) → Decidable (NotOwn sys e)
  | .act i input =>
    match h : (sys.ends i).client.accepting input, h' : (sys.ends i).sid with
    | some queueId, some sid =>
      if hcreator : sys.server.queueCreators queueId = some sid then
        .isFalse (by simp only [NotOwn, h, h']; exact not_not_intro hcreator)
      else .isTrue (by simp only [NotOwn, h, h']; exact hcreator)
    | none, _ => .isTrue (by simp only [NotOwn, h])
    | some _, none => .isTrue (by simp only [NotOwn, h, h'])
  | .connect _ _ _ | .disconnect _ | .deliver _ => .isTrue trivial

/-- Queue ids by number. -/
def queueName (n : ℕ) : String := String.ofList (List.replicate (n + 1) 'q')

theorem queueName_injective : Function.Injective queueName := by
  intro n m h
  have hlength := congrArg (fun name : String => name.toList.length) h
  simpa [queueName] using hlength

def newSystem : System Bool Sealed := .init (fun _ _ => 0) fun _ _ => []

/-- Two clients connect and get a queue each. -/
def twoConnected : List (Event Bool Sealed) :=
  [.act true .connect, .connect true "s1" (some ⟨[65], [65]⟩), .deliver true,
    .act false .connect, .connect false "s2" (some ⟨[66], [66]⟩), .deliver false]

/-- The one accepts the invite of the other, and connects again later. -/
def acceptedInvite : List (Event Bool Sealed) :=
  twoConnected ++ [.act true (.acceptInvite "qq" "B"), .disconnect true,
    .connect true "s3" (some ⟨[67], [67]⟩), .deliver true]

theorem pushes_pass_connected : ∃ sys : System Bool Sealed,
    Run (apply sampleProvider queueName fun _ => false) NotOwn newSystem sys ∧
      (sys.server.queueCreators "qq" = some "s2" ∧ sys.server.refused = []) := by
  obtain ⟨sys, hrun, h⟩ := @Run.exists_of_runAll _ _
    (apply sampleProvider queueName fun _ => false) NotOwn newSystem _ twoConnected
    (fun sys => sys.server.queueCreators "qq" = some "s2" ∧
      (sys.ends true).client.accepted = 0 ∧ (sys.ends false).client.accepted = 0)
    (by decide +kernel)
  obtain ⟨hcreator, htrue, hfalse⟩ := of_decide_eq_true h
  refine ⟨sys, hrun, hcreator, ?_⟩
  refine (pushes_pass_iff sampleProvider queueName_injective (fun _ => false) hrun).mpr fun i => ?_
  cases i with
  | true => exact htrue
  | false => exact hfalse

/-- The queue that a payload announces. -/
def Payload.announces : Payload Base64 → Option String
  | .handshake replyQueue _ => replyQueue
  | .queueUpdate newQueue => some newQueue
  | _ => none

/-- The handshake is refused, and so is the update of the queue that an active session pushes after
a reconnect. -/
theorem push_refused : ∃ sys : System Bool Sealed,
    Run (apply sampleProvider queueName fun _ => false) NotOwn newSystem sys ∧
      (sys.ends true).client.isSessionActive ∧
      (sys.ends true).client.theirQueueId = some "qq" ∧
      (sys.server.refused.map fun push => (push.1, push.2.1, push.2.2.announces)) =
        [("s1", "qq", some "q"), ("s3", "qq", some "qqq")] := by
  obtain ⟨sys, hrun, h⟩ := @Run.exists_of_runAll _ _
    (apply sampleProvider queueName fun _ => false) NotOwn newSystem _ acceptedInvite
    (fun sys => (sys.ends true).client.isSessionActive ∧
      (sys.ends true).client.theirQueueId = some "qq" ∧
      (sys.server.refused.map fun push => (push.1, push.2.1, push.2.2.announces)) =
        [("s1", "qq", some "q"), ("s3", "qq", some "qqq")]) (by decide +kernel)
  exact ⟨sys, hrun, of_decide_eq_true h⟩

end AnonyMus.Android.Chat
