import AnonyMus.Android.Timestamps
import AnonyMus.Lib.Simulation
import AnonyMus.Relay.InMemory

/-!
# Android client — a chat over a relay that drops

Two clients that share a session, and a relay between them which delivers or
buffers what is pushed, in order, but drops an ephemeral payload while its
recipient is offline.

* `Line`, `ChatEvent` — the clients and the relay, and all that happens within a
  session;
* `tagged` — ciphertexts that remember the text they were made from;
* `InOrder` — payloads that open one after the other along a chain;
* `Sends`, `sends_act`, `sends_onMessage` — whatever a client does, it extends
  what is under way by such payloads;
* `InStep` — everything under way opens at its recipient;
* `decrypts_of_lossless` — which holds in every state as long as nothing is lost;
* `handlePushQueue_drops_iff` — the server drops what this relay drops;
* `dropped_draft` — a dropped draft, and a text after it.
-/

namespace AnonyMus.Android.Chat.Drops

open EStateM
open ChatManager (core silent)
open Timestamps (pushes)

variable {Text Base64 : Type}

/-! ## Clients and relay -/

def isEphemeral : Payload Base64 → Bool
  | .message _ _ ephemeral => ephemeral
  | _ => false

structure Line (Base64 : Type) where
  clients : Bool → ChatManager Base64
  /-- Whether the relay has a connection of the client. -/
  online  : Bool → Bool
  /-- What the relay has for the client, buffered or on the way. -/
  buffers : Bool → List (Payload Base64)

namespace Line

variable (w : Line Base64) (i : Bool)

def setClient (s : ChatManager Base64) : Line Base64 :=
  { w with clients := Function.update w.clients i s }

def setBuffer (payloads : List (Payload Base64)) : Line Base64 :=
  { w with buffers := Function.update w.buffers i payloads }

/-- `push_queue`: what is for the other client is passed on or buffered, or dropped. -/
def route : Emit Base64 → Line Base64
  | .pushQueue _ payload =>
    if w.online (!i) = true ∨ isEphemeral payload = false then
      w.setBuffer (!i) (w.buffers (!i) ++ [payload])
    else w
  | _ => w

end Line

/-- A client does something on its own, the relay handles what is next from a client, a client
receives what is next for it, or its connection changes. -/
inductive ChatEvent (Base64 : Type)
  | act (i : Bool) (input : Input Base64)
  | relay (i : Bool)
  | deliver (i : Bool) (queueId : String)
  | setOnline (i : Bool) (online : Bool)

section

variable (P : CryptoProvider Text Base64)

def ChatEvent.step : ChatEvent Base64 → Line Base64 → Line Base64
  | .act i input, w => w.setClient i ((w.clients i).after P input)
  | .relay i, w =>
    match (w.clients i).emitted with
    | [] => w
    | e :: emitted =>
      if w.online i then (w.setClient i { w.clients i with emitted := emitted }).route i e else w
  | .deliver i queueId, w =>
    match w.buffers i with
    | [] => w
    | payload :: payloads =>
      if w.online i then
        (w.setClient i ((w.clients i).after P (.queuePayload queueId payload))).setBuffer i payloads
      else w
  | .setOnline i online, w => { w with online := Function.update w.online i online }

def ChatEvent.run (e : ChatEvent Base64) : EStateM Empty (Line Base64) Unit := modify (e.step P)

end

/-- A message that is to be shown. -/
def isAppend : Task → Bool
  | .append _ _ => true
  | _ => false

/-- What does not begin or end a session. Payloads come from the relay. -/
def ChatEvent.InSession : ChatEvent Base64 → Line Base64 → Prop
  | .act _ (.queuePayload _ _), _ | .act _ (.acceptInvite _ _), _ | .act _ .obliviate, _
  | .act _ .resetClient, _ => False
  | .act i .runPosted, w => (w.clients i).posted.head?.all isAppend = true
  | _, _ => True

def pushesEphemeral : Emit Base64 → Bool
  | .pushQueue _ payload => isEphemeral payload
  | _ => false

/-- The relay takes an ephemeral payload only while its recipient is online, and no new socket takes
the place of one that has something left to push. -/
def ChatEvent.Lossless : ChatEvent Base64 → Line Base64 → Prop
  | .relay i, w =>
    (w.clients i).emitted.head?.any pushesEphemeral = true → w.online (!i) = true
  | .act i .connect, w =>
    (w.clients i).socketConnected = true ∨ (pushes (w.clients i).emitted).isEmpty = true
  | _, _ => True

/-! ## Texts -/

/-- The same provider, whose ciphertexts remember, for the proofs, the text they were made from. -/
def tagged (P : CryptoProvider Text Base64) : CryptoProvider Text (Base64 × Text) where
  exportPublicKey     := P.exportPublicKey
  importPublicKey     := P.importPublicKey
  deriveSessionKeys   := P.deriveSessionKeys
  computeSafetyNumber := P.computeSafetyNumber
  encryptMessage keyBytes plaintext role seqNum sessionId nonce :=
    (P.encryptMessage keyBytes plaintext role seqNum sessionId nonce).map fun encrypted =>
      ⟨(encrypted.iv, plaintext), (encrypted.ciphertext, plaintext)⟩
  decryptMessage keyBytes iv ciphertext role seqNum sessionId :=
    P.decryptMessage keyBytes iv.1 ciphertext.1 role seqNum sessionId
  deriveChainKeys     := P.deriveChainKeys
  write               := P.write
  read                := P.read

/-- The text that a client makes of a message. -/
def decrypted (P : CryptoProvider Text Base64) (s : ChatManager Base64) (iv ciphertext : Base64) :
    Option Text := do
  let recvChainKey ← s.recvChainKey
  let theirRole ← s.theirRole
  P.decryptMessage (P.deriveChainKeys recvChainKey).1 iv ciphertext theirRole s.recvSeq s.sessionId

/-- Every ordinary message that reaches a client decrypts to the text it was made from. -/
def DecryptsAsSent (P : CryptoProvider Text Base64) (events : List (ChatEvent (Base64 × Text)))
    (w : Line (Base64 × Text)) : Prop :=
  ∀ done i queueId todo, events = done ++ .deliver i queueId :: todo →
    let before := after (ChatEvent.run (tagged P)) done w
    ∀ iv ciphertext, before.online i = true →
      (before.buffers i).head? = some (.message iv ciphertext false) →
        decrypted (tagged P) (before.clients i) iv ciphertext = some ciphertext.2

/-! ## A session -/

/-- The client has a session and a socket. -/
structure Live (role : Role) (s : ChatManager Base64) : Prop where
  role   : s.myRole = some role
  key    : s.sendChainKey ≠ none
  queue  : s.theirQueueId ≠ none
  socket : s.hasSocket = true

/-- Client `i` sends as the other one receives. -/
structure Agrees (role : Role) (w : Line Base64) (i : Bool) : Prop where
  live      : Live role (w.clients i)
  theirRole : (w.clients (!i)).theirRole = some role
  sessionId : (w.clients (!i)).sessionId = (w.clients i).sessionId
  key       : (w.clients (!i)).recvChainKey = (w.clients i).sendChainKey
  seq       : (w.clients (!i)).recvSeq = (w.clients i).sendSeq

/-- Both clients have the session, and nothing is under way. -/
structure Paired (w : Line Base64) : Prop where
  agrees : ∀ i, ∃ role, Agrees role w i
  quiet  : ∀ i, w.buffers i = [] ∧ pushes (w.clients i).emitted = []

/-- What the documentation of the native cipher says: it encrypts under derived keys, and decrypts
what it has encrypted. -/
def Seals (P : CryptoProvider Text Base64) : Prop :=
  ∀ chainKey text role seqNum sessionId nonce, ∃ encrypted,
    P.encryptMessage (P.deriveChainKeys chainKey).1 text role seqNum sessionId nonce =
        some encrypted ∧
      P.decryptMessage (P.deriveChainKeys chainKey).1 encrypted.iv encrypted.ciphertext role seqNum
        sessionId = some text

/-! ## Payloads in order -/

/-- The payloads open one after the other, from a chain key and a number to others. -/
inductive InOrder (P : CryptoProvider Text Base64) (role : Role) (sessionId : Option String) :
    List UInt8 × ℕ → List (Payload (Base64 × Text)) → List UInt8 × ℕ → Prop
  | nil {p} : InOrder P role sessionId p [] p
  | message {key seq iv ciphertext ephemeral payloads p}
      (hopen : P.decryptMessage (P.deriveChainKeys key).1 iv.1 ciphertext.1 role seq sessionId =
        some ciphertext.2)
      (hrest : InOrder P role sessionId ((P.deriveChainKeys key).2, seq + 1) payloads p) :
      InOrder P role sessionId (key, seq) (.message iv ciphertext ephemeral :: payloads) p
  | queueUpdate {p newQueue payloads p'} (hrest : InOrder P role sessionId p payloads p') :
      InOrder P role sessionId p (.queueUpdate newQueue :: payloads) p'

section

variable {P : CryptoProvider Text Base64} {role : Role} {sessionId : Option String}

theorem InOrder.append {p p' p'' : List UInt8 × ℕ} {payloads payloads' : List (Payload (Base64 × Text))}
    (h : InOrder P role sessionId p payloads p') (h' : InOrder P role sessionId p' payloads' p'') :
    InOrder P role sessionId p (payloads ++ payloads') p'' := by
  induction h with
  | nil => exact h'
  | message hopen _ ih => exact .message hopen (ih h')
  | queueUpdate _ ih => exact .queueUpdate (ih h')

/-! ## What a client sends -/

/-- The client goes on from `s` to `s'` in its session: what it pushes continues its chain. -/
structure Sends (P : CryptoProvider Text Base64) (role : Role) (s s' : ChatManager (Base64 × Text)) :
    Prop where
  live      : Live role s'
  theirRole : s'.theirRole = s.theirRole
  sessionId : s'.sessionId = s.sessionId
  recvKey   : s'.recvChainKey = s.recvChainKey
  recvSeq   : s'.recvSeq = s.recvSeq
  sent      : ∃ key key' payloads, s.sendChainKey = some key ∧ s'.sendChainKey = some key' ∧
    pushes s'.emitted = pushes s.emitted ++ payloads ∧
    InOrder P role s.sessionId (key, s.sendSeq) payloads (key', s'.sendSeq)

theorem Sends.trans {s s' s'' : ChatManager (Base64 × Text)} (h : Sends P role s s')
    (h' : Sends P role s' s'') : Sends P role s s'' := by
  obtain ⟨key, key', payloads, hkey, hkey', hpushed, horder⟩ := h.sent
  obtain ⟨key₁, key'', payloads', hkey₁, hkey'', hpushed', horder'⟩ := h'.sent
  obtain rfl := Option.some.inj (hkey'.symm.trans hkey₁)
  refine ⟨h'.live, h'.theirRole.trans h.theirRole, h'.sessionId.trans h.sessionId,
    h'.recvKey.trans h.recvKey, h'.recvSeq.trans h.recvSeq, key, key'', payloads ++ payloads', hkey,
    hkey'', ?_, ?_⟩
  · rw [hpushed', hpushed, List.append_assoc]
  · rw [h.sessionId] at horder'
    exact horder.append horder'

/-- Nothing is sent, and the session is as before. -/
theorem Sends.of_session {s s' : ChatManager (Base64 × Text)} (hlive : Live role s)
    (hsession : s'.toSession = s.toSession) (hsocket : s'.hasSocket = s.hasSocket)
    (hpushes : pushes s'.emitted = pushes s.emitted) : Sends P role s s' := by
  obtain ⟨key, hkey⟩ := Option.ne_none_iff_exists'.mp hlive.key
  have hsendKey : s'.sendChainKey = s.sendChainKey := congrArg Session.sendChainKey hsession
  refine ⟨⟨?_, ?_, ?_, ?_⟩, ?_, ?_, ?_, ?_, key, key, [], hkey, ?_, ?_, ?_⟩
  · exact (congrArg Session.myRole hsession).trans hlive.role
  · exact hsendKey ▸ hlive.key
  · exact (congrArg Session.theirQueueId hsession : s'.theirQueueId = s.theirQueueId) ▸ hlive.queue
  · exact hsocket.trans hlive.socket
  · exact congrArg Session.theirRole hsession
  · exact congrArg Session.sessionId hsession
  · exact congrArg Session.recvChainKey hsession
  · exact congrArg Session.recvSeq hsession
  · exact hsendKey.trans hkey
  · rw [hpushes, List.append_nil]
  · rw [show s'.sendSeq = s.sendSeq from congrArg Session.sendSeq hsession]
    exact .nil

/-- An action that goes on in the session. -/
def Lively {α : Type} (P : CryptoProvider Text Base64) (role : Role)
    (x : Handler (Base64 × Text) α) : Prop :=
  ∀ s, Live role s → Sends P role s (x s).state

variable {α β : Type} {x : Handler (Base64 × Text) α} {f : α → Handler (Base64 × Text) β}

theorem Lively.bind (hx : Lively P role x) (hf : ∀ a, Lively P role (f a)) :
    Lively P role (x >>= f) := by
  intro s hlive
  rcases EStateM.state_bind x f s with h | ⟨a, h⟩
  · rw [h]
    exact hx s hlive
  · rw [h]
    exact (hx s hlive).trans (hf a _ (hx s hlive).live)

theorem Lively.of_silent (hx : Keeps silent x) : Lively P role x := by
  intro s hlive
  have hcore : (x s).state.core = s.core := congrArg Prod.fst (hx s)
  exact .of_session hlive (congrArg Core.toSession hcore) (congrArg Core.hasSocket hcore)
    (congrArg pushes (congrArg Prod.snd (hx s)))

theorem Lively.pure (a : α) : Lively P role (pure a : Handler (Base64 × Text) α) :=
  .of_silent (.pure a)

theorem Lively.get {f : ChatManager (Base64 × Text) → Handler (Base64 × Text) α}
    (hf : ∀ s, Live role s → Sends P role s (f s s).state) : Lively P role (get >>= f) := hf

theorem Lively.discard (hx : Lively P role x) : Lively P role (discard x) := by
  intro s hlive
  show Sends P role s ((Function.const α PUnit.unit <$> x) s).state
  rw [EStateM.state_map]
  exact hx s hlive

theorem pushes_emit {e : Emit (Base64 × Text)} (s : ChatManager (Base64 × Text))
    (hsocket : s.hasSocket = true) :
    pushes (emit e s).state.emitted = pushes s.emitted ++ pushes [e] := by
  rw [emit_eq, if_pos hsocket]
  exact List.filterMap_append

/-- What is no push may be emitted. -/
theorem lively_emit {e : Emit (Base64 × Text)} (he : pushes [e] = []) : Lively P role (emit e) := by
  intro s hlive
  have hcore := keeps_core_emit e s
  refine .of_session hlive (congrArg Core.toSession hcore) (congrArg Core.hasSocket hcore) ?_
  rw [pushes_emit s hlive.socket, he, List.append_nil]

theorem lively_emit_queueUpdate (queueId newQueue : String) :
    Lively P role (emit (.pushQueue queueId (.queueUpdate newQueue))) := by
  intro s hlive
  obtain ⟨key, hkey⟩ := Option.ne_none_iff_exists'.mp hlive.key
  rw [emit_eq, if_pos hlive.socket]
  refine ⟨⟨hlive.role, hlive.key, hlive.queue, hlive.socket⟩, rfl, rfl, rfl, rfl, key, key,
    [.queueUpdate newQueue], hkey, hkey, ?_, ?_⟩
  · exact List.filterMap_append
  · exact .queueUpdate .nil

/-- Every function that sends pushes one message that opens next. -/
theorem lively_pushEncrypted (hP : Seals P) (payload : Content) (ephemeral : Bool) :
    Lively P role (pushEncrypted (tagged P) payload ephemeral) := by
  intro s hlive
  obtain ⟨key, hkey⟩ := Option.ne_none_iff_exists'.mp hlive.key
  obtain ⟨queueId, hqueue⟩ := Option.ne_none_iff_exists'.mp hlive.queue
  obtain ⟨encrypted, hencrypt, hdecrypt⟩ :=
    hP key (P.write payload) role s.sendSeq s.sessionId (s.nonces 0)
  have htagged : (tagged P).encryptMessage ((tagged P).deriveChainKeys key).1
      ((tagged P).write payload) role s.sendSeq s.sessionId (s.nonces 0) =
        some ⟨(encrypted.iv, P.write payload), (encrypted.ciphertext, P.write payload)⟩ :=
    congrArg (Option.map _) hencrypt
  unfold pushEncrypted
  rw [apply_bind, apply_get]
  dsimp only
  rw [hkey, hqueue]
  dsimp only
  rw [apply_bind, apply_modify]
  dsimp only
  rw [hlive.role]
  dsimp only
  rw [apply_bind, randomNonce_ok]
  dsimp only
  rw [htagged]
  dsimp only
  rw [apply_bind, apply_modify]
  dsimp only
  rw [apply_bind, emit_eq, if_pos hlive.socket]
  refine ⟨⟨rfl, Option.some_ne_none _, hlive.queue, hlive.socket⟩, rfl, rfl, rfl, rfl, key, _,
    [.message (encrypted.iv, P.write payload) (encrypted.ciphertext, P.write payload) ephemeral],
    hkey, rfl, ?_, ?_⟩
  · exact List.filterMap_append
  · exact .message hdecrypt .nil

theorem lively_push (hP : Seals P) (payload : Content) (ephemeral : Bool) :
    Lively P role (discard (pushEncrypted (tagged P) payload ephemeral)) :=
  .discard (lively_pushEncrypted hP payload ephemeral)

/-- A message that is sent and, if it was, noted. -/
theorem lively_sendAndMark (hP : Seals P) (payload : Content)
    (f : List ChatMessage → List ChatMessage) :
    Lively P role (do if ← pushEncrypted (tagged P) payload then updateCurrent f) := by
  refine .bind (lively_pushEncrypted hP payload false) fun sent => ?_
  show Lively P role (if sent then _ else _)
  split
  · exact .of_silent (keeps_silent_updateCurrent f)
  · exact .pure _

theorem lively_sendPrivateMessage (hP : Seals P) (text : String) :
    Lively P role (sendPrivateMessage (tagged P) text) := by
  refine .get fun s hlive => ?_
  have hsend : Lively P role (do
      let timestamp ← currentTimeMillis
      if ← pushEncrypted (tagged P) (.text text (some timestamp)) then
        appendNow .you text) := by
    refine .bind (.of_silent fun _ => rfl) fun timestamp => ?_
    refine .bind (lively_pushEncrypted hP _ _) fun sent => ?_
    show Lively P role (if sent then _ else _)
    split
    · exact .of_silent (keeps_silent_appendNow _ _ _)
    · exact .pure _
  show Sends P role s ((if s.sendChainKey ≠ none ∧ s.theirQueueId ≠ none then _ else _ :
    Handler (Base64 × Text) Unit) s).state
  rw [if_pos ⟨hlive.key, hlive.queue⟩]
  exact hsend s hlive

/-- What changes neither the session nor what is pushed. -/
theorem lively_modify {f : ChatManager (Base64 × Text) → ChatManager (Base64 × Text)}
    (hsession : ∀ s, (f s).toSession = s.toSession) (hsocket : ∀ s, (f s).hasSocket = s.hasSocket)
    (hemitted : ∀ s, (f s).emitted = s.emitted) : Lively P role (modify f : Handler _ PUnit) :=
  fun s hlive => .of_session hlive (hsession s) (hsocket s) (congrArg pushes (hemitted s))

theorem lively_onConnect (generated : Option KeyPair) :
    Lively P role (onConnect (tagged P) generated) := by
  unfold onConnect
  cases generated with
  | none => exact lively_modify (fun _ => rfl) (fun _ => rfl) fun _ => rfl
  | some keyPair =>
    exact .bind (lively_modify (fun _ => rfl) (fun _ => rfl) fun _ => rfl) fun _ => lively_emit rfl

/-- A client in a session tells the peer of its new queue. -/
theorem lively_onQueueCreated (newQueueId : String) :
    Lively P role (@onQueueCreated (Base64 × Text) newQueueId) := by
  refine .get fun s hlive => ?_
  obtain ⟨key, hkey⟩ := Option.ne_none_iff_exists'.mp hlive.key
  obtain ⟨queueId, hqueue⟩ := Option.ne_none_iff_exists'.mp hlive.queue
  rw [hkey, hqueue]
  have hsend : Lively P role (do
      modify fun s => { s with myQueueId := some newQueueId }
      emit (.pushQueue queueId (.queueUpdate newQueueId))
      emit (.registerPeer (some newQueueId) (some queueId))) :=
    .bind (lively_modify (fun _ => rfl) (fun _ => rfl) fun _ => rfl) fun _ =>
      .bind (lively_emit_queueUpdate queueId newQueueId) fun _ => lively_emit rfl
  exact hsend s hlive

theorem lively_connectError (rejected : Bool) :
    Lively P role (@onConnectError (Base64 × Text) rejected) := by
  unfold onConnectError
  split
  · exact .of_silent (keeps_silent_post _)
  · exact lively_modify (fun _ => rfl) (fun _ => rfl) fun _ => rfl

theorem lively_onPushQueueError (error : String) :
    Lively P role (@onPushQueueError (Base64 × Text) error) := by
  unfold onPushQueueError
  split
  · exact .of_silent (keeps_silent_appendNow _ _ _)
  · exact .pure _

/-- A new socket takes the place of the old one only if nothing is left to push. -/
theorem sends_connect {s : ChatManager (Base64 × Text)} (hlive : Live role s)
    (hlossless : s.socketConnected = true ∨ (pushes s.emitted).isEmpty = true) :
    Sends P role s (connect s).state := by
  unfold connect
  rw [apply_bind, apply_get]
  dsimp only
  split
  · rename_i hnew
    have hpushes : pushes s.emitted = [] := List.isEmpty_iff.mp
      (hlossless.resolve_left fun hconnected => hnew ⟨hlive.socket, hconnected⟩)
    exact .of_session hlive rfl hlive.socket.symm hpushes.symm
  · exact .of_session hlive rfl rfl rfl

/-- Of what is posted, only messages are shown within a session. -/
theorem sends_runPosted {s : ChatManager (Base64 × Text)} (hlive : Live role s)
    (hshow : s.posted.head?.all isAppend = true) :
    Sends P role s (runPosted (tagged P) s).state := by
  rw [state_runPosted]
  rcases hposted : s.posted with _ | ⟨task, tasks⟩
  · exact .of_session hlive rfl rfl rfl
  · rw [hposted] at hshow
    cases task with
    | append chatPartner message => exact .of_session hlive rfl rfl rfl
    | acceptInvite queueId pubKeyBase64 => cases hshow
    | infinitySnap => cases hshow

/-- Whatever a client does within a session continues its chain. -/
theorem sends_act (hP : Seals P) {w : Line (Base64 × Text)} {i : Bool}
    {input : Input (Base64 × Text)} (hsession : (ChatEvent.act i input).InSession w)
    (hlossless : (ChatEvent.act i input).Lossless w) (hlive : Live role (w.clients i)) :
    Sends P role (w.clients i) ((w.clients i).after (tagged P) input) := by
  have hlively : ∀ {α : Type} {x : Handler (Base64 × Text) α}, Lively P role x →
      Sends P role (w.clients i) (x (w.clients i)).state := fun hx => hx _ hlive
  cases input with
  | queuePayload queueId payload => exact hsession.elim
  | acceptInvite queueId pubKeyBase64 => exact hsession.elim
  | obliviate => exact hsession.elim
  | resetClient => exact hsession.elim
  | connected generated => exact hlively (lively_onConnect generated)
  | disconnected => exact hlively (lively_modify (fun _ => rfl) (fun _ => rfl) fun _ => rfl)
  | connectError rejected => exact hlively (lively_connectError rejected)
  | queueCreated queueId => exact hlively (lively_onQueueCreated queueId)
  | pushQueueError error => exact hlively (lively_onPushQueueError error)
  | connect => exact sends_connect hlive hlossless
  | sendPrivateMessage text => exact hlively (lively_sendPrivateMessage hP text)
  | setDisappearingTimer seconds =>
    exact hlively (.bind (lively_modify (fun _ => rfl) (fun _ => rfl) fun _ => rfl) fun _ =>
      lively_push hP _ _)
  | sendTypingDraft text => exact hlively (lively_push hP _ _)
  | sendReaction target emoji => exact hlively (lively_sendAndMark hP _ _)
  | sendEditMessage target newText => exact hlively (lively_sendAndMark hP _ _)
  | sendDeleteMessage target => exact hlively (lively_sendAndMark hP _ _)
  | keepAlive => exact hlively (lively_push hP _ _)
  | countdown chatPartner messageId => exact hlively (.of_silent fun _ => rfl)
  | runPosted => exact sends_runPosted hlive hsession

/-! ## What a client receives -/

theorem lively_onControl (hP : Seals P) (action : Control) :
    Lively P role (onControl (tagged P) action) := by
  have htimer : ∀ duration, Lively P role (modify fun s : ChatManager (Base64 × Text) =>
      { s with disappearTimerSeconds := duration }) := fun duration =>
    lively_modify (fun _ => rfl) (fun _ => rfl) fun _ => rfl
  cases action with
  | static => exact .pure _
  | heartbeat => exact .pure _
  | other => exact .pure _
  | obliviate => exact .of_silent (keeps_silent_post _)
  | timerSet duration =>
    exact .bind (htimer duration) fun _ => .bind (.of_silent (keeps_silent_appendNow _ _ _)) fun _ =>
      lively_push hP _ _
  | timerAck duration =>
    exact .bind (htimer duration) fun _ => .of_silent (keeps_silent_appendNow _ _ _)

/-- What is in a message makes a client show it, and answer. -/
theorem lively_onContent (hP : Seals P) (content : Content) :
    Lively P role (onContent (tagged P) content) := by
  cases content with
  | control action => exact lively_onControl hP action
  | text content timestamp =>
    exact .bind (.of_silent fun _ => rfl) fun _ => .bind (.of_silent fun _ => rfl) fun _ =>
      .bind (.of_silent fun _ => rfl) fun _ =>
        .bind (.of_silent (keeps_silent_appendMessage _ _)) fun _ => lively_push hP _ _
  | fileDescr descr timestamp =>
    exact .bind (.of_silent fun _ => rfl) fun _ => .bind (.of_silent fun _ => rfl) fun _ =>
      .bind (.of_silent fun _ => rfl) fun _ => .of_silent (keeps_silent_appendMessage _ _)
  | groupInvite name => exact .of_silent (keeps_silent_appendNow _ _ _)
  | groupMessage nickname content => exact .of_silent (keeps_silent_appendNow _ _ _)
  | edit target content => exact .of_silent (keeps_silent_updateCurrent _)
  | delete target => exact .of_silent (keeps_silent_updateCurrent _)
  | receipt target state => exact .of_silent (keeps_silent_updateCurrent _)
  | live content => exact lively_modify (fun _ => rfl) (fun _ => rfl) fun _ => rfl
  | reaction target emoji => exact .of_silent (keeps_silent_updateCurrent _)
  | other => exact .pure _

/-- The client one step further in its receiving chain. -/
def advance (s : ChatManager (Base64 × Text)) (chainKey : List UInt8) :
    ChatManager (Base64 × Text) :=
  { s with recvChainKey := some chainKey, recvSeq := s.recvSeq + 1 }

/-- A message that opens moves the receiving chain by one step. -/
theorem sends_onMessage (hP : Seals P) {s : ChatManager (Base64 × Text)} (hlive : Live role s)
    {iv ciphertext : Base64 × Text} {key : List UInt8} {theirRole : Role} {text : Text}
    (hkey : s.recvChainKey = some key) (hrole : s.theirRole = some theirRole)
    (hopen : P.decryptMessage (P.deriveChainKeys key).1 iv.1 ciphertext.1 theirRole s.recvSeq
      s.sessionId = some text) :
    Sends P role (advance s (P.deriveChainKeys key).2)
      (onMessage (tagged P) iv ciphertext s).state := by
  have htagged : (tagged P).decryptMessage ((tagged P).deriveChainKeys key).1 iv ciphertext
      theirRole s.recvSeq s.sessionId = some text := hopen
  have hlive' : Live role (advance s (P.deriveChainKeys key).2) :=
    ⟨hlive.role, hlive.key, hlive.queue, hlive.socket⟩
  unfold onMessage
  rw [apply_bind, apply_get]
  dsimp only
  rw [hkey]
  dsimp only
  rw [hrole]
  dsimp only
  rw [htagged]
  dsimp only
  rw [apply_bind, apply_modify]
  dsimp only
  rcases (tagged P).read text with _ | content
  · exact .of_session hlive' rfl rfl rfl
  · exact lively_onContent hP content _ hlive'

theorem sends_onQueueUpdate {s : ChatManager (Base64 × Text)} (hlive : Live role s)
    (newQueue : String) : Sends P role s (onQueueUpdate newQueue s).state := by
  have hlively : Lively P role (@onQueueUpdate (Base64 × Text) newQueue) := by
    refine .bind (fun s hlive => ?_) fun _ => .of_silent (keeps_silent_appendNow _ _ _)
    obtain ⟨key, hkey⟩ := Option.ne_none_iff_exists'.mp hlive.key
    exact ⟨⟨hlive.role, hlive.key, Option.some_ne_none _, hlive.socket⟩, rfl, rfl, rfl, rfl, key,
      key, [], hkey, hkey, (List.append_nil _).symm, .nil⟩
  exact hlively s hlive

/-! ## What is under way -/

/-- What client `i` has sent and the other one has not received opens there, in order. -/
structure InStep (P : CryptoProvider Text Base64) (role : Role) (w : Line (Base64 × Text)) (i : Bool) :
    Prop where
  live      : Live role (w.clients i)
  theirRole : (w.clients (!i)).theirRole = some role
  sessionId : (w.clients (!i)).sessionId = (w.clients i).sessionId
  order     : ∃ key key', (w.clients (!i)).recvChainKey = some key ∧
    (w.clients i).sendChainKey = some key' ∧
    InOrder P role (w.clients i).sessionId (key, (w.clients (!i)).recvSeq)
      (w.buffers (!i) ++ pushes (w.clients i).emitted) (key', (w.clients i).sendSeq)

variable {w w' : Line (Base64 × Text)} {i : Bool} {s : ChatManager (Base64 × Text)}

theorem inStep_of_agrees (h : Agrees role w i) (hbuffer : w.buffers (!i) = [])
    (hpushes : pushes (w.clients i).emitted = []) : InStep P role w i := by
  obtain ⟨key, hkey⟩ := Option.ne_none_iff_exists'.mp h.live.key
  refine ⟨h.live, h.theirRole, h.sessionId, key, key, h.key.trans hkey, hkey, ?_⟩
  rw [hbuffer, hpushes, h.seq]
  exact .nil

/-- The sender goes on. -/
theorem InStep.send (h : InStep P role w i) (hsends : Sends P role s (w'.clients i))
    (hsession : s.sessionId = (w.clients i).sessionId)
    (hkey : s.sendChainKey = (w.clients i).sendChainKey) (hseq : s.sendSeq = (w.clients i).sendSeq)
    (hemitted : pushes s.emitted = pushes (w.clients i).emitted)
    (hother : w'.clients (!i) = w.clients (!i)) (hbuffer : w'.buffers (!i) = w.buffers (!i)) :
    InStep P role w' i := by
  obtain ⟨key, key', hrecv, hsend, horder⟩ := h.order
  obtain ⟨key₁, key'', payloads, hkey₁, hsend', hpushes, hpayloads⟩ := hsends.sent
  obtain rfl := Option.some.inj ((hkey₁.symm.trans hkey).trans hsend)
  have hid : (w'.clients i).sessionId = (w.clients i).sessionId := hsends.sessionId.trans hsession
  refine ⟨hsends.live, ?_, ?_, key, key'', ?_, hsend', ?_⟩
  · rw [hother]
    exact h.theirRole
  · rw [hother, hid]
    exact h.sessionId
  · rw [hother]
    exact hrecv
  · rw [hother, hbuffer, hid, hpushes, hemitted, ← List.append_assoc]
    rw [hsession, hseq] at hpayloads
    exact horder.append hpayloads

/-- The receiver goes on, with what is left for it. -/
theorem InStep.receive (h : InStep P role w i) (hsender : w'.clients i = w.clients i)
    (hrole : (w'.clients (!i)).theirRole = (w.clients (!i)).theirRole)
    (hsession : (w'.clients (!i)).sessionId = (w.clients (!i)).sessionId)
    (horder : ∃ key key', (w'.clients (!i)).recvChainKey = some key ∧
      (w.clients i).sendChainKey = some key' ∧
      InOrder P role (w.clients i).sessionId (key, (w'.clients (!i)).recvSeq)
        (w'.buffers (!i) ++ pushes (w.clients i).emitted) (key', (w.clients i).sendSeq)) :
    InStep P role w' i := by
  refine ⟨?_, hrole.trans h.theirRole, ?_, ?_⟩
  · rw [hsender]
    exact h.live
  · rw [hsender, hsession]
    exact h.sessionId
  · rw [hsender]
    exact horder

/-- Both directions are in step. -/
def Sound (P : CryptoProvider Text Base64) (roles : Bool → Role) (w : Line (Base64 × Text)) : Prop :=
  ∀ i, InStep P (roles i) w i

variable {roles : Bool → Role}

/-- The two directions, seen from one client. -/
theorem sound_of (i : Bool) (hsend : InStep P (roles i) w i)
    (hreceive : InStep P (roles (!i)) w (!i)) : Sound P roles w := by
  intro j
  by_cases hj : j = i
  · rw [hj]
    exact hsend
  · rw [Bool.eq_not_of_ne hj]
    exact hreceive

theorem sound_setClient (h : Sound P roles w) (hsends : Sends P (roles i) (w.clients i) s) :
    Sound P roles (w.setClient i s) := by
  have hself : (w.setClient i s).clients i = s := Function.update_self ..
  have hother : (w.setClient i s).clients (!i) = w.clients (!i) :=
    Function.update_of_ne (Bool.not_not_eq.mpr rfl) ..
  refine sound_of i ?_ ?_
  · exact (h i).send (hself.symm ▸ hsends) rfl rfl rfl rfl hother rfl
  · have hreceives := h (!i)
    refine hreceives.receive hother ?_ ?_ ?_
    · rw [Bool.not_not, hself]
      exact hsends.theirRole
    · rw [Bool.not_not, hself]
      exact hsends.sessionId
    · rw [Bool.not_not, hself, hsends.recvKey, hsends.recvSeq]
      have horder := hreceives.order
      rwa [Bool.not_not] at horder

theorem sound_act (hP : Seals P) (h : Sound P roles w) {input : Input (Base64 × Text)}
    (hsession : (ChatEvent.act i input).InSession w)
    (hlossless : (ChatEvent.act i input).Lossless w) :
    Sound P roles ((ChatEvent.act i input).step (tagged P) w) :=
  sound_setClient h (sends_act hP hsession hlossless (h i).live)

/-- The relay passes on what it takes. -/
theorem sound_relay (h : Sound P roles w) (hlossless : (ChatEvent.relay i).Lossless w) :
    Sound P roles ((ChatEvent.relay i).step (tagged P) w) := by
  unfold ChatEvent.step
  dsimp only
  rcases hemitted : (w.clients i).emitted with _ | ⟨e, emitted⟩
  · exact h
  dsimp only
  split
  swap
  · exact h
  -- the client without what the relay takes
  let taken := w.setClient i { w.clients i with emitted := emitted }
  have hself : taken.clients i = { w.clients i with emitted := emitted } := Function.update_self ..
  have hother : taken.clients (!i) = w.clients (!i) :=
    Function.update_of_ne (Bool.not_not_eq.mpr rfl) ..
  have hkeeps : ∀ w' : Line (Base64 × Text), w'.clients = taken.clients → w'.buffers i = w.buffers i →
      w'.buffers (!i) ++ pushes emitted = w.buffers (!i) ++ pushes (e :: emitted) →
        Sound P roles w' := by
    intro w' hclients hbuffer hpipe
    refine sound_of i ?_ ?_
    · obtain ⟨hlive, hrole, hid, horder⟩ := h i
      rw [hemitted, ← hpipe] at horder
      constructor
      · rw [hclients, hself]
        exact ⟨hlive.role, hlive.key, hlive.queue, hlive.socket⟩
      · rw [hclients, hother]
        exact hrole
      · rw [hclients, hother, hself]
        exact hid
      · rw [hclients, hother, hself]
        exact horder
    · refine (h (!i)).receive ?_ ?_ ?_ ?_
      · rw [hclients, hother]
      · rw [hclients, Bool.not_not, hself]
      · rw [hclients, Bool.not_not, hself]
      · have horder := (h (!i)).order
        rw [Bool.not_not] at horder
        rw [hclients, Bool.not_not, hself, hbuffer]
        exact horder
  cases e with
  | createQueue => exact hkeeps taken rfl rfl rfl
  | registerPeer myQueue peerQueue => exact hkeeps taken rfl rfl rfl
  | pushQueue queueId payload =>
    show Sound P roles (if w.online (!i) = true ∨ isEphemeral payload = false then _ else _)
    rw [if_pos]
    · refine hkeeps _ rfl ?_ ?_
      · exact Function.update_of_ne (Ne.symm (Bool.not_not_eq.mpr rfl)) ..
      · show Function.update w.buffers (!i) _ (!i) ++ _ = _
        rw [Function.update_self, List.append_assoc]
        rfl
    · -- an ephemeral payload is taken only while the other one is online
      by_cases hephemeral : isEphemeral payload = true
      · refine .inl (hlossless ?_)
        rw [hemitted]
        exact hephemeral
      · exact .inr (Bool.eq_false_iff.mpr hephemeral)

/-- What is next for a client is received, and answered. -/
theorem sound_deliver (hP : Seals P) (h : Sound P roles w) (queueId : String) :
    Sound P roles ((ChatEvent.deliver i queueId).step (tagged P) w) := by
  unfold ChatEvent.step
  dsimp only
  rcases hbuffer : w.buffers i with _ | ⟨payload, payloads⟩
  · exact h
  dsimp only
  split
  swap
  · exact h
  generalize hs : (w.clients i).after (tagged P) (.queuePayload queueId payload) = s'
  have hself : ((w.setClient i s').setBuffer i payloads).clients i = s' := Function.update_self ..
  have hother : ((w.setClient i s').setBuffer i payloads).clients (!i) = w.clients (!i) :=
    Function.update_of_ne (Bool.not_not_eq.mpr rfl) ..
  have hleft : ((w.setClient i s').setBuffer i payloads).buffers i = payloads :=
    Function.update_self ..
  have hright : ((w.setClient i s').setBuffer i payloads).buffers (!i) = w.buffers (!i) :=
    Function.update_of_ne (Bool.not_not_eq.mpr rfl) ..
  obtain ⟨key, key', hrecv, hsend, horder⟩ := (h (!i)).order
  have hrole := (h (!i)).theirRole
  have hid := (h (!i)).sessionId
  rw [Bool.not_not] at hrecv horder hrole hid
  rw [hbuffer, List.cons_append] at horder
  have hlive := (h i).live
  -- a message moves the chain of the receiver on, an update of the queue does not
  cases horder with
  | @message _ _ iv ciphertext ephemeral _ _ hopen hrest =>
    rw [← hid] at hopen
    have hsends : Sends P (roles i) (advance (w.clients i) (P.deriveChainKeys key).2) s' :=
      hs ▸ sends_onMessage hP hlive hrecv hrole hopen
    refine sound_of i ?_ ?_
    · rw [← hself] at hsends
      exact (h i).send hsends rfl rfl rfl rfl hother hright
    · refine (h (!i)).receive hother ?_ ?_
        ⟨(P.deriveChainKeys key).2, key', ?_, hsend, ?_⟩
      · rw [Bool.not_not, hself]
        exact hsends.theirRole
      · rw [Bool.not_not, hself]
        exact hsends.sessionId
      · rw [Bool.not_not, hself]
        exact hsends.recvKey
      · rw [Bool.not_not, hself, hleft, hsends.recvSeq]
        exact hrest
  | @queueUpdate _ newQueue _ _ hrest =>
    have hsends : Sends P (roles i) (w.clients i) s' := by
      rw [← hs]
      exact sends_onQueueUpdate hlive newQueue
    refine sound_of i ?_ ?_
    · exact (h i).send (hself.symm ▸ hsends) rfl rfl rfl rfl hother hright
    · refine (h (!i)).receive hother ?_ ?_ ⟨key, key', ?_, hsend, ?_⟩
      · rw [Bool.not_not, hself]
        exact hsends.theirRole
      · rw [Bool.not_not, hself]
        exact hsends.sessionId
      · rw [Bool.not_not, hself, hsends.recvKey]
        exact hrecv
      · rw [Bool.not_not, hself, hleft, hsends.recvSeq]
        exact hrest

theorem sound_step (hP : Seals P) (e : ChatEvent (Base64 × Text)) (w : Line (Base64 × Text))
    (h : Sound P roles w) (hmeets : e.InSession w ∧ e.Lossless w) :
    Sound P roles ((ChatEvent.run (tagged P) e) w).state := by
  show Sound P roles (e.step (tagged P) w)
  cases e with
  | act i input => exact sound_act hP h hmeets.1 hmeets.2
  | relay i => exact sound_relay h hmeets.2
  | deliver i queueId => exact sound_deliver hP h queueId
  | setOnline i online =>
    intro j
    obtain ⟨hlive, hrole, hid, horder⟩ := h j
    exact ⟨hlive, hrole, hid, horder⟩

/-- What is next for a client opens. -/
theorem decrypted_of_sound (h : Sound P roles w) {iv ciphertext : Base64 × Text} {ephemeral : Bool}
    (hnext : (w.buffers i).head? = some (.message iv ciphertext ephemeral)) :
    decrypted (tagged P) (w.clients i) iv ciphertext = some ciphertext.2 := by
  obtain ⟨payloads, hbuffer⟩ := List.head?_eq_some_iff.mp hnext
  obtain ⟨key, key', hrecv, -, horder⟩ := (h (!i)).order
  have hrole := (h (!i)).theirRole
  have hid := (h (!i)).sessionId
  rw [Bool.not_not] at hrecv horder hrole hid
  rw [hbuffer, List.cons_append] at horder
  cases horder with
  | message hopen hrest =>
    unfold decrypted
    rw [hrecv, hrole, hid]
    exact hopen

/-- As long as nothing is lost, every message that reaches a client decrypts to what was sent. -/
theorem decrypts_of_lossless (hP : Seals P) (hpaired : Paired w)
    (events : List (ChatEvent (Base64 × Text)))
    (hsession : AllMeet (ChatEvent.run (tagged P)) ChatEvent.InSession events w)
    (hlossless : AllMeet (ChatEvent.run (tagged P)) ChatEvent.Lossless events w) :
    DecryptsAsSent P events w := by
  choose roles hroles using hpaired.agrees
  have hstart : Sound P roles w := fun i =>
    inStep_of_agrees (hroles i) (hpaired.quiet (!i)).1 (hpaired.quiet i).2
  intro done i queueId todo hevents before iv ciphertext honline hnext
  have hdone : AllMeet (ChatEvent.run (tagged P)) (fun e w => e.InSession w ∧ e.Lossless w) done w := by
    rw [allMeet_iff] at hsession hlossless ⊢
    rintro done' e todo' rfl
    rw [List.append_assoc] at hevents
    exact ⟨hsession done' e _ hevents, hlossless done' e _ hevents⟩
  exact decrypted_of_sound (AllMeet.invariant (sound_step hP) hdone hstart) hnext

end

/-- The server drops, of what an owner pushes, exactly what `route` drops. -/
theorem handlePushQueue_drops_iff {server : Relay.InMemory.Server (Payload Base64)}
    {large : Payload Base64 → Bool} {sid queueId : String} {payload : Payload Base64}
    (howner : server.isQueueOwner queueId sid) (hqueue : queueId ≠ "") (hsmall : large payload = false)
    (hroom : server.rooms queueId ≠ []) :
    server.handlePushQueue large isEphemeral sid queueId payload = (server, []) ↔
      ¬ (server.isRecipientOnline queueId = true ∨ isEphemeral payload = false) := by
  unfold Relay.InMemory.Server.handlePushQueue
  dsimp only
  rw [if_pos howner, if_neg (by simp [hqueue, hsmall]), if_neg (not_not.mpr howner)]
  by_cases honline : server.isRecipientOnline queueId = true
  · rw [if_pos honline]
    refine iff_of_false ?_ fun hnot => hnot (.inl honline)
    intro hsent
    exact hroom (List.map_eq_nil_iff.mp (congrArg Prod.snd hsent))
  · rw [if_neg honline]
    by_cases hephemeral : isEphemeral payload = true
    · rw [if_pos hephemeral]
      refine iff_of_true rfl ?_
      rintro (honline' | hordinary)
      · exact honline honline'
      · exact absurd (hephemeral.symm.trans hordinary) (by decide)
    · rw [if_neg hephemeral]
      refine iff_of_false ?_ fun hnot => hnot (.inr (Bool.eq_false_iff.mpr hephemeral))
      intro hsent
      cases congrArg Prod.snd hsent

/-! ## Drafts and texts -/

instance : (e : ChatEvent Base64) → (w : Line Base64) → Decidable (e.InSession w)
  | .act _ (.queuePayload _ _), _ | .act _ (.acceptInvite _ _), _ | .act _ .obliviate, _
  | .act _ .resetClient, _ => .isFalse id
  | .act _ .runPosted, _ => inferInstanceAs (Decidable (_ = true))
  | .act _ (.connected _), _ | .act _ .disconnected, _ | .act _ (.connectError _), _
  | .act _ (.queueCreated _), _ | .act _ (.pushQueueError _), _ | .act _ .connect, _
  | .act _ (.sendPrivateMessage _), _ | .act _ (.setDisappearingTimer _), _
  | .act _ (.sendTypingDraft _), _ | .act _ (.sendReaction _ _), _
  | .act _ (.sendEditMessage _ _), _ | .act _ (.sendDeleteMessage _), _ | .act _ .keepAlive, _
  | .act _ (.countdown _ _), _ | .relay _, _ | .deliver _ _, _ | .setOnline _ _, _ =>
    .isTrue trivial

instance : (e : ChatEvent Base64) → (w : Line Base64) → Decidable (e.Lossless w)
  | .relay _, _ => inferInstanceAs (Decidable (_ → _ = true))
  | .act _ .connect, _ => inferInstanceAs (Decidable (_ = true ∨ _ = true))
  | .act _ (.queuePayload _ _), _ | .act _ (.acceptInvite _ _), _ | .act _ .obliviate, _
  | .act _ .resetClient, _ | .act _ .runPosted, _
  | .act _ (.connected _), _ | .act _ .disconnected, _ | .act _ (.connectError _), _
  | .act _ (.queueCreated _), _ | .act _ (.pushQueueError _), _
  | .act _ (.sendPrivateMessage _), _ | .act _ (.setDisappearingTimer _), _
  | .act _ (.sendTypingDraft _), _ | .act _ (.sendReaction _ _), _
  | .act _ (.sendEditMessage _ _), _ | .act _ (.sendDeleteMessage _), _ | .act _ .keepAlive, _
  | .act _ (.countdown _ _), _ | .deliver _ _, _ | .setOnline _ _, _ => .isTrue trivial

theorem seals_sampleProvider : Seals sampleProvider := by
  intro chainKey text role seqNum sessionId nonce
  exact ⟨⟨.iv nonce, .box _ text role seqNum sessionId⟩, rfl, if_pos ⟨rfl, rfl, rfl, rfl⟩⟩

/-- A client in a session. -/
def sessionClient (myRole theirRole : Role) (sendKey recvKey : List UInt8) (peer : String) :
    ChatManager (Sealed × Content) :=
  { ChatManager.init (fun _ => 0) (fun _ => []) with
    theirQueueId := some peer
    sendChainKey := some sendKey
    recvChainKey := some recvKey
    myRole := some myRole
    theirRole := some theirRole
    sessionId := some "AB"
    hasSocket := true
    socketConnected := true
    isSessionActive := true }

/-- Two clients in a session. -/
def sampleLine (online : Bool → Bool) : Line (Sealed × Content) where
  clients i := if i then sessionClient .a .b [1] [2] "qb" else sessionClient .b .a [2] [1] "qa"
  online    := online
  buffers _ := []

theorem paired_sampleLine (online : Bool → Bool) : Paired (sampleLine online) where
  agrees
    | true => ⟨.a, ⟨rfl, nofun, nofun, rfl⟩, rfl, rfl, rfl, rfl⟩
    | false => ⟨.b, ⟨rfl, nofun, nofun, rfl⟩, rfl, rfl, rfl, rfl⟩
  quiet
    | true => ⟨rfl, rfl⟩
    | false => ⟨rfl, rfl⟩

/-- A draft while the peer is online, and a text that is buffered. -/
def bufferedText : List (ChatEvent (Sealed × Content)) :=
  [.act true (.sendTypingDraft "h"), .relay true, .deliver false "qb", .setOnline false false,
    .act true (.sendPrivateMessage "hi"), .relay true, .setOnline false true, .deliver false "qb"]

theorem bufferedText_decrypts :
    (Seals sampleProvider ∧ Paired (sampleLine fun _ => true) ∧
      AllMeet (ChatEvent.run (tagged sampleProvider)) ChatEvent.InSession bufferedText
        (sampleLine fun _ => true) ∧
      AllMeet (ChatEvent.run (tagged sampleProvider)) ChatEvent.Lossless bufferedText
        (sampleLine fun _ => true)) ∧
    DecryptsAsSent sampleProvider bufferedText (sampleLine fun _ => true) := by
  have hsession : AllMeet (ChatEvent.run (tagged sampleProvider)) ChatEvent.InSession bufferedText
      (sampleLine fun _ => true) := by decide +kernel
  have hlossless : AllMeet (ChatEvent.run (tagged sampleProvider)) ChatEvent.Lossless bufferedText
      (sampleLine fun _ => true) := by decide +kernel
  exact ⟨⟨seals_sampleProvider, paired_sampleLine _, hsession, hlossless⟩,
    decrypts_of_lossless seals_sampleProvider (paired_sampleLine _) bufferedText hsession hlossless⟩

/-- What is next for the client is an ordinary message that does not open. -/
def unreadable (w : Line (Sealed × Content)) (i : Bool) : Bool :=
  match (w.buffers i).head? with
  | some (.message iv ciphertext false) =>
    w.online i && decrypted (tagged sampleProvider) (w.clients i) iv ciphertext != some ciphertext.2
  | _ => false

/-- A draft while the peer is offline, and a text after it. -/
def droppedDraft : List (ChatEvent (Sealed × Content)) :=
  [.act true (.sendTypingDraft "h"), .relay true, .act true (.sendPrivateMessage "hi"),
    .relay true, .setOnline false true]

theorem dropped_draft : Paired (sampleLine id) ∧
    AllMeet (ChatEvent.run (tagged sampleProvider)) ChatEvent.InSession
      (droppedDraft ++ [.deliver false "qb"]) (sampleLine id) ∧
    ¬ DecryptsAsSent sampleProvider (droppedDraft ++ [.deliver false "qb"]) (sampleLine id) := by
  refine ⟨paired_sampleLine id, by decide +kernel, fun hdecrypts => ?_⟩
  have hnext := hdecrypts droppedDraft false "qb" [] rfl
  have hunreadable : unreadable (after (ChatEvent.run (tagged sampleProvider)) droppedDraft
      (sampleLine id)) false = true := by
    decide +kernel
  unfold unreadable at hunreadable
  split at hunreadable
  · rename_i iv ciphertext hhead
    obtain ⟨honline, hfails⟩ := Bool.and_eq_true_iff.mp hunreadable
    exact absurd (hnext iv ciphertext honline hhead) (bne_iff_ne.mp hfails)
  · cases hunreadable

end AnonyMus.Android.Chat.Drops
