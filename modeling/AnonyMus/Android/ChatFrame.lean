import AnonyMus.Android.ChatManager

/-!
# Android client — what handlers leave alone

* `Core` — the state of a client without its conversations, its clock and what
  it posts and emits;
* `keeps_silent_appendNow`, … — what shows a message keeps all of that, and emits
  nothing;
* `keeps_unsent_pushEncrypted` — what sends one keeps it but for the sending chain;
* `keeps_unsent_onContent`, `keeps_unchained_onMessage` — so does what a peer can
  make a client do, but for the receiving chain.
-/

namespace AnonyMus.Android.Chat

open EStateM (Keeps)

variable {Text Base64 : Type}

structure Core extends Session where
  myKeyPair           : Option KeyPair
  myPublicKeyExported : Option String
  myQueueId           : Option String
  pendingInvite       : Option (String × String)
  hasSocket           : Bool
  socketConnected     : Bool
  connectionStatus    : ConnectionStatus
  isSessionActive     : Bool
  established         : List (String × Option String)
  accepted            : ℕ

namespace ChatManager

def core (s : ChatManager Base64) : Core where
  toSession           := s.toSession
  myKeyPair           := s.myKeyPair
  myPublicKeyExported := s.myPublicKeyExported
  myQueueId           := s.myQueueId
  pendingInvite       := s.pendingInvite
  hasSocket           := s.hasSocket
  socketConnected     := s.socketConnected
  connectionStatus    := s.connectionStatus
  isSessionActive     := s.isSessionActive
  established         := s.established
  accepted            := s.accepted

/-- The core but for the sending chain. -/
def unsent (s : ChatManager Base64) : Core := { s.core with sendChainKey := none, sendSeq := 0 }

/-- The core but for both chains. -/
def unchained (s : ChatManager Base64) : Core :=
  { s.unsent with recvChainKey := none, recvSeq := 0 }

end ChatManager

open ChatManager (core unsent unchained)

/-! ## Showing messages -/

/-- The core, and what has been emitted. -/
def ChatManager.silent (s : ChatManager Base64) : Core × List (Emit Base64) := (s.core, s.emitted)

open ChatManager (silent)

theorem keeps_silent_post (task : Task) : Keeps silent (@post Base64 task) := fun _ => rfl

theorem keeps_silent_updateCurrent (f : List ChatMessage → List ChatMessage) :
    Keeps silent (@updateCurrent Base64 f) := fun _ => rfl

theorem keeps_silent_appendMessage (chatPartner : String) (message : ChatMessage) :
    Keeps silent (@appendMessage Base64 chatPartner message) :=
  .bind (fun _ => rfl) fun _ => .ite (keeps_silent_post _) (keeps_silent_post _)

theorem keeps_silent_appendNow (sender : Sender) (text : String) (decrypted : Bool) :
    Keeps silent (@appendNow Base64 sender text decrypted) :=
  .bind (fun _ => rfl) fun _ => .bind (fun _ => rfl) fun _ => .bind (fun _ => rfl) fun _ =>
    keeps_silent_appendMessage _ _

theorem keeps_core_of_silent {α : Type} {x : Handler Base64 α} (hx : Keeps silent x) :
    Keeps core x :=
  fun s => congrArg Prod.fst (hx s)

theorem keeps_core_post (task : Task) : Keeps core (@post Base64 task) := fun _ => rfl

theorem keeps_core_updateCurrent (f : List ChatMessage → List ChatMessage) :
    Keeps core (@updateCurrent Base64 f) := fun _ => rfl

theorem keeps_core_appendMessage (chatPartner : String) (message : ChatMessage) :
    Keeps core (@appendMessage Base64 chatPartner message) :=
  keeps_core_of_silent (keeps_silent_appendMessage chatPartner message)

theorem keeps_core_appendNow (sender : Sender) (text : String) (decrypted : Bool) :
    Keeps core (@appendNow Base64 sender text decrypted) :=
  keeps_core_of_silent (keeps_silent_appendNow sender text decrypted)

theorem emit_eq (e : Emit Base64) (s : ChatManager Base64) :
    emit e s = .ok () (if s.hasSocket then { s with emitted := s.emitted ++ [e] } else s) := rfl

theorem keeps_core_emit (e : Emit Base64) : Keeps core (emit e) := by
  intro s
  rw [emit_eq]
  split <;> rfl

/-! ## Sending -/

section

variable (P : CryptoProvider Text Base64)

theorem keeps_unsent_emit (e : Emit Base64) : Keeps unsent (emit e) := by
  intro s
  unfold unsent
  rw [keeps_core_emit e s]

theorem keeps_unsent_pushEncrypted (payload : Content) (ephemeral : Bool) :
    Keeps unsent (pushEncrypted P payload ephemeral) := by
  refine .bind (fun _ => rfl) fun s => ?_
  split
  · refine .bind (fun _ => rfl) fun _ => ?_
    split
    · exact .pure _
    · refine .bind (fun _ => rfl) fun nonce => ?_
      split
      · exact .pure _
      · exact .bind (fun _ => rfl) fun _ => .bind (keeps_unsent_emit _) fun _ => .pure _
  · exact .pure _

theorem keeps_unsent_sendReceipt (targetTimestamp : ℤ) (state : String) :
    Keeps unsent (sendReceipt P targetTimestamp state) :=
  .discard (keeps_unsent_pushEncrypted P _ _)

/-! ## Receiving -/

/-- What keeps the core keeps it without the sending chain. -/
theorem keeps_unsent_of_core {α : Type} {x : Handler Base64 α} (hx : Keeps core x) :
    Keeps unsent x := by
  intro s
  unfold unsent
  rw [hx s]

theorem keeps_unsent_onControl (action : Control) : Keeps unsent (onControl P action) := by
  cases action with
  | static => exact .pure _
  | heartbeat => exact .pure _
  | other => exact .pure _
  | obliviate => exact keeps_unsent_of_core (keeps_core_post _)
  | timerSet duration =>
    exact .bind (fun _ => rfl) fun _ =>
      .bind (keeps_unsent_of_core (keeps_core_appendNow _ _ _)) fun _ =>
        .discard (keeps_unsent_pushEncrypted P _ _)
  | timerAck duration =>
    exact .bind (fun _ => rfl) fun _ => keeps_unsent_of_core (keeps_core_appendNow _ _ _)

theorem keeps_unsent_onContent (content : Content) : Keeps unsent (onContent P content) := by
  cases content with
  | control action => exact keeps_unsent_onControl P action
  | text content timestamp =>
    exact .bind (fun _ => rfl) fun _ => .bind (fun _ => rfl) fun _ => .bind (fun _ => rfl) fun _ =>
      .bind (keeps_unsent_of_core (keeps_core_appendMessage _ _)) fun _ =>
        keeps_unsent_sendReceipt P _ _
  | fileDescr descr timestamp =>
    exact .bind (fun _ => rfl) fun _ => .bind (fun _ => rfl) fun _ => .bind (fun _ => rfl) fun _ =>
      keeps_unsent_of_core (keeps_core_appendMessage _ _)
  | groupInvite name => exact keeps_unsent_of_core (keeps_core_appendNow _ _ _)
  | groupMessage nickname content => exact keeps_unsent_of_core (keeps_core_appendNow _ _ _)
  | edit target content => exact keeps_unsent_of_core (keeps_core_updateCurrent _)
  | delete target => exact keeps_unsent_of_core (keeps_core_updateCurrent _)
  | receipt target state => exact keeps_unsent_of_core (keeps_core_updateCurrent _)
  | live content => exact fun _ => rfl
  | reaction target emoji => exact keeps_unsent_of_core (keeps_core_updateCurrent _)
  | other => exact .pure _

/-- A session begins, or nothing changes. -/
theorem deriveSession_cases (theirPublicKey : String) (s : ChatManager Base64) :
    deriveSession P theirPublicKey s = .error () s ∨
      ∃ theirKey myKeyPair myPublicKey sessionKeys,
        P.importPublicKey theirPublicKey = some theirKey ∧ s.myKeyPair = some myKeyPair ∧
          s.myPublicKeyExported = some myPublicKey ∧
          P.deriveSessionKeys myKeyPair.priv theirKey myPublicKey theirPublicKey =
            some sessionKeys ∧
          deriveSession P theirPublicKey s =
            .ok () (s.begin P sessionKeys myPublicKey theirPublicKey) := by
  unfold deriveSession
  rw [EStateM.apply_bind, EStateM.apply_get]
  dsimp only
  rcases P.importPublicKey theirPublicKey with _ | theirKey
  · exact .inl rfl
  rcases s.myKeyPair with _ | myKeyPair
  · exact .inl rfl
  rcases s.myPublicKeyExported with _ | myPublicKey
  · exact .inl rfl
  dsimp only
  rcases hkeys : P.deriveSessionKeys myKeyPair.priv theirKey myPublicKey theirPublicKey with
    _ | sessionKeys
  · exact .inl rfl
  · exact .inr ⟨theirKey, myKeyPair, myPublicKey, sessionKeys, rfl, rfl, rfl, hkeys, rfl⟩

/-- A message moves the two chains, and nothing else of the core. -/
theorem keeps_unchained_onMessage (iv ciphertext : Base64) :
    Keeps unchained (onMessage P iv ciphertext) := by
  have hunsent {α : Type} {x : Handler Base64 α} (hx : Keeps unsent x) : Keeps unchained x := by
    intro s
    unfold unchained
    rw [hx s]
  refine .bind (fun _ => rfl) fun s => ?_
  split
  · exact .pure _
  · dsimp only
    split
    · exact .throw _
    · split
      · exact hunsent (keeps_unsent_of_core (keeps_core_appendNow _ _ _))
      · refine .bind (fun _ => rfl) fun _ => ?_
        split
        · exact .throw _
        · exact hunsent (keeps_unsent_onContent P _)

theorem state_runPosted (s : ChatManager Base64) :
    (runPosted P s).state = match s.posted with
      | [] => s
      | task :: tasks => (runTask P task { s with posted := tasks }).state := by
  unfold runPosted
  rw [EStateM.apply_bind, EStateM.apply_get]
  dsimp only
  rcases s.posted with _ | ⟨task, tasks⟩
  · rfl
  · rfl

end

end AnonyMus.Android.Chat
