import AnonyMus.Lib.Serial
import AnonyMus.Web.History

/-!
# Web client — calls that overlap

`sendMessage`, `receiveMessage` and `loadMessages` load the session of the
conversation from IndexedDB, work on a copy of it and save the copy. They are cut
where they touch what other calls write: the sessions, and the lists in memory.
A wait for anything else only delays the next step, and no call writes the
identity or the contacts.

* `Keystore`, `Save` — the sessions, and what each save has put in whose place;
* `sendTask`, `receiveTask`, `loadTask` — the calls in steps;
* `sendScript`, `receiveScript`, `loadScript` — what they do with the sessions;
* `Request.run_task` — in one piece, the steps are the call of the messages store.
-/

namespace AnonyMus.Web.Overlap

open EStateM Serial

/-! ## The sessions -/

/-- A message key, and what a message that was sent under it says of its place in the ratchet. -/
inductive Used
  | sent (messageKey : List UInt8) (dhPubB64 : List Char) (seq : ℕ)
  | opened (messageKey : List UInt8)
deriving DecidableEq

/-- A session that a call has put into the store: the one that it has worked on, the one that it
has found in its place, and the key it has used. -/
structure Save where
  onion    : String
  loaded   : Option SessionJson
  replaced : Option SessionJson
  used     : Option Used

/-- The sessions in IndexedDB, and all saves so far. -/
structure Keystore where
  sessions : Dict String SessionJson
  saves    : List Save

/-- `saveSession`. -/
def persist (onion : String) (session : DoubleRatchetSession) (loaded : Option SessionJson)
    (used : Option Used) (kept : Keystore) : Keystore where
  sessions := kept.sessions.insert onion (serialize session)
  saves := kept.saves ++ [⟨onion, loaded, kept.sessions.get? onion, used⟩]

abbrev Lists := Dict String (List UiMessage)

instance : Nonempty Lists := ⟨Dict.empty⟩

/-- What is left of a call. -/
abbrev Steps := Task Keystore Lists

/-- What a call does with the sessions. -/
abbrev Accesses := Script Keystore

/-- The client when it finds these sessions. -/
def reading (env : Client) (kept : Keystore) : Client := { env with sessions := kept.sessions }

/-! ## Calls -/

section

variable (W : Platform) (B : Browser)

/-- The key that `encrypt` takes from the sending chain. -/
def sendingKey (session : DoubleRatchetSession) : List UInt8 :=
  match session.sendingChainKey.map (chainStep W) with
  | some (.ok (messageKey, _)) => messageKey
  | _ => []

/-- The key that `decrypt` opens a message with. -/
def openingKey (peerDhPub : List UInt8) (envelope : Envelope) (supply : Supply)
    (session : DoubleRatchetSession) : List UInt8 :=
  match receiveKey W peerDhPub envelope.seq envelope.prevChainLen supply.ratchet session with
  | .ok messageKey _ => messageKey
  | .error _ _ => []

/-- What `decryptMessage` does between loading the session and saving it. -/
def openPeer (onion : String) (identity : KeyPair) (supply : Supply) (msg : UiMessage)
    (envelope : Envelope) (c : Client) : Except JsError (String × DoubleRatchetSession × Used) := do
  let session ←
    sessionWith W B onion identity supply "Double Ratchet session not established with peer" c
  let peerDhPub ← fromBase64 B envelope.dhPub
  let iv ← fromBase64 B (some msg.ivB64)
  let ciphertext ← fromBase64 B envelope.ciphertext
  match decrypt W peerDhPub iv ciphertext envelope.seq envelope.prevChainLen supply.ratchet session with
  | .ok plaintext session' =>
    return (plaintext, session', .opened (openingKey W peerDhPub envelope supply session))
  | .error e _ => throw e

/-- The request of `sendMessage` can be made: the copy under the local key does not fail. -/
def copies (identity : KeyPair) (plaintext : String) (supply : Supply) : Bool :=
  (do
    let localKey ← localEncryptionKey W identity
    aeadEncrypt W localKey plaintext.toUTF8.toList supply.self : Except JsError _).isOk

-- the client whose identity and contacts the calls read
variable (env : Client)

/-- `sendMessage` from the request on. -/
def postTask (onion plaintext : String) (identity : KeyPair) (supply : Supply)
    (existing : List UiMessage) (response : Option UiMessage) : Steps :=
  if copies W identity plaintext supply then
    match response.bind fun msg => withSent B existing msg plaintext with
    | some msgs => .other (·.insert onion msgs) fun _ => .done
    | none => .done
  else .done

/-- `sendMessage` from `encrypt` on. -/
def encryptTask (onion plaintext : String) (supply : Supply) (session : DoubleRatchetSession)
    (loaded : Option SessionJson) (post : Steps) : Steps :=
  match encrypt W plaintext supply.random supply.nonce session with
  | .ok enc session' =>
    .access (persist onion session' loaded
      (some (.sent (sendingKey W session) enc.dhPubB64 enc.seq))) fun _ => post
  | .error _ _ => .done

def sendTask (onion plaintext : String) (supply : Supply) (response : Option UiMessage) : Steps :=
  .other id fun lists =>
    let existing := (lists.get? onion).getD []
    match env.identity with
    | none => .done
    | some identity =>
      .access id fun kept =>
        match sessionWith W B onion identity supply
          "E2EE pairing session not negotiated with this contact."
          (reading env kept) with
        | .error _ => .done
        | .ok session =>
          let post := postTask W B onion plaintext identity supply existing response
          match kept.sessions.get? onion with
          | some stored => encryptTask W onion plaintext supply session (some stored) post
          | none =>
            .access (persist onion session none none) fun _ =>
              encryptTask W onion plaintext supply session (some (serialize session)) post

/-- `decryptMessage`, and how its caller goes on. -/
def decryptTask (onion : String) (resolves : Bool) (supply : Supply) (msg : UiMessage)
    (goOn : UiMessage × Except JsError String → Steps) : Steps :=
  match B.parseEnvelope msg.ciphertextB64, env.identity with
  | none, _ => goOn (msg, .error .typeError)
  | some _, none => goOn (msg, .error (.error "Identity key not found"))
  | some envelope, some identity =>
    let (msg, resolvedOnion) := resolveSealed W B onion identity resolves msg
    if msg.senderOnion ≠ resolvedOnion then
      goOn (msg, decryptOwn W B identity envelope)
    else
      .access id fun kept =>
        match openPeer W B onion identity supply msg envelope (reading env kept) with
        | .ok (plaintext, session, used) =>
          .access (persist onion session (kept.sessions.get? onion) (some used)) fun _ =>
            goOn (msg, .ok plaintext)
        | .error e => goOn (msg, .error e)

def decryptAllTask (onion : String) : List (UiMessage × Bool × Supply) →
    (List (UiMessage × Except JsError String) → Steps) → Steps
  | [], goOn => goOn []
  | (msg, resolves, supply) :: rest, goOn =>
    decryptTask W B env onion resolves supply msg fun decrypted =>
      decryptAllTask onion rest fun others => goOn (decrypted :: others)

def loadTask (onion : String) (history : Option (List (UiMessage × Bool × Supply))) : Steps :=
  match history with
  | some page =>
    decryptAllTask W B env onion page fun decrypted =>
      .other (·.insert onion (decrypted.filterMap fun d => shownInHistory B d.1 d.2).reverse)
        fun _ => .done
  | none => .other (·.insert onion []) fun _ => .done

/-- Add a message to the end of a conversation. -/
def appendTask (added : Option (String × UiMessage)) : Steps :=
  .other (fun lists => (appendMessage added { env with messageMap := lists }).messageMap) fun _ =>
    .done

def receiveTask (onion : String) (resolves : Bool) (supply : Supply) (msg : UiMessage) : Steps :=
  match targetOf W B onion env.identity resolves msg with
  | none => appendTask env (some (onion, msg))
  | some (targetOnion, msg) =>
    decryptTask W B env targetOnion resolves supply msg fun decrypted =>
      appendTask env (shownLive B onion targetOnion decrypted.1 decrypted.2)

/-! ## Their accesses -/

def encryptScript (onion plaintext : String) (supply : Supply) (session : DoubleRatchetSession)
    (loaded : Option SessionJson) : Accesses :=
  match encrypt W plaintext supply.random supply.nonce session with
  | .ok enc session' =>
    .access (persist onion session' loaded
      (some (.sent (sendingKey W session) enc.dhPubB64 enc.seq))) fun _ => .done
  | .error _ _ => .done

def sendScript (onion plaintext : String) (supply : Supply) : Accesses :=
  match env.identity with
  | none => .done
  | some identity =>
    .access id fun kept =>
      match sessionWith W B onion identity supply
        "E2EE pairing session not negotiated with this contact."
        (reading env kept) with
      | .error _ => .done
      | .ok session =>
        match kept.sessions.get? onion with
        | some stored => encryptScript W onion plaintext supply session (some stored)
        | none =>
          .access (persist onion session none none) fun _ =>
            encryptScript W onion plaintext supply session (some (serialize session))

def decryptScript (onion : String) (resolves : Bool) (supply : Supply) (msg : UiMessage)
    (goOn : Accesses) : Accesses :=
  match B.parseEnvelope msg.ciphertextB64, env.identity with
  | some envelope, some identity =>
    let (msg, resolvedOnion) := resolveSealed W B onion identity resolves msg
    if msg.senderOnion ≠ resolvedOnion then goOn
    else
      .access id fun kept =>
        match openPeer W B onion identity supply msg envelope (reading env kept) with
        | .ok (_, session, used) =>
          .access (persist onion session (kept.sessions.get? onion) (some used)) fun _ => goOn
        | .error _ => goOn
  | _, _ => goOn

def loadScript (onion : String) (history : Option (List (UiMessage × Bool × Supply))) : Accesses :=
  (history.getD []).foldr (fun m goOn => decryptScript W B env onion m.2.1 m.2.2 m.1 goOn) .done

def receiveScript (onion : String) (resolves : Bool) (supply : Supply) (msg : UiMessage) : Accesses :=
  match targetOf W B onion env.identity resolves msg with
  | none => .done
  | some (targetOnion, msg) => decryptScript W B env targetOnion resolves supply msg .done

end

/-! ## Requests -/

/-- A call, with what the node answers and the random generators return. -/
inductive Request
  | send (onion plaintext myOnion : String) (supply : Supply) (response : Option UiMessage)
  | receive (onion : String) (resolves : Bool) (supply : Supply) (msg : UiMessage)
  | load (onion : String) (history : Option (List (UiMessage × Bool × Supply)))

namespace Request

variable (W : Platform) (B : Browser) (env : Client)

def task : Request → Steps
  | send onion plaintext _ supply response => sendTask W B env onion plaintext supply response
  | receive onion resolves supply msg => receiveTask W B env onion resolves supply msg
  | load onion history => loadTask W B env onion history

def script : Request → Accesses
  | send onion plaintext _ supply _ => sendScript W B env onion plaintext supply
  | receive onion resolves supply msg => receiveScript W B env onion resolves supply msg
  | load onion history => loadScript W B env onion history

/-- The call in one piece. -/
def event : Request → MessagesEvent
  | send onion plaintext myOnion supply response => .send onion plaintext myOnion supply response
  | receive onion resolves supply msg => .receive onion resolves supply msg
  | load onion history => .load onion history

end Request

section

variable {W : Platform} {B : Browser} {env : Client} {onion plaintext : String} {supply : Supply}

theorem postTask_follows {identity : KeyPair} {existing : List UiMessage}
    {response : Option UiMessage} :
    (postTask W B onion plaintext identity supply existing response).Follows .done := by
  unfold postTask
  split_ifs
  · split
    · exact fun _ => rfl
    · rfl
  · rfl

theorem encryptTask_follows {session : DoubleRatchetSession} {loaded : Option SessionJson}
    {post : Steps} (hpost : post.Follows .done) :
    (encryptTask W onion plaintext supply session loaded post).Follows
      (encryptScript W onion plaintext supply session loaded) := by
  unfold encryptTask encryptScript
  split
  · exact ⟨_, rfl, fun _ => hpost⟩
  · rfl

theorem sendTask_follows {response : Option UiMessage} :
    (sendTask W B env onion plaintext supply response).Follows
      (sendScript W B env onion plaintext supply) := by
  intro lists
  unfold sendScript
  rcases env.identity with _ | identity
  · rfl
  · refine ⟨_, rfl, fun kept => ?_⟩
    dsimp only
    split
    · rfl
    · split
      · exact encryptTask_follows postTask_follows
      · exact ⟨_, rfl, fun _ => encryptTask_follows postTask_follows⟩

theorem decryptTask_follows {resolves : Bool} {msg : UiMessage}
    {goOn : UiMessage × Except JsError String → Steps} {goOn' : Accesses}
    (h : ∀ decrypted, (goOn decrypted).Follows goOn') :
    (decryptTask W B env onion resolves supply msg goOn).Follows
      (decryptScript W B env onion resolves supply msg goOn') := by
  unfold decryptTask decryptScript
  rcases B.parseEnvelope msg.ciphertextB64 with _ | envelope
  · exact h _
  rcases env.identity with _ | identity
  · exact h _
  dsimp only
  split_ifs
  · exact h _
  · refine ⟨_, rfl, fun kept => ?_⟩
    dsimp only
    split
    · exact ⟨_, rfl, fun _ => h _⟩
    · exact h _

theorem decryptAllTask_follows (page : List (UiMessage × Bool × Supply))
    {goOn : List (UiMessage × Except JsError String) → Steps}
    (h : ∀ decrypted, (goOn decrypted).Follows .done) :
    (decryptAllTask W B env onion page goOn).Follows (loadScript W B env onion (some page)) := by
  induction page generalizing goOn with
  | nil => exact h []
  | cons item page ih => exact decryptTask_follows fun _ => ih fun _ => h _

theorem appendTask_follows (added : Option (String × UiMessage)) :
    (appendTask env added).Follows .done := fun _ => rfl

/-- A call accesses the sessions as its script says, whatever the lists are. -/
theorem Request.task_follows (call : Request) :
    (call.task W B env).Follows (call.script W B env) := by
  cases call with
  | send onion plaintext myOnion supply response => exact sendTask_follows
  | receive onion resolves supply msg =>
    unfold Request.task Request.script receiveTask receiveScript
    dsimp only
    split
    · exact appendTask_follows _
    · exact decryptTask_follows fun _ => appendTask_follows _
  | load onion history =>
    rcases history with _ | page
    · exact fun _ => rfl
    · exact decryptAllTask_follows page fun _ => fun _ => rfl

end

/-! ## Calls in one piece -/

/-- The client that has this store and these lists. -/
def clientOf (env : Client) (s : Keystore × Lists) : Client :=
  { env with sessions := s.1.sessions, messageMap := s.2 }

section

variable {W : Platform} {B : Browser} {env : Client} {onion : String} {kept : Keystore}
  {lists : Lists}

theorem decryptPeer_of_openPeer {identity : KeyPair} {supply : Supply} {msg : UiMessage}
    {envelope : Envelope} {c : Client} {plaintext : String} {session : DoubleRatchetSession}
    {used : Used}
    (h : openPeer W B onion identity supply msg envelope c = .ok (plaintext, session, used)) :
    decryptPeer W B onion identity supply msg envelope c =
      .ok plaintext (saveSession onion session c) := by
  unfold openPeer at h
  obtain ⟨loaded, hloaded, h⟩ := except_bind_eq_ok_iff.mp h
  obtain ⟨peerDhPub, hpub, h⟩ := except_bind_eq_ok_iff.mp h
  obtain ⟨iv, hiv, h⟩ := except_bind_eq_ok_iff.mp h
  obtain ⟨ciphertext, hciphertext, h⟩ := except_bind_eq_ok_iff.mp h
  unfold decryptPeer
  simp only [apply_bind, apply_get, hloaded, hpub, hiv, hciphertext, apply_ofExcept_ok]
  split at h
  · rename_i hdecrypt
    rw [hdecrypt]
    cases h
    rfl
  · cases h

theorem decryptPeer_of_openPeer_error {identity : KeyPair} {supply : Supply} {msg : UiMessage}
    {envelope : Envelope} {c : Client} {e : JsError}
    (h : openPeer W B onion identity supply msg envelope c = .error e) :
    decryptPeer W B onion identity supply msg envelope c = .error e c := by
  unfold openPeer at h
  unfold decryptPeer
  rw [apply_bind, apply_get]
  dsimp only
  rw [apply_bind, apply_ofExcept]
  -- the first of the five steps that fails ends both in the same error
  rcases hloaded : sessionWith W B onion identity supply
    "Double Ratchet session not established with peer" c with e' | loaded
  · rw [hloaded] at h
    cases h
    rfl
  rw [hloaded] at h
  dsimp only
  rw [apply_bind, apply_ofExcept]
  rcases hpub : fromBase64 B envelope.dhPub with e' | peerDhPub
  · rw [hpub] at h
    cases h
    rfl
  rw [hpub] at h
  dsimp only
  rw [apply_bind, apply_ofExcept]
  rcases hiv : fromBase64 B (some msg.ivB64) with e' | iv
  · rw [hiv] at h
    cases h
    rfl
  rw [hiv] at h
  dsimp only
  rw [apply_bind, apply_ofExcept]
  rcases hciphertext : fromBase64 B envelope.ciphertext with e' | ciphertext
  · rw [hciphertext] at h
    cases h
    rfl
  rw [hciphertext] at h
  -- the four arguments are read; only the ratchet is left to fail
  dsimp only
  simp only [except_ok_bind] at h
  split at h
  · cases h
  · rename_i hdecrypt
    rw [hdecrypt]
    cases h
    rfl

/-- `decryptMessage` in one piece; its caller goes on from the state it leaves. -/
theorem run_decryptTask (env : Client) (onion : String) (resolves : Bool) (supply : Supply) (msg : UiMessage)
    (goOn : UiMessage × Except JsError String → Steps) (kept : Keystore) (lists : Lists) :
    ∃ decrypted kept', (decryptTask W B env onion resolves supply msg goOn).run (kept, lists) =
        (goOn decrypted).run (kept', lists) ∧
      decryptMessage W B onion resolves supply msg (clientOf env (kept, lists)) =
        .ok decrypted (clientOf env (kept', lists)) := by
  unfold decryptTask decryptMessage
  rw [apply_bind, apply_get]
  dsimp only [clientOf]
  -- without an envelope, without an identity, and for one's own message, no session is
  -- touched
  rcases B.parseEnvelope msg.ciphertextB64 with _ | envelope
  · exact ⟨_, kept, rfl, rfl⟩
  rcases hidentity : env.identity with _ | identity
  · exact ⟨_, kept, rfl, rfl⟩
  dsimp only
  rcases resolveSealed W B onion identity resolves msg with ⟨msg, resolvedOnion⟩
  dsimp only
  split_ifs
  · refine ⟨_, kept, rfl, ?_⟩
    rw [← hidentity]
    rfl
  · rw [← hidentity]
    -- otherwise `decryptPeer` is one access: it reads the stored session, and saves it
    -- if it opens
    rw [Task.run_access]
    dsimp only [id]
    rcases hopen : openPeer W B onion identity supply msg envelope
      (reading env kept) with e | ⟨plaintext, session, used⟩
    · refine ⟨(msg, .error e), kept, rfl, ?_⟩
      have hfailed : openPeer W B onion identity supply msg envelope (clientOf env (kept, lists)) =
          .error e := hopen
      unfold clientOf at hfailed
      rw [decryptPeer_of_openPeer_error hfailed]
      rfl
    · refine ⟨(msg, .ok plaintext), persist onion session (kept.sessions.get? onion) (some used) kept,
        rfl, ?_⟩
      have hopened : openPeer W B onion identity supply msg envelope (clientOf env (kept, lists)) =
          .ok (plaintext, session, used) := hopen
      unfold clientOf at hopened
      rw [decryptPeer_of_openPeer hopened]
      rfl

theorem run_decryptAllTask (env : Client) (onion : String) (page : List (UiMessage × Bool × Supply))
    (goOn : List (UiMessage × Except JsError String) → Steps) (kept : Keystore) (lists : Lists) :
    ∃ decrypted kept', (decryptAllTask W B env onion page goOn).run (kept, lists) =
        (goOn decrypted).run (kept', lists) ∧
      decryptAll W B onion page (clientOf env (kept, lists)) =
        .ok decrypted (clientOf env (kept', lists)) := by
  induction page generalizing goOn kept with
  | nil => exact ⟨[], kept, rfl, rfl⟩
  | cons item page ih =>
    obtain ⟨msg, resolves, supply⟩ := item
    obtain ⟨d, kept₁, hrun, hdecrypt⟩ := run_decryptTask (W := W) (B := B) env onion resolves
      supply msg (fun d => decryptAllTask W B env onion page fun others => goOn (d :: others)) kept lists
    obtain ⟨ds, kept₂, hrest, hall⟩ := ih (fun others => goOn (d :: others)) kept₁
    refine ⟨d :: ds, kept₂, hrun.trans hrest, ?_⟩
    rw [decryptAll, apply_bind, hdecrypt]
    dsimp only
    rw [apply_bind, hall]
    rfl

theorem run_appendTask (added : Option (String × UiMessage)) (s : Keystore × Lists) :
    clientOf env ((appendTask env added).run s) = appendMessage added (clientOf env s) := by
  rcases added with _ | ⟨onion, msg⟩
  · rfl
  · rfl

theorem run_receiveTask (resolves : Bool) (supply : Supply) (msg : UiMessage)
    (s : Keystore × Lists) :
    clientOf env ((receiveTask W B env onion resolves supply msg).run s) =
      (receiveMessage W B onion resolves supply msg (clientOf env s)).state := by
  unfold receiveTask receiveMessage
  rw [apply_bind, apply_get]
  dsimp only
  rw [show (clientOf env s).identity = env.identity from rfl]
  rcases targetOf W B onion env.identity resolves msg with _ | ⟨targetOnion, msg⟩
  · exact run_appendTask (some (onion, msg)) s
  · obtain ⟨decrypted, kept', hrun, hdecrypt⟩ := run_decryptTask (W := W) (B := B) env targetOnion
      resolves supply msg (fun decrypted =>
        appendTask env (shownLive B onion targetOnion decrypted.1 decrypted.2)) s.1 s.2
    dsimp only
    rw [apply_bind, hdecrypt]
    exact (congrArg (clientOf env) hrun).trans (run_appendTask _ _)

theorem run_loadTask (history : Option (List (UiMessage × Bool × Supply))) (s : Keystore × Lists) :
    clientOf env ((loadTask W B env onion history).run s) =
      (loadMessages W B onion history (clientOf env s)).state := by
  unfold loadTask loadMessages
  rcases history with _ | page
  · rfl
  · obtain ⟨decrypted, kept', hrun, hall⟩ := run_decryptAllTask (W := W) (B := B) env onion page
      (fun decrypted => .other
        (·.insert onion (decrypted.filterMap fun d => shownInHistory B d.1 d.2).reverse)
          fun _ => .done) s.1 s.2
    dsimp only
    rw [apply_bind, hall]
    exact congrArg (clientOf env) hrun


/-- The request of `sendMessage` fails before a session is there. -/
theorem prepareSend_refused {plaintext myOnion : String} {supply : Supply} {c : Client}
    (h : ∀ identity, c.identity = some identity → ∃ e, sessionWith W B onion identity supply
      "E2EE pairing session not negotiated with this contact." c = .error e) :
    ∃ e, prepareSend W B onion plaintext myOnion supply c = .error e c := by
  unfold prepareSend
  rw [apply_bind, apply_get]
  dsimp only
  rcases hidentity : c.identity with _ | identity
  · exact ⟨_, rfl⟩
  · obtain ⟨e, he⟩ := h identity hidentity
    dsimp only
    rw [apply_bind, he]
    exact ⟨e, rfl⟩

/-- A new session is saved before it is used. -/
def created (onion : String) (session : DoubleRatchetSession) (c : Client) : Client :=
  if (c.sessions.get? onion).isNone then saveSession onion session c else c

section

variable {plaintext myOnion : String} {supply : Supply} {identity : KeyPair} {c : Client}
  {session session' : DoubleRatchetSession}

theorem apply_created (session : DoubleRatchetSession) (c : Client) :
    (if (c.sessions.get? onion).isNone then modify (saveSession onion session)
      else pure ⟨⟩ : Store PUnit) c = .ok ⟨⟩ (created onion session c) := by
  unfold created
  split_ifs
  · rfl
  · rfl

theorem prepareSend_failed (myOnion : String) (hidentity : c.identity = some identity)
    (hsession : sessionWith W B onion identity supply
      "E2EE pairing session not negotiated with this contact." c = .ok session) {e : JsError}
    (hencrypt : encrypt W plaintext supply.random supply.nonce session = .error e session') :
    prepareSend W B onion plaintext myOnion supply c = .error e (created onion session c) := by
  unfold prepareSend
  rw [apply_bind, apply_get]
  dsimp only
  rw [hidentity]
  dsimp only
  rw [apply_bind, hsession, apply_ofExcept_ok]
  dsimp only
  rw [apply_bind, apply_created]
  dsimp only
  rw [hencrypt]
  rfl

/-- The session is saved before the copy under the local key, which may fail. -/
theorem prepareSend_made (myOnion : String) (hidentity : c.identity = some identity)
    (hsession : sessionWith W B onion identity supply
      "E2EE pairing session not negotiated with this contact." c = .ok session) {enc : Web.Sealed}
    (hencrypt : encrypt W plaintext supply.random supply.nonce session = .ok enc session') :
    (prepareSend W B onion plaintext myOnion supply c).state =
        saveSession onion session' (created onion session c) ∧
      (prepareSend W B onion plaintext myOnion supply c).value?.isSome =
        copies W identity plaintext supply := by
  unfold prepareSend copies
  rw [apply_bind, apply_get]
  dsimp only
  rw [hidentity]
  dsimp only
  rw [apply_bind, hsession, apply_ofExcept_ok]
  dsimp only
  rw [apply_bind, apply_created]
  dsimp only
  rw [hencrypt]
  dsimp only
  rw [apply_bind, apply_modify]
  dsimp only
  rw [apply_bind, apply_ofExcept]
  -- both failures of the copy come after the save
  rcases localEncryptionKey W identity with e | localKey
  · exact ⟨rfl, rfl⟩
  · dsimp only
    rw [apply_bind, apply_ofExcept, except_ok_bind]
    rcases aeadEncrypt W localKey plaintext.toUTF8.toList supply.self with e | selfEncBytes
    · exact ⟨rfl, rfl⟩
    · exact ⟨rfl, rfl⟩

/-- `sendMessage` once its request has been made, or has failed. -/
theorem state_sendMessage (response : Option UiMessage) :
    (sendMessage W B onion plaintext myOnion supply response c).state =
      ((if (prepareSend W B onion plaintext myOnion supply c).value?.isSome then
        response.bind fun msg => withSent B (getMessages onion c) msg plaintext else none).elim id
          (setMessages onion)) (prepareSend W B onion plaintext myOnion supply c).state := by
  unfold sendMessage
  rw [apply_bind, apply_get]
  dsimp only
  rw [apply_bind, apply_get]
  dsimp only
  rcases prepareSend W B onion plaintext myOnion supply c with ⟨request, c'⟩ | ⟨e, c'⟩
  · dsimp only
    rw [apply_bind, apply_set]
    rcases response.bind fun msg => withSent B (getMessages onion c) msg plaintext with _ | msgs
    · rfl
    · rfl
  · rfl

end

theorem run_postTask (plaintext : String) (identity : KeyPair) (supply : Supply)
    (existing : List UiMessage) (response : Option UiMessage) (s : Keystore × Lists) :
    clientOf env ((postTask W B onion plaintext identity supply existing response).run s) =
      ((if copies W identity plaintext supply then
        response.bind fun msg => withSent B existing msg plaintext else none).elim id
          (setMessages onion)) (clientOf env s) := by
  unfold postTask
  split_ifs
  · rcases response.bind fun msg => withSent B existing msg plaintext with _ | msgs
    · rfl
    · rfl
  · rfl

theorem run_sendTask (plaintext myOnion : String) (supply : Supply) (response : Option UiMessage)
    (s : Keystore × Lists) :
    clientOf env ((sendTask W B env onion plaintext supply response).run s) =
      (sendMessage W B onion plaintext myOnion supply response (clientOf env s)).state := by
  have hrefused : (∀ identity, env.identity = some identity → ∃ e,
      sessionWith W B onion identity supply "E2EE pairing session not negotiated with this contact."
        (clientOf env s) = .error e) →
      (sendMessage W B onion plaintext myOnion supply response (clientOf env s)).state =
        clientOf env s := by
    intro h
    obtain ⟨e, he⟩ : ∃ e, prepareSend W B onion plaintext myOnion supply (clientOf env s) =
      .error e (clientOf env s) := prepareSend_refused h
    rw [state_sendMessage, he]
    rfl
  unfold sendTask
  rw [Task.run_other]
  dsimp only [id]
  rcases hidentity : env.identity with _ | identity
  · rw [hrefused fun identity h => absurd (hidentity.symm.trans h) nofun]
    rfl
  dsimp only
  rw [Task.run_access]
  dsimp only [id]
  rcases hsession : sessionWith W B onion identity supply
    "E2EE pairing session not negotiated with this contact." (reading env s.1)
    with e | session
  · rw [hrefused fun identity' h => ?_]
    · rfl
    · obtain rfl := Option.some.inj (hidentity.symm.trans h)
      exact ⟨e, hsession⟩
  have hclient : sessionWith W B onion identity supply
      "E2EE pairing session not negotiated with this contact." (clientOf env s) = .ok session :=
    hsession
  -- `encrypt`, in a store that has the session
  have hencrypt : ∀ (loaded : Option SessionJson) (kept : Keystore),
      clientOf env (kept, s.2) = created onion session (clientOf env s) →
      clientOf env ((encryptTask W onion plaintext supply session loaded
          (postTask W B onion plaintext identity supply ((s.2.get? onion).getD []) response)).run
            (kept, s.2)) =
        (sendMessage W B onion plaintext myOnion supply response (clientOf env s)).state := by
    intro loaded kept hkept
    unfold encryptTask
    rw [state_sendMessage]
    rcases hrun : encrypt W plaintext supply.random supply.nonce session with
      ⟨enc, session'⟩ | ⟨e, session'⟩
    · obtain ⟨hstate, hmade⟩ :=
        prepareSend_made (c := clientOf env s) myOnion hidentity hclient hrun
      rw [hstate, hmade]
      dsimp only
      rw [Task.run_access, run_postTask, ← hkept]
      rfl
    · rw [prepareSend_failed (c := clientOf env s) myOnion hidentity hclient hrun]
      exact hkept
  dsimp only
  rcases hstored : s.1.sessions.get? onion with _ | stored
  · refine hencrypt _ (persist onion session none none s.1) ?_
    unfold created
    rw [if_pos (by rw [show (clientOf env s).sessions = s.1.sessions from rfl, hstored]; rfl)]
    rfl
  · refine hencrypt _ s.1 ?_
    unfold created
    rw [if_neg (by rw [show (clientOf env s).sessions = s.1.sessions from rfl, hstored]; exact nofun)]

/-- A call whose steps run with nothing between them does what the call of the store does. -/
theorem Request.run_task (call : Request) (s : Keystore × Lists) :
    clientOf env ((call.task W B env).run s) = (call.event.run W B (clientOf env s)).state := by
  cases call with
  | send onion plaintext myOnion supply response =>
    rw [Request.event, MessagesEvent.run, state_discard]
    exact run_sendTask plaintext myOnion supply response s
  | receive onion resolves supply msg => exact run_receiveTask resolves supply msg s
  | load onion history =>
    rw [Request.event, MessagesEvent.run, state_discard]
    exact run_loadTask history s

end

end AnonyMus.Web.Overlap
