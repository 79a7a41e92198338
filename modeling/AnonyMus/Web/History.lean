import Mathlib.Data.List.Pairwise
import AnonyMus.Web.Messages

/-!
# Web client — reading the history again

`loadMessages` runs the ciphertexts of the node through the session each time. A
message that the user sent comes with a copy under a key that stays; a message
of the peer is opened by a step of the ratchet, which is saved.

* `Loaded`, `loadedLog` — what the loads of a run show;
* `Rereadable` — a message is shown alike by all loads of its conversation;
* `Settled` — no two loads run a message through the session;
* `rereadable_of_settled` — the message is then shown alike;
* `greeting_reread` — the message of a peer is read once.
-/

namespace AnonyMus.Web

open EStateM

section

variable (W : Platform) (B : Browser)

/-! ## What loads show -/

/-- Where a load takes the text of a message from. -/
inductive Source
  /-- The copy that the sender keeps for itself. -/
  | copy
  /-- The session with the peer. -/
  | ratchet
  /-- Nowhere: the envelope, the identity or the session is missing. -/
  | nowhere
deriving DecidableEq

/-- A message in a load, and the text of it in the list; none for a call signal. -/
structure Loaded where
  onion  : String
  msg    : UiMessage
  source : Source
  shown  : Option String
deriving DecidableEq

/-- The client has a session with the contact, or what it takes to set one up. -/
def hasSession (onion : String) (c : Client) : Bool :=
  let contact := c.contacts.bind fun cs => cs.find? fun contact => contact.onionAddress = onion
  (c.sessions.get? onion).isSome ||
    ((contact.bind fun x => x.sharedSecretB64.filter (· ≠ "")).isSome &&
      (contact.bind fun x => x.publicKeyB64.filter (· ≠ "")).isSome)

/-- The fields of a message that the session is given are base64. -/
def hasFields (msg : UiMessage) (envelope : Envelope) : Bool :=
  (fromBase64 B envelope.dhPub).isOk && (fromBase64 B (some msg.ivB64)).isOk &&
    (fromBase64 B envelope.ciphertext).isOk

/-- Where a load that begins in the given state takes the text of a message from. -/
def sourceOf (onion : String) (c : Client) (resolves : Bool) (msg : UiMessage) : Source :=
  match B.parseEnvelope msg.ciphertextB64, c.identity with
  | some envelope, some identity =>
    if (resolveSealed W B onion identity resolves msg).1.senderOnion ≠
        (resolveSealed W B onion identity resolves msg).2 then .copy
    else if hasSession onion c && hasFields B msg envelope then .ratchet
    else .nowhere
  | _, _ => .nowhere

/-- A message of a page, with what `loadMessages` made of it. -/
def loaded (onion : String) (c : Client) (item : UiMessage × Bool × Supply)
    (decrypted : UiMessage × Except JsError String) : Loaded where
  onion  := onion
  msg    := item.1
  source := sourceOf W B onion c item.2.1 item.1
  shown  := (shownInHistory B decrypted.1 decrypted.2).map (·.ciphertextB64)

def MessagesEvent.loads : MessagesEvent → Client → List Loaded
  | .load onion (some page), c =>
    List.zipWith (loaded W B onion c) page ((loadMessages W B onion (some page) c).value?.getD [])
  | _, _ => []

/-- What the loads of a run show, in order. -/
def loadedLog : List MessagesEvent → Client → List Loaded
  | [], _ => []
  | e :: events, c => e.loads W B c ++ loadedLog events (e.run W B c).state

/-- A message is shown alike whenever its conversation is loaded. -/
def Rereadable (log : List Loaded) : Prop :=
  ∀ x ∈ log, ∀ y ∈ log, x.onion = y.onion → x.msg = y.msg → x.shown = y.shown

/-- Two loads of a message take it from one place, which is not the session. -/
def Settled (x y : Loaded) : Prop :=
  x.onion = y.onion → x.msg = y.msg → x.source = y.source ∧ x.source ≠ .ratchet

/-! ## What does not take a step of the session -/

/-- The text of a message that the client takes for its own. -/
def ownText (identity : Option KeyPair) (msg : UiMessage) : Except JsError String :=
  match B.parseEnvelope msg.ciphertextB64, identity with
  | none, _ => .error .typeError
  | some _, none => .error (.error "Identity key not found")
  | some envelope, some identity => decryptOwn W B identity envelope

end

section

variable {W : Platform} {B : Browser} {onion : String} {c : Client}

/-- What the sealed block decides is who the message is from, and nothing else of it. -/
theorem resolveSealed_sender (identity : KeyPair) (resolves : Bool) (msg : UiMessage) :
    ∃ sender, (resolveSealed W B onion identity resolves msg).1 =
      { msg with senderOnion := sender } := by
  unfold resolveSealed
  split
  · split_ifs
    · split
      · exact ⟨_, rfl⟩
      · exact ⟨msg.senderOnion, rfl⟩
    · exact ⟨msg.senderOnion, rfl⟩
  · exact ⟨msg.senderOnion, rfl⟩

theorem resolveSealed_unsealed (identity : KeyPair) (resolves : Bool) {msg : UiMessage}
    (hunsealed : msg.sealedSender = none) :
    resolveSealed W B onion identity resolves msg = (msg, onion) := by
  unfold resolveSealed
  rw [hunsealed]

/-- Without a session, and without the keys for one, there is none to decrypt with. -/
theorem sessionWith_of_not_hasSession (identity : KeyPair) (supply : Supply) (missing : String)
    (hnone : hasSession onion c = false) :
    sessionWith W B onion identity supply missing c = .error (.error missing) := by
  unfold hasSession at hnone
  unfold sessionWith
  rcases hstored : c.sessions.get? onion with _ | stored
  · rw [hstored] at hnone
    dsimp only
    rcases hsecret : (c.contacts.bind fun cs => cs.find? fun contact =>
        contact.onionAddress = onion).bind fun x => x.sharedSecretB64.filter (· ≠ "") with _ | secret
    · rw [hsecret]
      rfl
    · rcases hpub : (c.contacts.bind fun cs => cs.find? fun contact =>
          contact.onionAddress = onion).bind fun x => x.publicKeyB64.filter (· ≠ "") with _ | pub
      · rw [hsecret, hpub]
        rfl
      · dsimp only at hnone
        rw [hsecret, hpub] at hnone
        cases hnone
  · rw [hstored] at hnone
    cases hnone

/-- The states of a load before it writes the list: what it began with stays. -/
structure WithinLoad (onion : String) (c₀ c : Client) : Prop where
  identity   : c.identity = c₀.identity
  messageMap : c.messageMap = c₀.messageMap
  session    : hasSession onion c₀ = false → hasSession onion c = false

theorem WithinLoad.refl : WithinLoad onion c c := ⟨rfl, rfl, id⟩

/-- `decryptPeer` changes the sessions alone, and fails where a load has no source. -/
theorem decryptPeer_spec (identity : KeyPair) (supply : Supply) (msg : UiMessage)
    (envelope : Envelope) (c : Client) :
    (∃ plaintext session, hasSession onion c = true ∧ hasFields B msg envelope = true ∧
      decryptPeer W B onion identity supply msg envelope c =
        .ok plaintext (saveSession onion session c)) ∨
    ∃ e c', decryptPeer W B onion identity supply msg envelope c = .error e c' := by
  unfold decryptPeer
  rw [apply_bind, apply_get]
  dsimp only
  rw [apply_bind, apply_ofExcept]
  rcases hsession : sessionWith W B onion identity supply
    "Double Ratchet session not established with peer" c with e | session
  · exact .inr ⟨e, c, rfl⟩
  have hhas : hasSession onion c = true := by
    by_contra hnone
    rw [sessionWith_of_not_hasSession _ _ _ (Bool.eq_false_of_not_eq_true hnone)] at hsession
    cases hsession
  dsimp only
  rw [apply_bind, apply_ofExcept]
  rcases hpub : fromBase64 B envelope.dhPub with e | peerDhPub
  · exact .inr ⟨e, c, rfl⟩
  dsimp only
  rw [apply_bind, apply_ofExcept]
  rcases hiv : fromBase64 B (some msg.ivB64) with e | iv
  · exact .inr ⟨e, c, rfl⟩
  dsimp only
  rw [apply_bind, apply_ofExcept]
  rcases hciphertext : fromBase64 B envelope.ciphertext with e | ciphertext
  · exact .inr ⟨e, c, rfl⟩
  dsimp only
  rcases decrypt W peerDhPub iv ciphertext envelope.seq envelope.prevChainLen supply.ratchet session
    with ⟨plaintext, session'⟩ | ⟨e, session'⟩
  · refine .inl ⟨plaintext, session', hhas, ?_, rfl⟩
    unfold hasFields
    rw [hpub, hiv, hciphertext]
    rfl
  · exact .inr ⟨e, c, rfl⟩

/-- A message is decrypted, or not, and keeps its envelope. What a load does not take from the
session has one text. -/
theorem decryptMessage_spec {c₀ : Client} (resolves : Bool) (supply : Supply) (msg : UiMessage)
    (hwithin : WithinLoad onion c₀ c) :
    ∃ resolved plaintext c', decryptMessage W B onion resolves supply msg c =
        .ok (resolved, plaintext) c' ∧
      WithinLoad onion c₀ c' ∧ resolved.ciphertextB64 = msg.ciphertextB64 ∧
      (sourceOf W B onion c₀ resolves msg = .copy → plaintext = ownText W B c₀.identity msg) ∧
      (sourceOf W B onion c₀ resolves msg = .nowhere → ∃ e, plaintext = .error e) := by
  unfold decryptMessage ownText sourceOf
  rw [apply_bind, apply_get]
  dsimp only
  rw [hwithin.identity]
  rcases B.parseEnvelope msg.ciphertextB64 with _ | envelope
  · exact ⟨msg, _, c, rfl, hwithin, rfl, fun _ => rfl, fun _ => ⟨_, rfl⟩⟩
  rcases hidentity : c₀.identity with _ | identity
  · exact ⟨msg, _, c, rfl, hwithin, rfl, fun _ => rfl, fun _ => ⟨_, rfl⟩⟩
  dsimp only
  have hsender := @resolveSealed_sender W B onion identity resolves msg
  rcases hresolved : resolveSealed W B onion identity resolves msg with ⟨resolved, resolvedOnion⟩
  rw [hresolved] at hsender
  obtain ⟨sender, hsender : resolved = _⟩ := hsender
  have hciphertext : resolved.ciphertextB64 = msg.ciphertextB64 := by
    rw [hsender]
  have hiv : resolved.ivB64 = msg.ivB64 := by
    rw [hsender]
  dsimp only
  by_cases hown : resolved.senderOnion ≠ resolvedOnion
  · rw [if_pos hown, if_pos hown]
    exact ⟨resolved, _, c, rfl, hwithin, hciphertext, fun _ => rfl, fun h => absurd h nofun⟩
  rw [if_neg hown, if_neg hown]
  have hfields : hasFields B resolved envelope = hasFields B msg envelope := by
    unfold hasFields
    rw [hiv]
  rcases decryptPeer_spec (W := W) identity supply resolved envelope c with
    ⟨plaintext, session, hhas, hdecodes, hrun⟩ | ⟨e, c', hrun⟩
  · -- the message has run through the session, which the load had from the start
    have hhas₀ : hasSession onion c₀ = true := by
      by_contra hnone
      rw [hwithin.session (Bool.eq_false_of_not_eq_true hnone)] at hhas
      cases hhas
    rw [hrun, hhas₀, ← hfields, hdecodes]
    refine ⟨resolved, .ok plaintext, saveSession onion session c, rfl, ⟨?_, ?_, ?_⟩, hciphertext,
      fun h => absurd h nofun, fun h => absurd h nofun⟩
    · exact hwithin.identity
    · exact hwithin.messageMap
    · intro hnone
      rw [hhas₀] at hnone
      cases hnone
  · rw [hrun]
    refine ⟨resolved, .error e, c, rfl, hwithin, hciphertext, ?_, fun _ => ⟨e, rfl⟩⟩
    intro hcopy
    split_ifs at hcopy

/-- What a load shows of a message that it does not take from the session. -/
def Explained (W : Platform) (B : Browser) (identity : Option KeyPair) (x : Loaded) : Prop :=
  (x.source = .copy →
    x.shown = (shownInHistory B x.msg (ownText W B identity x.msg)).map (·.ciphertextB64)) ∧
  (x.source = .nowhere → x.shown = some x.msg.ciphertextB64)

/-- The text that is shown depends on the envelope and the text. -/
theorem shownInHistory_congr {msg msg' : UiMessage} (h : msg.ciphertextB64 = msg'.ciphertextB64)
    (plaintext : Except JsError String) :
    (shownInHistory B msg plaintext).map (·.ciphertextB64) =
      (shownInHistory B msg' plaintext).map (·.ciphertextB64) := by
  unfold shownInHistory
  rcases plaintext with e | plaintext
  · exact congrArg some h
  · dsimp only
    split_ifs
    · rfl
    · rcases B.btoa plaintext with _ | text
      · exact congrArg some h
      · rfl

theorem explained_loaded {item : UiMessage × Bool × Supply} {resolved : UiMessage}
    {plaintext : Except JsError String} (hciphertext : resolved.ciphertextB64 = item.1.ciphertextB64)
    (hcopy : sourceOf W B onion c item.2.1 item.1 = .copy →
      plaintext = ownText W B c.identity item.1)
    (hnowhere : sourceOf W B onion c item.2.1 item.1 = .nowhere → ∃ e, plaintext = .error e) :
    Explained W B c.identity (loaded W B onion c item (resolved, plaintext)) := by
  constructor
  · intro hsource
    have heq := hcopy hsource
    show (shownInHistory B resolved plaintext).map (·.ciphertextB64) =
      (shownInHistory B item.1 (ownText W B c.identity item.1)).map (·.ciphertextB64)
    rw [heq]
    exact shownInHistory_congr hciphertext _
  · intro hsource
    obtain ⟨e, rfl⟩ := hnowhere hsource
    exact congrArg some hciphertext

/-- The messages of a page, one after the other. -/
theorem decryptAll_spec {c₀ : Client} (page : List (UiMessage × Bool × Supply))
    (hwithin : WithinLoad onion c₀ c) :
    ∃ decrypted c', decryptAll W B onion page c = .ok decrypted c' ∧ WithinLoad onion c₀ c' ∧
      decrypted.length = page.length ∧
      ∀ x ∈ List.zipWith (loaded W B onion c₀) page decrypted,
        Explained W B c₀.identity x := by
  induction page generalizing c with
  | nil =>
    refine ⟨[], c, rfl, hwithin, rfl, ?_⟩
    intro x hx
    cases hx
  | cons item page ih =>
    obtain ⟨resolved, plaintext, c₁, hrun, hwithin₁, hciphertext, hcopy, hnowhere⟩ :=
      decryptMessage_spec (W := W) (B := B) item.2.1 item.2.2 item.1 hwithin
    obtain ⟨decrypted, c₂, hrest, hwithin₂, hlength, hexplained⟩ := ih hwithin₁
    refine ⟨(resolved, plaintext) :: decrypted, c₂, ?_, hwithin₂, ?_, ?_⟩
    · obtain ⟨msg, resolves, supply⟩ := item
      unfold decryptAll
      rw [apply_bind, hrun]
      dsimp only
      rw [apply_bind, hrest]
      rfl
    · rw [List.length_cons, hlength, List.length_cons]
    · intro x hx
      rw [List.zipWith_cons_cons] at hx
      rcases List.mem_cons.mp hx with rfl | hx
      · exact explained_loaded hciphertext hcopy hnowhere
      · exact hexplained x hx

theorem loadMessages_eq (page : List (UiMessage × Bool × Supply))
    {decrypted : List (UiMessage × Except JsError String)} {c' : Client}
    (hrun : decryptAll W B onion page c = .ok decrypted c') :
    loadMessages W B onion (some page) c = .ok decrypted
      (setMessages onion (decrypted.filterMap fun d => shownInHistory B d.1 d.2).reverse c') := by
  unfold loadMessages
  dsimp only
  rw [apply_bind, hrun]
  rfl

theorem loads_explained {e : MessagesEvent} {x : Loaded} (hx : x ∈ e.loads W B c) :
    Explained W B c.identity x := by
  rcases e with ⟨onion, _ | page⟩ | _ | _ | _ | _
  · cases hx
  · obtain ⟨decrypted, c', hrun, -, -, hexplained⟩ :=
      decryptAll_spec (W := W) (B := B) page (WithinLoad.refl : WithinLoad onion c c)
    have hx : x ∈ List.zipWith (loaded W B onion c) page
        ((loadMessages W B onion (some page) c).value?.getD []) := hx
    rw [loadMessages_eq page hrun] at hx
    exact hexplained x hx
  · cases hx
  · cases hx
  · cases hx
  · cases hx

theorem source_of_mem_loads {page : List (UiMessage × Bool × Supply)} {x : Loaded}
    (hx : x ∈ (MessagesEvent.load onion (some page)).loads W B c) :
    ∃ item ∈ page, x.source = sourceOf W B onion c item.2.1 item.1 := by
  unfold MessagesEvent.loads at hx
  dsimp only at hx
  rw [← List.map_uncurry_zip_eq_zipWith] at hx
  obtain ⟨⟨item, decrypted⟩, hitem, rfl⟩ := List.mem_map.mp hx
  exact ⟨item, (List.of_mem_zip hitem).1, rfl⟩

/-- The list that a load leaves has the texts of its log, oldest first. -/
theorem getMessages_load (page : List (UiMessage × Bool × Supply)) (c : Client) :
    (getMessages onion (loadMessages W B onion (some page) c).state).map (·.ciphertextB64) =
      ((MessagesEvent.load onion (some page)).loads W B c |>.filterMap (·.shown)).reverse := by
  obtain ⟨decrypted, c', hrun, -, hlength, -⟩ :=
    decryptAll_spec (W := W) (B := B) page (WithinLoad.refl : WithinLoad onion c c)
  have hshown : ∀ decrypted : List (UiMessage × Except JsError String),
      decrypted.length = page.length →
      (List.zipWith (loaded W B onion c) page decrypted).filterMap (·.shown) =
        (decrypted.filterMap fun d => shownInHistory B d.1 d.2).map (·.ciphertextB64) := by
    clear hrun hlength
    induction page with
    | nil =>
      intro decrypted hlength
      rw [List.eq_nil_of_length_eq_zero hlength]
      rfl
    | cons item page ih =>
      intro decrypted hlength
      rcases decrypted with _ | ⟨d, decrypted⟩
      · cases hlength
      · rw [List.zipWith_cons_cons, List.filterMap_cons, List.filterMap_cons,
          ih decrypted (Nat.succ.inj hlength)]
        have hloaded : (loaded W B onion c item d).shown =
            (shownInHistory B d.1 d.2).map (·.ciphertextB64) := rfl
        rw [hloaded]
        rcases shownInHistory B d.1 d.2 with _ | msg
        · rfl
        · rfl
  unfold MessagesEvent.loads
  dsimp only
  rw [loadMessages_eq page hrun]
  show (getMessages onion (setMessages onion _ c')).map (·.ciphertextB64) =
    ((List.zipWith (loaded W B onion c) page decrypted).filterMap (·.shown)).reverse
  rw [hshown decrypted hlength]
  unfold getMessages setMessages
  rw [Dict.get?_insert, if_pos rfl, Option.getD_some, List.map_reverse]

/-- A request changes the sessions alone. -/
theorem prepareSend_keeps {γ : Type} {g : Client → γ}
    (hg : ∀ session c, g (saveSession onion session c) = g c) (plaintext myOnion : String)
    (supply : Supply) : Keeps g (prepareSend W B onion plaintext myOnion supply) := by
  unfold prepareSend
  refine Keeps.get fun c => ?_
  have hsave : ∀ session, Keeps g (modify (saveSession onion session) : Store PUnit) :=
    fun session => Keeps.modify (hg session)
  rcases c.identity with _ | identity
  · rfl
  dsimp only
  refine (Keeps.bind (Keeps.ofExcept _) fun session => ?_) c
  refine Keeps.bind (Keeps.ite (hsave session) (Keeps.pure _)) fun _ => ?_
  intro s
  rcases encrypt W plaintext supply.random supply.nonce session with ⟨enc, session'⟩ | ⟨e, session'⟩
  · refine (Keeps.bind (hsave session') fun _ => ?_) s
    refine Keeps.bind (Keeps.ofExcept _) fun localKey => ?_
    exact Keeps.bind (Keeps.ofExcept _) fun selfEncBytes => Keeps.pure _
  · rfl

/-- No event changes the identity. -/
theorem identity_run (e : MessagesEvent) (c : Client) :
    (e.run W B c).state.identity = c.identity := by
  cases e with
  | load onion history =>
    rw [MessagesEvent.run, state_discard]
    rcases history with _ | page
    · rfl
    · obtain ⟨decrypted, c', hrun, hwithin, -⟩ :=
        decryptAll_spec (W := W) (B := B) page (WithinLoad.refl : WithinLoad onion c c)
      rw [loadMessages_eq page hrun]
      exact hwithin.identity
  | send onion plaintext myOnion supply response =>
    rw [MessagesEvent.run, state_discard]
    have hkeeps := prepareSend_keeps (W := W) (B := B) (g := Client.identity)
      (fun _ _ => rfl : ∀ session c, (saveSession onion session c).identity = c.identity)
      plaintext myOnion supply c
    unfold sendMessage
    rw [apply_bind, apply_get]
    dsimp only
    rw [apply_bind, apply_get]
    dsimp only
    rcases hrun : prepareSend W B onion plaintext myOnion supply c with ⟨request, c'⟩ | ⟨e, c'⟩
    · rw [hrun, Result.state_ok] at hkeeps
      dsimp only
      rw [apply_bind, apply_set]
      dsimp only
      -- the answer only adds to the list of messages
      rcases response.bind fun msg => withSent B (getMessages onion c) msg plaintext with _ | msgs
      · exact hkeeps
      · exact hkeeps
    · rw [hrun, Result.state_error] at hkeeps
      exact hkeeps
  | receive onion resolves supply msg =>
    show ((receiveMessage W B onion resolves supply msg) c).state.identity = c.identity
    have hadd : ∀ added c', (appendMessage added c').identity = c'.identity := by
      rintro (_ | ⟨onion, msg⟩) c'
      · rfl
      · rfl
    unfold receiveMessage
    rw [apply_bind, apply_get]
    dsimp only
    rcases targetOf W B onion c.identity resolves msg with _ | ⟨targetOnion, msg⟩
    · exact hadd (some (onion, msg)) c
    · obtain ⟨resolved, plaintext, c', hrun, hwithin, -⟩ :=
        decryptMessage_spec (W := W) (B := B) resolves supply msg
          (WithinLoad.refl : WithinLoad targetOnion c c)
      dsimp only
      rw [apply_bind, hrun]
      exact (hadd _ c').trans hwithin.identity
  | contacts list => rfl
  | reload => rfl

/-- Every message in the log of a run is explained by the identity alone, or by the session. -/
theorem loadedLog_explained (events : List MessagesEvent) (c : Client) :
    ∀ x ∈ loadedLog W B events c, Explained W B c.identity x := by
  induction events generalizing c with
  | nil =>
    intro x hx
    cases hx
  | cons e events ih =>
    intro x hx
    rcases List.mem_append.mp hx with hx | hx
    · exact loads_explained hx
    · have hexplained := ih _ x hx
      rw [identity_run] at hexplained
      exact hexplained

/-- In every run of the client, if no two loads run a message through the session, and both take it
from one place, then every message is shown alike by all loads of its conversation. -/
theorem rereadable_of_settled (W : Platform) (B : Browser) (events : List MessagesEvent)
    (c : Client) (hsettled : (loadedLog W B events c).Pairwise Settled) :
    Rereadable (loadedLog W B events c) := by
  have hexplained := loadedLog_explained (W := W) (B := B) events c
  have hsymm : Std.Symm Settled := by
    constructor
    intro x y h honion hmsg
    obtain ⟨hsource, hratchet⟩ := h honion.symm hmsg.symm
    exact ⟨hsource.symm, hsource ▸ hratchet⟩
  intro x hx y hy honion hmsg
  by_cases hsame : x = y
  · rw [hsame]
  obtain ⟨hcopyx, hnowherex⟩ := hexplained x hx
  obtain ⟨hcopyy, hnowherey⟩ := hexplained y hy
  obtain ⟨hsource, hratchet⟩ := hsettled.forall hx hy hsame honion hmsg
  rcases hx : x.source with _ | _ | _
  · rw [hcopyx hx, hcopyy (hsource ▸ hx), hmsg]
  · exact absurd hx hratchet
  · rw [hnowherex hx, hnowherey (hsource ▸ hx), hmsg]

end

/-! ## One message of a peer -/

/-- A platform whose cipher writes the key before the text. -/
def taggedPlatform : Platform where
  dh x d := Bytes.replicate 32 (x.1.headD 0 + d.1.headD 0)
  hkdf ikm salt _ len := Bytes.replicate len ((salt.getD []).headD 0 + ikm.headD 0 + 1)
  gcmEncrypt key _ plaintext := key.1 ++ plaintext
  gcmDecrypt key _ ciphertext :=
    if ciphertext.take 32 = key.1 then .ok (ciphertext.drop 32)
    else .error (.decrypt "decryption failed")
  textDecode data := String.ofList (data.map fun b => Char.ofNat b.toNat)

def sampleKeys (x : UInt8) : KeyPair := ⟨Bytes.replicate 32 x, Bytes.replicate 32 x⟩

def sampleSupply : Supply where
  init := sampleKeys 3
  ratchet := sampleKeys 4
  random n := Bytes.replicate n 0
  nonce := Bytes.replicate 12 0
  self := Bytes.replicate 12 0
  sealing := sampleKeys 5
  cover := Bytes.replicate 12 0

/-- The text under the first key of a session that the peer begins with the key pair 3. -/
def greetingCiphertext : List UInt8 :=
  taggedPlatform.gcmEncrypt (Bytes.replicate 32 16) (Bytes.replicate 12 0)
    (pad "hello" sampleSupply.random)

def greetingEnvelope : Envelope where
  ciphertext     := some (toBase64 greetingCiphertext)
  selfCiphertext := some (toBase64 (List.replicate 45 7))
  dhPub          := some (toBase64 (sampleKeys 3).publicKey.1)
  seq            := 0
  prevChainLen   := 0

/-- `btoa`, of the characters as bytes. -/
def sampleBtoa (text : String) : Option String :=
  if text.toList.all (·.toNat < 256) then
    some (toBase64 (text.toList.map fun c => UInt8.ofNat c.toNat))
  else none

/-- `JSON.stringify` of an envelope, whose fields need no escapes. -/
def envelopeJson (e : Envelope) : String :=
  let field (name : String) (value : Option String) : String :=
    (value.map fun value => "\"" ++ name ++ "\":\"" ++ value ++ "\",").getD ""
  "\x7b" ++ field "ciphertext" e.ciphertext ++ field "self_ciphertext" e.selfCiphertext ++
    field "dh_pub" e.dhPub ++ "\"seq\":" ++ toString e.seq ++ ",\"prev_chain_len\":" ++
    toString e.prevChainLen ++ "\x7d"

def envelopeB64 (e : Envelope) : String := (sampleBtoa (envelopeJson e)).getD ""

/-- A browser that reads one envelope. -/
def sampleBrowser : Browser where
  parseEnvelope text := if text = envelopeB64 greetingEnvelope then some greetingEnvelope else none
  envelopeText := envelopeB64
  atob text := (a2bBase64 0 0 0 [] text.toList).toOption
  btoa := sampleBtoa

/-- A client with one contact, whose key comes first. -/
def sampleClient : Client where
  identity   := some (sampleKeys 2)
  sessions   := Dict.empty
  contacts   := some [⟨"peer.onion", some (toBase64 (sampleKeys 1).publicKey.1), some (toBase64 [9])⟩]
  messageMap := Dict.empty

def greetingMsg : UiMessage where
  messageId      := "m1"
  senderOnion    := "peer.onion"
  recipientOnion := "me.onion"
  ciphertextB64  := envelopeB64 greetingEnvelope
  ivB64          := toBase64 (Bytes.replicate 12 0).1
  sequenceNumber := 0
  sealedSender   := none

def loadGreeting : MessagesEvent := .load "peer.onion" (some [(greetingMsg, true, sampleSupply)])

/-- The session of the client before the greeting, and after it. -/
def beforeGreeting : DoubleRatchetSession := initBob [9] (sampleKeys 2).privateKey.1

def decryptGreeting : EStateM JsError DoubleRatchetSession String :=
  decrypt taggedPlatform (sampleKeys 3).publicKey.1 (Bytes.replicate 12 0).1 greetingCiphertext
    greetingEnvelope.seq greetingEnvelope.prevChainLen sampleSupply.ratchet

def afterGreeting : DoubleRatchetSession := (decryptGreeting beforeGreeting).state

theorem sample_fromBase64 (bytes : List UInt8) :
    fromBase64 sampleBrowser (some (toBase64 bytes)) = .ok bytes := by
  have hatob : sampleBrowser.atob (toBase64 bytes) = some bytes := a2bBase64_toBase64 bytes
  unfold fromBase64
  rw [Option.bind_some, hatob]

theorem sample_parseEnvelope :
    sampleBrowser.parseEnvelope (envelopeB64 greetingEnvelope) = some greetingEnvelope := if_pos rfl

/-- A client that knows the peer sets up a session as the one who answers. -/
theorem sample_sessionWith (missing : String) :
    sessionWith taggedPlatform sampleBrowser "peer.onion" (sampleKeys 2) sampleSupply missing
      sampleClient = .ok beforeGreeting := by
  have hcontact : (sampleClient.contacts.bind fun cs => cs.find? fun contact =>
      contact.onionAddress = "peer.onion") =
      some ⟨"peer.onion", some (toBase64 (sampleKeys 1).publicKey.1), some (toBase64 [9])⟩ := rfl
  have hsecret : (some (toBase64 [9])).filter (· ≠ "") = some (toBase64 [9]) := by decide +kernel
  have hkey : (some (toBase64 (sampleKeys 1).publicKey.1)).filter (· ≠ "") =
      some (toBase64 (sampleKeys 1).publicKey.1) := by decide +kernel
  have hrole : lessThan (toBase64 (sampleKeys 2).publicKey.1) (toBase64 (sampleKeys 1).publicKey.1) =
      false := by
    unfold lessThan toBase64
    rw [String.toList_ofList, String.toList_ofList]
    decide +kernel
  have hstored : sampleClient.sessions.get? "peer.onion" = none := rfl
  unfold sessionWith
  rw [hstored]
  dsimp only
  rw [hcontact, Option.bind_some, Option.bind_some, hsecret, hkey]
  dsimp only
  rw [sample_fromBase64, except_ok_bind, sample_fromBase64, except_ok_bind, hrole]
  rfl

/-- No envelope looks like the text of the greeting: an object begins with a brace. -/
theorem envelopeB64_ne_hello (e : Envelope) :
    envelopeB64 e ≠ toBase64 [104, 101, 108, 108, 111] := by
  intro heq
  unfold envelopeB64 sampleBtoa at heq
  split_ifs at heq
  · have hbytes := a2bBase64_toBase64 ((envelopeJson e).toList.map fun c => UInt8.ofNat c.toNat)
    rw [Option.getD_some] at heq
    rw [heq, a2bBase64_toBase64] at hbytes
    have hhead := congrArg List.head? (Option.some.inj hbytes)
    unfold envelopeJson at hhead
    have hbrace : "\x7b".toList = ['\x7b'] := rfl
    simp only [String.toList_append, hbrace, List.cons_append, List.map_cons, List.head?_cons,
      Option.some.injEq] at hhead
    exact absurd hhead (by decide)
  · revert heq
    decide

section

variable {W : Platform} {B : Browser} {onion : String} {c : Client} {identity : KeyPair}
  {supply : Supply} {msg : UiMessage} {envelope : Envelope} {peerDhPub iv ciphertext : List UInt8}
  {session : DoubleRatchetSession}

/-- A message under the name of the peer, with what the session is given of it. -/
structure FromPeer (B : Browser) (onion : String) (msg : UiMessage) (envelope : Envelope)
    (peerDhPub iv ciphertext : List UInt8) : Prop where
  parse      : B.parseEnvelope msg.ciphertextB64 = some envelope
  unsealed   : msg.sealedSender = none
  sender     : msg.senderOnion = onion
  peerDhPub  : fromBase64 B envelope.dhPub = .ok peerDhPub
  iv         : fromBase64 B (some msg.ivB64) = .ok iv
  ciphertext : fromBase64 B envelope.ciphertext = .ok ciphertext

/-- A message under another name than the contact's is read as the copy. -/
theorem sourceOf_own (resolves : Bool) (hparse : B.parseEnvelope msg.ciphertextB64 = some envelope)
    (hidentity : c.identity = some identity) (hunsealed : msg.sealedSender = none)
    (hsender : msg.senderOnion ≠ onion) : sourceOf W B onion c resolves msg = .copy := by
  unfold sourceOf
  rw [hparse, hidentity]
  dsimp only
  rw [resolveSealed_unsealed _ _ hunsealed]
  exact if_pos hsender

/-- What a load makes of a message of the peer after the session has answered. -/
def afterSession (onion : String) (msg : UiMessage) (c : Client) :
    Result JsError DoubleRatchetSession String →
      Result JsError Client (UiMessage × Except JsError String)
  | .ok plaintext session' => .ok (msg, .ok plaintext) (saveSession onion session' c)
  | .error e _ => .ok (msg, .error e) c

theorem decryptMessage_fromPeer (hmsg : FromPeer B onion msg envelope peerDhPub iv ciphertext)
    (hidentity : c.identity = some identity)
    (hsession : sessionWith W B onion identity supply
      "Double Ratchet session not established with peer" c = .ok session) :
    decryptMessage W B onion true supply msg c = afterSession onion msg c
      (decrypt W peerDhPub iv ciphertext envelope.seq envelope.prevChainLen supply.ratchet session) := by
  unfold decryptMessage
  rw [apply_bind, apply_get]
  dsimp only
  rw [hidentity, hmsg.parse]
  dsimp only
  rw [resolveSealed_unsealed _ _ hmsg.unsealed]
  dsimp only
  rw [if_neg (not_not.mpr hmsg.sender)]
  unfold decryptPeer
  rw [apply_bind, apply_get]
  dsimp only
  rw [hsession, hmsg.peerDhPub, hmsg.iv, hmsg.ciphertext]
  simp only [apply_bind, apply_ofExcept]
  rcases decrypt W peerDhPub iv ciphertext envelope.seq envelope.prevChainLen supply.ratchet session
    with ⟨plaintext, session'⟩ | ⟨e, session'⟩
  · rfl
  · rfl

/-- A load of a page of one message. -/
theorem loads_single {resolves : Bool} {d : UiMessage × Except JsError String} {c' : Client}
    (hrun : decryptMessage W B onion resolves supply msg c = .ok d c') :
    (MessagesEvent.load onion (some [(msg, resolves, supply)])).loads W B c =
      [loaded W B onion c (msg, resolves, supply) d] ∧
    ((MessagesEvent.load onion (some [(msg, resolves, supply)])).run W B c).state =
      setMessages onion ([d].filterMap fun d => shownInHistory B d.1 d.2).reverse c' := by
  have hall : decryptAll W B onion [(msg, resolves, supply)] c = .ok [d] c' := by
    unfold decryptAll
    rw [apply_bind, hrun]
    rfl
  have hload := loadMessages_eq _ hall
  constructor
  · unfold MessagesEvent.loads
    dsimp only
    rw [hload]
    rfl
  · rw [MessagesEvent.run, state_discard, hload]
    rfl

end

theorem fromPeer_greeting : FromPeer sampleBrowser "peer.onion" greetingMsg greetingEnvelope
    (sampleKeys 3).publicKey.1 (Bytes.replicate 12 0).1 greetingCiphertext where
  parse      := sample_parseEnvelope
  unsealed   := rfl
  sender     := rfl
  peerDhPub  := sample_fromBase64 _
  iv         := sample_fromBase64 _
  ciphertext := sample_fromBase64 _

theorem shown_hello (msg : UiMessage) :
    (shownInHistory sampleBrowser msg (.ok "hello")).map (·.ciphertextB64) =
      some (toBase64 [104, 101, 108, 108, 111]) := by
  have hsignal : isCallSignal "hello" = false := by decide +kernel
  have hbtoa : sampleBrowser.btoa "hello" = some (toBase64 [104, 101, 108, 108, 111]) := by
    decide +kernel
  unfold shownInHistory
  dsimp only
  rw [hsignal, hbtoa]
  rfl

/-- The session opens the greeting once. -/
theorem decryptGreeting_once :
    decryptGreeting beforeGreeting = .ok "hello" afterGreeting ∧
    ∃ e s, decryptGreeting (deserialize (serialize afterGreeting)) = .error e s := by
  have hopen : (decryptGreeting beforeGreeting).value? = some "hello" := by decide +kernel
  have hfail : (decryptGreeting (deserialize (serialize afterGreeting))).value? = none := by
    decide +kernel
  constructor
  · unfold afterGreeting
    rcases hrun : decryptGreeting beforeGreeting with ⟨plaintext, s⟩ | ⟨e, s⟩
    · rw [hrun] at hopen
      rw [Option.some.inj hopen]
      rfl
    · rw [hrun] at hopen
      cases hopen
  · rcases hrun : decryptGreeting (deserialize (serialize afterGreeting)) with ⟨plaintext, s⟩ | ⟨e, s⟩
    · rw [hrun] at hfail
      cases hfail
    · exact ⟨e, s, rfl⟩

/-- A client loads a page with one message of its contact twice: the first load shows the text, and
the second the envelope. -/
theorem greeting_reread : ¬ Rereadable
    (loadedLog taggedPlatform sampleBrowser [loadGreeting, loadGreeting] sampleClient) := by
  obtain ⟨hopen, e, s, hfail⟩ := decryptGreeting_once
  have hfirst := decryptMessage_fromPeer (c := sampleClient) fromPeer_greeting rfl (sample_sessionWith _)
  have hfirst : decryptMessage taggedPlatform sampleBrowser "peer.onion" true sampleSupply greetingMsg
      sampleClient = .ok (greetingMsg, .ok "hello")
        (saveSession "peer.onion" afterGreeting sampleClient) := by
    rw [hfirst]
    exact congrArg (afterSession _ _ _) hopen
  obtain ⟨hlog₁, hstate⟩ := loads_single hfirst
  -- the second load starts from the session the first one saved
  have hsession : ∀ msgs missing, sessionWith taggedPlatform sampleBrowser "peer.onion" (sampleKeys 2)
      sampleSupply missing (setMessages "peer.onion" msgs
        (saveSession "peer.onion" afterGreeting sampleClient)) =
      .ok (deserialize (serialize afterGreeting)) := by
    intro msgs missing
    have hget : (setMessages "peer.onion" msgs (saveSession "peer.onion" afterGreeting
        sampleClient)).sessions.get? "peer.onion" = some (serialize afterGreeting) := by
      unfold setMessages saveSession
      dsimp only
      rw [Dict.get?_insert, if_pos rfl]
    unfold sessionWith
    rw [hget]
  have hsecond := fun msgs => decryptMessage_fromPeer
    (c := setMessages "peer.onion" msgs (saveSession "peer.onion" afterGreeting sampleClient))
    fromPeer_greeting rfl (hsession msgs _)
  have hsecond : ∀ msgs, decryptMessage taggedPlatform sampleBrowser "peer.onion" true sampleSupply
      greetingMsg (setMessages "peer.onion" msgs
        (saveSession "peer.onion" afterGreeting sampleClient)) =
      .ok (greetingMsg, .error e) (setMessages "peer.onion" msgs
        (saveSession "peer.onion" afterGreeting sampleClient)) := by
    intro msgs
    rw [hsecond]
    exact congrArg (afterSession _ _ _) hfail
  -- its key is used up there, so the same message no longer opens
  obtain ⟨hlog₂, -⟩ := loads_single (hsecond _)
  intro hreread
  unfold loadedLog loadedLog loadGreeting at hreread
  rw [hlog₁, hstate, hlog₂] at hreread
  have hsame := hreread _ List.mem_cons_self _ (List.mem_cons_of_mem _ List.mem_cons_self) rfl rfl
  have hshown := (shown_hello greetingMsg).symm.trans hsame
  exact envelopeB64_ne_hello greetingEnvelope (Option.some.inj hshown).symm

/-- A message that the user has sent in that conversation. -/
def ownMsg : UiMessage :=
  { greetingMsg with senderOnion := "me.onion", recipientOnion := "peer.onion" }

def loadOwn : MessagesEvent := .load "peer.onion" (some [(ownMsg, true, sampleSupply)])

/-- The message is read as its copy, before and after the page is loaded anew. -/
theorem rereadable_ownMsg : Rereadable
    (loadedLog taggedPlatform sampleBrowser [loadOwn, .reload, loadOwn] sampleClient) := by
  refine rereadable_of_settled taggedPlatform sampleBrowser [loadOwn, .reload, loadOwn] sampleClient ?_
  have hcopy : ∀ c : Client, c.identity = some (sampleKeys 2) →
      ∀ x ∈ loadOwn.loads taggedPlatform sampleBrowser c, x.source = .copy := by
    intro c hidentity x hx
    obtain ⟨item, hitem, hsource⟩ := source_of_mem_loads hx
    rw [List.mem_singleton] at hitem
    rw [hsource, hitem]
    exact sourceOf_own true sample_parseEnvelope hidentity rfl (by decide)
  have hall : ∀ x ∈ loadedLog taggedPlatform sampleBrowser [loadOwn, .reload, loadOwn] sampleClient,
      x.source = .copy := by
    intro x hx
    rcases List.mem_append.mp hx with hx | hx
    · exact hcopy _ rfl x hx
    · rcases List.mem_append.mp hx with hx | hx
      · cases hx
      · rcases List.mem_append.mp hx with hx | hx
        · refine hcopy _ ?_ x hx
          rw [identity_run, identity_run]
          rfl
        · cases hx
  refine List.Pairwise.imp_of_mem ?_ (List.pairwise_of_forall fun _ _ => trivial)
  intro x y hx hy _ _ _
  rw [hall x hx, hall y hy]
  exact ⟨rfl, nofun⟩

end AnonyMus.Web
