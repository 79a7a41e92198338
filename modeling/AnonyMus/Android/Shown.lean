import AnonyMus.Android.ChatFrame
import Mathlib.Data.List.Basic

/-!
# Android client — the messages it shows

What each handler adds to the conversations, up to the ids and the timestamps of
the messages.

* `messages`, `keys` — what is shown or posted, and its ids and timestamps;
* `Adds` — what a handler may add;
* `Mute`, `ShowsOne` — nothing, or one message with the current time;
* `showsIf_local`, `onMessage_opened`, `sendPrivateMessage_cases` — the inputs;
* `tidy_handle` — what they push.
-/

namespace AnonyMus.Android.Chat

open EStateM (Keeps Preserves)

variable {Text Base64 : Type}

/-! ## Keys -/

/-- What an append that has been posted will show to the partner. -/
def Task.shownTo (partner : String) : Task → Option ChatMessage
  | .append chatPartner message => if chatPartner = partner then some message else none
  | _ => none

theorem Task.shownTo_self (chatPartner : String) (message : ChatMessage) :
    (Task.append chatPartner message).shownTo chatPartner = some message := if_pos rfl

theorem Task.shownTo_of_ne {chatPartner partner : String} (h : chatPartner ≠ partner)
    (message : ChatMessage) : (Task.append chatPartner message).shownTo partner = none := if_neg h

/-- The id and the timestamp of a message. -/
def ChatMessage.key (msg : ChatMessage) : ℕ × ℤ := (msg.id, msg.timestamp)

namespace ChatManager

/-- What a client shows, or is about to show, in the conversation with a partner. -/
def messages (s : ChatManager Base64) (partner : String) : List ChatMessage :=
  s.conversations partner ++ s.posted.filterMap (Task.shownTo partner)

/-- Their ids and timestamps. -/
def keys (s : ChatManager Base64) (partner : String) : List (ℕ × ℤ) :=
  (s.messages partner).map ChatMessage.key

/-- What the messages are made from. -/
def shown (s : ChatManager Base64) :
    (String → List ChatMessage) × List Task × ℕ × (ℕ → ℤ) :=
  (s.conversations, s.posted, s.nextId, s.clock)

end ChatManager

open ChatManager (shown)

/-- The messages of `s'` are some of those of `s` and some of the `new` ones, whose ids are new. -/
structure Adds (new : List (ℕ × ℤ)) (s s' : ChatManager Base64) : Prop where
  keys   : ∀ partner, (s'.keys partner).Sublist (s.keys partner ++ new)
  nextId : s.nextId ≤ s'.nextId
  ids    : ∀ k ∈ new, s.nextId ≤ k.1 ∧ k.1 < s'.nextId

section

variable {new new' : List (ℕ × ℤ)} {s s' s'' : ChatManager Base64}

theorem keys_of_shown (h : s'.shown = s.shown) (partner : String) :
    s'.keys partner = s.keys partner := by
  obtain ⟨hconversations, hrest⟩ := Prod.mk.inj h
  obtain ⟨hposted, -⟩ := Prod.mk.inj hrest
  unfold ChatManager.keys ChatManager.messages
  rw [hconversations, hposted]

/-- What is shown as before adds nothing. -/
theorem Adds.of_shown (h : s'.shown = s.shown) : Adds [] s s' where
  keys partner := by
    rw [keys_of_shown h, List.append_nil]
  nextId := Nat.le_of_eq (congrArg (·.2.2.1) h).symm
  ids := nofun

/-- What is shown alike grows alike. -/
theorem Adds.congr (hs : s.shown = s'.shown) (h : Adds new s' s'') : Adds new s s'' := by
  have hid : s.nextId = s'.nextId := congrArg (·.2.2.1) hs
  refine ⟨fun partner => ?_, hid ▸ h.nextId, hid ▸ h.ids⟩
  rw [keys_of_shown hs]
  exact h.keys partner

/-- One after the other. -/
theorem Adds.trans (h : Adds new s s') (h' : Adds new' s' s'') : Adds (new ++ new') s s'' where
  keys partner := by
    rw [← List.append_assoc]
    exact (h'.keys partner).trans ((h.keys partner).append_right new')
  nextId := Nat.le_trans h.nextId h'.nextId
  ids k hk := by
    rcases List.mem_append.mp hk with hk | hk
    · exact ⟨(h.ids k hk).1, Nat.lt_of_lt_of_le (h.ids k hk).2 h'.nextId⟩
    · exact ⟨Nat.le_trans h.nextId (h'.ids k hk).1, (h'.ids k hk).2⟩

end

/-! ## What handlers add -/

/-- Nothing is added. -/
def Mute {α : Type} (x : Handler Base64 α) : Prop := ∀ s, Adds [] s (x s).state

/-- At most one message is added, with the time that the clock shows first. -/
def ShowsOne {α : Type} (x : Handler Base64 α) : Prop :=
  ∀ s, Adds [] s (x s).state ∨ Adds [(s.nextId, s.clock 0)] s (x s).state

section

variable {α β : Type} {x : Handler Base64 α} {f : α → Handler Base64 β}

theorem Mute.of_keeps (hx : Keeps shown x) : Mute x := fun s => .of_shown (hx s)

theorem Mute.bind (hx : Mute x) (hf : ∀ a, Mute (f a)) : Mute (x >>= f) := by
  intro s
  rcases EStateM.state_bind x f s with h | ⟨a, h⟩
  · rw [h]
    exact hx s
  · rw [h]
    exact (hx s).trans (hf a _)

theorem Mute.showsOne (hx : Mute x) : ShowsOne x := fun s => .inl (hx s)

/-- A message after what leaves the messages and the clock alone. -/
theorem ShowsOne.after (hx : Keeps shown x) (hf : ∀ a, ShowsOne (f a)) : ShowsOne (x >>= f) := by
  intro s
  have hid : (x s).state.nextId = s.nextId := congrArg (·.2.2.1) (hx s)
  have hclock : (x s).state.clock = s.clock := congrArg (·.2.2.2) (hx s)
  rcases EStateM.state_bind x f s with h | ⟨a, h⟩
  · rw [h]
    exact .inl (.of_shown (hx s))
  · rw [h, ← hid, ← hclock]
    exact (hf a _).imp (.congr (hx s).symm) (.congr (hx s).symm)

/-- A message, and nothing after it. -/
theorem ShowsOne.before (hx : ShowsOne x) (hf : ∀ a, Mute (f a)) : ShowsOne (x >>= f) := by
  intro s
  rcases EStateM.state_bind x f s with h | ⟨a, h⟩
  · rw [h]
    exact hx s
  · rw [h]
    refine (hx s).imp (fun hnone => hnone.trans (hf a _)) fun hone => ?_
    exact hone.trans (hf a _)

end

/-! ## Appending -/

/-- One more message is posted, with the next id. -/
theorem adds_append {s s' : ChatManager Base64} {chatPartner : String} {message : ChatMessage}
    {timestamp : ℤ} (hkey : message.key = (s.nextId, timestamp))
    (hconversations : s'.conversations = s.conversations)
    (hposted : s'.posted = s.posted ++ [.append chatPartner message])
    (hid : s'.nextId = s.nextId + 1) : Adds [(s.nextId, timestamp)] s s' := by
  refine ⟨fun partner => ?_, by omega, fun k hk => ?_⟩
  · unfold ChatManager.keys ChatManager.messages
    rw [hconversations, hposted, List.filterMap_append, ← List.append_assoc, List.map_append,
      ← hkey]
    refine (List.Sublist.refl _).append ?_
    rw [List.filterMap_cons]
    split
    · exact List.nil_sublist _
    · rename_i message' heq
      -- the message is shown to its own partner
      obtain rfl : message = message' := (Option.ite_none_right_eq_some.mp heq).2 |> Option.some.inj
      exact List.Sublist.refl _
  · rw [List.mem_singleton.mp hk, hid]
    exact ⟨Nat.le_refl _, Nat.lt_succ_self _⟩

theorem appendMessage_ok (chatPartner : String) (message : ChatMessage) (s : ChatManager Base64) :
    ∃ message', message'.key = message.key ∧ appendMessage chatPartner message s =
      .ok () { s with posted := s.posted ++ [.append chatPartner message'] } := by
  unfold appendMessage
  rw [EStateM.apply_bind, EStateM.apply_get]
  dsimp only
  split
  · exact ⟨{ message with remainingSeconds := s.disappearTimerSeconds }, rfl, rfl⟩
  · exact ⟨message, rfl, rfl⟩

/-- The new message has the next id, and the time of the call. -/
theorem adds_appendNow (sender : Sender) (text : String) (decrypted : Bool)
    (s : ChatManager Base64) :
    Adds [(s.nextId, s.clock 0)] s (appendNow sender text decrypted s).state := by
  obtain ⟨message, hkey, h⟩ := appendMessage_ok s.partner
    { sender := sender, text := text, timestamp := s.clock 0, isDecryptedSuccessfully := decrypted,
      id := s.nextId, remainingSeconds := -1, reactions := [], file := none,
      deliveryState := "sent", isEdited := false, editHistory := [] }
    { s with clock := fun n => s.clock (n + 1), nextId := s.nextId + 1 }
  have hstate : (appendNow sender text decrypted s).state = _ := congrArg EStateM.Result.state h
  rw [hstate]
  exact adds_append hkey rfl rfl rfl

theorem showsOne_appendNow (sender : Sender) (text : String) (decrypted : Bool) :
    ShowsOne (@appendNow Base64 sender text decrypted) :=
  fun s => .inr (adds_appendNow sender text decrypted s)

/-! ## Marking -/

/-- A change of a conversation that makes no message. -/
theorem mute_updateConversation (partner : String) {f : List ChatMessage → List ChatMessage}
    (hf : ∀ msgs, ((f msgs).map ChatMessage.key).Sublist (msgs.map ChatMessage.key)) :
    Mute (@updateConversation Base64 partner f) := by
  intro s
  refine ⟨fun partner' => ?_, Nat.le_refl _, nofun⟩
  rw [List.append_nil]
  show (List.map _ (Function.update s.conversations partner _ partner' ++ _)).Sublist
    (List.map _ (s.conversations partner' ++ _))
  rw [List.map_append, List.map_append]
  refine List.Sublist.append ?_ (List.Sublist.refl _)
  by_cases hpartner : partner' = partner
  · rw [hpartner, Function.update_self]
    exact hf _
  · rw [Function.update_of_ne hpartner]

/-- Marking what is there is no new message. -/
theorem mute_updateCurrent {f : List ChatMessage → List ChatMessage}
    (hf : ∀ msgs, ((f msgs).map ChatMessage.key).Sublist (msgs.map ChatMessage.key)) :
    Mute (@updateCurrent Base64 f) :=
  .bind (.of_keeps fun _ => rfl) fun s => mute_updateConversation s.partner hf

/-- A mark on some messages. -/
theorem keys_map {f : ChatMessage → ChatMessage} (hf : ∀ msg, (f msg).key = msg.key)
    (msgs : List ChatMessage) :
    ((msgs.map f).map ChatMessage.key).Sublist (msgs.map ChatMessage.key) := by
  rw [List.map_map, List.map_congr_left fun msg _ => show (ChatMessage.key ∘ f) msg = msg.key from hf msg]

theorem keys_editIn (own : Bool) (targetTimestamp : ℤ) (content : String)
    (msgs : List ChatMessage) :
    ((editIn own targetTimestamp content msgs).map ChatMessage.key).Sublist
      (msgs.map ChatMessage.key) := by
  refine keys_map (fun msg => ?_) msgs
  split
  · rfl
  · rfl

theorem keys_deleteIn (targetTimestamp : ℤ) (msgs : List ChatMessage) :
    ((deleteIn targetTimestamp msgs).map ChatMessage.key).Sublist (msgs.map ChatMessage.key) :=
  List.filter_sublist.map _

theorem keys_receiptIn (targetTimestamp : ℤ) (state : String) (msgs : List ChatMessage) :
    ((receiptIn targetTimestamp state msgs).map ChatMessage.key).Sublist
      (msgs.map ChatMessage.key) := by
  refine keys_map (fun msg => ?_) msgs
  split
  · rfl
  · rfl

theorem keys_reactIn (targetTimestamp : ℤ) (key : String) (msgs : List ChatMessage) :
    ((reactIn targetTimestamp key msgs).map ChatMessage.key).Sublist
      (msgs.map ChatMessage.key) := by
  induction msgs with
  | nil => exact List.Sublist.refl _
  | cons msg msgs ih =>
    rw [reactIn]
    split
    · have hkey : (if key ∈ msg.reactions then msg
          else { msg with reactions := msg.reactions ++ [key] }).key = msg.key := by
        split
        · rfl
        · rfl
      rw [List.map_cons, List.map_cons, hkey]
    · exact ih.cons_cons _

theorem mute_countdown (chatPartner : String) (messageId : ℕ) :
    Mute (@countdown Base64 chatPartner messageId) := by
  refine mute_updateConversation chatPartner fun msgs => ?_
  refine (List.filter_sublist.map _).trans (keys_map (fun msg => ?_) msgs)
  split
  · rfl
  · rfl

/-! ## Sending -/

section

variable (P : CryptoProvider Text Base64)

theorem randomNonce_ok (s : ChatManager Base64) :
    randomNonce s = .ok (s.nonces 0) { s with nonces := fun n => s.nonces (n + 1) } := rfl

theorem keeps_shown_emit (e : Emit Base64) : Keeps shown (emit e) := by
  intro s
  rw [emit_eq]
  split
  · rfl
  · rfl

/-- Encrypting and pushing shows nothing. -/
theorem keeps_shown_pushEncrypted (payload : Content) (ephemeral : Bool) :
    Keeps shown (pushEncrypted P payload ephemeral) := by
  refine .bind (fun _ => rfl) fun s => ?_
  split
  · refine .bind (fun _ => rfl) fun _ => ?_
    split
    · exact .pure _
    · refine .bind (fun _ => rfl) fun nonce => ?_
      split
      · exact .pure _
      · exact .bind (fun _ => rfl) fun _ => .bind (keeps_shown_emit _) fun _ => .pure _
  · exact .pure _

theorem mute_push (payload : Content) (ephemeral : Bool) :
    Mute (discard (pushEncrypted P payload ephemeral)) :=
  .of_keeps (.discard (keeps_shown_pushEncrypted P payload ephemeral))

theorem mute_sendAndMark (payload : Content) {f : List ChatMessage → List ChatMessage}
    (hf : ∀ msgs, ((f msgs).map ChatMessage.key).Sublist (msgs.map ChatMessage.key)) :
    Mute (do if ← pushEncrypted P payload then updateCurrent f) := by
  refine .bind (.of_keeps (keeps_shown_pushEncrypted P payload false)) fun sent => ?_
  split
  · exact mute_updateCurrent hf
  · exact .of_keeps (.pure _)

theorem mute_resetClient : Mute (@resetClient Base64) := by
  intro s
  refine ⟨fun partner => ?_, Nat.le_refl _, nofun⟩
  rw [List.append_nil]
  refine List.Sublist.map _ (List.sublist_append_right _ _)

theorem keeps_shown_deriveSession (theirPublicKey : String) :
    Keeps shown (deriveSession P theirPublicKey) := by
  intro s
  rcases deriveSession_cases P theirPublicKey s with h | ⟨_, _, _, _, -, -, -, -, h⟩
  · rw [h]
    rfl
  · rw [h]
    rfl

end

/-! ## Receiving -/

/-- What a client sends besides texts. -/
def Content.IsNote : Content → Prop
  | .control _ | .edit _ _ | .delete _ | .receipt _ _ | .live _ | .reaction _ _ => True
  | .text _ _ | .groupInvite _ | .groupMessage _ _ | .fileDescr _ _ | .other => False

/-- A message with the current time is shown when this is received. -/
def Content.shows : Content → Bool
  | .control (.timerSet _) | .control (.timerAck _) | .text _ none | .groupInvite _
  | .groupMessage _ _ | .fileDescr _ none => true
  | .control _ | .text _ (some _) | .edit _ _ | .delete _ | .receipt _ _ | .live _
  | .reaction _ _ | .fileDescr _ (some _) | .other => false

section

variable (P : CryptoProvider Text Base64)

/-- What a client reads in a message, if it can. -/
def ChatManager.opened (s : ChatManager Base64) (iv ciphertext : Base64) : Option Content := do
  let recvChainKey ← s.recvChainKey
  let theirRole ← s.theirRole
  let decrypted ← P.decryptMessage (P.deriveChainKeys recvChainKey).1 iv ciphertext theirRole
    s.recvSeq s.sessionId
  P.read decrypted

/-- A handshake is announced. -/
theorem showsOne_onHandshake (queueId : String) (replyQueue : Option String) (publicKey : String) :
    ShowsOne (onHandshake P queueId replyQueue publicKey) := by
  refine .after (fun _ => rfl) fun _ => .after (keeps_shown_deriveSession P _) fun _ => ?_
  refine .after (fun _ => rfl) fun _ => .after (keeps_shown_emit _) fun _ => ?_
  refine .after (keeps_shown_emit _) fun _ => .after (fun _ => rfl) fun _ => ?_
  exact showsOne_appendNow _ _ _

theorem showsOne_onQueueUpdate (newQueue : String) : ShowsOne (@onQueueUpdate Base64 newQueue) :=
  .after (fun _ => rfl) fun _ => showsOne_appendNow _ _ _

/-- A task that appends nothing. -/
theorem mute_post {task : Task} (htask : ∀ partner, task.shownTo partner = none) :
    Mute (@post Base64 task) := by
  intro s
  refine ⟨fun partner => ?_, Nat.le_refl _, nofun⟩
  show (List.map _ (_ ++ List.filterMap _ (s.posted ++ [task]))).Sublist _
  rw [List.filterMap_append, List.filterMap_cons_none (htask partner), List.filterMap_nil,
    List.append_nil, List.append_nil]
  exact List.Sublist.refl _

/-- A note shows at most one message, and none if it does not say so. -/
theorem onContent_note {content : Content} (hnote : content.IsNote) :
    ShowsOne (onContent P content) ∧ (content.shows = false → Mute (onContent P content)) := by
  have hmute {x : Handler Base64 Unit} (hx : Mute x) :
      ShowsOne x ∧ (content.shows = false → Mute x) := ⟨hx.showsOne, fun _ => hx⟩
  cases content with
  | control action =>
    cases action with
    | static => exact hmute (.of_keeps (.pure _))
    | heartbeat => exact hmute (.of_keeps (.pure _))
    | other => exact hmute (.of_keeps (.pure _))
    | obliviate => exact hmute (mute_post fun _ => rfl)
    | timerSet duration =>
      refine ⟨.after (fun _ => rfl) fun _ => ?_, nofun⟩
      exact .before (showsOne_appendNow _ _ _) fun _ => mute_push P _ _
    | timerAck duration => exact ⟨.after (fun _ => rfl) fun _ => showsOne_appendNow _ _ _, nofun⟩
  | edit target content => exact hmute (mute_updateCurrent (keys_editIn false target content))
  | delete target => exact hmute (mute_updateCurrent (keys_deleteIn target))
  | receipt target state => exact hmute (mute_updateCurrent (keys_receiptIn target state))
  | live content => exact hmute (.of_keeps fun _ => rfl)
  | reaction target emoji => exact hmute (mute_updateCurrent (keys_reactIn target _))
  | text content timestamp => exact hnote.elim
  | groupInvite name => exact hnote.elim
  | groupMessage nickname content => exact hnote.elim
  | fileDescr descr timestamp => exact hnote.elim
  | other => exact hnote.elim

/-- A text is shown with the timestamp that it carries. -/
theorem adds_text (content : String) (timestamp : ℤ) (s : ChatManager Base64) :
    Adds [(s.nextId, timestamp)] s (onContent P (.text content (some timestamp)) s).state := by
  let received : ChatMessage :=
    { sender := .peer, text := content, timestamp := timestamp, isDecryptedSuccessfully := true,
      id := s.nextId, remainingSeconds := -1, reactions := [], file := none,
      deliveryState := "sent", isEdited := false, editHistory := [] }
  let read := { s with clock := fun n => s.clock (n + 1), nextId := s.nextId + 1 }
  have hsteps : onContent P (.text content (some timestamp)) s =
      (appendMessage s.partner received >>= fun _ => sendReceipt P timestamp "read") read := rfl
  obtain ⟨message, hkey, h⟩ := appendMessage_ok s.partner received read
  rw [hsteps, EStateM.apply_bind, h]
  have hshown : Adds [(s.nextId, timestamp)] s
      { read with posted := s.posted ++ [.append s.partner message] } :=
    adds_append hkey rfl rfl rfl
  exact hshown.trans (mute_push P _ _ _)

/-- What a message does is what is in it does, or nothing but to say that it cannot be read. -/
theorem onMessage_opened (iv ciphertext : Base64) (s : ChatManager Base64) :
    match s.opened P iv ciphertext with
    | none => Adds [] s (onMessage P iv ciphertext s).state ∨
        Adds [(s.nextId, s.clock 0)] s (onMessage P iv ciphertext s).state
    | some content => ∃ s', s'.shown = s.shown ∧
        (onMessage P iv ciphertext s).state = (onContent P content s').state := by
  unfold ChatManager.opened onMessage
  rw [EStateM.apply_bind, EStateM.apply_get]
  dsimp only
  rcases s.recvChainKey with _ | recvChainKey
  · exact .inl (.of_shown rfl)
  rcases s.theirRole with _ | theirRole
  · exact .inl (.of_shown rfl)
  dsimp only [Option.bind_eq_bind, Option.bind_some]
  rcases P.decryptMessage (P.deriveChainKeys recvChainKey).1 iv ciphertext theirRole s.recvSeq
    s.sessionId with _ | decrypted
  · exact showsOne_appendNow _ _ _ s
  dsimp only [Option.bind_some]
  rcases P.read decrypted with _ | content
  · exact .inl (.of_shown rfl)
  · exact ⟨{ s with
      recvChainKey := some (P.deriveChainKeys recvChainKey).2, recvSeq := s.recvSeq + 1 }, rfl, rfl⟩

end

/-! ## Every input -/

/-- The input shows a message with the current time, if everything goes well. -/
def ChatManager.shows (P : CryptoProvider Text Base64) (s : ChatManager Base64) :
    Input Base64 → Bool
  | .queuePayload _ (.message iv ciphertext _) =>
    match s.opened P iv ciphertext with
    | none => true
    | some content => content.shows
  | .queuePayload _ .other | .queuePayload _ .broken => false
  | .queuePayload _ (.handshake _ _) | .queuePayload _ (.queueUpdate _)
  | .queuePayload _ (.batch _) => true
  | .pushQueueError error => error = "recipient_offline"
  | .sendPrivateMessage _ => s.sendChainKey ≠ none ∧ s.theirQueueId ≠ none
  | .acceptInvite _ _ => s.Ready
  | .runPosted =>
    match s.posted with
    | .acceptInvite _ _ :: _ => s.Ready
    | _ => false
  | .connected _ | .disconnected | .connectError _ | .queueCreated _ | .connect
  | .setDisappearingTimer _ | .sendTypingDraft _ | .sendReaction _ _ | .sendEditMessage _ _
  | .sendDeleteMessage _ | .obliviate | .resetClient | .keepAlive | .countdown _ _ => false

/-- What follows says what `x` shows, if `shows` is right about it. -/
def ShowsIf {α : Type} (shows : Bool) (x : Handler Base64 α) (s : ChatManager Base64) : Prop :=
  Adds [] s (x s).state ∨ shows = true ∧ Adds [(s.nextId, s.clock 0)] s (x s).state

section

variable (P : CryptoProvider Text Base64)

theorem mute_onQueueCreated (queueId : String) : Mute (@onQueueCreated Base64 queueId) := by
  have hkeeps {α : Type} {x : Handler Base64 α} (hx : Keeps shown x) : Mute x := .of_keeps hx
  refine .bind (hkeeps fun _ => rfl) fun s => .bind (hkeeps fun _ => rfl) fun _ => ?_
  split
  · exact .bind (hkeeps (keeps_shown_emit _)) fun _ => hkeeps (keeps_shown_emit _)
  · split
    · exact hkeeps (.pure _)
    · exact .bind (hkeeps fun _ => rfl) fun _ => mute_post fun _ => rfl

theorem showsIf_acceptInvite (queueId pubKeyBase64 : String) (s : ChatManager Base64) :
    ShowsIf s.Ready (acceptInvite P queueId pubKeyBase64) s := by
  unfold ShowsIf acceptInvite
  rw [EStateM.apply_bind, EStateM.apply_get]
  dsimp only
  by_cases hready : s.Ready
  · rw [if_neg (not_not_intro hready)]
    let note : Handler Base64 Unit := modify fun s => { s with
      theirQueueId := some queueId, theirPublicKeyExported := some pubKeyBase64 }
    have hshows := ShowsOne.after (x := note) (fun _ => rfl) (f := fun _ => do
        deriveSession P pubKeyBase64
        let s ← get
        modify fun s => { s with accepted := s.accepted + 1 }
        emit (.pushQueue queueId (.handshake s.myQueueId (s.myPublicKeyExported.getD "")))
        emit (.registerPeer s.myQueueId (some queueId))
        appendNow .peer "[Sent handshake to Peer]"
        modify fun s => { s with isSessionActive := true }) ?_ s
    · exact hshows.imp_right fun hone => ⟨decide_eq_true hready, hone⟩
    · intro _
      refine .after (keeps_shown_deriveSession P _) fun _ => .after (fun _ => rfl) fun _ => ?_
      refine .after (fun _ => rfl) fun _ => .after (keeps_shown_emit _) fun _ => ?_
      refine .after (keeps_shown_emit _) fun _ => .before (showsOne_appendNow _ _ _) fun _ => ?_
      exact .of_keeps fun _ => rfl
  · rw [if_pos hready]
    exact .inl (.of_shown rfl)

theorem showsIf_of_mute {α : Type} {shows : Bool} {x : Handler Base64 α} (hx : Mute x)
    (s : ChatManager Base64) : ShowsIf shows x s :=
  .inl (hx s)

/-- What was posted has been counted since then. -/
theorem adds_runAppend {s : ChatManager Base64} {chatPartner : String} {message : ChatMessage}
    {tasks : List Task} (hposted : s.posted = .append chatPartner message :: tasks) :
    Adds [] s (runTask P (.append chatPartner message) { s with posted := tasks }).state := by
  refine ⟨fun partner => ?_, Nat.le_refl _, nofun⟩
  rw [List.append_nil]
  refine List.Sublist.map _ ?_
  show (Function.update s.conversations chatPartner _ partner ++ tasks.filterMap _).Sublist
    (s.conversations partner ++ s.posted.filterMap _)
  rw [hposted]
  by_cases hpartner : chatPartner = partner
  · rw [← hpartner, Function.update_self, List.append_assoc,
      List.filterMap_cons_some (Task.shownTo_self chatPartner message)]
    exact List.Sublist.refl _
  · rw [Function.update_of_ne (Ne.symm hpartner),
      List.filterMap_cons_none (Task.shownTo_of_ne hpartner message)]

theorem showsIf_runPosted (s : ChatManager Base64) :
    ShowsIf (s.shows P .runPosted) (runPosted P) s := by
  unfold ShowsIf ChatManager.shows
  rw [state_runPosted]
  rcases hposted : s.posted with _ | ⟨task, tasks⟩
  · exact .inl (.of_shown rfl)
  have hpop (htask : ∀ partner, task.shownTo partner = none) :
      Adds [] s { s with posted := tasks } := by
    refine ⟨fun partner => ?_, Nat.le_refl _, nofun⟩
    rw [List.append_nil]
    refine List.Sublist.map _ ?_
    show (_ ++ tasks.filterMap _).Sublist (_ ++ s.posted.filterMap _)
    rw [hposted, List.filterMap_cons_none (htask partner)]
  cases task with
  | append chatPartner message => exact .inl (adds_runAppend P hposted)
  | acceptInvite queueId pubKeyBase64 =>
    rcases showsIf_acceptInvite P queueId pubKeyBase64 { s with posted := tasks } with
      hnone | ⟨hready, hone⟩
    · exact .inl ((hpop fun _ => rfl).trans hnone)
    · exact .inr ⟨hready, (hpop fun _ => rfl).trans hone⟩
  | infinitySnap => exact .inl ((hpop fun _ => rfl).trans (mute_resetClient _))

/-- What is not a text, and does not come from the peer. -/
theorem showsIf_local {input : Input Base64} (hsend : ∀ text, input ≠ .sendPrivateMessage text)
    (hpayload : ∀ queueId payload, input ≠ .queuePayload queueId payload)
    (s : ChatManager Base64) : ShowsIf (s.shows P input) (handle P input) s := by
  cases input with
  | sendPrivateMessage text => exact absurd rfl (hsend text)
  | queuePayload queueId payload => exact absurd rfl (hpayload queueId payload)
  | connected generated =>
    refine showsIf_of_mute (.of_keeps ?_) s
    cases generated with
    | none => exact fun _ => rfl
    | some keyPair => exact .bind (fun _ => rfl) fun _ => keeps_shown_emit _
  | disconnected => exact .inl (.of_shown rfl)
  | connectError rejected =>
    cases rejected with
    | true => exact showsIf_of_mute (mute_post fun _ => rfl) s
    | false => exact .inl (.of_shown rfl)
  | queueCreated queueId => exact showsIf_of_mute (mute_onQueueCreated queueId) s
  | pushQueueError error =>
    unfold ShowsIf handle onPushQueueError ChatManager.shows
    dsimp only
    -- only this error is told to the user
    by_cases herror : error = "recipient_offline"
    · rw [if_pos herror]
      exact .inr ⟨decide_eq_true herror, adds_appendNow _ _ _ s⟩
    · rw [if_neg herror]
      exact .inl (.of_shown rfl)
  | connect => exact showsIf_of_mute (.of_keeps (.bind (fun _ => rfl) fun _ =>
      .ite (fun _ => rfl) (.pure _))) s
  | acceptInvite queueId pubKeyBase64 => exact showsIf_acceptInvite P queueId pubKeyBase64 s
  | setDisappearingTimer seconds =>
    exact showsIf_of_mute (.bind (.of_keeps fun _ => rfl) fun _ => mute_push P _ _) s
  | sendTypingDraft text => exact showsIf_of_mute (mute_push P _ _) s
  | sendReaction target emoji => exact showsIf_of_mute (mute_sendAndMark P _ (keys_reactIn _ _)) s
  | sendEditMessage target newText =>
    exact showsIf_of_mute (mute_sendAndMark P _ (keys_editIn true _ _)) s
  | sendDeleteMessage target => exact showsIf_of_mute (mute_sendAndMark P _ (keys_deleteIn _)) s
  | obliviate => exact showsIf_of_mute (.bind (mute_push P _ _) fun _ => mute_resetClient) s
  | resetClient => exact showsIf_of_mute mute_resetClient s
  | keepAlive => exact showsIf_of_mute (mute_push P _ _) s
  | countdown chatPartner messageId => exact showsIf_of_mute (mute_countdown _ _) s
  | runPosted => exact showsIf_runPosted P s

end

/-! ## What is sent -/

/-- Decryption returns the text that was encrypted, if any. -/
def CryptoProvider.Genuine (P : CryptoProvider Text Base64) : Prop :=
  ∀ key text role seqNum sessionId nonce encrypted,
    P.encryptMessage key text role seqNum sessionId nonce = some encrypted →
      ∀ key' role' seqNum' sessionId' text',
        P.decryptMessage key' encrypted.iv encrypted.ciphertext role' seqNum' sessionId' =
          some text' → text' = text

/-- The texts on the wire are those of a message with this content. -/
def Made (P : CryptoProvider Text Base64) (content : Content) (iv ciphertext : Base64) : Prop :=
  ∃ key role seqNum sessionId nonce,
    P.encryptMessage key (P.write content) role seqNum sessionId nonce = some ⟨iv, ciphertext⟩

/-- A payload that brings no text. -/
def Note (P : CryptoProvider Text Base64) : Payload Base64 → Prop
  | .handshake _ _ | .queueUpdate _ => True
  | .message iv ciphertext _ => ∃ content, content.IsNote ∧ Made P content iv ciphertext
  | .batch _ | .other | .broken => False

/-- Every payload that a client has pushed is a note. -/
def Tidy (P : CryptoProvider Text Base64) (s : ChatManager Base64) : Prop :=
  ∀ queueId payload, Emit.pushQueue queueId payload ∈ s.emitted → Note P payload

section

variable (P : CryptoProvider Text Base64)

theorem tidy_of_emitted {s s' : ChatManager Base64} (h : s'.emitted = s.emitted) (hs : Tidy P s) :
    Tidy P s' := by
  unfold Tidy
  rw [h]
  exact hs

/-- What emits nothing keeps it tidy. -/
theorem tidy_of_silent {α : Type} {x : Handler Base64 α} (hx : Keeps ChatManager.silent x) :
    Preserves (Tidy P) x :=
  fun s hs => tidy_of_emitted P (congrArg Prod.snd (hx s)) hs

/-- What is emitted may be a note. -/
theorem tidy_emit {e : Emit Base64} (he : ∀ queueId payload, e = .pushQueue queueId payload →
    Note P payload) : Preserves (Tidy P) (emit e) := by
  intro s hs
  show Tidy P (if s.hasSocket then _ else s)
  split
  · intro queueId payload hmem
    rcases List.mem_append.mp hmem with hold | hnew
    · exact hs queueId payload hold
    · exact he queueId payload (List.mem_singleton.mp hnew).symm
  · exact hs

/-- What one call pushes: nothing, or one message with the content. -/
theorem emitted_pushEncrypted (payload : Content) (ephemeral : Bool) (s : ChatManager Base64) :
    (pushEncrypted P payload ephemeral s).state.emitted = s.emitted ∨
      ∃ queueId iv ciphertext s', Made P payload iv ciphertext ∧
        pushEncrypted P payload ephemeral s = .ok true s' ∧
          s'.emitted = s.emitted ++ [.pushQueue queueId (.message iv ciphertext ephemeral)] := by
  unfold pushEncrypted
  rw [EStateM.apply_bind, EStateM.apply_get]
  dsimp only
  rcases s.sendChainKey with _ | sendChainKey
  · exact .inl rfl
  rcases s.theirQueueId with _ | theirQueueId
  · exact .inl rfl
  dsimp only
  rw [EStateM.apply_bind, EStateM.apply_modify]
  dsimp only
  rcases s.myRole with _ | myRole
  · exact .inl rfl
  dsimp only
  rw [EStateM.apply_bind, randomNonce_ok]
  dsimp only
  rcases hmade : P.encryptMessage (P.deriveChainKeys sendChainKey).1 (P.write payload) myRole
    s.sendSeq s.sessionId (s.nonces 0) with _ | encrypted
  · exact .inl rfl
  dsimp only
  rw [EStateM.apply_bind, EStateM.apply_modify]
  dsimp only
  rw [EStateM.apply_bind, emit_eq]
  dsimp only
  by_cases hsocket : s.hasSocket = true
  · rw [if_pos hsocket]
    exact .inr ⟨theirQueueId, encrypted.iv, encrypted.ciphertext, _, ⟨_, _, _, _, _, hmade⟩, rfl, rfl⟩
  · rw [if_neg hsocket]
    exact .inl rfl

/-- A note stays one when it is encrypted. -/
theorem tidy_pushEncrypted {payload : Content} (hnote : payload.IsNote) (ephemeral : Bool) :
    Preserves (Tidy P) (pushEncrypted P payload ephemeral) := by
  intro s hs
  rcases emitted_pushEncrypted P payload ephemeral s with
    h | ⟨queueId, iv, ciphertext, s', hmade, hresult, h⟩
  · exact tidy_of_emitted P h hs
  · intro queueId' payload' hmem
    rw [hresult, EStateM.Result.state_ok, h] at hmem
    rcases List.mem_append.mp hmem with hold | hnew
    · exact hs queueId' payload' hold
    · obtain ⟨rfl, rfl⟩ := Emit.pushQueue.inj (List.mem_singleton.mp hnew)
      exact ⟨payload, hnote, hmade⟩

theorem tidy_push {payload : Content} (hnote : payload.IsNote) (ephemeral : Bool) :
    Preserves (Tidy P) (discard (pushEncrypted P payload ephemeral)) :=
  .discard (tidy_pushEncrypted P hnote ephemeral)

theorem tidy_sendAndMark {payload : Content} (hnote : payload.IsNote)
    (f : List ChatMessage → List ChatMessage) :
    Preserves (Tidy P) (do if ← pushEncrypted P payload then updateCurrent f) := by
  refine .bind (tidy_pushEncrypted P hnote false) fun sent => ?_
  split
  · exact tidy_of_silent P (keeps_silent_updateCurrent f)
  · exact .pure _

theorem tidy_appendNow (sender : Sender) (text : String) (decrypted : Bool) :
    Preserves (Tidy P) (@appendNow Base64 sender text decrypted) :=
  tidy_of_silent P (keeps_silent_appendNow sender text decrypted)

theorem tidy_deriveSession (theirPublicKey : String) :
    Preserves (Tidy P) (deriveSession P theirPublicKey) := by
  intro s hs
  rcases deriveSession_cases P theirPublicKey s with h | ⟨_, _, _, _, -, -, -, -, h⟩
  · rw [h]
    exact hs
  · rw [h]
    exact hs

theorem tidy_onHandshake (queueId : String) (replyQueue : Option String) (publicKey : String) :
    Preserves (Tidy P) (onHandshake P queueId replyQueue publicKey) := by
  refine .bind (fun _ hs => hs) fun _ => .bind (tidy_deriveSession P _) fun _ => ?_
  refine .bind (fun _ hs => hs) fun s => .bind (tidy_emit P nofun) fun _ => ?_
  refine .bind (tidy_emit P nofun) fun _ => .bind (fun _ hs => hs) fun _ => ?_
  exact tidy_appendNow P _ _ _

theorem tidy_onControl (action : Control) : Preserves (Tidy P) (onControl P action) := by
  cases action with
  | static => exact .pure _
  | heartbeat => exact .pure _
  | other => exact .pure _
  | obliviate => exact fun _ hs => hs
  | timerSet duration =>
    exact .bind (fun _ hs => hs) fun _ => .bind (tidy_appendNow P _ _ _) fun _ =>
      tidy_push P (by trivial) _
  | timerAck duration => exact .bind (fun _ hs => hs) fun _ => tidy_appendNow P _ _ _

/-- No message is answered with a text. -/
theorem tidy_onContent (content : Content) : Preserves (Tidy P) (onContent P content) := by
  cases content with
  | control action => exact tidy_onControl P action
  | text content timestamp =>
    refine .bind (fun _ hs => hs) fun _ => .bind (fun _ hs => hs) fun _ => ?_
    refine .bind (fun _ hs => hs) fun _ => ?_
    -- the receipt is all that goes back
    exact .bind (tidy_of_silent P (keeps_silent_appendMessage _ _)) fun _ => tidy_push P (by trivial) _
  | fileDescr descr timestamp =>
    refine .bind (fun _ hs => hs) fun _ => .bind (fun _ hs => hs) fun _ => ?_
    exact .bind (fun _ hs => hs) fun _ => tidy_of_silent P (keeps_silent_appendMessage _ _)
  | groupInvite name => exact tidy_appendNow P _ _ _
  | groupMessage nickname content => exact tidy_appendNow P _ _ _
  | edit target content => exact tidy_of_silent P (keeps_silent_updateCurrent _)
  | delete target => exact tidy_of_silent P (keeps_silent_updateCurrent _)
  | receipt target state => exact tidy_of_silent P (keeps_silent_updateCurrent _)
  | live content => exact fun _ hs => hs
  | reaction target emoji => exact tidy_of_silent P (keeps_silent_updateCurrent _)
  | other => exact .pure _

theorem tidy_onMessage (iv ciphertext : Base64) : Preserves (Tidy P) (onMessage P iv ciphertext) := by
  refine .bind (fun _ hs => hs) fun s => ?_
  split
  · exact .pure _
  · dsimp only
    split
    · exact .throw _
    · split
      · exact tidy_appendNow P _ _ _
      · refine .bind (fun _ hs => hs) fun _ => ?_
        split
        · exact .throw _
        · exact tidy_onContent P _

mutual

/-- Payload by payload, through nested batches. -/
theorem tidy_processPayload (queueId : String) : (payload : Payload Base64) →
    Preserves (Tidy P) (processPayload P queueId payload)
  | .handshake replyQueue publicKey => tidy_onHandshake P queueId replyQueue publicKey
  | .queueUpdate _ => .bind (fun _ hs => hs) fun _ => tidy_appendNow P _ _ _
  | .message iv ciphertext _ => tidy_onMessage P iv ciphertext
  | .batch events => tidy_processEvents queueId events
  | .other => .pure _
  | .broken => .throw _

theorem tidy_processEvents (queueId : String) : (events : List (Payload Base64)) →
    Preserves (Tidy P) (processEvents P queueId events)
  | [] => .pure _
  | payload :: events =>
    .bind (tidy_processPayload queueId payload) fun _ => tidy_processEvents queueId events

end

theorem tidy_onQueueCreated (queueId : String) :
    Preserves (Tidy P) (@onQueueCreated Base64 queueId) := by
  refine .bind (fun _ hs => hs) fun s => .bind (fun _ hs => hs) fun _ => ?_
  split
  · rename_i theirQueueId _ _ _
    refine .bind (tidy_emit P fun _ _ h => ?_) fun _ => tidy_emit P nofun
    obtain ⟨-, rfl⟩ := Emit.pushQueue.inj h
    exact trivial
  · split
    · exact .pure _
    · exact .bind (fun _ hs => hs) fun _ _ hs => hs

theorem tidy_acceptInvite (queueId pubKeyBase64 : String) :
    Preserves (Tidy P) (acceptInvite P queueId pubKeyBase64) := by
  refine .bind (fun _ hs => hs) fun s => ?_
  split
  · exact fun _ hs => hs
  · refine .bind (fun _ hs => hs) fun _ => .bind (tidy_deriveSession P _) fun _ => ?_
    refine .bind (fun _ hs => hs) fun s => .bind (fun _ hs => hs) fun _ => ?_
    refine .bind (tidy_emit P fun _ _ h => ?_) fun _ => .bind (tidy_emit P nofun) fun _ => ?_
    · obtain ⟨-, rfl⟩ := Emit.pushQueue.inj h
      exact trivial
    · exact .bind (tidy_appendNow P _ _ _) fun _ _ hs => hs

theorem tidy_runPosted : Preserves (Tidy P) (runPosted P) := by
  intro s hs
  rw [state_runPosted]
  rcases s.posted with _ | ⟨task, tasks⟩
  · exact hs
  · cases task with
    | append chatPartner message => exact hs
    | acceptInvite queueId pubKeyBase64 =>
      exact tidy_acceptInvite P queueId pubKeyBase64 { s with posted := tasks } hs
    | infinitySnap => exact hs

/-- Only `sendPrivateMessage` pushes texts. -/
theorem tidy_handle {input : Input Base64} (hsend : ∀ text, input ≠ .sendPrivateMessage text) :
    Preserves (Tidy P) (handle P input) := by
  cases input with
  | sendPrivateMessage text => exact absurd rfl (hsend text)
  | connected generated =>
    cases generated with
    | none => exact fun _ hs => hs
    | some keyPair => exact .bind (fun _ hs => hs) fun _ => tidy_emit P nofun
  | disconnected => exact fun _ hs => hs
  | connectError rejected =>
    cases rejected with
    | true => exact fun _ hs => hs
    | false => exact fun _ hs => hs
  | queueCreated queueId => exact tidy_onQueueCreated P queueId
  | queuePayload queueId payload => exact tidy_processPayload P queueId payload
  | pushQueueError error =>
    show Preserves _ (if _ then _ else _)
    split
    · exact tidy_appendNow P _ _ _
    · exact .pure _
  | connect =>
    refine .bind (fun _ hs => hs) fun s => ?_
    split
    · exact .modify fun _ _ => nofun
    · exact .pure _
  | acceptInvite queueId pubKeyBase64 => exact tidy_acceptInvite P queueId pubKeyBase64
  | setDisappearingTimer seconds => exact .bind (fun _ hs => hs) fun _ => tidy_push P (by trivial) _
  | sendTypingDraft text => exact tidy_push P (by trivial) _
  | sendReaction target emoji => exact tidy_sendAndMark P (by trivial) _
  | sendEditMessage target newText => exact tidy_sendAndMark P (by trivial) _
  | sendDeleteMessage target => exact tidy_sendAndMark P (by trivial) _
  | obliviate => exact .bind (tidy_push P (by trivial) _) fun _ _ hs => hs
  | resetClient => exact fun _ hs => hs
  | keepAlive => exact tidy_push P (by trivial) _
  | countdown chatPartner messageId => exact fun _ hs => hs
  | runPosted => exact tidy_runPosted P

/-! ## A text of one's own -/

theorem sendPrivateMessage_idle (text : String) {s : ChatManager Base64}
    (h : s.shows P (.sendPrivateMessage text) = false) : sendPrivateMessage P text s = .ok () s := by
  unfold sendPrivateMessage
  rw [EStateM.apply_bind, EStateM.apply_get]
  dsimp only
  rw [if_neg (of_decide_eq_false h)]
  rfl

/-- A text that is pushed carries the first reading of the clock, and is shown with the second. -/
theorem sendPrivateMessage_cases (text : String) (s : ChatManager Base64) :
    let s' := (sendPrivateMessage P text s).state
    s'.emitted = s.emitted ∧ (Adds [] s s' ∨ Adds [(s.nextId, s.clock 1)] s s') ∨
      ∃ queueId iv ciphertext, Made P (.text text (some (s.clock 0))) iv ciphertext ∧
        s'.emitted = s.emitted ++ [.pushQueue queueId (.message iv ciphertext false)] ∧
          Adds [(s.nextId, s.clock 1)] s s' := by
  unfold sendPrivateMessage
  rw [EStateM.apply_bind, EStateM.apply_get]
  dsimp only
  split
  · let read := { s with clock := fun n => s.clock (n + 1) }
    let push := pushEncrypted P (.text text (some (s.clock 0)))
    let rest (sent : Bool) : Handler Base64 Unit := if sent then appendNow .you text else pure ()
    have hread : Adds [] s read := ⟨fun partner => by
      rw [List.append_nil]
      exact List.Sublist.refl _, Nat.le_refl _, nofun⟩
    have hkeeps : Keeps shown push := keeps_shown_pushEncrypted P _ _
    show ((push >>= rest) read).state.emitted = s.emitted ∧ (Adds [] s ((push >>= rest) read).state ∨
      Adds [(s.nextId, s.clock 1)] s ((push >>= rest) read).state) ∨ _
    rcases emitted_pushEncrypted P (.text text (some (s.clock 0))) false read with
      h | ⟨queueId, iv, ciphertext, s', hmade, hresult, h⟩
    · -- nothing is pushed, and what is shown is not sent
      refine .inl ⟨?_, ?_⟩
      · rcases EStateM.state_bind push rest read with hbind | ⟨sent, hbind⟩
        · rw [hbind]
          exact h
        · have hrest : Keeps ChatManager.silent (rest sent) :=
            .ite (keeps_silent_appendNow _ _ _) (.pure _)
          rw [hbind]
          exact (congrArg Prod.snd (hrest _)).trans h
      · have hshows : ShowsOne (push >>= rest) := by
          refine .after hkeeps fun sent => ?_
          show ShowsOne (if sent then _ else _)
          split
          · exact showsOne_appendNow _ _ _
          · exact Mute.showsOne (.of_keeps (.pure _))
        exact (hshows read).imp hread.trans hread.trans
    · have hsame : s'.shown = read.shown := by
        have := hkeeps read
        rwa [show push read = _ from hresult] at this
      have hrun : ((push >>= rest) read).state = (appendNow .you text true s').state := by
        rw [EStateM.apply_bind, show push read = _ from hresult]
        rfl
      have hid : s'.nextId = s.nextId := congrArg (·.2.2.1) hsame
      have hclock : s'.clock 0 = s.clock 1 := congrArg (fun c => c.2.2.2 0) hsame
      have hadds := adds_appendNow .you text true s'
      rw [hid, hclock] at hadds
      refine .inr ⟨queueId, iv, ciphertext, hmade, ?_, ?_⟩
      · show ((push >>= rest) read).state.emitted = _
        rw [hrun]
        exact (congrArg Prod.snd (keeps_silent_appendNow .you text true s')).trans h
      · show Adds _ s ((push >>= rest) read).state
        rw [hrun]
        exact hread.trans (hadds.congr hsame.symm)
  · exact .inl ⟨rfl, .inl (.of_shown rfl)⟩

end

end AnonyMus.Android.Chat
