import AnonyMus.Android.Outsider
import AnonyMus.Android.Shown
import AnonyMus.Lib.OneOff

/-!
# Android client — what a peer may edit and delete

The branches `x.msg.edit` and `x.msg.delete` of the handler of `data/ChatManager.kt`
find their target by its timestamp, among the messages of both sides and of the system.
The branch of receipts asks for the sender as well, and so does `sendEditMessage`.

* `Revision` — an edit or a deletion, and what it does to a conversation;
* `OwnOnly` — the messages of others stay, and one of the peer at most is touched;
* `Aimed` — the target is the timestamp of one message of the peer at most, and of none
  of the others that it would change;
* `ownOnly_iff` — a revision of a conversation;
* `frame_iff` — an authenticated payload, in any state.
-/

namespace AnonyMus.Android.Chat

open EStateM (apply_bind apply_get apply_modify)

/-! ## Revisions -/

inductive Revision
  | edit (targetTimestamp : ℤ) (content : String)
  | delete (targetTimestamp : ℤ)
deriving DecidableEq

namespace Revision

def content : Revision → Content
  | edit targetTimestamp content => .edit targetTimestamp content
  | delete targetTimestamp => .delete targetTimestamp

/-- What the handler makes of the conversation. -/
def apply : Revision → List ChatMessage → List ChatMessage
  | edit targetTimestamp content => editIn false targetTimestamp content
  | delete targetTimestamp => deleteIn targetTimestamp

def targetTimestamp : Revision → ℤ
  | edit targetTimestamp _ => targetTimestamp
  | delete targetTimestamp => targetTimestamp

/-- A message with this text is there as before when it has been revised. -/
def Leaves : Revision → String → Prop
  | edit _ content, text => text = content
  | delete _, _ => False

instance (r : Revision) (text : String) : Decidable (r.Leaves text) :=
  match r with
  | edit _ content => inferInstanceAs (Decidable (text = content))
  | delete _ => inferInstanceAs (Decidable False)

end Revision

def ofPeer (msg : ChatMessage) : Bool := msg.sender = .peer

/-- What must stay of a message. -/
def ChatMessage.said (msg : ChatMessage) : Sender × ℕ × ℤ × String :=
  (msg.sender, msg.id, msg.timestamp, msg.text)

/-- The messages that are not of the peer are there with their texts, and one of the peer at most is
changed or gone. -/
structure OwnOnly (before after : List ChatMessage) : Prop where
  others : (after.filter fun msg => !ofPeer msg).map ChatMessage.said =
    (before.filter fun msg => !ofPeer msg).map ChatMessage.said
  peers  : OneOff (before.filter ofPeer) (after.filter ofPeer)

/-- The message has the timestamp. -/
def hits (r : Revision) (msg : ChatMessage) : Bool := msg.timestamp = r.targetTimestamp

/-- Of the peer, one message at most has the timestamp; and a message of others that has it is not
to be deleted, and already has the new text. -/
def Aimed (r : Revision) (msgs : List ChatMessage) : Prop :=
  (msgs.filter ofPeer).countP (hits r) ≤ 1 ∧
    ∀ msg ∈ msgs, msg.sender ≠ .peer → msg.timestamp = r.targetTimestamp → r.Leaves msg.text

instance (r : Revision) (msgs : List ChatMessage) : Decidable (Aimed r msgs) :=
  inferInstanceAs (Decidable (_ ∧ _))

section

variable {r : Revision} {msgs : List ChatMessage} {targetTimestamp : ℤ} {content : String}

theorem ofPeer_iff {msg : ChatMessage} : ofPeer msg = true ↔ msg.sender = .peer :=
  decide_eq_true_iff

/-- One message, edited. -/
def edited (targetTimestamp : ℤ) (content : String) (msg : ChatMessage) : ChatMessage :=
  if msg.timestamp = targetTimestamp then
    { msg with text := content, isEdited := true, editHistory := msg.editHistory ++ [msg.text] }
  else msg

theorem editIn_eq (targetTimestamp : ℤ) (content : String) (msgs : List ChatMessage) :
    editIn false targetTimestamp content msgs = msgs.map (edited targetTimestamp content) := by
  unfold editIn edited
  simp

/-- An edit leaves a mark, also where the text is the same. -/
theorem edited_eq_self_iff {msg : ChatMessage} :
    edited targetTimestamp content msg = msg ↔ msg.timestamp ≠ targetTimestamp := by
  unfold edited
  split_ifs with htime
  · refine iff_of_false (fun heq => ?_) (not_not.mpr htime)
    simpa using congrArg (fun msg => msg.editHistory.length) heq
  · exact iff_of_true rfl htime

theorem ofPeer_edited (msg : ChatMessage) :
    ofPeer (edited targetTimestamp content msg) = ofPeer msg := by
  unfold edited
  split_ifs <;> rfl

/-- A map that leaves the senders is a map of the messages of the peer, and one of the others. -/
theorem filter_map_ofPeer (msgs : List ChatMessage) {g : ChatMessage → ChatMessage}
    (hg : ∀ msg, ofPeer (g msg) = ofPeer msg) :
    (msgs.map g).filter ofPeer = (msgs.filter ofPeer).map g ∧
      (msgs.map g).filter (fun msg => !ofPeer msg) =
        (msgs.filter fun msg => !ofPeer msg).map g := by
  rw [List.filter_map, List.filter_map]
  refine ⟨?_, ?_⟩
  · congr 2
    exact funext hg
  · congr 2
    exact funext fun msg => congrArg not (hg msg)

theorem mem_others_iff {msg : ChatMessage} :
    msg ∈ msgs.filter (fun msg => !ofPeer msg) ↔ msg ∈ msgs ∧ msg.sender ≠ .peer := by
  rw [List.mem_filter, Bool.not_eq_true', ← Bool.not_eq_true, ofPeer_iff]

/-- The texts stay exactly where the new text is the old one. -/
theorem said_edit_iff : (msgs.map (edited targetTimestamp content)).map ChatMessage.said =
      msgs.map ChatMessage.said ↔
    ∀ msg ∈ msgs, msg.timestamp = targetTimestamp → msg.text = content := by
  rw [List.map_map, List.map_inj_left]
  refine forall₂_congr fun msg _ => ?_
  unfold edited ChatMessage.said
  dsimp only [Function.comp]
  by_cases htime : msg.timestamp = targetTimestamp
  · rw [if_pos htime]
    simp [htime, eq_comm]
  · rw [if_neg htime]
    simp [htime]

theorem said_delete_iff :
    (deleteIn targetTimestamp msgs).map ChatMessage.said = msgs.map ChatMessage.said ↔
      ∀ msg ∈ msgs, msg.timestamp ≠ targetTimestamp := by
  unfold deleteIn
  constructor
  · intro hsame
    have hlength := congrArg List.length hsame
    rw [List.length_map, List.length_map, List.length_filter_eq_length_iff] at hlength
    exact fun msg hmem => of_decide_eq_true (hlength msg hmem)
  · intro hnone
    congr 1
    exact List.filter_eq_self.mpr fun msg hmem => decide_eq_true (hnone msg hmem)

theorem deleteIn_filter (q : ChatMessage → Bool) :
    (deleteIn targetTimestamp msgs).filter q = deleteIn targetTimestamp (msgs.filter q) :=
  List.filter_comm q _ msgs

/-- A revision touches no more than the peer may exactly if it is aimed. -/
theorem ownOnly_iff (r : Revision) (msgs : List ChatMessage) :
    OwnOnly msgs (r.apply msgs) ↔ Aimed r msgs := by
  have hsplit : OwnOnly msgs (r.apply msgs) ↔
      OneOff (msgs.filter ofPeer) ((r.apply msgs).filter ofPeer) ∧
      ((r.apply msgs).filter fun msg => !ofPeer msg).map ChatMessage.said =
        (msgs.filter fun msg => !ofPeer msg).map ChatMessage.said :=
    ⟨fun h => ⟨h.peers, h.others⟩, fun h => ⟨h.2, h.1⟩⟩
  rw [hsplit]
  unfold Aimed
  cases r with
  | edit targetTimestamp content =>
    show OneOff _ ((editIn false targetTimestamp content msgs).filter ofPeer) ∧
      ((editIn false targetTimestamp content msgs).filter fun msg => !ofPeer msg).map _ = _ ↔ _
    -- an edit keeps the sender, so each side is edited on its own
    obtain ⟨hpeer, hothers⟩ := filter_map_ofPeer msgs (@ofPeer_edited targetTimestamp content)
    rw [editIn_eq, hpeer, hothers]
    refine and_congr ?_ ?_
    · -- every message of the peer that is hit is changed, if only by its mark
      refine oneOff_map_iff fun msg => ?_
      rw [edited_eq_self_iff]
      exact decide_eq_false_iff_not
    · rw [said_edit_iff]
      simp only [mem_others_iff, and_imp]
      rfl
  | delete targetTimestamp =>
    show OneOff _ ((deleteIn targetTimestamp msgs).filter ofPeer) ∧
      ((deleteIn targetTimestamp msgs).filter fun msg => !ofPeer msg).map _ = _ ↔ _
    rw [deleteIn_filter, deleteIn_filter]
    refine and_congr ?_ ?_
    · have hdrop : deleteIn targetTimestamp (msgs.filter ofPeer) =
          (msgs.filter ofPeer).filter fun msg => !hits (.delete targetTimestamp) msg :=
        List.filter_congr fun msg _ => decide_not
      rw [hdrop]
      exact oneOff_filter_iff
    · rw [said_delete_iff]
      simp only [mem_others_iff, and_imp]
      rfl

end

/-! ## Payloads -/

section

variable {Text Base64 : Type} {P : CryptoProvider Text Base64}

/-- The conversation with the peer is touched no more than it may be, and every other one stays. -/
structure Frame (s s' : ChatManager Base64) : Prop where
  current : OwnOnly (s.conversations s.partner) (s'.conversations s.partner)
  rest    : ∀ partner, partner ≠ s.partner → s'.conversations partner = s.conversations partner

/-- What the handler makes of a revision that it can read. -/
theorem conversations_revised {s : ChatManager Base64} {iv ciphertext : Base64} {r : Revision}
    (hopened : s.opened P iv ciphertext = some r.content) :
    (onMessage P iv ciphertext s).state.conversations = Function.update s.conversations s.partner
      (r.apply (s.conversations s.partner)) := by
  unfold ChatManager.opened at hopened
  obtain ⟨recvChainKey, hkey, hopened⟩ := Option.bind_eq_some_iff.mp hopened
  obtain ⟨theirRole, hrole, hopened⟩ := Option.bind_eq_some_iff.mp hopened
  obtain ⟨decrypted, hdecrypted, hread⟩ := Option.bind_eq_some_iff.mp hopened
  unfold onMessage
  rw [apply_bind, apply_get]
  dsimp only
  rw [hkey]
  dsimp only
  rw [hrole]
  dsimp only
  rw [hdecrypted]
  dsimp only
  rw [apply_bind, apply_modify]
  dsimp only
  rw [hread]
  cases r <;> rfl

/-- A peer revises its own messages exactly if the revision is aimed: in every state, and for every
payload that opens. -/
theorem frame_iff (queueId : String) {s : ChatManager Base64} {iv ciphertext : Base64}
    (ephemeral : Bool) {r : Revision} (hopened : s.opened P iv ciphertext = some r.content) :
    Frame s (processPayload P queueId (.message iv ciphertext ephemeral) s).state ↔
      Aimed r (s.conversations s.partner) := by
  have hrevised :
      (processPayload P queueId (.message iv ciphertext ephemeral) s).state.conversations = _ :=
    conversations_revised hopened
  rw [← ownOnly_iff]
  constructor
  · intro hframe
    have hcurrent := hframe.current
    rw [hrevised, Function.update_self] at hcurrent
    exact hcurrent
  · intro honly
    refine ⟨?_, fun partner hother => ?_⟩
    · rw [hrevised, Function.update_self]
      exact honly
    · rw [hrevised, Function.update_of_ne hother]

end

/-! ## A peer that edits -/

def messageOf (sender : Sender) (id : ℕ) (timestamp : ℤ) (text : String) : ChatMessage where
  sender := sender
  text := text
  timestamp := timestamp
  isDecryptedSuccessfully := true
  id := id
  remainingSeconds := -1
  reactions := []
  file := none
  deliveryState := "sent"
  isEdited := false
  editHistory := []

/-- A client that has sent a message and got two. -/
def chatting : ChatManager Sealed :=
  { newClient with
    theirQueueId  := some "queue"
    recvChainKey  := some [7]
    theirRole     := some .b
    sessionId     := some "12345"
    conversations := fun _ =>
      [messageOf .you 0 10 "hello", messageOf .peer 1 20 "hi", messageOf .peer 2 30 "hey"] }

/-- What the peer sends to revise a message. -/
def revising (r : Revision) : Payload Sealed :=
  .message (.iv []) (.box [0, 7] r.content .b 0 (some "12345")) false

/-- The peer edits its last message. -/
theorem frame_last : Frame chatting
    (processPayload sampleProvider "queue" (revising (.edit 30 "bye")) chatting).state :=
  (@frame_iff _ _ sampleProvider "queue" chatting _ _ false (.edit 30 "bye")
    (by decide +kernel)).mpr (by decide)

/-- It edits a message that it has not sent. -/
theorem own_message_edited :
    chatting.opened sampleProvider (.iv []) (.box [0, 7] (Revision.edit 10 "bye").content .b 0
        (some "12345")) = some (Revision.edit 10 "bye").content ∧
      ¬ Frame chatting (processPayload sampleProvider "queue" (revising (.edit 10 "bye"))
        chatting).state := by
  refine ⟨by decide +kernel, fun hframe => ?_⟩
  exact absurd hframe.current.others (by decide +kernel)

end AnonyMus.Android.Chat
