import AnonyMus.Lib.Simulation
import AnonyMus.P2p.Node
import Mathlib.Data.Finset.Image

/-!
# P2P node — groups

Groups, their members and the messages posted in them, written by the router
`transports/p2p/routers/groups.py` and by the endpoints of `compat.py` that came
before it. Requests are handled one after the other.

* `createGroup`, `sendGroupMessage`, `legacyCreateGroup`,
  `legacySaveGroupMessage` — the handlers;
* `run_cases` — what a request writes;
* `MembersOnly` — messages are stored under the address of the account that posts
  them, a member of the group;
* `membersOnly_iff` — for a run, this depends on the legacy requests alone;
* `forged_sender` — a message in the name of the founder.
-/

namespace AnonyMus.P2p.Groups

open EStateM

/-! ## Tables -/

structure Group where
  name         : String
  founderOnion : String
  isChannel    : Bool
  profileId    : String
deriving DecidableEq

structure GroupMessage where
  groupId       : String
  senderOnion   : String
  ciphertextB64 : String
deriving DecidableEq

/-- Groups are keyed by `group_id`, messages by `message_id`. -/
structure GroupTables where
  users    : List User
  profiles : List String
  groups   : Dict String Group
  members  : Finset (String × String)
  messages : Dict String GroupMessage

abbrev Handler := EStateM Failure GroupTables

/-! ## Requests -/

/-- What pydantic lets through. -/
structure CreateGroupRequest where
  name         : String
  memberOnions : List String := []
  isChannel    : Bool := false
  name_nonempty : 1 ≤ name.length
  name_length   : name.length ≤ 128

structure SendGroupMessageRequest where
  ciphertextB64 : String
  groupId       : String

structure LegacyCreateGroupRequest where
  name         : String
  founderOnion : String
  isChannel    : ℤ := 0
  memberOnions : List String := []

structure LegacySaveGroupMessageRequest where
  groupId        : String
  senderOnion    : String
  senderNickname : String
  message        : String
  timestamp      : ℤ

structure GroupResponse where
  groupId      : String
  name         : String
  founderOnion : String
  isChannel    : Bool

structure GroupMessageResponse where
  messageId     : String
  groupId       : String
  senderOnion   : String
  ciphertextB64 : String

/-! ## Handlers -/

/-- `_get_current_user`. -/
def getCurrentUser (caller : Caller) : Handler User := do
  match truthy caller.username with
  | none => throw (.http 401 "Not authenticated")
  | some username =>
    match (← get).users.find? fun u => u.username = username with
    | none => throw (.http 404 "User not found")
    | some user => return user

/-- `_verify_auth`. -/
def verifyAuth (caller : Caller) : Handler String := do
  match truthy caller.username with
  | none => throw (.http 401 "Unauthorized")
  | some username => return username

/-- Insert a group with its founder and the given members. The profile is a foreign key. -/
def insertGroup (groupId : String) (group : Group) (memberOnions : List String) : Handler Unit := do
  let w ← get
  if w.groups.get? groupId = none ∧ group.profileId ∈ w.profiles then
    let allMembers := insert group.founderOnion memberOnions.toFinset
    set { w with
      groups := w.groups.insert groupId group
      members := w.members ∪ allMembers.image fun onion => (groupId, onion) }
  else throw .internal

def insertMessage (messageId : String) (message : GroupMessage) : Handler Unit := do
  let w ← get
  if w.messages.get? messageId = none then
    set { w with messages := w.messages.insert messageId message }
  else throw .internal

/-- `groupId` is the UUID that is drawn. -/
def createGroup (caller : Caller) (body : CreateGroupRequest) (groupId : String) :
    Handler GroupResponse := do
  let user ← getCurrentUser caller
  match truthy user.onionAddress with
  | none => throw (.http 400 "Onion address not configured")
  | some onion =>
    insertGroup groupId ⟨body.name, onion, body.isChannel, caller.activeProfileId⟩ body.memberOnions
    return ⟨groupId, body.name, onion, body.isChannel⟩

def sendGroupMessage (caller : Caller) (body : SendGroupMessageRequest) (messageId : String) :
    Handler GroupMessageResponse := do
  let user ← getCurrentUser caller
  let w ← get
  match w.groups.get? body.groupId with
  | none => throw (.http 404 "Group not found")
  | some group =>
    -- no member has the address of an account without one
    match user.onionAddress.filter fun onion => (body.groupId, onion) ∈ w.members with
    | none => throw (.http 403 "Forbidden: You are not a member of this group")
    | some onion =>
      if group.isChannel ∧ group.founderOnion ≠ onion then
        throw (.http 403 "Only the channel founder can post to a broadcast channel")
      else
        insertMessage messageId ⟨body.groupId, onion, body.ciphertextB64⟩
        return ⟨messageId, body.groupId, onion, body.ciphertextB64⟩

def legacyCreateGroup (caller : Caller) (body : LegacyCreateGroupRequest) (groupId : String) :
    Handler String := do
  let _ ← verifyAuth caller
  insertGroup groupId ⟨body.name, body.founderOnion, body.isChannel ≠ 0, caller.activeProfileId⟩
    body.memberOnions
  return groupId

def legacySaveGroupMessage (caller : Caller) (body : LegacySaveGroupMessageRequest)
    (messageId : String) : Handler Unit := do
  let _ ← verifyAuth caller
  let w ← get
  match w.groups.get? body.groupId with
  | none => throw (.http 404 "Group not found")
  | some group =>
    if group.isChannel ∧ group.founderOnion ≠ body.senderOnion then throw (.http 403 "Forbidden")
    else insertMessage messageId ⟨body.groupId, body.senderOnion, body.message⟩

/-! ## Runs -/

inductive Request
  | createGroup (caller : Caller) (body : CreateGroupRequest) (groupId : String)
  | sendGroupMessage (caller : Caller) (body : SendGroupMessageRequest) (messageId : String)
  | legacyCreateGroup (caller : Caller) (body : LegacyCreateGroupRequest) (groupId : String)
  | legacySaveGroupMessage (caller : Caller) (body : LegacySaveGroupMessageRequest)
      (messageId : String)
  /-- Other routers have changed the accounts. -/
  | accounts (users : List User)

def Request.run : Request → Handler Unit
  | createGroup caller body groupId => discard (Groups.createGroup caller body groupId)
  | sendGroupMessage caller body messageId => discard (Groups.sendGroupMessage caller body messageId)
  | legacyCreateGroup caller body groupId => discard (Groups.legacyCreateGroup caller body groupId)
  | legacySaveGroupMessage caller body messageId =>
    Groups.legacySaveGroupMessage caller body messageId
  | accounts users => modify fun w => { w with users := users }

/-- The session that a request comes with. -/
def Request.caller? : Request → Option Caller
  | createGroup caller _ _ | sendGroupMessage caller _ _ | legacyCreateGroup caller _ _
  | legacySaveGroupMessage caller _ _ => some caller
  | accounts _ => none

/-- The address of the account that a session is of. -/
def GroupTables.identity? (w : GroupTables) (caller : Caller) : Option String := do
  let username ← truthy caller.username
  let user ← w.users.find? fun u => u.username = username
  user.onionAddress

/-- The address is of the founder of a group, or of a member. -/
def GroupTables.Belongs (w : GroupTables) (groupId onion : String) : Prop :=
  (∃ group, w.groups.get? groupId = some group ∧ group.founderOnion = onion) ∨
    (groupId, onion) ∈ w.members

/-- Every message of a run is stored under the address of the account whose session posts it, and
this address belongs to the group at that moment. -/
def MembersOnly (events : List Request) (w₀ : GroupTables) : Prop :=
  ∀ done e todo, events = done ++ e :: todo → ∀ messageId message,
    (after Request.run (done ++ [e]) w₀).messages.get? messageId = some message →
      (after Request.run done w₀).messages.get? messageId = some message ∨
      ∃ caller, e.caller? = some caller ∧
        (after Request.run done w₀).identity? caller = some message.senderOnion ∧
        (after Request.run done w₀).Belongs message.groupId message.senderOnion

/-- A legacy request that is let through. -/
def Accepts (caller : Caller) (body : LegacySaveGroupMessageRequest) (messageId : String)
    (w : GroupTables) : Prop :=
  truthy caller.username ≠ none ∧
    (∃ group, w.groups.get? body.groupId = some group ∧
      ¬ (group.isChannel ∧ group.founderOnion ≠ body.senderOnion)) ∧
    w.messages.get? messageId = none

/-- A legacy request that is let through names the address of its own account as sender, and this
address belongs to the group. -/
def OwnSender : Request → GroupTables → Prop
  | .legacySaveGroupMessage caller body messageId, w => Accepts caller body messageId w →
    w.identity? caller = some body.senderOnion ∧ w.Belongs body.groupId body.senderOnion
  | _, _ => True

/-! ## What a request writes -/

section

variable {w w' : GroupTables} {caller : Caller}

/-- The session names no account, or the account whose address is its identity. -/
theorem getCurrentUser_cases (caller : Caller) (w : GroupTables) :
    (∃ e, getCurrentUser caller w = .error e w) ∨
      ∃ user, getCurrentUser caller w = .ok user w ∧ w.identity? caller = user.onionAddress := by
  unfold getCurrentUser GroupTables.identity?
  rcases truthy caller.username with _ | username
  · exact .inl ⟨_, rfl⟩
  · dsimp only
    rw [apply_bind, apply_get]
    dsimp only [Option.bind_eq_bind, Option.bind_some]
    rcases huser : w.users.find? fun u => u.username = username with _ | user
    · rw [huser]
      exact .inl ⟨_, rfl⟩
    · rw [huser]
      exact .inr ⟨user, rfl, rfl⟩

theorem verifyAuth_apply (caller : Caller) (w : GroupTables) :
    (truthy caller.username = none ∧ ∃ e, verifyAuth caller w = .error e w) ∨
      truthy caller.username ≠ none ∧ ∃ username, verifyAuth caller w = .ok username w := by
  unfold verifyAuth
  rcases truthy caller.username with _ | username
  · exact .inl ⟨rfl, _, rfl⟩
  · exact .inr ⟨Option.some_ne_none _, username, rfl⟩

theorem insertGroup_messages (groupId : String) (group : Group) (memberOnions : List String) :
    Keeps GroupTables.messages (insertGroup groupId group memberOnions) := by
  intro w
  unfold insertGroup
  rw [apply_bind, apply_get]
  dsimp only
  split_ifs <;> rfl

theorem insertMessage_apply (messageId : String) (message : GroupMessage) (w : GroupTables) :
    insertMessage messageId message w = if w.messages.get? messageId = none then
      .ok ⟨⟩ { w with messages := w.messages.insert messageId message }
    else .error .internal w := by
  unfold insertMessage
  rw [apply_bind, apply_get]
  dsimp only
  split_ifs <;> rfl

theorem createGroup_messages (caller : Caller) (body : CreateGroupRequest) (groupId : String)
    (w : GroupTables) : (createGroup caller body groupId w).state.messages = w.messages := by
  unfold createGroup
  rw [apply_bind]
  rcases getCurrentUser_cases caller w with ⟨e, huser⟩ | ⟨user, huser, -⟩
  · rw [huser]
    rfl
  · rw [huser]
    dsimp only
    rcases truthy user.onionAddress with _ | onion
    · rfl
    · exact Keeps.bind (insertGroup_messages _ _ _) (fun _ => Keeps.pure _) w

theorem legacyCreateGroup_messages (caller : Caller) (body : LegacyCreateGroupRequest)
    (groupId : String) (w : GroupTables) :
    (legacyCreateGroup caller body groupId w).state.messages = w.messages := by
  unfold legacyCreateGroup
  rw [apply_bind]
  rcases verifyAuth_apply caller w with ⟨-, e, hauth⟩ | ⟨-, username, hauth⟩
  · rw [hauth]
    rfl
  · rw [hauth]
    exact Keeps.bind (insertGroup_messages _ _ _) (fun _ => Keeps.pure _) w

/-- The message of a member, or nothing. -/
theorem sendGroupMessage_cases (caller : Caller) (body : SendGroupMessageRequest)
    (messageId : String) (w : GroupTables) :
    (sendGroupMessage caller body messageId w).state = w ∨
      ∃ onion, w.identity? caller = some onion ∧ w.Belongs body.groupId onion ∧
        (sendGroupMessage caller body messageId w).state =
          { w with
            messages := w.messages.insert messageId ⟨body.groupId, onion, body.ciphertextB64⟩ } := by
  unfold sendGroupMessage
  rw [apply_bind]
  rcases getCurrentUser_cases caller w with ⟨e, huser⟩ | ⟨user, huser, hidentity⟩
  · rw [huser]
    exact .inl rfl
  · rw [huser]
    dsimp only
    rw [apply_bind, apply_get]
    dsimp only
    rcases w.groups.get? body.groupId with _ | group
    · exact .inl rfl
    · rcases honion : user.onionAddress.filter fun onion => (body.groupId, onion) ∈ w.members with
        _ | onion
      · exact .inl rfl
      · dsimp only
        obtain ⟨honion, hmember⟩ := Option.filter_eq_some_iff.mp honion
        split_ifs with hchannel
        · exact .inl rfl
        · rw [apply_bind, insertMessage_apply]
          split_ifs
          · exact .inr ⟨onion, hidentity.trans honion, .inr (of_decide_eq_true hmember), rfl⟩
          · exact .inl rfl

/-- A legacy request stores its message exactly if it is let through. -/
theorem legacySaveGroupMessage_state (caller : Caller) (body : LegacySaveGroupMessageRequest)
    (messageId : String) (w : GroupTables) :
    (Accepts caller body messageId w ∧ (legacySaveGroupMessage caller body messageId w).state =
      { w with
        messages :=
          w.messages.insert messageId ⟨body.groupId, body.senderOnion, body.message⟩ }) ∨
    ¬ Accepts caller body messageId w ∧
      (legacySaveGroupMessage caller body messageId w).state = w := by
  unfold legacySaveGroupMessage Accepts
  rw [apply_bind]
  rcases verifyAuth_apply caller w with ⟨hnone, e, hauth⟩ | ⟨hsome, username, hauth⟩
  · rw [hauth]
    exact .inr ⟨fun h => h.1 hnone, rfl⟩
  · rw [hauth]
    dsimp only
    rw [apply_bind, apply_get]
    dsimp only
    rcases w.groups.get? body.groupId with _ | group
    · refine .inr ⟨?_, rfl⟩
      rintro ⟨-, ⟨group, hgroup, -⟩, -⟩
      cases hgroup
    · dsimp only
      split_ifs with hchannel
      · refine .inr ⟨?_, rfl⟩
        rintro ⟨-, ⟨group', hgroup, hnot⟩, -⟩
        obtain rfl := Option.some.inj hgroup
        exact hnot hchannel
      · rw [insertMessage_apply]
        split_ifs with hnew
        · exact .inl ⟨⟨hsome, ⟨group, rfl, hchannel⟩, hnew⟩, rfl⟩
        · exact .inr ⟨fun h => hnew h.2.2, rfl⟩

/-- A request stores no message, that of a member, or that of a legacy request. -/
theorem run_cases (e : Request) (w : GroupTables) :
    (e.run w).state.messages = w.messages ∨
    (∃ caller messageId message, e.caller? = some caller ∧
      w.identity? caller = some message.senderOnion ∧
      w.Belongs message.groupId message.senderOnion ∧
      (e.run w).state.messages = w.messages.insert messageId message) ∨
    ∃ caller body messageId, e = .legacySaveGroupMessage caller body messageId ∧
      Accepts caller body messageId w ∧ (e.run w).state.messages =
        w.messages.insert messageId ⟨body.groupId, body.senderOnion, body.message⟩ := by
  rcases e with ⟨caller, body, groupId⟩ | ⟨caller, body, messageId⟩ | ⟨caller, body, groupId⟩ |
    ⟨caller, body, messageId⟩ | users
  · left
    have hrun : (Request.run (.createGroup caller body groupId) w).state =
        (createGroup caller body groupId w).state := state_map _ _ _
    rw [hrun, createGroup_messages]
  · have hrun : (Request.run (.sendGroupMessage caller body messageId) w).state =
        (sendGroupMessage caller body messageId w).state := state_map _ _ _
    rw [hrun]
    rcases sendGroupMessage_cases caller body messageId w with hsame | ⟨onion, hid, hbelongs, hsent⟩
    · rw [hsame]
      exact .inl rfl
    · rw [hsent]
      exact .inr (.inl ⟨caller, messageId, _, rfl, hid, hbelongs, rfl⟩)
  · left
    have hrun : (Request.run (.legacyCreateGroup caller body groupId) w).state =
        (legacyCreateGroup caller body groupId w).state := state_map _ _ _
    rw [hrun, legacyCreateGroup_messages]
  · have hrun : (Request.run (.legacySaveGroupMessage caller body messageId) w).state =
        (legacySaveGroupMessage caller body messageId w).state := rfl
    rw [hrun]
    rcases legacySaveGroupMessage_state caller body messageId w with ⟨haccepts, hsaved⟩ | ⟨-, hsame⟩
    · rw [hsaved]
      exact .inr (.inr ⟨caller, body, messageId, rfl, haccepts, rfl⟩)
    · rw [hsame]
      exact .inl rfl
  · exact .inl rfl

end

/-- In a run, messages are stored in the name of the posting account and within its groups exactly
if this is so for every legacy request that is let through. -/
theorem membersOnly_iff (events : List Request) (w₀ : GroupTables) :
    MembersOnly events w₀ ↔ AllMeet Request.run OwnSender events w₀ := by
  rw [allMeet_iff]
  constructor
  · intro honly done e todo hevents
    rcases e with _ | _ | _ | ⟨caller, body, messageId⟩ | _
    · trivial
    · trivial
    · trivial
    · intro haccepts
      have hsaved : (Request.run (.legacySaveGroupMessage caller body messageId)
          (after Request.run done w₀)).state.messages =
            (after Request.run done w₀).messages.insert messageId
              ⟨body.groupId, body.senderOnion, body.message⟩ := by
        rcases legacySaveGroupMessage_state caller body messageId (after Request.run done w₀) with
          ⟨-, hsaved⟩ | ⟨hnot, -⟩
        · exact congrArg GroupTables.messages hsaved
        · exact absurd haccepts hnot
      have hstored : (after Request.run (done ++ [.legacySaveGroupMessage caller body messageId])
          w₀).messages.get? messageId =
            some ⟨body.groupId, body.senderOnion, body.message⟩ := by
        rw [after_append, after_cons, after_nil, hsaved, Dict.get?_insert, if_pos rfl]
      -- the message is new, so it is posted by this request
      rcases honly done _ todo hevents messageId _ hstored with hold | ⟨poster, hposter, hposted⟩
      · rw [haccepts.2.2] at hold
        cases hold
      · obtain rfl := Option.some.inj hposter
        exact hposted
    · trivial
  · intro hmeet done e todo hevents messageId message hstored
    rw [after_append, after_cons, after_nil] at hstored
    have hown := hmeet done e todo hevents
    rcases run_cases e (after Request.run done w₀) with hsame |
      ⟨caller, id, posted, hcaller, hidentity, hbelongs, hrun⟩ |
      ⟨caller, body, id, rfl, haccepts, hrun⟩
    · rw [hsame] at hstored
      exact .inl hstored
    · rw [hrun, Dict.get?_insert] at hstored
      split_ifs at hstored
      · obtain rfl := Option.some.inj hstored
        exact .inr ⟨caller, hcaller, hidentity, hbelongs⟩
      · exact .inl hstored
    · rw [hrun, Dict.get?_insert] at hstored
      split_ifs at hstored
      · obtain rfl := Option.some.inj hstored
        exact .inr ⟨caller, rfl, hown haccepts⟩
      · exact .inl hstored

/-! ## A message in another name -/

/-- Alice has founded a channel, and Mallory has an account. -/
def channelTables : GroupTables where
  users    := [⟨"alice", some "alice.onion"⟩, ⟨"mallory", some "mallory.onion"⟩]
  profiles := ["default"]
  groups   := Dict.empty.insert "g" ⟨"news", "alice.onion", true, "default"⟩
  members  := {("g", "alice.onion")}
  messages := .empty

/-- Mallory posts in the name of Alice. -/
def forgedPost : Request :=
  .legacySaveGroupMessage ⟨some "mallory", "default"⟩
    ⟨"g", "alice.onion", "Alice", "ciphertext", 0⟩ "m1"

theorem forged_sender : ¬ MembersOnly [forgedPost] channelTables := by
  intro honly
  rcases honly [] forgedPost [] rfl "m1" ⟨"g", "alice.onion", "ciphertext"⟩ (by decide) with
    hold | ⟨caller, hcaller, hidentity, -⟩
  · cases hold
  · obtain rfl := Option.some.inj hcaller
    exact absurd hidentity (by decide)

end AnonyMus.P2p.Groups
