import AnonyMus.P2p.Monotonic

/-!
# P2P node — notification tokens

`transports/p2p/routers/notifications.py`: the local user takes a token for a
contact, and polls and clears the flags of tokens. A row of `notify_queue` is a
flag that is set. `poll` reads that table and `clear` deletes from it, but no
endpoint inserts into it: `notify_contact`, which is there to do so on delivery,
writes to another database, and has no caller.

* `register`, `poll`, `clear` — the code;
* `Board` — what the flags should be, written down beside a run;
* `notifyQueue_after` — no flag is ever set;
* `tokensFire_iff` — polls report what they should exactly when none of them
  asks for a flag that should be set.
-/

namespace AnonyMus.P2p.Notifications

open EStateM
open Relay (strip)

/-- The node with its `notify_queue`: the tokens whose flag is set. -/
structure Station extends Node where
  notifyQueue : List String

/-- What an endpoint does to the node and the queue. -/
abbrev Action := EStateM Failure Station

/-- A step that does not know the queue. -/
def onNode {α : Type} (x : Handler α) : Action α := fun s =>
  match x s.toNode with
  | .ok a n => .ok a { s with toNode := n }
  | .error e n => .error e { s with toNode := n }

def maxTokens : ℕ := 200

/-! ## Request models -/

structure RegisterRequest where
  onionAddress : String

structure ClearRequest where
  tokens : List String

section

variable (R : Runtime)

def RegisterRequest.read (body : Json) : Option RegisterRequest := do
  let members ← body.members?
  let onionAddress ← Json.required R.str members "onion_address"
  guard (16 ≤ onionAddress.length ∧ onionAddress.length ≤ 128)
  return { onionAddress }

def ClearRequest.read (body : Json) : Option ClearRequest := do
  let members ← body.members?
  let items ← Json.required Json.items? members "tokens"
  let tokens ← items.mapM R.str
  guard (tokens.length ≤ maxTokens)
  return { tokens }

/-! ## Endpoints -/

/-- `get_current_user` of the authentication router. -/
def getCurrentUser (caller : Caller) : Handler User := do
  match truthy caller.username with
  | none => throw (.http 401 "Not authenticated")
  | some username =>
    match (← get).user? username with
    | none => throw (.http 401 "User not found")
    | some user => return user

/-- The contact of the user with this address, under either name of its owner. -/
def contactOf? (n : Node) (user : User) (onion : String) : Option (ℕ × Contact) :=
  n.contacts.entries.find? fun e =>
    (e.2.ownerOnion = user.owner ∨ e.2.ownerOnion = user.username) ∧ e.2.onionAddress = onion

/-- `base64.urlsafe_b64encode(drawn).decode().rstrip("=")`. -/
def tokenOf (drawn : List UInt8) : String :=
  String.ofList ((urlsafeB64encode drawn).reverse.dropWhile (· = '=')).reverse

/-- `drawn` is what `secrets.token_bytes` returns. -/
def register (caller : Caller) (body : RegisterRequest) (drawn : List UInt8) : Handler String := do
  let user ← getCurrentUser caller
  let onion ← ofExcept (validateOnion R body.onionAddress)
  match contactOf? (← get) user onion with
  | none => throw (.http 404 "Contact not found")
  | some (id, contact) =>
    let token := tokenOf drawn
    modify fun n => n.setContact id { contact with notifyQueueToken := some token }
    return token

/-- The tokens that a query names. -/
def tokenList (tokens : String) : List String :=
  ((tokens.toList.splitOn ',').map fun t => strip (String.ofList t)).filter (· ≠ "")

/-- `{t: (t in pending_tokens) for t in token_list}`. -/
def hasNew (pendingTokens : List String) (tokens : List String) : Dict String Bool :=
  tokens.foldl (fun flags t => flags.insert t (t ∈ pendingTokens)) .empty

/-- What is returned is the `has_new` of the answer. -/
def poll (caller : Caller) (tokens : String) : Action (Dict String Bool) := do
  let _ ← onNode (getCurrentUser caller)
  let asked := tokenList tokens
  if asked = [] then return .empty
  if maxTokens < asked.length then throw (.http 400 "Too many tokens (max 200)")
  let pendingTokens := (← get).notifyQueue.filter (· ∈ asked)
  return hasNew pendingTokens asked

def clear (caller : Caller) (body : ClearRequest) : Action Unit := do
  let _ ← onNode (getCurrentUser caller)
  if maxTokens < body.tokens.length then throw (.http 400 "Too many tokens (max 200)")
  modify fun s => { s with notifyQueue := s.notifyQueue.filter (· ∉ body.tokens) }

/-! ## Runs -/

/-- A request to the node. `elsewhere` stands for the endpoints that are not modelled: they may
change the tables in any way, but do not know the queue. -/
inductive Call
  | request (k : Request)
  | register (caller : Caller) (body : Json) (drawn : List UInt8)
  | poll (caller : Caller) (tokens : String)
  | clear (caller : Caller) (body : Json)
  | elsewhere (change : Node → Node)

def Call.run : Call → Action Unit
  | .request k => onNode (k.run R)
  | .register caller body drawn => onNode do
    let _ ← Notifications.register R caller (← parsed (RegisterRequest.read R body)) drawn
  | .poll caller tokens => do
    let _ ← Notifications.poll caller tokens
  | .clear caller body => do
    Notifications.clear caller (← onNode (parsed (ClearRequest.read R body)))
  | .elsewhere change => onNode (modify change)

/-! ## What the flags should be -/

/-- The tokens that were handed out, each with the address of its contact, and those whose flag
should be set. -/
structure Board where
  registered : List (String × String) := []
  due        : List String := []

/-- The token that a registration returns, and the contact it is for. -/
def registration (caller : Caller) (body : Json) (drawn : List UInt8) (n : Node) :
    Option (String × String) := do
  let request ← RegisterRequest.read R body
  let onion ← (validateOnion R request.onionAddress).toOption
  let token ← (register R caller request drawn n).value?
  return (token, onion)

/-- The sender of the message that a request makes the node store. -/
def storedFrom (k : Request) (n : Node) : Option String := do
  let r ← received R k n
  guard (r.ephemeral = false)
  return r.sender

/-- The tokens that a request clears. -/
def clearance (caller : Caller) (body : Json) (s : Station) : Option (List String) := do
  let request ← ClearRequest.read R body
  let _ ← (clear caller request s).value?
  return request.tokens

/-- A stored message sets the flags of the tokens of its sender, a clearance resets them. -/
def Board.note (board : Board) (call : Call) (s : Station) : Board :=
  match call with
  | .register caller body drawn =>
    { board with registered :=
        (registration R caller body drawn s.toNode).toList ++ board.registered }
  | .request k =>
    { board with due := (board.registered.filter fun entry =>
        some entry.2 = storedFrom R k s.toNode).map Prod.fst ++ board.due }
  | .clear caller body =>
    { board with due := board.due.filter fun t => ∀ tokens ∈ clearance R caller body s, t ∉ tokens }
  | _ => board

/-- The board after a run that starts in `s`. -/
def boardAfter : List Call → Station → Board → Board
  | [], _, board => board
  | call :: calls, s, board => boardAfter calls (call.run R s).state (board.note R call s)

/-- Every answer to a poll in the run reports the tokens whose flag should be set, and no others. -/
def TokensFire (calls : List Call) (s : Station) : Prop :=
  ∀ done caller tokens todo, calls = done ++ .poll caller tokens :: todo →
    ∀ flags, (poll caller tokens (after (Call.run R) done s)).value? = some flags →
      ∀ t flag, flags.get? t = some flag → (flag = true ↔ t ∈ (boardAfter R done s {}).due)

/-- The caller is a user, and does not ask for too many tokens. -/
def Admitted (caller : Caller) (tokens : String) (n : Node) : Prop :=
  (∃ username, truthy caller.username = some username ∧ n.user? username ≠ none) ∧
    (tokenList tokens).length ≤ maxTokens

/-- No poll that is admitted asks for a token whose flag should be set. -/
def NeverAwaited (calls : List Call) (s : Station) : Prop :=
  ∀ done caller tokens todo, calls = done ++ .poll caller tokens :: todo →
    Admitted caller tokens (after (Call.run R) done s).toNode →
      ∀ t ∈ tokenList tokens, t ∉ (boardAfter R done s {}).due

end

/-! ## What the endpoints do -/

section

variable {R : Runtime} (s : Station)

theorem getCurrentUser_cases (caller : Caller) (n : Node) :
    (∃ e, getCurrentUser caller n = .error e n ∧
      ∀ username, truthy caller.username = some username → n.user? username = none) ∨
    ∃ username user, getCurrentUser caller n = .ok user n ∧
      truthy caller.username = some username ∧ n.user? username = some user := by
  unfold getCurrentUser
  rcases truthy caller.username with _ | username
  · refine .inl ⟨_, rfl, ?_⟩
    rintro _ ⟨⟩
  dsimp only
  rw [apply_bind, apply_get]
  dsimp only
  rcases huser : n.user? username with _ | user
  · refine .inl ⟨_, rfl, ?_⟩
    rintro _ ⟨⟩
    exact huser
  · exact .inr ⟨username, user, rfl, rfl, huser⟩

/-- The flags of an answer are those of the tokens that are asked for. -/
theorem get?_hasNew (pendingTokens tokens : List String) (t : String) :
    (hasNew pendingTokens tokens).get? t =
      if t ∈ tokens then some (decide (t ∈ pendingTokens)) else none := by
  induction tokens using List.reverseRecOn with
  | nil => rfl
  | append_singleton tokens last ih =>
    rw [hasNew, List.foldl_concat, Dict.get?_insert]
    by_cases hlast : t = last
    · subst hlast
      simp
    · rw [if_neg hlast]
      simp only [List.mem_append, List.mem_singleton, hlast, or_false]
      exact ih

/-- A poll is answered when it is admitted, and reads the flags off the queue. -/
theorem poll_eq_some_iff {caller : Caller} {tokens : String} {flags : Dict String Bool} :
    (poll caller tokens s).value? = some flags ↔ Admitted caller tokens s.toNode ∧
      flags = hasNew (s.notifyQueue.filter (· ∈ tokenList tokens)) (tokenList tokens) := by
  unfold poll
  rw [apply_bind]
  rcases getCurrentUser_cases caller s.toNode with
    ⟨e, hrun, hnone⟩ | ⟨username, user, hrun, hname, huser⟩
  · -- the caller is not a user of the node
    rw [onNode, hrun]
    constructor
    · intro h
      cases h
    · rintro ⟨⟨⟨username, hname, hsome⟩, -⟩, -⟩
      exact absurd (hnone username hname) hsome
  rw [onNode, hrun]
  dsimp only
  have huser' : ∃ username, truthy caller.username = some username ∧
      s.toNode.user? username ≠ none := by
    refine ⟨username, hname, ?_⟩
    rw [huser]
    exact Option.some_ne_none user
  by_cases hempty : tokenList tokens = []
  · -- the early return is the answer to no token
    rw [if_pos hempty, Admitted, hempty]
    constructor
    · intro h
      exact ⟨⟨huser', Nat.zero_le _⟩, (Option.some.inj h).symm⟩
    · rintro ⟨-, rfl⟩
      rfl
  rw [if_neg hempty]
  by_cases hmany : maxTokens < (tokenList tokens).length
  · constructor
    · rw [if_pos hmany]
      intro h
      cases h
    · rintro ⟨⟨-, hle⟩, -⟩
      omega
  · rw [if_neg hmany]
    constructor
    · intro h
      exact ⟨⟨huser', by omega⟩, (Option.some.inj h).symm⟩
    · rintro ⟨-, rfl⟩
      rfl

theorem notifyQueue_onNode {α : Type} (x : Handler α) :
    (onNode x s).state.notifyQueue = s.notifyQueue := by
  unfold onNode
  rcases x s.toNode with _ | _ <;> rfl

/-- No request sets a flag. -/
theorem preserves_notifyQueue (queue : List String) (call : Call) :
    Preserves (fun s => s.notifyQueue ⊆ queue) (call.run R) := by
  have hnode : ∀ {α : Type} (x : Handler α), Preserves (fun s => s.notifyQueue ⊆ queue) (onNode x) := by
    intro α x s hs
    show (onNode x s).state.notifyQueue ⊆ queue
    rw [notifyQueue_onNode]
    exact hs
  rcases call with k | ⟨caller, body, drawn⟩ | ⟨caller, tokens⟩ | ⟨caller, body⟩ | change
  case request | register | elsewhere =>
    rw [Call.run]
    exact hnode _
  case poll =>
    refine .bind (.bind (hnode _) fun _ => ?_) fun _ => .pure _
    dsimp only
    split_ifs
    · exact .pure _
    · exact .bind (.throw _) fun _ => .get fun s hs => hs
    · exact .get fun s hs => hs
  case clear =>
    have hfilter : ∀ tokens : List String, Preserves (fun s => s.notifyQueue ⊆ queue)
        (modify fun s => { s with notifyQueue := s.notifyQueue.filter (· ∉ tokens) } : Action Unit) :=
      fun tokens => .modify fun s hs t ht => hs (List.mem_of_mem_filter ht)
    refine .bind (hnode _) fun request => .bind (hnode _) fun _ => ?_
    dsimp only
    split_ifs
    · exact .bind (.throw _) fun _ => hfilter _
    · exact hfilter _

/-- No flag is set in a run. -/
theorem notifyQueue_after (calls : List Call) :
    (after (Call.run R) calls s).notifyQueue ⊆ s.notifyQueue := by
  induction calls generalizing s with
  | nil => exact List.Subset.refl _
  | cons call calls ih =>
    intro t ht
    exact preserves_notifyQueue s.notifyQueue call s (List.Subset.refl _) (ih _ ht)

end

/-- In every run from a node whose queue is empty, the answers to polls report the tokens of
contacts whose messages were stored since the last clearance, and no others, exactly when no poll
asks for such a token. -/
theorem tokensFire_iff (R : Runtime) (calls : List Call) (n : Node) :
    TokensFire R calls ⟨n, []⟩ ↔ NeverAwaited R calls ⟨n, []⟩ := by
  have hempty : ∀ done, (after (Call.run R) done ⟨n, []⟩).notifyQueue = [] := by
    intro done
    exact List.subset_nil.mp (notifyQueue_after ⟨n, []⟩ done)
  constructor
  · intro hfire done caller tokens todo hcalls hadmitted t ht hdue
    -- the poll is answered, and denies the token
    have hflag := (hfire done caller tokens todo hcalls _
      ((poll_eq_some_iff _).mpr ⟨hadmitted, rfl⟩) t false ?_).mpr hdue
    · cases hflag
    · rw [get?_hasNew, if_pos ht, hempty]
      rfl
  · intro hnever done caller tokens todo hcalls flags hflags t flag hflag
    obtain ⟨hadmitted, rfl⟩ := (poll_eq_some_iff _).mp hflags
    rw [hempty, get?_hasNew] at hflag
    split_ifs at hflag with ht
    have hfalse : flag = false := by simpa using hflag.symm
    rw [hfalse]
    constructor
    · intro h
      cases h
    · intro hdue
      exact absurd hdue (hnever done caller tokens todo hcalls hadmitted t ht)

/-! ## A message that is not reported -/

/-- Alice takes a token for her contact, whose next message is stored; then she polls. -/
def unheardMessage : List Call := [
  .register ⟨some "alice", "default"⟩ (.obj [("onion_address", .str "aaaaaaaaaaaaaaaa.onion")])
    (List.replicate 32 0),
  .request (.message (.obj [("sender", .str "aaaaaaaaaaaaaaaa.onion"), ("iv", .str "aXY="),
    ("ciphertext", .str "Y3Q="), ("seq", .int 7), ("timestamp", .int 1700000000000)]) "u1"),
  .poll ⟨some "alice", "default"⟩ (tokenOf (List.replicate 32 0))]

/-- The poll denies that there is a new message. -/
theorem message_unheard : ¬ TokensFire asciiRuntime unheardMessage ⟨pairedNode, []⟩ := by
  intro hfire
  have hdue : tokenOf (List.replicate 32 0) ∈
      (boardAfter asciiRuntime (unheardMessage.take 2) ⟨pairedNode, []⟩ {}).due := by
    decide +kernel
  have hanswer : ((poll ⟨some "alice", "default"⟩ (tokenOf (List.replicate 32 0))
      (after (Call.run asciiRuntime) (unheardMessage.take 2) ⟨pairedNode, []⟩)).value?.bind
        fun flags => flags.get? (tokenOf (List.replicate 32 0))) = some false := by
    decide +kernel
  obtain ⟨flags, hflags, hflag⟩ := Option.bind_eq_some_iff.mp hanswer
  have htrue := (hfire (unheardMessage.take 2) _ _ [] rfl flags hflags _ false hflag).mpr hdue
  cases htrue

end AnonyMus.P2p.Notifications
