import AnonyMus.P2p.OnionSignature

/-!
# Relay server — the directory of nodes

`transports/relay/routers/nodes.py`: a table in memory with one entry for each
onion address. Registrations and heartbeats are signed with the key of the
address; the signed text is the address and a timestamp.

* `registerNode`, `heartbeat`, `deregisterNode` — the handlers that change it;
* `Authentic` — every change of an entry is asked for with the key of its address;
* `request_cases` — what a request changes;
* `authentic_iff` — runs are authentic as long as nothing is registered;
* `unsigned_removal` — anyone removes an entry.
-/

namespace AnonyMus.Relay.Nodes

open EStateM
open P2p

/-! ## The handlers -/

structure NodeEntry where
  onionAddress : String
  displayName  : Option String
  version      : String
  lastSeen     : DateTime
deriving DecidableEq

abbrev Directory := Dict String NodeEntry

/-- What pydantic lets through. -/
structure NodeRegisterRequest where
  onionAddress        : String
  displayName         : Option String := none
  version             : String := "3.0.0"
  timestamp           : String
  signatureB64        : String
  onionAddress_length : onionAddress.length = 62
  displayName_length  : ∀ name ∈ displayName, name.length ≤ 64
  version_length      : version.length ≤ 32

structure NodeHeartbeatRequest where
  onionAddress        : String
  timestamp           : String
  signatureB64        : String
  onionAddress_length : onionAddress.length = 62

structure NodeResponse where
  entry  : NodeEntry
  online : Bool

/-- `_ONION_V3_RE.match`. -/
def matchesOnionV3 (onionAddress : String) : Bool :=
  ((afterOnionV3 onionAddress).filter fun rest => rest == [] || rest == ['\n']).isSome

section

variable (S : SignatureLibrary)

/-- The signature is checked at `checkedAt`, the entry is written at `now`. -/
def registerNode (body : NodeRegisterRequest) (checkedAt now : DateTime) :
    EStateM Failure Directory NodeResponse := do
  ofExcept (verifyNodeSignature S body.onionAddress body.timestamp body.signatureB64 checkedAt)
  let entry : NodeEntry := ⟨body.onionAddress, body.displayName, body.version, now⟩
  modify fun nodes => nodes.insert body.onionAddress entry
  return ⟨entry, true⟩

def heartbeat (body : NodeHeartbeatRequest) (checkedAt now : DateTime) :
    EStateM Failure Directory NodeResponse := do
  ofExcept (verifyNodeSignature S body.onionAddress body.timestamp body.signatureB64 checkedAt)
  let nodes ← get
  match nodes.get? body.onionAddress with
  | none => throw (.http 404 "Node not found — register first")
  | some node =>
    let node := { node with lastSeen := now }
    set (nodes.insert body.onionAddress node)
    return ⟨node, true⟩

def deregisterNode (onionAddress : String) : EStateM Failure Directory Unit := do
  if matchesOnionV3 onionAddress then
    let nodes ← get
    match nodes.get? onionAddress with
    | none => throw (.http 404 "Node not found")
    | some _ => set (nodes.erase onionAddress)
  else
    throw (.http 400 "Invalid onion address format")

end

/-! ## Requests -/

inductive Request
  | register (body : NodeRegisterRequest) (checkedAt now : DateTime)
  | heartbeat (body : NodeHeartbeatRequest) (checkedAt now : DateTime)
  | deregister (onionAddress : String)

/-- What the directory is asked for, whatever it answers. -/
def Request.run (S : SignatureLibrary) : Request → EStateM Failure Directory Unit
  | register body checkedAt now => discard (registerNode S body checkedAt now)
  | heartbeat body checkedAt now => discard (Nodes.heartbeat S body checkedAt now)
  | deregister onionAddress => deregisterNode onionAddress

/-- The address, the timestamp and the signature, if the request is signed. -/
def Request.credentials? : Request → Option (String × String × String)
  | register body _ _ => some (body.onionAddress, body.timestamp, body.signatureB64)
  | heartbeat body _ _ => some (body.onionAddress, body.timestamp, body.signatureB64)
  | deregister _ => none

/-- The key that an address is made of, whatever the case of its letters. -/
def onionKey (onionAddress : String) : Option (List UInt8) :=
  (b32decode ((onionAddress.toList.take 56).map Char.toUpper)).map (List.take 32)

section

variable (S : SignatureLibrary)

/-- The signature verifies under the key of the address. -/
def SignedBy (onionAddress timestamp signatureB64 : String) : Prop :=
  ∃ key ∈ onionKey onionAddress, ∃ signature,
    Python.b64decode (.text signatureB64.toList) = .ok signature ∧
      S.verify key signature (onionAddress ++ "|" ++ timestamp).toUTF8.toList = true

/-- With the same credentials, no other values are accepted. -/
def Request.Covered : Request → Prop
  | register body checkedAt _ => ∀ body' : NodeRegisterRequest,
    body'.onionAddress = body.onionAddress → body'.timestamp = body.timestamp →
    body'.signatureB64 = body.signatureB64 →
    verifyNodeSignature S body'.onionAddress body'.timestamp body'.signatureB64 checkedAt = .ok ⟨⟩ →
      body'.displayName = body.displayName ∧ body'.version = body.version
  -- what is written is the time
  | heartbeat _ _ _ => True
  | deregister _ => True

def Request.InTime : Request → Prop
  | register body checkedAt _ => InWindow S body.timestamp checkedAt maxSkewSeconds
  | heartbeat body checkedAt _ => InWindow S body.timestamp checkedAt maxSkewSeconds
  | deregister _ => True

/-- A request that may change the entry of an address, after others. -/
structure Warranted (done : List Request) (e : Request) (onionAddress : String) : Prop where
  signed : ∃ timestamp signatureB64, e.credentials? = some (onionAddress, timestamp, signatureB64) ∧
    SignedBy S onionAddress timestamp signatureB64
  covers : e.Covered S
  inTime : e.InTime S
  fresh  : ∀ e' ∈ done, e'.credentials? ≠ e.credentials?

/-- In a run from the empty directory, every entry is changed by a request that may change it. -/
def Authentic (events : List Request) : Prop :=
  ∀ done e todo, events = done ++ e :: todo → ∀ onionAddress,
    (after (Request.run S) (done ++ [e]) .empty).get? onionAddress ≠
      (after (Request.run S) done .empty).get? onionAddress →
    Warranted S done e onionAddress

/-- A registration that passes the check. -/
def Request.Registers : Request → Prop
  | register body checkedAt _ =>
    verifyNodeSignature S body.onionAddress body.timestamp body.signatureB64 checkedAt = .ok ⟨⟩
  | heartbeat _ _ _ => False
  | deregister _ => False

end

/-! ## What a request changes -/

section

variable {S : SignatureLibrary} {nodes : Directory} {now : DateTime}

theorem run_register {body : NodeRegisterRequest} {checkedAt : DateTime}
    (hverify : (Request.register body checkedAt now).Registers S) :
    ((Request.register body checkedAt now).run S nodes).state = nodes.insert body.onionAddress
      ⟨body.onionAddress, body.displayName, body.version, now⟩ := by
  unfold Request.Registers at hverify
  unfold Request.run registerNode
  dsimp only
  rw [hverify]
  rfl

theorem run_deregister {onionAddress : String} {node : NodeEntry}
    (hmatch : matchesOnionV3 onionAddress = true) (hnode : nodes.get? onionAddress = some node) :
    ((Request.deregister onionAddress).run S nodes).state = nodes.erase onionAddress := by
  unfold Request.run deregisterNode
  dsimp only
  rw [if_pos hmatch, apply_bind, apply_get]
  dsimp only
  rw [hnode]
  rfl

/-- A request registers, refreshes or removes an entry, or changes nothing. -/
theorem request_cases (S : SignatureLibrary) (e : Request) (nodes : Directory) :
    (∃ body checkedAt now, e = .register body checkedAt now ∧ e.Registers S ∧
      (e.run S nodes).state = nodes.insert body.onionAddress
        ⟨body.onionAddress, body.displayName, body.version, now⟩) ∨
    (∃ body checkedAt now node, e = .heartbeat body checkedAt now ∧
      verifyNodeSignature S body.onionAddress body.timestamp body.signatureB64 checkedAt =
        .ok ⟨⟩ ∧
      nodes.get? body.onionAddress = some node ∧
      (e.run S nodes).state = nodes.insert body.onionAddress { node with lastSeen := now }) ∨
    (∃ onionAddress node, e = .deregister onionAddress ∧ nodes.get? onionAddress = some node ∧
      (e.run S nodes).state = nodes.erase onionAddress) ∨
    (e.run S nodes).state = nodes := by
  rcases e with ⟨body, checkedAt, now⟩ | ⟨body, checkedAt, now⟩ | onionAddress
  · rcases hverify : verifyNodeSignature S body.onionAddress body.timestamp body.signatureB64
      checkedAt with failure | _
    · right; right; right
      unfold Request.run registerNode
      dsimp only
      rw [hverify]
      rfl
    · exact .inl ⟨body, checkedAt, now, rfl, hverify, run_register hverify⟩
  · rcases hverify : verifyNodeSignature S body.onionAddress body.timestamp body.signatureB64
      checkedAt with failure | _
    · right; right; right
      unfold Request.run heartbeat
      dsimp only
      rw [hverify]
      rfl
    · have hrun : ((Request.heartbeat body checkedAt now).run S nodes).state =
          (heartbeat S body checkedAt now nodes).state := state_map _ _ _
      rw [hrun]
      unfold heartbeat
      rw [hverify, apply_bind, apply_ofExcept_ok]
      dsimp only
      rw [apply_bind, apply_get]
      dsimp only
      rcases hnode : nodes.get? body.onionAddress with _ | node
      · exact .inr (.inr (.inr rfl))
      · exact .inr (.inl ⟨body, checkedAt, now, node, rfl, hverify, hnode, rfl⟩)
  · unfold Request.run deregisterNode
    dsimp only
    split_ifs with hmatch
    · rw [apply_bind, apply_get]
      dsimp only
      rcases hnode : nodes.get? onionAddress with _ | node
      · exact .inr (.inr (.inr rfl))
      · exact .inr (.inr (.inl ⟨onionAddress, node, rfl, hnode, rfl⟩))
    · exact .inr (.inr (.inr rfl))

/-- Without a registration, an empty directory stays empty. -/
theorem run_empty {e : Request} (h : ¬ e.Registers S) : (e.run S .empty).state = .empty := by
  rcases request_cases S e .empty with ⟨body, checkedAt, now, rfl, hregisters, -⟩ |
    ⟨body, checkedAt, now, node, -, -, hnode, -⟩ | ⟨onionAddress, node, -, hnode, -⟩ | hsame
  · exact absurd hregisters h
  · cases hnode
  · cases hnode
  · exact hsame

theorem after_empty {events : List Request} (h : ∀ e ∈ events, ¬ e.Registers S) :
    after (Request.run S) events .empty = .empty := by
  induction events with
  | nil => rfl
  | cons e events ih =>
    rw [after_cons, run_empty (h e List.mem_cons_self)]
    exact ih fun e' he' => h e' (List.mem_cons_of_mem _ he')

/-- The address of a key, in lower case, is never registered. -/
theorem not_registers_onionV3 {publicKey : Bytes 32} {checksum : Bytes 2} {body : NodeRegisterRequest}
    (h : body.onionAddress = onionV3 publicKey checksum) (checkedAt : DateTime) :
    ¬ (Request.register body checkedAt now).Registers S := by
  intro hregisters
  unfold Request.Registers at hregisters
  dsimp only at hregisters
  rw [h, verifyNodeSignature_onionV3] at hregisters
  cases hregisters

/-- No signature covers what a registration writes. -/
theorem not_covered_of_registers {e : Request} (h : e.Registers S) : ¬ e.Covered S := by
  rcases e with ⟨body, checkedAt, now⟩ | ⟨body, checkedAt, now⟩ | onionAddress
  · intro hcovered
    -- the same credentials, with another version
    have hversion : ∃ version : String, version.length ≤ 32 ∧ version ≠ body.version := by
      by_cases hempty : body.version = ""
      · exact ⟨"3.0.0", by decide, by rw [hempty]; decide⟩
      · exact ⟨"", by decide, Ne.symm hempty⟩
    obtain ⟨version, hlength, hne⟩ := hversion
    exact hne (hcovered { body with version := version, version_length := hlength } rfl rfl rfl h).2
  · exact absurd h id
  · exact absurd h id

end

/-- A run from the empty directory is authentic exactly if no registration of it passes the check
of the signature. -/
theorem authentic_iff (S : SignatureLibrary) (events : List Request) :
    Authentic S events ↔ ∀ e ∈ events, ¬ e.Registers S := by
  constructor
  · intro hauthentic
    -- up to the first registration that passes, the directory is empty
    have hprefix : ∀ done todo, events = done ++ todo → ∀ e ∈ done, ¬ e.Registers S := by
      intro done
      induction done using List.reverseRecOn with
      | nil =>
        intro todo _ e he
        cases he
      | append_singleton done e ih =>
        intro todo hevents
        rw [List.append_assoc, List.singleton_append] at hevents
        have hdone := ih _ hevents
        intro e' he'
        rcases List.mem_append.mp he' with he' | he'
        · exact hdone e' he'
        · obtain rfl := List.mem_singleton.mp he'
          intro hregisters
          have hempty := after_empty hdone
          rcases e' with ⟨body, checkedAt, now⟩ | ⟨body, checkedAt, now⟩ | onionAddress
          · refine not_covered_of_registers hregisters
              (hauthentic done _ todo hevents body.onionAddress ?_).covers
            rw [after_append, hempty, after_cons, run_register hregisters, after_nil,
              Dict.get?_insert]
            simp
          · exact hregisters
          · exact hregisters
    exact hprefix events [] (List.append_nil _).symm
  · rintro hnone done e todo rfl onionAddress hchange
    have hdone := after_empty (S := S) fun e' he' => hnone e' (List.mem_append_left _ he')
    have hnone' : ∀ e' ∈ done ++ [e], ¬ e'.Registers S := by
      intro e' he'
      refine hnone e' ?_
      rw [← List.singleton_append, ← List.append_assoc]
      exact List.mem_append_left _ he'
    have hstep := after_empty hnone'
    rw [hdone, hstep] at hchange
    exact absurd rfl hchange

/-! ## A removal -/

/-- An address that decodes: 56 times the digit 2. -/
def digitsOnion : String := String.ofList (List.replicate 56 '2' ++ ".onion".toList)

def digitsKey : List UInt8 := ((b32decode (List.replicate 56 '2')).getD []).take 32

def digitsTimestamp : String := "2023-11-15T09:30:05Z"

/-- The key, and the text that is signed. -/
def digitsSignature : String :=
  String.ofList (b64encode (digitsKey ++ (digitsOnion ++ "|" ++ digitsTimestamp).toUTF8.toList))

theorem toList_digitsOnion : digitsOnion.toList = List.replicate 56 '2' ++ ".onion".toList :=
  String.toList_ofList

theorem take_digitsOnion : digitsOnion.toList.take 56 = List.replicate 56 '2' := by
  rw [toList_digitsOnion]
  exact List.take_left' List.length_replicate

theorem afterOnionV3_digitsOnion :
    (afterOnionV3 digitsOnion).filter (fun rest => rest == [] || rest == ['\n']) = some [] := by
  unfold afterOnionV3
  dsimp only
  rw [toList_digitsOnion]
  decide +kernel

def digitsRequest : NodeRegisterRequest where
  onionAddress        := digitsOnion
  timestamp           := digitsTimestamp
  signatureB64        := digitsSignature
  onionAddress_length := by
    rw [← String.length_toList, toList_digitsOnion]
    rfl
  displayName_length  := by rintro name ⟨⟩
  version_length      := by decide

theorem registers_digitsRequest :
    (Request.register digitsRequest aMoment aMoment).Registers plainSignatures := by
  have hbytes : b32decode (List.replicate 56 '2') =
      some ((b32decode (List.replicate 56 '2')).getD []) := by decide +kernel
  have hlength : ((b32decode (List.replicate 56 '2')).getD []).length = 35 := by decide +kernel
  have hstamp : plainSignatures.fromIsoformat (replaceZ digitsTimestamp) =
      some ⟨aMoment, some 0⟩ := by decide +kernel
  have hsignature : Python.b64decode (.text digitsSignature.toList) =
      .ok (digitsKey ++ (digitsOnion ++ "|" ++ digitsTimestamp).toUTF8.toList) := by
    rw [digitsSignature, String.toList_ofList, Python.b64decode_b64encode]
  show verifyNodeSignature plainSignatures digitsOnion digitsTimestamp digitsSignature aMoment =
    .ok ⟨⟩
  unfold verifyNodeSignature verifySigned
  rw [afterOnionV3_digitsOnion]
  dsimp only
  rw [take_digitsOnion, List.length_replicate, show (8 - 56 % 8) % 8 = 0 from rfl,
    List.replicate_zero, List.append_nil, hbytes]
  dsimp only
  rw [if_neg (not_not.mpr hlength), hstamp, hsignature]
  dsimp only [utcMicroseconds, Option.map]
  rw [if_neg (by decide +kernel)]
  exact if_pos (beq_self_eq_true _)

/-- The entry of a signed registration is removed without a signature. -/
theorem unsigned_removal :
    ¬ Authentic plainSignatures
      [.register digitsRequest aMoment aMoment, .deregister digitsOnion] := by
  intro hauthentic
  have hentry : (Dict.empty.insert digitsRequest.onionAddress
      ⟨digitsRequest.onionAddress, digitsRequest.displayName, digitsRequest.version, aMoment⟩ :
        Directory).get? digitsOnion = some ⟨digitsRequest.onionAddress,
          digitsRequest.displayName, digitsRequest.version, aMoment⟩ := by
    rw [Dict.get?_insert]
    exact if_pos rfl
  have hmatch : matchesOnionV3 digitsOnion = true := by
    unfold matchesOnionV3
    rw [afterOnionV3_digitsOnion]
    rfl
  have hchange : (after (Request.run plainSignatures)
      [.register digitsRequest aMoment aMoment, .deregister digitsOnion] .empty).get?
        digitsOnion ≠ (after (Request.run plainSignatures)
      [.register digitsRequest aMoment aMoment] .empty).get? digitsOnion := by
    rw [after_cons, after_cons, after_nil, after_cons, after_nil,
      run_register registers_digitsRequest, run_deregister hmatch hentry,
      Dict.get?_erase, if_pos rfl]
    intro hnone
    exact Option.some_ne_none _ (hentry.symm.trans hnone.symm)
  obtain ⟨timestamp, signatureB64, hcredentials, -⟩ :=
    (hauthentic [.register digitsRequest aMoment aMoment] _ [] rfl digitsOnion hchange).signed
  cases hcredentials

end AnonyMus.Relay.Nodes
