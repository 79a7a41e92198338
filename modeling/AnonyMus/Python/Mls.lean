import AnonyMus.Lib.Lineage
import AnonyMus.Lib.Simulation
import AnonyMus.Python.Protocol

/-!
# Python core — group contexts

`core/mls_groups.py`: a group context and its copies at the members. What
`os.urandom` returns is an argument. A commit is issued with the epoch secret
that the committer has after it, and can be processed anywhere, in any order.

* `MLSGroupContext`, `addMember`, `removeMember`, `rotateEpoch`, `processCommit`,
  `encryptGroupMessage`, `decryptGroupMessage` — the code;
* `Group`, `GroupEvent.step` — copies, and the commits issued so far;
* `Issues`, `Group.Sound` — every commit is made in a state that is known;
* `sound_step` — every event leads to such a state.
-/

namespace AnonyMus.Python.Mls

open EStateM
open Lineage

/-! ## The context -/

structure MLSKeyPackage where
  clientId     : String
  publicKeyB64 : String
deriving DecidableEq

/-- What a commit does, by its own field. -/
inductive Change
  | addedClientId (clientId : String)
  | removedClientId (memberId : String)
  | rotated
deriving DecidableEq

structure CommitPayload where
  groupId : String
  epoch   : ℕ
  change  : Change
  members : List String
deriving DecidableEq

structure MLSGroupContext where
  groupId     : String
  creatorId   : String
  epoch       : ℕ
  members     : List String
  epochSecret : List UInt8
  appSecret   : Bytes 32
deriving DecidableEq

/-- HKDF-SHA256 of the `cryptography` package with an output of 32 bytes. -/
abbrev Hkdf32 := (salt info ikm : List UInt8) → Bytes 32

section

variable (hkdf : Hkdf32)

def deriveAppSecret (groupId : String) (epoch : ℕ) (epochSecret : List UInt8) : Bytes 32 :=
  hkdf groupId.toUTF8.toList ("AnonyMus-MLS-Epoch-" ++ toString epoch).toUTF8.toList epochSecret

/-- `__init__`. -/
def create (groupId creatorId : String) (urandom : Bytes 32) : MLSGroupContext where
  groupId     := groupId
  creatorId   := creatorId
  epoch       := 0
  members     := [creatorId]
  epochSecret := urandom.1
  appSecret   := deriveAppSecret hkdf groupId 0 urandom.1

/-- The context in the next epoch. -/
def advance (members : List String) (epochSecret : List UInt8) (g : MLSGroupContext) :
    MLSGroupContext :=
  { g with
    epoch       := g.epoch + 1
    members     := members
    epochSecret := epochSecret
    appSecret   := deriveAppSecret hkdf g.groupId (g.epoch + 1) epochSecret }

def commitOf (change : Change) (g : MLSGroupContext) : CommitPayload where
  groupId := g.groupId
  epoch   := g.epoch
  change  := change
  members := g.members

def addMember (keyPackage : MLSKeyPackage) (g : MLSGroupContext) :
    CommitPayload × MLSGroupContext :=
  let members := if keyPackage.clientId ∈ g.members then g.members
    else g.members ++ [keyPackage.clientId]
  let epochSecret := hkdf g.epochSecret "AnonyMus-MLS-NextEpoch".toUTF8.toList
    keyPackage.publicKeyB64.toUTF8.toList
  let g' := advance hkdf members epochSecret.1 g
  (commitOf (.addedClientId keyPackage.clientId) g', g')

def removeMember (memberId : String) (freshEntropy : Bytes 32) (g : MLSGroupContext) :
    CommitPayload × MLSGroupContext :=
  let members := g.members.erase memberId
  let epochSecret := hkdf g.epochSecret "AnonyMus-MLS-RemoveMember".toUTF8.toList freshEntropy.1
  let g' := advance hkdf members epochSecret.1 g
  (commitOf (.removedClientId memberId) g', g')

def rotateEpoch (freshEntropy : Bytes 32) (g : MLSGroupContext) : CommitPayload × MLSGroupContext :=
  let epochSecret := hkdf g.epochSecret "AnonyMus-MLS-EpochRatchet".toUTF8.toList freshEntropy.1
  let g' := advance hkdf g.members epochSecret.1 g
  (commitOf .rotated g', g')

def processCommit (commit : CommitPayload) (newEpochSecret : List UInt8) (g : MLSGroupContext) :
    MLSGroupContext :=
  { g with
    epoch       := commit.epoch
    members     := commit.members
    epochSecret := newEpochSecret
    appSecret   := deriveAppSecret hkdf g.groupId commit.epoch newEpochSecret }

end

/-- The object whose JSON text, in base64, is a message of the group. -/
structure GroupPayload where
  epoch      : ℕ
  nonce      : List Char
  ciphertext : List Char
deriving DecidableEq

section

variable (L : Library)

def encryptGroupMessage (plaintext : String) (nonce : Bytes 12) (g : MLSGroupContext) :
    Except PyError GroupPayload := do
  let ciphertext ← L.aesgcmEncrypt g.appSecret.1 nonce.1 plaintext.toUTF8.toList
    g.groupId.toUTF8.toList
  return ⟨g.epoch, b64encode nonce.1, b64encode ciphertext⟩

def decryptGroupMessage (data : GroupPayload) (g : MLSGroupContext) : Except PyError String := do
  if data.epoch ≠ g.epoch then
    throw (.valueError ("Epoch mismatch: payload epoch " ++ toString data.epoch ++
      " != local epoch " ++ toString g.epoch))
  let nonce ← b64decode (.text data.nonce)
  let ciphertext ← b64decode (.text data.ciphertext)
  let plaintextBytes ← L.aesgcmDecrypt g.appSecret.1 nonce ciphertext g.groupId.toUTF8.toList
  decodeUtf8 plaintextBytes

end

/-! ## Copies of a group -/

/-- What a commit and its secret say. -/
structure EpochState where
  groupId     : String
  epoch       : ℕ
  members     : List String
  epochSecret : List UInt8
  /-- None for what a context has started with. -/
  change      : Option Change
deriving DecidableEq

def MLSGroupContext.start (g : MLSGroupContext) : EpochState :=
  ⟨g.groupId, g.epoch, g.members, g.epochSecret, none⟩

def CommitPayload.withSecret (commit : CommitPayload) (epochSecret : List UInt8) : EpochState :=
  ⟨commit.groupId, commit.epoch, commit.members, epochSecret, some commit.change⟩

/-- A copy, and, for the proofs, the commit that its state is from. -/
structure Replica where
  context : MLSGroupContext
  mark    : Mark EpochState

/-- The copies, and the commits that have been issued, with their secrets and the states they were
made in. -/
structure Group (ι : Type) where
  replicas : ι → Replica
  issued   : List (Entry EpochState)

inductive GroupEvent (ι : Type)
  | add (r : ι) (keyPackage : MLSKeyPackage)
  | remove (r : ι) (memberId : String) (freshEntropy : Bytes 32)
  | rotate (r : ι) (freshEntropy : Bytes 32)
  /-- The copy is given the commit number `k`. -/
  | process (r : ι) (k : ℕ)

section

variable {ι : Type} [DecidableEq ι] (hkdf : Hkdf32)

def Group.context (w : Group ι) (r : ι) : MLSGroupContext := (w.replicas r).context

/-- The copy has made a commit. -/
def Group.issue (w : Group ι) (r : ι) (made : CommitPayload × MLSGroupContext) : Group ι where
  replicas := Function.update w.replicas r ⟨made.2, .entry w.issued.length⟩
  issued   := w.issued ++ [⟨(w.replicas r).mark, made.1.withSecret made.2.epochSecret⟩]

/-- `processCommit` with what was issued. -/
def takeCommit (s : EpochState) (g : MLSGroupContext) : MLSGroupContext :=
  processCommit hkdf ⟨s.groupId, s.epoch, s.change.getD .rotated, s.members⟩ s.epochSecret g

/-- The copy takes the commit number `k`. -/
def Group.take (w : Group ι) (r : ι) (k : ℕ) (s : EpochState) : Group ι where
  replicas := Function.update w.replicas r ⟨takeCommit hkdf s (w.context r), .entry k⟩
  issued   := w.issued

namespace GroupEvent

def step : GroupEvent ι → Group ι → Group ι
  | add r keyPackage, w => w.issue r (addMember hkdf keyPackage (w.context r))
  | remove r memberId freshEntropy, w =>
    w.issue r (removeMember hkdf memberId freshEntropy (w.context r))
  | rotate r freshEntropy, w => w.issue r (rotateEpoch hkdf freshEntropy (w.context r))
  | process r k, w =>
    match w.issued[k]? with
    | some e => w.take hkdf r k e.state
    | none => w

/-- The event as an action that cannot fail. -/
def run (e : GroupEvent ι) : EStateM Empty (Group ι) Unit := modify (e.step hkdf)

end GroupEvent

end

/-! ## What an event does -/

/-- The members after a change. -/
def Change.apply : Change → List String → List String
  | .addedClientId clientId, members =>
    if clientId ∈ members then members else members ++ [clientId]
  | .removedClientId memberId, members => members.erase memberId
  | .rotated, members => members

/-- The context that makes the event's commit, if it makes one. -/
def GroupEvent.issuer? {ι : Type} : GroupEvent ι → Option ι
  | .add r _ | .remove r _ _ | .rotate r _ => some r
  | .process _ _ => none

section

variable {ι : Type} [DecidableEq ι] {hkdf : Hkdf32} {w : Group ι} {r : ι}

/-- The context in the next epoch, after a change and with some secret. -/
def changed (hkdf : Hkdf32) (change : Change) (epochSecret : List UInt8) (g : MLSGroupContext) :
    CommitPayload × MLSGroupContext :=
  let g' := advance hkdf (change.apply g.members) epochSecret g
  (commitOf change g', g')

/-- An event makes a commit, takes one, or does nothing. -/
theorem step_cases (e : GroupEvent ι) (w : Group ι) :
    (∃ r change epochSecret, e.issuer? = some r ∧
      e.step hkdf w = w.issue r (changed hkdf change epochSecret (w.context r))) ∨
    (∃ r k entry, e = .process r k ∧ w.issued[k]? = some entry ∧
      e.step hkdf w = w.take hkdf r k entry.state) ∨
    e.step hkdf w = w := by
  rcases e with ⟨r, keyPackage⟩ | ⟨r, memberId, freshEntropy⟩ | ⟨r, freshEntropy⟩ | ⟨r, k⟩
  · exact .inl ⟨r, .addedClientId keyPackage.clientId, _, rfl, rfl⟩
  · exact .inl ⟨r, .removedClientId memberId, _, rfl, rfl⟩
  · exact .inl ⟨r, .rotated, _, rfl, rfl⟩
  · unfold GroupEvent.step
    dsimp only
    rcases hentry : w.issued[k]? with _ | entry
    · exact .inr (.inr rfl)
    · exact .inr (.inl ⟨r, k, entry, rfl, hentry, rfl⟩)

@[simp] theorem replicas_issue (made : CommitPayload × MLSGroupContext) (r' : ι) :
    (w.issue r made).replicas r' =
      if r' = r then ⟨made.2, .entry w.issued.length⟩ else w.replicas r' :=
  Function.update_apply _ _ _ _

@[simp] theorem replicas_take (k : ℕ) (s : EpochState) (r' : ι) :
    (w.take hkdf r k s).replicas r' =
      if r' = r then ⟨takeCommit hkdf s (w.context r), .entry k⟩ else w.replicas r' :=
  Function.update_apply _ _ _ _

/-! ## States that are known -/

/-- A commit made in a state. -/
structure Issues (s t : EpochState) : Prop where
  groupId : t.groupId = s.groupId
  epoch   : t.epoch = s.epoch + 1
  members : ∃ change, t.change = some change ∧ t.members = change.apply s.members

/-- The context has the state of its mark. -/
structure Replica.Holds (R : Replica) (log : List (Entry EpochState)) (s : EpochState) : Prop where
  state   : R.mark.state? log = some s
  before  : R.mark.Before log.length
  groupId : R.context.groupId = s.groupId
  epoch   : R.context.epoch = s.epoch
  members : R.context.members = s.members
  secret  : R.context.epochSecret = s.epochSecret

structure Group.Sound (w : Group ι) : Prop where
  grown : Grown Issues w.issued
  holds : ∀ r, ∃ s, (w.replicas r).Holds w.issued s

theorem Replica.Holds.append {R : Replica} {log : List (Entry EpochState)} {s : EpochState}
    (h : R.Holds log s) (log' : List (Entry EpochState)) : R.Holds (log ++ log') s where
  state   := Mark.state?_append log' h.state
  before  := by
    have hbefore := h.before
    rcases hmark : R.mark with s₀ | k
    · trivial
    · rw [hmark] at hbefore
      rw [List.length_append]
      exact Nat.lt_add_right _ hbefore
  groupId := h.groupId
  epoch   := h.epoch
  members := h.members
  secret  := h.secret

theorem issues_changed {g : MLSGroupContext} {s : EpochState} (change : Change)
    (epochSecret : List UInt8) (hgroupId : g.groupId = s.groupId) (hepoch : g.epoch = s.epoch)
    (hmembers : g.members = s.members) :
    Issues s ((changed hkdf change epochSecret g).1.withSecret
      (changed hkdf change epochSecret g).2.epochSecret) where
  groupId := hgroupId
  epoch   := congrArg (· + 1) hepoch
  members := ⟨change, rfl, congrArg change.apply hmembers⟩

/-- What a copy holds after its own commit. -/
theorem holds_issue (w : Group ι) (r : ι) (change : Change) (epochSecret : List UInt8) :
    Replica.Holds ⟨(changed hkdf change epochSecret (w.context r)).2, .entry w.issued.length⟩
      (w.issue r (changed hkdf change epochSecret (w.context r))).issued
      ((changed hkdf change epochSecret (w.context r)).1.withSecret
        (changed hkdf change epochSecret (w.context r)).2.epochSecret) where
  state   := by
    show ((w.issued ++ [_])[w.issued.length]?).map Entry.state = _
    rw [List.getElem?_append_right (Nat.le_refl _), Nat.sub_self]
    rfl
  before  := by
    show w.issued.length < (w.issued ++ [_]).length
    rw [List.length_append, List.length_singleton]
    omega
  groupId := rfl
  epoch   := rfl
  members := rfl
  secret  := rfl

/-- An event leads to known states, if a commit is only taken in its own group. -/
theorem sound_step (e : GroupEvent ι) (h : w.Sound)
    (hgroup : ∀ r k entry, e = .process r k → w.issued[k]? = some entry →
      entry.state.groupId = (w.context r).groupId) : (e.step hkdf w).Sound := by
  rcases step_cases e w with ⟨r, change, epochSecret, -, hstep⟩ | ⟨r, k, entry, rfl, hentry, hstep⟩ | hstep
  · rw [hstep]
    obtain ⟨s, hs⟩ := h.holds r
    constructor
    · exact h.grown.append hs.before hs.state
        (issues_changed change epochSecret hs.groupId hs.epoch hs.members)
    · intro r'
      rw [replicas_issue]
      split_ifs
      · exact ⟨_, holds_issue w r change epochSecret⟩
      · obtain ⟨s', hs'⟩ := h.holds r'
        exact ⟨s', hs'.append _⟩
  · rw [hstep]
    refine ⟨h.grown, fun r' => ?_⟩
    rw [replicas_take]
    split_ifs
    · refine ⟨entry.state, ?_, (List.getElem?_eq_some_iff.mp hentry).1, ?_, rfl, rfl, rfl⟩
      · show (w.issued[k]?).map Entry.state = some entry.state
        rw [hentry]
        rfl
      · exact (hgroup r k entry rfl hentry).symm
    · exact h.holds r'
  · rw [hstep]
    exact h

end

/-- Copies that have not seen a commit. -/
def Group.opened {ι : Type} (contexts : ι → MLSGroupContext) : Group ι where
  replicas r := ⟨contexts r, .start (contexts r).start⟩
  issued     := []

theorem sound_opened {ι : Type} (contexts : ι → MLSGroupContext) :
    (Group.opened contexts).Sound where
  grown := grown_nil
  holds r := ⟨(contexts r).start, rfl, trivial, rfl, rfl, rfl, rfl⟩

end AnonyMus.Python.Mls
