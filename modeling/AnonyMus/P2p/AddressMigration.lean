import AnonyMus.Lib.Dict
import AnonyMus.Lib.EState
import AnonyMus.Lib.Transaction
import AnonyMus.P2p.LegacyReplay

/-!
# P2P node — migrating the address of a contact

`migrate_contact_address` of `transports/p2p/database.py`, on a pooled connection of
the driver: a change opens a transaction unless one is open, and the pragma
`foreign_keys` does nothing inside of one. Any statement may raise.

* `Tables`, `Pooled` — the database, and a connection to it;
* `migrateContactAddress` — the function, with the statements that raise;
* `Migrated` — all rows that have named the old address name the new one;
* `Sound` — what is returned says what has happened;
* `body_cases` — the statements up to the commit;
* `migration_sound_iff` — when the answer is sound;
* `foreignKeys_lost` — an ordinary migration.
-/

namespace AnonyMus.P2p.Database

open EStateM
open Legacy (Library normalized)

/-! ## Tables -/

/-- A row of `contacts`: the primary key, and the other columns. -/
structure ContactRow (C : Type) where
  onionAddress : String
  columns      : C

/-- A row of `messages`. -/
structure MessageRow (M : Type) where
  peerOnion : String
  sender    : String
  timestamp : ℤ
  columns   : M

/-- A row of `message_edits`. -/
structure EditRow where
  id              : ℕ
  peerOnion       : String
  targetTimestamp : ℤ
  oldText         : String
  editTimestamp   : ℤ
deriving DecidableEq

/-- The tables in the order of their rows; `config` by its key, and the other tables. -/
structure Tables (C M O : Type) where
  contacts     : List (ContactRow C)
  messages     : List (MessageRow M)
  messageEdits : List EditRow
  config       : Dict String String
  others       : O
  primaryKey   : (contacts.map ContactRow.onionAddress).Nodup

variable {C M O : Type}

namespace Tables

def addresses (d : Tables C M O) : List String := d.contacts.map ContactRow.onionAddress

/-- `get_message_edits` of a normalized address. -/
def getMessageEdits (d : Tables C M O) (peerOnion : String) (targetTimestamp : ℤ) :
    List (String × ℤ) :=
  ((d.messageEdits.filter fun e => e.peerOnion = peerOnion ∧ e.targetTimestamp = targetTimestamp)
    |>.mergeSort fun e e' => e.editTimestamp ≤ e'.editTimestamp).map
      fun e => (e.oldText, e.editTimestamp)

end Tables

def renamed (old new address : String) : String := if address = old then new else address

theorem renamed_of_ne {old new address : String} (h : address ≠ old) :
    renamed old new address = address := if_neg h

theorem nodup_renamed {old new : String} {addresses : List String} (h : addresses.Nodup)
    (hnew : new ∉ addresses) : (addresses.map (renamed old new)).Nodup := by
  refine List.Nodup.map_on ?_ h
  intro a ha b hb heq
  unfold renamed at heq
  split_ifs at heq with hold hold'
  · rw [hold, hold']
  · exact absurd (heq ▸ hb) hnew
  · exact absurd (heq ▸ ha) hnew
  · exact heq

/-- The config key of our public key for a contact. -/
def myPubkeyFor (address : String) : String := "my_pubkey_for_" ++ address

namespace Tables

variable (enforced : Bool) (old new : String) (d : Tables C M O)

def mentions (address : String) : Bool := d.messages.any fun m => m.peerOnion = address

/-- `UPDATE contacts SET onion_address = ? WHERE onion_address = ?`. The new address may have a row
already, and with foreign keys enforced the messages of a contact keep its address. -/
def updateContacts : Option (Tables C M O) :=
  if old ∈ d.addresses then
    if hnew : new ∈ d.addresses then none
    else if enforced && d.mentions old then none
    else some
      { d with
        contacts := d.contacts.map fun r =>
          { r with onionAddress := renamed old new r.onionAddress }
        primaryKey := by
          have hnodup : (d.addresses.map (renamed old new)).Nodup := nodup_renamed d.primaryKey hnew
          rw [Tables.addresses, List.map_map] at hnodup
          rw [List.map_map]
          exact hnodup }
  else some d

/-- `UPDATE messages SET peer_onion = ? WHERE peer_onion = ?`, which needs a contact. -/
def updateMessages : Option (Tables C M O) :=
  if enforced && d.mentions old && new ∉ d.addresses then none
  else some
    { d with
      messages := d.messages.map fun m => { m with peerOnion := renamed old new m.peerOnion } }

/-- `INSERT OR REPLACE INTO config`. -/
def replaceConfig (key value : String) : Tables C M O :=
  { d with config := d.config.insert key value }

def deleteConfig (key : String) : Tables C M O := { d with config := d.config.erase key }

end Tables

/-! ## The function -/

/-- A connection of the pool. -/
structure Pooled (C M O : Type) where
  connection  : Connection (Tables C M O)
  foreignKeys : Bool

/-- The statements of `migrate_contact_address`. -/
inductive Step
  | foreignKeysOff
  | updateContacts
  | updateMessages
  | selectConfig
  | replaceConfig
  | deleteConfig
  | foreignKeysOn
  | commit
deriving DecidableEq

abbrev Script (C M O : Type) := EStateM Unit (Pooled C M O)

section

variable (fails : Step → Bool)

/-- A statement, which may raise. -/
def attempt (step : Step) : Script C M O Unit := if fails step then throw () else pure ()

/-- `PRAGMA foreign_keys`. -/
def pragma (step : Step) (enforced : Bool) : Script C M O Unit := do
  attempt fails step
  modify fun p => if p.connection.pending.isSome then p else { p with foreignKeys := enforced }

/-- A change, for which the driver opens a transaction. -/
def change (step : Step) (f : Bool → Tables C M O → Option (Tables C M O)) :
    Script C M O Unit := do
  modify fun p => { p with connection := p.connection.join }
  attempt fails step
  let p ← get
  match f p.foreignKeys p.connection.view with
  | some d => set { p with connection := p.connection.write d }
  | none => throw ()

/-- The config key of the contact moves. -/
def migrateConfig (old new : String) : Script C M O Unit := do
  attempt fails .selectConfig
  match (← get).connection.view.config.get? (myPubkeyFor old) with
  | some value =>
    change fails .replaceConfig fun _ d => some (d.replaceConfig (myPubkeyFor new) value)
    change fails .deleteConfig fun _ d => some (d.deleteConfig (myPubkeyFor old))
  | none => pure ()

/-- Between `try` and `except`. -/
def migrateBody (old new : String) : Script C M O Unit := do
  pragma fails .foreignKeysOff false
  change fails .updateContacts fun enforced => Tables.updateContacts enforced old new
  change fails .updateMessages fun enforced => Tables.updateMessages enforced old new
  migrateConfig fails old new
  pragma fails .foreignKeysOn true
  attempt fails .commit
  modify fun p => { p with connection := p.connection.commit }

def migrateContactAddress (L : Library) (oldAddress newAddress : String) (p : Pooled C M O) :
    Bool × Pooled C M O :=
  let old := normalized L oldAddress
  let new := normalized L newAddress
  if old = new then (true, p)
  else
    match migrateBody fails old new p with
    | .ok _ p => (true, p)
    | .error _ p => (false, { p with connection := p.connection.rollback })

end

/-! ## What the answer says -/

/-- Every row that has named the old address names the new one, edits are found under it, and
nothing else has changed. -/
structure Migrated (old new : String) (d d' : Tables C M O) : Prop where
  contacts     : d'.contacts =
    d.contacts.map fun r => { r with onionAddress := renamed old new r.onionAddress }
  messages     : d'.messages = d.messages.map fun m =>
    { m with peerOnion := renamed old new m.peerOnion, sender := renamed old new m.sender }
  messageEdits : d'.messageEdits =
    d.messageEdits.map fun e => { e with peerOnion := renamed old new e.peerOnion }
  config       : ∀ key value, d'.config.get? key = some value ↔ ∃ key₀,
    d.config.get? key₀ = some value ∧ renamed (myPubkeyFor old) (myPubkeyFor new) key₀ = key
  others       : d'.others = d.others
  history      : ∀ m ∈ d.messages, ∀ edit ∈ d.getMessageEdits m.peerOnion m.timestamp,
    edit ∈ d'.getMessageEdits (renamed old new m.peerOnion) m.timestamp

/-- `True` says that the database has been migrated, and the connection enforces foreign keys as
before; `False` that nothing has changed. -/
def Sound (old new : String) (p : Pooled C M O) : Bool × Pooled C M O → Prop
  | (true, p') => Migrated old new p.connection.stored p'.connection.stored ∧
      p'.foreignKeys = p.foreignKeys
  | (false, p') => p' = p

/-- The first update meets a contact with the new address, or messages that refer to the old one. -/
def ContactsKept (enforced : Bool) (old new : String) (d : Tables C M O) : Prop :=
  old ∈ d.addresses ∧ (new ∈ d.addresses ∨ enforced = true ∧ d.mentions old = true)

/-- The second update has messages to move, and no contact to move them to. -/
def MessagesKept (enforced : Bool) (old new : String) (d : Tables C M O) : Prop :=
  enforced = true ∧ d.mentions old = true ∧ old ∉ d.addresses ∧ new ∉ d.addresses

def ConfigRaises (fails : Step → Bool) (old : String) (d : Tables C M O) : Prop :=
  fails .selectConfig = true ∨ d.config.get? (myPubkeyFor old) ≠ none ∧
    (fails .replaceConfig = true ∨ fails .deleteConfig = true)

/-- Some statement after the first one raises. -/
def Raises (fails : Step → Bool) (enforced : Bool) (old new : String) (d : Tables C M O) : Prop :=
  fails .updateContacts = true ∨ ContactsKept enforced old new d ∨
    fails .updateMessages = true ∨ MessagesKept enforced old new d ∨
    ConfigRaises fails old d ∨ fails .foreignKeysOn = true ∨ fails .commit = true

/-- Nothing names the old address but contacts, messages as their peer, and a config key that takes
no other's place. -/
structure Plain (old new : String) (d : Tables C M O) : Prop where
  senders : ∀ m ∈ d.messages, m.sender ≠ old
  edits   : ∀ e ∈ d.messageEdits, e.peerOnion ≠ old
  config  : ∀ value ∈ d.config.get? (myPubkeyFor old),
    ∀ value' ∈ d.config.get? (myPubkeyFor new), value = value'

/-! ## The statements -/

section

variable {fails : Step → Bool} {enforced : Bool} {old new : String} {d : Tables C M O}

/-- In the transaction of the function. -/
def within (d v : Tables C M O) (foreignKeys : Bool) : Pooled C M O := ⟨⟨d, some v⟩, foreignKeys⟩

theorem apply_attempt (step : Step) (p : Pooled C M O) :
    attempt fails step p = if fails step then .error () p else .ok () p := by
  unfold attempt
  split <;> rfl

theorem apply_change (step : Step) (f : Bool → Tables C M O → Option (Tables C M O))
    (p : Pooled C M O) :
    change fails step f p =
      match if fails step then none else f p.foreignKeys p.connection.view with
      | some v => .ok () (within p.connection.stored v p.foreignKeys)
      | none => .error () (within p.connection.stored p.connection.view p.foreignKeys) := by
  simp only [change, apply_bind, apply_modify, apply_attempt, apply_get]
  split_ifs with hfails
  · rfl
  · simp only [Connection.view_join]
    cases f p.foreignKeys p.connection.view <;> rfl

/-- The pragma inside of a transaction. -/
theorem apply_pragma_within (step : Step) (on : Bool) (v : Tables C M O) :
    pragma fails step on (within d v enforced) =
      if fails step then .error () (within d v enforced) else .ok () (within d v enforced) := by
  simp only [pragma, apply_bind, apply_attempt]
  split_ifs <;> rfl

theorem map_eq_self {α : Type} {f : α → α} {l : List α} (h : ∀ a ∈ l, f a = a) : l.map f = l :=
  (List.map_congr_left h).trans (List.map_id l)

/-- The rows after the two updates and the move of the config key. -/
structure Moved (old new : String) (d d' : Tables C M O) : Prop where
  contacts     : d'.contacts =
    d.contacts.map fun r => { r with onionAddress := renamed old new r.onionAddress }
  messages     : d'.messages =
    d.messages.map fun m => { m with peerOnion := renamed old new m.peerOnion }
  messageEdits : d'.messageEdits = d.messageEdits
  config       : d'.config =
    match d.config.get? (myPubkeyFor old) with
    | some value => (d.config.insert (myPubkeyFor new) value).erase (myPubkeyFor old)
    | none => d.config
  others       : d'.others = d.others

theorem updateContacts_eq_none_iff : d.updateContacts enforced old new = none ↔
    ContactsKept enforced old new d := by
  unfold Tables.updateContacts ContactsKept
  split_ifs with hold hnew hkept
  · exact iff_of_true rfl ⟨hold, .inl hnew⟩
  · exact iff_of_true rfl ⟨hold, .inr (Bool.and_eq_true_iff.mp hkept)⟩
  · refine iff_of_false (by simp) ?_
    rintro ⟨-, hnew' | hkept'⟩
    · exact hnew hnew'
    · exact hkept (Bool.and_eq_true_iff.mpr hkept')
  · exact iff_of_false (by simp) fun h => hold h.1

/-- An update of the contacts changes nothing else. -/
theorem updateContacts_eq_some {d₁ : Tables C M O}
    (h : d.updateContacts enforced old new = some d₁) :
    d₁.contacts = d.contacts.map
        (fun r => { r with onionAddress := renamed old new r.onionAddress }) ∧
      d₁.messages = d.messages ∧ d₁.messageEdits = d.messageEdits ∧ d₁.config = d.config ∧
        d₁.others = d.others := by
  unfold Tables.updateContacts at h
  split_ifs at h with hold hnew hkept
  · obtain rfl := Option.some.inj h
    exact ⟨rfl, rfl, rfl, rfl, rfl⟩
  · obtain rfl := Option.some.inj h
    refine ⟨(map_eq_self fun r hr => ?_).symm, rfl, rfl, rfl, rfl⟩
    -- no row has the old address
    have hne : r.onionAddress ≠ old := by
      rintro rfl
      exact hold (List.mem_map_of_mem hr)
    rw [renamed_of_ne hne]

theorem updateMessages_eq_none_iff : d.updateMessages enforced old new = none ↔
    enforced = true ∧ d.mentions old = true ∧ new ∉ d.addresses := by
  unfold Tables.updateMessages
  split_ifs with hkept
  · refine iff_of_true rfl ?_
    simpa [and_assoc] using hkept
  · refine iff_of_false (by simp) fun h => hkept ?_
    simpa [and_assoc] using h

theorem updateMessages_eq_some {d₁ : Tables C M O}
    (h : d.updateMessages enforced old new = some d₁) :
    d₁.messages = d.messages.map (fun m => { m with peerOnion := renamed old new m.peerOnion }) ∧
      d₁.contacts = d.contacts ∧ d₁.messageEdits = d.messageEdits ∧ d₁.config = d.config ∧
        d₁.others = d.others := by
  unfold Tables.updateMessages at h
  split_ifs at h
  obtain rfl := Option.some.inj h
  exact ⟨rfl, rfl, rfl, rfl, rfl⟩

/-- After the first update, the new address has a contact if it or the old one had. -/
theorem mem_addresses_updated {d₁ : Tables C M O}
    (h : d.updateContacts enforced old new = some d₁) :
    new ∈ d₁.addresses ↔ new ∈ d.addresses ∨ old ∈ d.addresses := by
  rw [Tables.addresses, (updateContacts_eq_some h).1, List.map_map]
  simp only [Tables.addresses, List.mem_map, Function.comp_apply, renamed]
  constructor
  · rintro ⟨r, hr, heq⟩
    split_ifs at heq with hold
    · exact .inr ⟨r, hr, hold⟩
    · exact .inl ⟨r, hr, heq⟩
  · rintro (⟨r, hr, heq⟩ | ⟨r, hr, heq⟩)
    · refine ⟨r, hr, ?_⟩
      split_ifs
      · rfl
      · exact heq
    · exact ⟨r, hr, if_pos heq⟩

/-- The second update after the first one. -/
theorem updateMessages_updated_iff {d₁ : Tables C M O}
    (h : d.updateContacts enforced old new = some d₁) :
    d₁.updateMessages enforced old new = none ↔ MessagesKept enforced old new d := by
  have hmentions : d₁.mentions old = d.mentions old := by
    rw [Tables.mentions, (updateContacts_eq_some h).2.1]
    rfl
  rw [updateMessages_eq_none_iff, hmentions, mem_addresses_updated h, not_or, MessagesKept,
    and_comm (a := new ∉ _)]

theorem apply_migrateConfig (v : Tables C M O) :
    ConfigRaises fails old v ∧
      (∃ v', migrateConfig fails old new (within d v enforced) = .error () (within d v' enforced)) ∨
    ¬ ConfigRaises fails old v ∧
      ∃ v', migrateConfig fails old new (within d v enforced) = .ok () (within d v' enforced) ∧
        v'.contacts = v.contacts ∧ v'.messages = v.messages ∧ v'.messageEdits = v.messageEdits ∧
        v'.others = v.others ∧
        v'.config = match v.config.get? (myPubkeyFor old) with
          | some value => (v.config.insert (myPubkeyFor new) value).erase (myPubkeyFor old)
          | none => v.config := by
  unfold ConfigRaises
  simp only [migrateConfig, apply_bind, apply_attempt, apply_get]
  by_cases hselect : fails .selectConfig = true
  · exact .inl ⟨.inl hselect, v, by simp [hselect]⟩
  have hget : (within d v enforced).connection.view.config.get? (myPubkeyFor old) =
    v.config.get? (myPubkeyFor old) := rfl
  cases hvalue : v.config.get? (myPubkeyFor old) with
  | none =>
    rw [hvalue] at hget
    exact .inr ⟨by simp [hselect], v, by simp [hselect, hget]⟩
  | some value =>
    rw [hvalue] at hget
    by_cases hreplace : fails .replaceConfig = true
    · refine .inl ⟨.inr ⟨by simp, .inl hreplace⟩, v, ?_⟩
      simp [hselect, hget, apply_change, hreplace]
      rfl
    by_cases hdelete : fails .deleteConfig = true
    · refine .inl ⟨.inr ⟨by simp, .inr hdelete⟩, v.replaceConfig (myPubkeyFor new) value, ?_⟩
      simp [hselect, hget, apply_change, hreplace, hdelete]
      rfl
    · refine .inr ⟨by simp [hselect, hreplace, hdelete],
        (v.replaceConfig (myPubkeyFor new) value).deleteConfig (myPubkeyFor old), ?_, rfl, rfl, rfl,
        rfl, rfl⟩
      simp [hselect, hget, apply_change, hreplace, hdelete]
      rfl

theorem view_begins (inTransaction : Bool) (d : Tables C M O) :
    (begins inTransaction d).view = d ∧ (begins inTransaction d).stored = d := by
  cases inTransaction <;> exact ⟨rfl, rfl⟩

/-- The statements up to the commit. The pragma at the end is in the transaction, and does
nothing. -/
theorem body_cases (inTransaction foreignKeys : Bool) :
    (fails .foreignKeysOff = true ∧
      migrateBody fails old new ⟨begins inTransaction d, foreignKeys⟩ =
        .error () ⟨begins inTransaction d, foreignKeys⟩) ∨
    fails .foreignKeysOff = false ∧
      (Raises fails (inTransaction && foreignKeys) old new d ∧
        (∃ v, migrateBody fails old new ⟨begins inTransaction d, foreignKeys⟩ =
          .error () (within d v (inTransaction && foreignKeys))) ∨
      ¬ Raises fails (inTransaction && foreignKeys) old new d ∧
        ∃ d', migrateBody fails old new ⟨begins inTransaction d, foreignKeys⟩ =
            .ok () ⟨.opened d', inTransaction && foreignKeys⟩ ∧
          Moved old new d d') := by
  by_cases hoff : fails .foreignKeysOff = true
  · left
    refine ⟨hoff, ?_⟩
    simp [migrateBody, pragma, apply_attempt, hoff]
  refine .inr ⟨by simpa using hoff, ?_⟩
  have hpragma : pragma fails .foreignKeysOff false
      (⟨begins inTransaction d, foreignKeys⟩ : Pooled C M O) =
        .ok () ⟨begins inTransaction d, inTransaction && foreignKeys⟩ := by
    simp only [pragma, apply_bind, apply_attempt, hoff, Bool.false_eq_true, if_false, apply_modify]
    cases inTransaction <;> rfl
  obtain ⟨hview, hstored⟩ := view_begins inTransaction d
  generalize (inTransaction && foreignKeys) = enforced at *
  simp only [migrateBody, apply_bind, hpragma, apply_change, hview, hstored]
  -- the first update
  by_cases hcontacts : fails .updateContacts = true
  · exact .inl ⟨.inl hcontacts, d, by simp [hcontacts]⟩
  cases hfirst : d.updateContacts enforced old new with
  | none =>
    exact .inl ⟨.inr (.inl (updateContacts_eq_none_iff.mp hfirst)), d, by simp [hcontacts]⟩
  | some d₁ =>
  have hcontactsKept := mt updateContacts_eq_none_iff.mpr (by rw [hfirst]; simp)
  obtain ⟨hrows, hmessages, hedits, hconfig, hothers⟩ := updateContacts_eq_some hfirst
  have hview₁ : (within d d₁ enforced).connection.view = d₁ := rfl
  have hstored₁ : (within d d₁ enforced).connection.stored = d := rfl
  have hkeys₁ : (within d d₁ enforced).foreignKeys = enforced := rfl
  simp only [hcontacts, hview₁, hstored₁, hkeys₁, Bool.false_eq_true, if_false]
  -- the second one
  by_cases hupdate : fails .updateMessages = true
  · exact .inl ⟨.inr (.inr (.inl hupdate)), d₁, by simp [hupdate]⟩
  cases hsecond : d₁.updateMessages enforced old new with
  | none =>
    have hkept := (updateMessages_updated_iff hfirst).mp hsecond
    exact .inl ⟨.inr (.inr (.inr (.inl hkept))), d₁, by simp [hupdate]⟩
  | some d₂ =>
  have hmessagesKept := mt (updateMessages_updated_iff hfirst).mpr (by rw [hsecond]; simp)
  obtain ⟨hmessages₂, hrows₂, hedits₂, hconfig₂, hothers₂⟩ := updateMessages_eq_some hsecond
  simp only [hupdate, Bool.false_eq_true, if_false]
  -- the config key
  have hkey : d₂.config = d.config := hconfig₂.trans hconfig
  have hraises_iff : ConfigRaises fails old d₂ ↔ ConfigRaises fails old d := by
    unfold ConfigRaises
    rw [hkey]
  rcases @apply_migrateConfig _ _ _ fails enforced old new d d₂ with
    ⟨hraises, v, herror⟩ | ⟨hpasses, v, hok, hrows₃, hmessages₃, hedits₃, hothers₃, hconfig₃⟩
  · exact .inl ⟨.inr (.inr (.inr (.inr (.inl (hraises_iff.mp hraises))))), v, by simp only [herror]⟩
  simp only [hok, apply_pragma_within]
  by_cases hon : fails .foreignKeysOn = true
  · exact .inl ⟨.inr (.inr (.inr (.inr (.inr (.inl hon))))), v, by simp [hon]⟩
  by_cases hcommit : fails .commit = true
  · exact .inl ⟨.inr (.inr (.inr (.inr (.inr (.inr hcommit))))), v,
      by simp [hon, hcommit, apply_attempt]⟩
  -- nothing has raised, and the commit makes the rows of the transaction the stored ones
  refine .inr ⟨?_, v, ?_, ?_⟩
  · rintro (h | h | h | h | h | h | h)
    exacts [hcontacts h, hcontactsKept h, hupdate h, hmessagesKept h, hpasses (hraises_iff.mpr h),
      hon h, hcommit h]
  · simp only [hon, hcommit, apply_attempt, Bool.false_eq_true, if_false, apply_modify]
    rfl
  · rw [hkey] at hconfig₃
    exact ⟨hrows₃.trans (hrows₂.trans hrows), by rw [hmessages₃, hmessages₂, hmessages],
      hedits₃.trans (hedits₂.trans hedits), hconfig₃, hothers₃.trans (hothers₂.trans hothers)⟩

/-! ## When the answer is sound -/

theorem renamed_eq_self_iff {address : String} (hne : old ≠ new) :
    renamed old new address = address ↔ address ≠ old := by
  refine ⟨?_, renamed_of_ne⟩
  rintro hself rfl
  exact hne ((if_pos rfl).symm.trans hself).symm

theorem myPubkeyFor_ne (hne : old ≠ new) : myPubkeyFor old ≠ myPubkeyFor new := fun h =>
  hne (by simpa [myPubkeyFor, String.append_right_inj] using h)

variable {d' : Tables C M O}

/-- The config key is renamed, unless it takes the place of another one with another value. -/
theorem config_moved_iff (hne : old ≠ new) (h : Moved old new d d') :
    (∀ key value, d'.config.get? key = some value ↔ ∃ key₀, d.config.get? key₀ = some value ∧
        renamed (myPubkeyFor old) (myPubkeyFor new) key₀ = key) ↔
      ∀ value ∈ d.config.get? (myPubkeyFor old),
        ∀ value' ∈ d.config.get? (myPubkeyFor new), value = value' := by
  have hkeys := myPubkeyFor_ne hne
  have hmoved := h.config
  cases hold : d.config.get? (myPubkeyFor old) with
  | none =>
    rw [hold] at hmoved
    refine iff_of_true (fun key value => ?_) (by simp)
    rw [hmoved]
    constructor
    · intro hget
      refine ⟨key, hget, renamed_of_ne ?_⟩
      rintro rfl
      cases hold.symm.trans hget
    · rintro ⟨key₀, hget, rfl⟩
      rwa [renamed_of_ne]
      rintro rfl
      cases hold.symm.trans hget
  | some value =>
    rw [hold] at hmoved
    have hget : ∀ key, d'.config.get? key = if key = myPubkeyFor old then none
        else if key = myPubkeyFor new then some value else d.config.get? key := by
      intro key
      rw [hmoved, Dict.get?_erase, Dict.get?_insert]
    constructor
    · -- the value that the new key had should be there, and the moved one is
      rintro h _ ⟨⟩ value' hnew
      have hboth := (h (myPubkeyFor new) value').mpr ⟨_, hnew, renamed_of_ne hkeys.symm⟩
      rw [hget, if_neg hkeys.symm, if_pos rfl] at hboth
      exact Option.some.inj hboth
    · intro h key value'
      rw [hget]
      constructor
      · intro hafter
        split_ifs at hafter with hkey hkey'
        · obtain rfl := Option.some.inj hafter
          exact ⟨_, hold, (if_pos rfl).trans hkey'.symm⟩
        · exact ⟨key, hafter, renamed_of_ne hkey⟩
      · rintro ⟨key₀, hbefore, rfl⟩
        by_cases hkey : key₀ = myPubkeyFor old
        · subst hkey
          rw [renamed, if_pos rfl, if_neg hkeys.symm, if_pos rfl]
          exact hold.symm.trans hbefore
        · rw [renamed_of_ne hkey, if_neg hkey]
          split_ifs with hnew
          · rw [h value rfl value' (hnew ▸ hbefore)]
          · exact hbefore

theorem migrated_iff (hne : old ≠ new) (h : Moved old new d d') :
    Migrated old new d d' ↔ Plain old new d := by
  constructor
  · intro hmigrated
    constructor
    -- the function renames peers only, so no other column has named the old address
    case senders =>
      intro m hm
      have hsame := hmigrated.messages
      rw [h.messages, List.map_inj_left] at hsame
      have hsender := congrArg MessageRow.sender (hsame m hm)
      exact (renamed_eq_self_iff hne).mp hsender.symm
    case edits =>
      intro e he
      have hsame := hmigrated.messageEdits
      rw [h.messageEdits] at hsame
      have hself := List.map_inj_left.mp ((List.map_id _).trans hsame) e he
      exact (renamed_eq_self_iff hne).mp (congrArg EditRow.peerOnion hself).symm
    case config => exact (config_moved_iff hne h).mp hmigrated.config
  · intro hplain
    constructor
    case contacts => exact h.contacts
    case messages =>
      rw [h.messages]
      refine List.map_congr_left fun m hm => ?_
      rw [renamed_of_ne (hplain.senders m hm)]
    case messageEdits =>
      rw [h.messageEdits]
      refine (map_eq_self fun e he => ?_).symm
      rw [renamed_of_ne (hplain.edits e he)]
    case config => exact (config_moved_iff hne h).mpr hplain.config
    case others => exact h.others
    case history =>
      intro m _ edit hedit
      -- an edit names an address that is not renamed
      have hpeer : m.peerOnion ≠ old := by
        rintro hold
        obtain ⟨e, he, -⟩ := List.mem_map.mp hedit
        have hfound := List.mem_mergeSort.mp he
        obtain ⟨hmem, hmatches⟩ := List.mem_filter.mp hfound
        exact hplain.edits e hmem ((of_decide_eq_true hmatches).1.trans hold)
      rw [renamed_of_ne hpeer, Tables.getMessageEdits, h.messageEdits]
      exact hedit

theorem renamed_self (address : String) : renamed old old address = address := by
  unfold renamed
  split_ifs with h
  · exact h.symm
  · rfl

/-- Nothing is to be done for an address that stays the same. -/
theorem migrated_self (d : Tables C M O) : Migrated old old d d where
  contacts     := (map_eq_self fun r _ => by rw [renamed_self]).symm
  messages     := (map_eq_self fun m _ => by rw [renamed_self, renamed_self]).symm
  messageEdits := (map_eq_self fun e _ => by rw [renamed_self]).symm
  config key value := by simp [renamed_self]
  others       := rfl
  history m _ edit hedit := by rwa [renamed_self]

end

/-- For all databases, addresses and statements that raise, and a pooled connection that may be in a
transaction without changes: when the answer says what has happened. -/
theorem migration_sound_iff (fails : Step → Bool) (L : Library) (oldAddress newAddress : String)
    (inTransaction foreignKeys : Bool) (d : Tables C M O) :
    Sound (normalized L oldAddress) (normalized L newAddress) ⟨begins inTransaction d, foreignKeys⟩
        (migrateContactAddress fails L oldAddress newAddress
          ⟨begins inTransaction d, foreignKeys⟩) ↔
      normalized L oldAddress = normalized L newAddress ∨
      inTransaction = false ∧ (fails .foreignKeysOff = true ∨ foreignKeys = false ∧
        (Raises fails false (normalized L oldAddress) (normalized L newAddress) d ∨
          Plain (normalized L oldAddress) (normalized L newAddress) d)) ∨
      inTransaction = true ∧ fails .foreignKeysOff = false ∧
        ¬ Raises fails foreignKeys (normalized L oldAddress) (normalized L newAddress) d ∧
        Plain (normalized L oldAddress) (normalized L newAddress) d := by
  generalize hold : normalized L oldAddress = old
  generalize hnew : normalized L newAddress = new
  by_cases heq : old = new
  · subst heq
    simp only [migrateContactAddress, hold, hnew, if_true]
    exact iff_of_true ⟨migrated_self _, rfl⟩ (.inl trivial)
  rw [or_iff_right heq]
  obtain ⟨-, hstored⟩ := view_begins inTransaction d
  rcases @body_cases _ _ _ fails old new d inTransaction foreignKeys with
    ⟨hoff, herror⟩ | ⟨hoff, ⟨hraises, v, herror⟩ | ⟨hpasses, d', hok, hmoved⟩⟩
  · -- nothing was done, but a transaction that was open is closed
    simp only [migrateContactAddress, hold, hnew, if_neg heq, herror, Sound, hoff]
    cases inTransaction with
    | false => exact iff_of_true rfl (.inl ⟨rfl, .inl trivial⟩)
    | true =>
      refine iff_of_false (fun h => ?_) (by simp)
      cases congrArg (fun p => p.connection.pending) h
  · simp only [migrateContactAddress, hold, hnew, if_neg heq, herror, Sound, hoff]
    cases inTransaction with
    | false =>
      -- the pragma before the transaction stays
      cases foreignKeys with
      | false => exact iff_of_true rfl (.inl ⟨rfl, .inr ⟨rfl, .inl hraises⟩⟩)
      | true =>
        refine iff_of_false (fun h => ?_) (by simp)
        cases congrArg Pooled.foreignKeys h
    | true =>
      refine iff_of_false (fun h => ?_) ?_
      · cases congrArg (fun p => p.connection.pending) h
      · rintro (⟨h, -⟩ | ⟨-, -, h, -⟩)
        · cases h
        · exact h hraises
  · simp only [migrateContactAddress, hold, hnew, if_neg heq, hok, Sound, hoff, hstored]
    have hmigrated : Migrated old new d d' ↔ Plain old new d := migrated_iff heq hmoved
    show Migrated old new d d' ∧ _ ↔ _
    rw [hmigrated]
    cases inTransaction with
    | false =>
      rw [Bool.false_and] at hpasses
      cases foreignKeys <;> simp [hpasses]
    | true =>
      rw [Bool.true_and] at hpasses
      simp [hpasses]

/-! ## An ordinary migration -/

def oldOnion : String := "oooooooooooooooo.onion"

def newOnion : String := "nnnnnnnnnnnnnnnn.onion"

/-- A contact with one message that was edited once. -/
def editedOnce : Tables Unit Unit Unit where
  contacts     := [⟨oldOnion, ()⟩]
  messages     := [⟨oldOnion, "me", 5, ()⟩]
  messageEdits := [⟨1, oldOnion, 5, "helo", 7⟩]
  config       := .empty
  others       := ()
  primaryKey   := by decide

/-- The answer of the migration, on a connection as the pool opens it. -/
def migratedOnce : Bool × Pooled Unit Unit Unit :=
  migrateContactAddress (fun _ => false) Legacy.plainLibrary oldOnion newOnion
    ⟨.opened editedOnce, true⟩

/-- The migration succeeds. Afterwards the connection does not enforce foreign keys, and the edit is
not found. -/
theorem foreignKeys_lost :
    migratedOnce.1 = true ∧ migratedOnce.2.foreignKeys = false ∧
      migratedOnce.2.connection.stored.getMessageEdits newOnion 5 = [] ∧
      ¬ Sound oldOnion newOnion ⟨.opened editedOnce, true⟩ migratedOnce := by
  have hanswer : migratedOnce.1 = true ∧ migratedOnce.2.foreignKeys = false := by decide +kernel
  refine ⟨hanswer.1, hanswer.2, by decide +kernel, fun hsound => ?_⟩
  have hpair : migratedOnce = (true, migratedOnce.2) := Prod.ext hanswer.1 rfl
  rw [hpair] at hsound
  have hkept : migratedOnce.2.foreignKeys = true := hsound.2
  rw [hanswer.2] at hkept
  cases hkept

end AnonyMus.P2p.Database
