import AnonyMus.Lib.Interleave
import Mathlib.Data.Int.Notation
import Mathlib.Data.List.Nodup

/-!
# P2P node — the expiry sweeper

`message_expiry_sweeper` of `transports/p2p/server.py`: each round selects the expired
messages, deletes the expired messages, and announces the selected ones. The clock is
read for the selection and once more for the deletion; other threads insert and delete
messages in between.

* `sweep` — one step of the sweeper;
* `Announced` — what the sweeper has deleted is announced once, and what is announced
  is gone;
* `Covered` — the deletion meets no message that was not selected, and no event fails;
* `Tracked` — the messages of the round, and those of the rounds before;
* `sweeper_announces` — runs in which each deletion is covered;
* `sweeper_silent` — a message that expires between the two readings.
-/

namespace AnonyMus.P2p.ExpirySweeper

open Interleave

/-! ## The sweeper -/

/-- The values of `expires_at`, and when `expires_at IS NOT NULL AND expires_at <= now`. -/
structure Expiry (E : Type) where
  passed : E → ℤ → Bool
  mono   : ∀ {e : E} {now now' : ℤ}, now ≤ now' → passed e now = true → passed e now' = true

/-- A row of `messages`. -/
structure Row (E : Type) where
  id        : ℕ
  peerOnion : String
  timestamp : ℤ
  expiresAt : E
deriving DecidableEq

/-- Where the sweeper is in its round. -/
inductive Phase (E : Type)
  | sleeping
  /-- `get_expired_messages` has read the clock. -/
  | selecting (now : ℤ)
  | selected (expired : List (Row E))
  /-- `delete_expired_messages` has read the clock. -/
  | deleting (expired : List (Row E)) (now : ℤ)
  | emitting (left : List (Row E))

structure System (E : Type) where
  messages  : List (Row E)
  /-- All rows so far; AUTOINCREMENT takes no id twice. -/
  inserted  : List (Row E)
  now       : ℤ
  phase     : Phase E
  /-- What `delete_expired_messages` has deleted. -/
  removed   : List (Row E)
  /-- The `message_expired` events. -/
  announced : List (Row E)

variable {E : Type}

def System.init (now : ℤ) : System E := ⟨[], [], now, .sleeping, [], []⟩

section

variable (X : Expiry E)

def expired (messages : List (Row E)) (now : ℤ) : List (Row E) :=
  messages.filter fun r => X.passed r.expiresAt now

/-- One step of the sweeper. If it raises, the round is over. -/
def sweep (fail : Bool) (sys : System E) : System E :=
  if fail then { sys with phase := .sleeping }
  else
    match sys.phase with
    | .sleeping => { sys with phase := .selecting sys.now }
    | .selecting now =>
      { sys with
        phase := if expired X sys.messages now = [] then .sleeping
          else .selected (expired X sys.messages now) }
    | .selected selection => { sys with phase := .deleting selection sys.now }
    | .deleting selection now =>
      { sys with
        messages := sys.messages.filter fun r => !X.passed r.expiresAt now
        removed := sys.removed ++ expired X sys.messages now
        -- `deleted_count > 0`
        phase := if expired X sys.messages now = [] then .sleeping else .emitting selection }
    | .emitting [] => { sys with phase := .sleeping }
    | .emitting (r :: left) =>
      { sys with announced := sys.announced ++ [r], phase := .emitting left }

/-- Another thread inserts a message or deletes some, or the time goes on. -/
inductive Event (E : Type)
  | insert (peerOnion : String) (timestamp : ℤ) (expiresAt : E)
  | delete (ids : List ℕ)
  | clock (elapsed : ℕ)
  | sweep (fail : Bool)

def System.insert (sys : System E) (peerOnion : String) (timestamp : ℤ) (expiresAt : E) :
    System E :=
  let row : Row E := ⟨sys.inserted.length + 1, peerOnion, timestamp, expiresAt⟩
  { sys with messages := sys.messages ++ [row], inserted := sys.inserted ++ [row] }

def apply (sys : System E) : Event E → Option (System E)
  | .insert peerOnion timestamp expiresAt => some (sys.insert peerOnion timestamp expiresAt)
  | .delete ids => some { sys with messages := sys.messages.filter fun r => r.id ∉ ids }
  | .clock elapsed => some { sys with now := sys.now + elapsed }
  | .sweep fail => some (sweep X fail sys)

/-! ## Announcements -/

def Phase.rows : Phase E → List (Row E)
  | sleeping | selecting _ => []
  | selected expired | deleting expired _ => expired
  | emitting left => left

/-- The events that are still to be sent. -/
def Phase.left : Phase E → List (Row E)
  | emitting left => left
  | _ => []

/-- Between two emissions, each message that the sweeper has deleted was announced exactly once.
Whatever was announced is gone. -/
structure Announced (sys : System E) : Prop where
  once : sys.phase.left = [] → ∀ r ∈ sys.removed, (sys.announced.map Row.id).count r.id = 1
  gone : ∀ r ∈ sys.announced, ∀ r' ∈ sys.messages, r'.id ≠ r.id

/-- The deletion meets selected messages only, and the events are sent. -/
def Phase.Covered (messages : List (Row E)) (fail : Bool) : Phase E → Prop
  | deleting selection now =>
    fail = true ∨ ∀ r ∈ expired X messages now, r.id ∈ selection.map Row.id
  | emitting (_ :: _) => fail = false
  | _ => True

def Covered (sys : System E) : Event E → Prop
  | .sweep fail => sys.phase.Covered X sys.messages fail
  | _ => True

end

/-- What is known of the messages of the round. -/
def Phase.Due (X : Expiry E) (sys : System E) : Phase E → Prop
  | sleeping => True
  | selecting now => now ≤ sys.now
  | selected expired => ∀ r ∈ expired, X.passed r.expiresAt sys.now = true
  | deleting expired now => ∀ r ∈ expired, X.passed r.expiresAt now = true
  | emitting left => ∀ r ∈ left, r ∉ sys.messages

/-- Every row is one of those inserted, in the table or out of it, and is announced at most once. -/
structure Tracked (X : Expiry E) (sys : System E) : Prop where
  ids     : (sys.inserted.map Row.id).Nodup
  bounded : ∀ r ∈ sys.inserted, r.id ≤ sys.inserted.length
  stored  : sys.messages.Sublist sys.inserted
  known   : ∀ r, r ∈ sys.removed ∨ r ∈ sys.announced ∨ r ∈ sys.phase.rows → r ∈ sys.inserted
  gone    : ∀ r, r ∈ sys.removed ∨ r ∈ sys.announced → r ∉ sys.messages
  once    : ((sys.announced ++ sys.phase.rows).map Row.id).Nodup
  due     : sys.phase.Due X sys

section

variable {X : Expiry E} {sys sys' : System E}

theorem tracked_init (now : ℤ) : Tracked X (.init now) where
  ids     := List.nodup_nil
  bounded := by intro r hr; cases hr
  stored  := List.Sublist.slnil
  known   := by rintro r (hr | hr | hr) <;> cases hr
  gone    := by rintro r (hr | hr) <;> cases hr
  once    := List.nodup_nil
  due     := trivial

/-- Rows with one id are one row. -/
theorem Tracked.eq_of_id (h : Tracked X sys) {r r' : Row E} (hr : r ∈ sys.inserted)
    (hr' : r' ∈ sys.inserted) (hid : r.id = r'.id) : r = r' :=
  List.inj_on_of_nodup_map h.ids hr hr' hid

theorem tracked_insert (h : Tracked X sys) (peerOnion : String) (timestamp : ℤ) (expiresAt : E) :
    Tracked X (sys.insert peerOnion timestamp expiresAt) := by
  have hnew : ∀ r ∈ sys.inserted,
      r ≠ ⟨sys.inserted.length + 1, peerOnion, timestamp, expiresAt⟩ := by
    rintro r hr rfl
    have := h.bounded _ hr
    dsimp only at this
    omega
  constructor
  case ids =>
    show ((sys.inserted ++ [_]).map Row.id).Nodup
    rw [List.map_append]
    refine List.nodup_append.mpr ⟨h.ids, List.nodup_singleton _, ?_⟩
    rintro _ hid _ hsame rfl
    obtain ⟨r, hr, hrid⟩ := List.mem_map.mp hid
    have hbound := h.bounded r hr
    obtain hsame := List.mem_singleton.mp hsame
    dsimp only at hsame
    omega
  case bounded =>
    refine List.forall_mem_append.mpr ⟨fun r hr => ?_, List.forall_mem_singleton.mpr ?_⟩
    · have := h.bounded r hr
      simp only [System.insert, List.length_append, List.length_singleton]
      omega
    · simp [System.insert]
  case stored => exact h.stored.append (List.Sublist.refl _)
  case known => exact fun r hr => List.mem_append_left _ (h.known r hr)
  case gone =>
    intro r hr hmem
    rcases List.mem_append.mp hmem with hold | hsame
    · exact h.gone r hr hold
    · exact hnew r (h.known r (by tauto)) (List.mem_singleton.mp hsame)
  case once => exact h.once
  case due =>
    have hdue := h.due
    rcases hphase : sys.phase with _ | now | selection | ⟨selection, now⟩ | left <;>
      rw [hphase] at hdue <;> simp only [System.insert, hphase]
    case emitting =>
      -- the new row is none of those that the round has deleted
      intro r hr hmem
      rcases List.mem_append.mp hmem with hold | hsame
      · exact hdue r hr hold
      · exact hnew r (h.known r (by rw [hphase]; exact .inr (.inr hr))) (List.mem_singleton.mp hsame)
    all_goals exact hdue

/-- Some messages go, and nothing else changes. -/
theorem Tracked.filter (h : Tracked X sys) {messages : List (Row E)}
    (hsub : messages.Sublist sys.messages) : Tracked X { sys with messages := messages } where
  ids     := h.ids
  bounded := h.bounded
  stored  := hsub.trans h.stored
  known   := h.known
  gone r hr hmem := h.gone r hr (hsub.subset hmem)
  once    := h.once
  due     := by
    have hdue := h.due
    rcases hphase : sys.phase with _ | now | selection | ⟨selection, now⟩ | left <;>
      rw [hphase] at hdue
    case emitting => exact fun r hr hmem => hdue r hr (hsub.subset hmem)
    all_goals exact hdue

/-- The round is over. -/
theorem Tracked.sleep (h : Tracked X sys) : Tracked X { sys with phase := .sleeping } where
  ids     := h.ids
  bounded := h.bounded
  stored  := h.stored
  known r hr := h.known r (hr.imp_right fun hr => hr.imp_right fun hr => by cases hr)
  gone    := h.gone
  once    := h.once.sublist ((List.Sublist.append_left (List.nil_sublist _) _).map _)
  due     := trivial

theorem Tracked.select (h : Tracked X sys) {now : ℤ} (hphase : sys.phase = .selecting now) :
    Tracked X { sys with phase := .selected (expired X sys.messages now) } := by
  have hdue : now ≤ sys.now := by
    have hdue := h.due
    rwa [hphase] at hdue
  have hstored : ∀ r ∈ expired X sys.messages now, r ∈ sys.messages := fun r hr =>
    (List.mem_filter.mp hr).1
  constructor
  case ids => exact h.ids
  case bounded => exact h.bounded
  case stored => exact h.stored
  case known =>
    rintro r (hr | hr | hr)
    · exact h.known r (.inl hr)
    · exact h.known r (.inr (.inl hr))
    · exact h.stored.subset (hstored r hr)
  case gone => exact h.gone
  case once =>
    show ((sys.announced ++ expired X sys.messages now).map Row.id).Nodup
    have hannounced := h.once
    rw [hphase, Phase.rows, List.append_nil] at hannounced
    rw [List.map_append]
    refine List.nodup_append.mpr ⟨hannounced, h.ids.sublist ?_, ?_⟩
    · exact (List.filter_sublist.trans h.stored).map _
    · -- what was announced is not in the table
      rintro _ hid _ hid' rfl
      obtain ⟨r, hr, hrid⟩ := List.mem_map.mp hid
      obtain ⟨r', hr', hrid'⟩ := List.mem_map.mp hid'
      obtain rfl := h.eq_of_id (h.known r (.inr (.inl hr))) (h.stored.subset (hstored r' hr'))
        (hrid.trans hrid'.symm)
      exact h.gone r (.inr hr) (hstored r hr')
  case due => exact fun r hr => X.mono hdue (List.mem_filter.mp hr).2

/-- The deletion, after which the selected messages are gone. -/
theorem Tracked.delete (h : Tracked X sys) {selection : List (Row E)} {now : ℤ}
    (hphase : sys.phase = .deleting selection now) :
    Tracked X
      { sys with
        messages := sys.messages.filter fun r => !X.passed r.expiresAt now
        removed := sys.removed ++ expired X sys.messages now
        phase := .emitting selection } := by
  have hdue : ∀ r ∈ selection, X.passed r.expiresAt now = true := by
    have hdue := h.due
    rwa [hphase] at hdue
  have hpassed : ∀ r, X.passed r.expiresAt now = true →
      r ∉ sys.messages.filter fun r => !X.passed r.expiresAt now := by
    intro r hr hmem
    simp [hr] at hmem
  have hrows : sys.phase.rows = selection := by rw [hphase]; rfl
  constructor
  case ids => exact h.ids
  case bounded => exact h.bounded
  case stored => exact List.filter_sublist.trans h.stored
  case known =>
    rintro r (hr | hr | hr)
    · rcases List.mem_append.mp hr with hold | hnew
      · exact h.known r (.inl hold)
      · exact h.stored.subset (List.mem_filter.mp hnew).1
    · exact h.known r (.inr (.inl hr))
    · exact h.known r (.inr (.inr (by rw [hrows]; exact hr)))
  case gone =>
    rintro r (hr | hr)
    · rcases List.mem_append.mp hr with hold | hnew
      · exact fun hmem => h.gone r (.inl hold) (List.mem_filter.mp hmem).1
      · exact hpassed r (List.mem_filter.mp hnew).2
    · exact fun hmem => h.gone r (.inr hr) (List.mem_filter.mp hmem).1
  case once =>
    have honce := h.once
    rwa [hrows] at honce
  case due => exact fun r hr => hpassed r (hdue r hr)

theorem Tracked.emit (h : Tracked X sys) {r : Row E} {left : List (Row E)}
    (hphase : sys.phase = .emitting (r :: left)) :
    Tracked X { sys with announced := sys.announced ++ [r], phase := .emitting left } := by
  have hdue : ∀ r' ∈ r :: left, r' ∉ sys.messages := by
    have hdue := h.due
    rwa [hphase] at hdue
  have hrows : sys.phase.rows = r :: left := by rw [hphase]; rfl
  constructor
  case ids => exact h.ids
  case bounded => exact h.bounded
  case stored => exact h.stored
  case known =>
    intro r' hr'
    refine h.known r' ?_
    rw [hrows]
    simp only [List.mem_append, Phase.rows, List.mem_cons] at hr' ⊢
    tauto
  case gone =>
    intro r' hr'
    rcases hr' with hr' | hr'
    · exact h.gone r' (.inl hr')
    · rcases List.mem_append.mp hr' with hold | hnew
      · exact h.gone r' (.inr hold)
      · rw [List.mem_singleton.mp hnew]
        exact hdue r List.mem_cons_self
  case once =>
    have honce := h.once
    rw [hrows] at honce
    show ((sys.announced ++ [r] ++ left).map Row.id).Nodup
    rwa [List.append_assoc]
  case due => exact fun r' hr' => hdue r' (List.mem_cons_of_mem _ hr')

theorem tracked_sweep (h : Tracked X sys) (fail : Bool) : Tracked X (sweep X fail sys) := by
  unfold sweep
  split_ifs
  · exact h.sleep
  · rcases hphase : sys.phase with _ | now | selection | ⟨selection, now⟩ | left
    case sleeping =>
      have honce := h.once
      rw [hphase] at honce
      exact ⟨h.ids, h.bounded, h.stored, fun r hr => h.known r (by rw [hphase]; exact hr), h.gone,
        honce, Int.le_refl _⟩
    case selecting =>
      dsimp only
      split_ifs
      · exact h.sleep
      · exact h.select hphase
    case selected =>
      have honce := h.once
      have hdue := h.due
      rw [hphase] at honce hdue
      exact ⟨h.ids, h.bounded, h.stored, fun r hr => h.known r (by rw [hphase]; exact hr), h.gone,
        honce, hdue⟩
    case deleting =>
      dsimp only
      split_ifs
      · exact (h.delete hphase).sleep
      · exact h.delete hphase
    case emitting =>
      cases left with
      | nil => exact h.sleep
      | cons r left => exact h.emit hphase

theorem tracked_apply (e : Event E) (h : Tracked X sys) (happly : apply X sys e = some sys') :
    Tracked X sys' := by
  cases e with
  | insert peerOnion timestamp expiresAt =>
    obtain rfl := Option.some.inj happly
    exact tracked_insert h peerOnion timestamp expiresAt
  | delete ids =>
    obtain rfl := Option.some.inj happly
    exact h.filter List.filter_sublist
  | clock elapsed =>
    obtain rfl := Option.some.inj happly
    have hle : sys.now ≤ sys.now + elapsed := by omega
    refine ⟨h.ids, h.bounded, h.stored, h.known, h.gone, h.once, ?_⟩
    have hdue := h.due
    rcases hphase : sys.phase with _ | now | selection | ⟨selection, now⟩ | left <;>
      rw [hphase] at hdue
    -- the clock of the round is not ahead, and what has expired stays expired
    case selecting => exact Int.le_trans hdue hle
    case selected => exact fun r hr => X.mono hle (hdue r hr)
    all_goals exact hdue
  | sweep fail =>
    obtain rfl := Option.some.inj happly
    exact tracked_sweep h fail

/-! ## What is deleted is announced -/

/-- What was deleted is announced, or will be in this round. -/
def Complete (sys : System E) : Prop :=
  ∀ r ∈ sys.removed, r.id ∈ sys.announced.map Row.id ∨ r.id ∈ sys.phase.left.map Row.id

theorem complete_sweep (h : Complete sys) {fail : Bool} (hok : Covered X sys (.sweep fail)) :
    Complete (sweep X fail sys) := by
  unfold sweep
  rcases hphase : sys.phase with _ | now | selection | ⟨selection, now⟩ | _ | ⟨r, left⟩ <;>
    simp only [Complete, Covered, Phase.Covered, hphase, Phase.left, List.map_nil, List.not_mem_nil, or_false]
      at h hok ⊢
  case emitting.cons =>
    rw [hok, if_neg Bool.false_ne_true]
    intro r' hr'
    have := h r' hr'
    simp only [List.map_cons, List.mem_cons, List.map_append, List.map_nil, List.mem_append,
      List.not_mem_nil, or_false] at this ⊢
    tauto
  case deleting =>
    split_ifs with hfail hnone
    · simpa using h
    · rw [hnone]
      simpa using h
    · -- the messages that go were selected, so their events are to be sent
      have hcovered := hok.resolve_left hfail
      refine List.forall_mem_append.mpr ⟨fun r hr => .inl (h r hr), fun r hr => .inr ?_⟩
      exact hcovered r hr
  all_goals
    split_ifs <;> simpa using h

theorem complete_apply (e : Event E) (h : Complete sys) (hok : Covered X sys e)
    (happly : apply X sys e = some sys') : Complete sys' := by
  cases e with
  | sweep fail =>
    obtain rfl := Option.some.inj happly
    exact complete_sweep h hok
  | insert peerOnion timestamp expiresAt =>
    obtain rfl := Option.some.inj happly
    exact h
  | delete ids =>
    obtain rfl := Option.some.inj happly
    exact h
  | clock elapsed =>
    obtain rfl := Option.some.inj happly
    exact h

/-- If each deletion meets selected messages only and no event fails, then between two emissions
each deleted message was announced exactly once, and what was announced is gone. -/
theorem sweeper_announces {now : ℤ} (hrun : Run (apply X) (Covered X) (.init now) sys) :
    Announced sys := by
  have htracked : Tracked X sys :=
    hrun.invariant (tracked_init now) fun _ e _ h _ => tracked_apply e h
  have hcomplete : Complete sys := by
    refine hrun.invariant ?_ fun _ e _ => complete_apply e
    intro r hr
    cases hr
  constructor
  case once =>
    -- at least once, as nothing is left to be sent, and at most once by the ids
    intro hleft r hr
    have hnodup := htracked.once
    rw [List.map_append] at hnodup
    refine List.count_eq_one_of_mem (List.nodup_append.mp hnodup).1 ?_
    simpa [hleft] using hcomplete r hr
  case gone =>
    -- a row of the table with that id would be the announced one
    intro r hr r' hr' hid
    obtain rfl := htracked.eq_of_id (htracked.stored.subset hr')
      (htracked.known r (.inr (.inl hr))) hid
    exact htracked.gone r' (.inr hr) hr'

end

/-! ## A message that expires in between -/

/-- Integers that have passed, and NULL, which never has. -/
def plainExpiry : Expiry (Option ℤ) where
  passed expiresAt now := expiresAt.any fun e => e ≤ now
  mono := by
    intro expiresAt now now' hle hpassed
    obtain ⟨e, rfl, he⟩ := (Option.any_eq_true _ _).mp hpassed
    exact decide_eq_true (Int.le_trans (of_decide_eq_true he) hle)

instance (messages : List (Row E)) (X : Expiry E) (fail : Bool) :
    (phase : Phase E) → Decidable (phase.Covered X messages fail)
  | .deleting selection now => inferInstanceAs
      (Decidable (fail = true ∨ ∀ r ∈ expired X messages now, r.id ∈ selection.map Row.id))
  | .emitting (_ :: _) => inferInstanceAs (Decidable (fail = false))
  | .sleeping | .selecting _ | .selected _ | .emitting [] => .isTrue trivial

instance (X : Expiry E) (sys : System E) : (e : Event E) → Decidable (Covered X sys e)
  | .sweep fail => inferInstanceAs (Decidable (sys.phase.Covered X sys.messages fail))
  | .insert _ _ _ | .delete _ | .clock _ => .isTrue trivial

/-- A round that finds one message. -/
def oneRound : List (Event (Option ℤ)) :=
  [.insert "p.onion" 1 (some 5), .insert "p.onion" 2 (some 12), .clock 10,
   .sweep false, .sweep false, .sweep false, .sweep false, .sweep false, .sweep false]

theorem oneRound_announced : ∃ sys, Run (apply plainExpiry) (Covered plainExpiry) (.init 0) sys ∧
    sys.removed.map Row.id = [1] ∧ Announced sys := by
  obtain ⟨sys, hrun, hremoved⟩ := @Run.exists_of_runAll _ _ (apply plainExpiry) (Covered plainExpiry)
    (.init 0) _ oneRound (fun sys => sys.removed.map Row.id = [1]) (by decide +kernel)
  exact ⟨sys, hrun, of_decide_eq_true hremoved, sweeper_announces hrun⟩

/-- The second message expires after the first reading of the clock, before the second one. -/
def lateExpiry : List (Event (Option ℤ)) :=
  [.insert "p.onion" 1 (some 5), .insert "p.onion" 2 (some 12), .clock 10,
   .sweep false, .sweep false, .clock 5, .sweep false, .sweep false, .sweep false, .sweep false]

/-- It is deleted, and never announced. -/
theorem sweeper_silent : ∃ sys, Run (apply plainExpiry) (fun _ _ => True) (.init 0) sys ∧
    sys.removed.map Row.id = [1, 2] ∧ sys.announced.map Row.id = [1] ∧ ¬ Announced sys := by
  obtain ⟨sys, hrun, hends⟩ := @Run.exists_of_runAll _ _ (apply plainExpiry) (fun _ _ => True)
    (.init 0) _ lateExpiry
    (fun sys => sys.removed.map Row.id = [1, 2] ∧ sys.announced.map Row.id = [1] ∧
      sys.phase.left = []) (by decide +kernel)
  obtain ⟨hremoved, hannounced, hleft⟩ := of_decide_eq_true hends
  refine ⟨sys, hrun, hremoved, hannounced, fun h => ?_⟩
  obtain ⟨r, hr, hid⟩ := List.mem_map.mp (show 2 ∈ sys.removed.map Row.id by rw [hremoved]; simp)
  have honce := h.once hleft r hr
  rw [hannounced, hid] at honce
  exact absurd honce (by decide)

end AnonyMus.P2p.ExpirySweeper
