import Mathlib.Data.List.Sort
import AnonyMus.Lib.Dict
import AnonyMus.Lib.EState
import AnonyMus.Lib.Transaction

/-!
# Schema migrations

`run_migrations` of `core/migrations.py`. The driver decides how a script is run:
`executescript` of sqlite3 commits what is pending and then runs the
statements outside of any transaction, unless the script opens one; a driver
without it runs the script in the transaction of the connection.

* `runMigrations` — the runner, with a fault at any statement of any script, or
  when the version is recorded;
* `migrate` — the effects of whole migrations, with their versions;
* `AllOrNothing` — the runner leaves the effects of a part of the migrations,
  each of them whole, and can be run again;
* `LeavesNothing` — what the interrupted script has stored by itself changes
  nothing;
* `allOrNothing_iff` — for every fault, the one holds exactly when the other
  does.
-/

namespace AnonyMus.Python

open EStateM Connection

/-! ## The runner -/

/-- The tables of the application, and the versions in `schema_migrations`, which may be missing
when it is empty. -/
structure Database (D : Type) where
  tables  : D
  applied : List String

/-- A file with its statements. -/
structure Migration (D : Type) where
  version : String
  script  : List (Statement D)

/-- How a statement does not succeed: an exception, or the end of the process. -/
inductive Interruption
  | failed
  | stopped

/-- Position `i` is the statement `i` of the script, then comes the version, then the commit. -/
structure Fault where
  version      : String
  position     : ℕ
  interruption : Interruption

/-- The connection has `executescript`, as those of sqlite3 have. -/
structure Driver where
  executescript : Bool

abbrev Migrator (D : Type) := EStateM Interruption (Connection (Database D))

variable {D : Type}

def onTables (f : D → Option D) (db : Database D) : Option (Database D) :=
  (f db.tables).map fun tables => { db with tables }

/-- The statement of a script leaves `schema_migrations` alone. -/
def Migration.statements (m : Migration D) : List (Statement (Database D)) :=
  m.script.map (Statement.lift onTables)

/-- `INSERT INTO schema_migrations`, which opens a transaction if none is open. -/
def recordVersion (version : String) (c : Connection (Database D)) :
    Option (Connection (Database D)) :=
  if version ∈ c.view.applied then none
  else some (c.join.write { c.view with applied := c.view.applied ++ [version] })

/-- The fault is met here. -/
def faultAt (fault : Option Fault) (version : String) (position : ℕ) : Option Interruption :=
  (fault.filter fun f => f.version = version && f.position = position).map (·.interruption)

/-- An action on the connection, which may fail of its own or meet the fault. -/
def attempt {σ : Type} (fault : Option Interruption) (f : Connection σ → Option (Connection σ)) :
    EStateM Interruption (Connection σ) Unit := do
  match fault with
  | some interruption => throw interruption
  | none =>
    match f (← get) with
    | some c => set c
    | none => throw .failed

/-- The statements of a script, from position `i` on. -/
def execute {σ : Type} (fault : ℕ → Option Interruption) :
    ℕ → List (Statement σ) → EStateM Interruption (Connection σ) Unit
  | _, [] => return
  | i, s :: script => do
    attempt (fault i) s.exec
    execute fault (i + 1) script

/-- `executescript` begins with a commit; `execute` opens a transaction. -/
def Driver.begin (driver : Driver) {σ : Type} (c : Connection σ) : Connection σ :=
  if driver.executescript then c.commit else c.join

/-- The body of the `try`. -/
def apply (driver : Driver) (fault : Option Fault) (m : Migration D) : Migrator D Unit := do
  modify driver.begin
  execute (faultAt fault m.version) 0 m.statements
  attempt (faultAt fault m.version m.script.length) (recordVersion m.version)
  attempt (faultAt fault m.version (m.script.length + 1)) fun c => some c.commit

/-- What an exception does; the end of the process is not caught. -/
def undo : Interruption → Migrator D Unit
  | .failed => do
    modify Connection.rollback
    throw .failed
  | .stopped => throw .stopped

/-- The body of the loop. -/
def applyFile (driver : Driver) (fault : Option Fault) (m : Migration D) : Migrator D Unit := do
  if m.version ∈ (← get).view.applied then return
  tryCatch (apply driver fault m) undo

/-- The files of the directory, if it is there, that end in `.sql`, by name. -/
def migrationFiles : Option (Dict String (List (Statement D))) → List (Migration D)
  | none => []
  | some dir =>
    ((dir.entries.filter fun e => ".sql".toList.isSuffixOf e.1.toList).map
      fun e => ⟨e.1, e.2⟩).insertionSort fun m m' => m.version ≤ m'.version

def applyFiles (driver : Driver) (fault : Option Fault) (ms : List (Migration D)) :
    Migrator D Unit :=
  ms.forM (applyFile driver fault)

def runMigrations (driver : Driver) (fault : Option Fault)
    (dir : Option (Dict String (List (Statement D)))) : Migrator D Unit := do
  -- `schema_migrations` is there from here on
  modify Connection.commit
  applyFiles driver fault (migrationFiles dir)

/-! ## Whole migrations -/

/-- The connection at the beginning of a script. -/
def Driver.start (driver : Driver) (tables : D) : Connection D :=
  begins (!driver.executescript) tables

/-- The effects of a migration, with its version. -/
def Migration.whole (driver : Driver) (m : Migration D) (db : Database D) : Option (Database D) :=
  if m.version ∈ db.applied then some db
  else (execAll m.script (driver.start db.tables)).map fun c =>
    ⟨c.view, db.applied ++ [m.version]⟩

def migrate (driver : Driver) (ms : List (Migration D)) (db : Database D) : Option (Database D) :=
  ms.foldlM (fun db m => m.whole driver db) db

section

variable (driver : Driver) (fault : Option Fault) (dir : Option (Dict String (List (Statement D))))
  (db : Database D)

/-- What is stored when the run ends, however it does. -/
def storedAfter : Database D := (runMigrations driver fault dir (opened db)).state.stored

/-- The runner leaves the effects of the first migrations, each of them whole; and if it runs again
without the fault, then it ends as it would have ended without the fault. -/
structure AllOrNothing : Prop where
  whole   : ∃ done todo, migrationFiles dir = done ++ todo ∧
    migrate driver done db = some (storedAfter driver fault dir db)
  resumed : runMigrations driver none dir (opened (storedAfter driver fault dir db)) =
    runMigrations driver none dir (opened db)

/-- The migration meets the fault at this position. -/
def Meets (m : Migration D) (position : ℕ) : Prop :=
  position ≤ m.script.length + 1 ∧ faultAt fault m.version position ≠ none

/-- The migration is interrupted at this position: the fault is there, or the statement fails of its
own. -/
structure InterruptedAt (m : Migration D) (tables : D) (position : ℕ) : Prop where
  reached : ∃ c, execAll (m.script.take position) (driver.start tables) = some c ∧
    (Meets fault m position ∨ ∃ s, m.script[position]? = some s ∧ s.exec c = none)
  first   : ∀ i < position, ¬ Meets fault m i

/-- When a migration is interrupted, then the changes that its script has stored by then, outside of
its own transactions or committed by itself, leave the tables as they were. -/
def LeavesNothing : Prop :=
  ∀ done m todo db' position, migrationFiles dir = done ++ m :: todo →
    applyFiles driver fault done (opened db) = .ok ⟨⟩ (opened db') →
    m.version ∉ db'.applied → InterruptedAt driver fault m db'.tables position →
    applyAll (keptOf (!driver.executescript) (m.script.take position)) db'.tables =
      some db'.tables

end

/-! ## One migration -/

section

variable {driver : Driver} {fault : Option Fault} {m : Migration D} {db : Database D}

theorem attempt_cases {σ : Type} (interruption : Option Interruption)
    (f : Connection σ → Option (Connection σ)) (c : Connection σ) :
    (∃ c', interruption = none ∧ f c = some c' ∧ attempt interruption f c = .ok ⟨⟩ c') ∨
      ∃ e, (interruption ≠ none ∨ f c = none) ∧ attempt interruption f c = .error e c := by
  unfold attempt
  cases interruption with
  | some e => exact .inr ⟨e, .inl (Option.some_ne_none e), rfl⟩
  | none =>
    dsimp only
    rw [apply_bind, apply_get]
    dsimp only
    cases hf : f c with
    | some c' => exact .inl ⟨c', rfl, rfl, rfl⟩
    | none => exact .inr ⟨.failed, .inr rfl, rfl⟩

/-- A script runs to its end, or up to a statement that meets the fault or fails. -/
theorem execute_cases {σ : Type} (fault : ℕ → Option Interruption) (script : List (Statement σ))
    (i : ℕ) (c : Connection σ) :
    (∃ c', execute fault i script c = .ok ⟨⟩ c' ∧ execAll script c = some c' ∧
        ∀ j < script.length, fault (i + j) = none) ∨
      ∃ e c' j s, execute fault i script c = .error e c' ∧ script[j]? = some s ∧
        execAll (script.take j) c = some c' ∧ (fault (i + j) ≠ none ∨ s.exec c' = none) ∧
        ∀ k < j, fault (i + k) = none := by
  induction script generalizing i c with
  | nil => exact .inl ⟨c, rfl, rfl, fun j hj => absurd hj (Nat.not_lt_zero j)⟩
  | cons s script ih =>
    rw [execute, apply_bind]
    rcases attempt_cases (fault i) s.exec c with ⟨c₁, hfault, hexec, hattempt⟩ | ⟨e, hwhy, hattempt⟩
    · rw [hattempt]
      dsimp only
      -- the statement is done, and the others are one position further
      have hshift : ∀ j, i + 1 + j = i + (j + 1) := fun j => by omega
      rcases ih (i + 1) c₁ with ⟨c', hrun, hall, hno⟩ | ⟨e, c', j, t, hrun, ht, htake, hwhy, hno⟩
      · refine .inl ⟨c', hrun, ?_, ?_⟩
        · rw [execAll_cons, hexec]
          exact hall
        · intro j hj
          cases j with
          | zero => exact hfault
          | succ j =>
            rw [← hshift]
            exact hno j (Nat.lt_of_succ_lt_succ hj)
      · refine .inr ⟨e, c', j + 1, t, hrun, ht, ?_, ?_, ?_⟩
        · rw [List.take_succ_cons, execAll_cons, hexec]
          exact htake
        · rw [← hshift]
          exact hwhy
        · intro k hk
          cases k with
          | zero => exact hfault
          | succ k =>
            rw [← hshift]
            exact hno k (Nat.lt_of_succ_lt_succ hk)
    · rw [hattempt]
      exact .inr ⟨e, c, 0, s, rfl, rfl, rfl, hwhy, fun k hk => absurd hk (Nat.not_lt_zero k)⟩

/-- A connection to the tables, as one to the database. -/
def withVersions (applied : List String) (c : Connection D) : Connection (Database D) :=
  c.map fun tables => ⟨tables, applied⟩

theorem begin_opened (driver : Driver) (db : Database D) :
    driver.begin (opened db) = withVersions db.applied (driver.start db.tables) := by
  unfold Driver.begin Driver.start begins
  cases driver.executescript with
  | true => rfl
  | false => rfl

theorem execAll_statements (m : Migration D) (j : ℕ) (applied : List String) (c : Connection D) :
    execAll (m.statements.take j) (withVersions applied c) =
      (execAll (m.script.take j) c).map (withVersions applied) := by
  rw [Migration.statements, ← List.map_take]
  exact execAll_lift (fun f tables => rfl) _ c

theorem exec_statements {s : Statement (Database D)} {j : ℕ} (h : m.statements[j]? = some s)
    (applied : List String) (c : Connection D) :
    ∃ t, m.script[j]? = some t ∧ s.exec (withVersions applied c) =
      (t.exec c).map (withVersions applied) := by
  rw [Migration.statements, List.getElem?_map] at h
  obtain ⟨t, ht, rfl⟩ := Option.map_eq_some_iff.mp h
  exact ⟨t, ht, Statement.exec_lift (fun f tables => rfl) t c⟩

/-- The version is recorded in the open transaction, or in one of its own. -/
theorem recordVersion_withVersions {version : String} {applied : List String}
    (hnew : version ∉ applied) (c : Connection D) :
    recordVersion version (withVersions applied c) =
      some ⟨⟨c.stored, applied⟩, some ⟨c.view, applied ++ [version]⟩⟩ := by
  unfold recordVersion withVersions
  rw [view_map]
  exact if_neg hnew

/-- The migration has met no fault. -/
def Clear (fault : Option Fault) (m : Migration D) : Prop :=
  ∀ j ≤ m.script.length + 1, faultAt fault m.version j = none

theorem Clear.not_meets (h : Clear fault m) (j : ℕ) : ¬ Meets fault m j :=
  fun ⟨hj, hfault⟩ => hfault (h j hj)

theorem InterruptedAt.of_fault {c : Connection D} {j : ℕ} (hj : m.script.length ≤ j)
    (hlast : j ≤ m.script.length + 1)
    (hall : execAll m.script (driver.start db.tables) = some c)
    (hfault : faultAt fault m.version j ≠ none) (hno : ∀ k < j, faultAt fault m.version k = none) :
    InterruptedAt driver fault m db.tables j ∧
      applyAll (keptOf (!driver.executescript) (m.script.take j)) db.tables = some c.stored := by
  rw [List.take_of_length_le hj]
  refine ⟨⟨⟨c, ?_, .inl ⟨hlast, hfault⟩⟩, fun k hk hmeets => hmeets.2 (hno k hk)⟩,
    stored_execAll hall⟩
  rw [List.take_of_length_le hj]
  exact hall

/-- A migration is done as a whole, or it is interrupted and its script has stored what it keeps. -/
theorem apply_cases (driver : Driver) (fault : Option Fault) (hnew : m.version ∉ db.applied) :
    (∃ c, execAll m.script (driver.start db.tables) = some c ∧ Clear fault m ∧
        apply driver fault m (opened db) = .ok ⟨⟩ (opened ⟨c.view, db.applied ++ [m.version]⟩)) ∨
      ∃ e c' j tables, apply driver fault m (opened db) = .error e c' ∧
        c'.stored = ⟨tables, db.applied⟩ ∧ InterruptedAt driver fault m db.tables j ∧
        applyAll (keptOf (!driver.executescript) (m.script.take j)) db.tables = some tables := by
  unfold apply
  rw [apply_bind, apply_modify]
  dsimp only
  rw [begin_opened, apply_bind]
  have hlength : m.statements.length = m.script.length := List.length_map ..
  have hwhole : m.statements.take m.statements.length = m.statements := List.take_length
  rcases execute_cases (faultAt fault m.version) m.statements 0
    (withVersions db.applied (driver.start db.tables)) with
    ⟨c', hrun, hall, hno⟩ | ⟨e, c', j, s, hrun, hs, htake, hwhy, hno⟩
  · -- the script runs to its end
    rw [hrun]
    dsimp only
    rw [← hwhole, execAll_statements, hlength, List.take_length] at hall
    obtain ⟨c, hdone, rfl⟩ := Option.map_eq_some_iff.mp hall
    have hscript : ∀ k < m.script.length, faultAt fault m.version k = none := by
      intro k hk
      rw [← Nat.zero_add k]
      exact hno k (hlength.symm ▸ hk)
    have hrecorded := recordVersion_withVersions hnew c
    rw [apply_bind]
    rcases attempt_cases (faultAt fault m.version m.script.length) (recordVersion m.version)
      (withVersions db.applied c) with ⟨c₁, hfault, hrecord, hattempt⟩ | ⟨e, hwhy, hattempt⟩
    · rw [hattempt]
      dsimp only
      rw [hrecorded] at hrecord
      obtain rfl := Option.some.inj hrecord
      have hversion : ∀ k < m.script.length + 1, faultAt fault m.version k = none := by
        intro k hk
        rcases Nat.lt_succ_iff_lt_or_eq.mp hk with hk | rfl
        · exact hscript k hk
        · exact hfault
      rcases attempt_cases (faultAt fault m.version (m.script.length + 1))
        (fun c => some c.commit)
        (⟨⟨c.stored, db.applied⟩, some ⟨c.view, db.applied ++ [m.version]⟩⟩ :
          Connection (Database D)) with ⟨c₂, hlast, hcommit, hattempt⟩ | ⟨e, hwhy, hattempt⟩
      · obtain rfl := Option.some.inj hcommit
        refine .inl ⟨c, hdone, ?_, hattempt⟩
        intro k hk
        rcases Nat.lt_succ_iff_lt_or_eq.mp (Nat.lt_succ_of_le hk) with hk | rfl
        · exact hversion k hk
        · exact hlast
      · have hfault := hwhy.resolve_right (Option.some_ne_none _)
        obtain ⟨hinterrupted, hkept⟩ :=
          InterruptedAt.of_fault (Nat.le_succ _) le_rfl hdone hfault hversion
        exact .inr ⟨e, _, _, c.stored, hattempt, rfl, hinterrupted, hkept⟩
    · rw [hattempt]
      have hfault := hwhy.resolve_right (hrecorded.symm ▸ Option.some_ne_none _)
      obtain ⟨hinterrupted, hkept⟩ :=
        InterruptedAt.of_fault le_rfl (Nat.le_succ _) hdone hfault hscript
      exact .inr ⟨e, _, _, c.stored, rfl, rfl, hinterrupted, hkept⟩
  · -- the script breaks off
    rw [hrun]
    rw [execAll_statements] at htake
    obtain ⟨c, hpart, rfl⟩ := Option.map_eq_some_iff.mp htake
    obtain ⟨t, ht, hexec⟩ := exec_statements hs db.applied c
    obtain ⟨hj, -⟩ := List.getElem?_eq_some_iff.mp ht
    refine .inr ⟨e, _, j, c.stored, rfl, rfl, ⟨⟨c, hpart, ?_⟩, ?_⟩, stored_execAll hpart⟩
    · rcases hwhy with hfault | hnone
      · rw [Nat.zero_add] at hfault
        exact .inl ⟨hj.le.trans (Nat.le_succ _), hfault⟩
      · rw [hexec] at hnone
        exact .inr ⟨t, ht, Option.map_eq_none_iff.mp hnone⟩
    · intro k hk hmeets
      apply hmeets.2
      rw [← Nat.zero_add k]
      exact hno k hk

/-- Either way of stopping leaves what is stored. -/
theorem undo_error (e : Interruption) (c : Connection (Database D)) :
    ∃ c', undo e c = .error e c' ∧ c'.stored = c.stored := by
  cases e with
  | failed => exact ⟨c.rollback, rfl, rfl⟩
  | stopped => exact ⟨c, rfl, rfl⟩

theorem applyFile_of_applied (driver : Driver) (fault : Option Fault)
    (h : m.version ∈ db.applied) :
    applyFile driver fault m (opened db) = .ok ⟨⟩ (opened db) := by
  unfold applyFile
  rw [apply_bind, apply_get]
  dsimp only
  rw [view_opened, if_pos h]
  rfl

theorem applyFile_cases (driver : Driver) (fault : Option Fault) (hnew : m.version ∉ db.applied) :
    (∃ c, execAll m.script (driver.start db.tables) = some c ∧ Clear fault m ∧
        applyFile driver fault m (opened db) =
          .ok ⟨⟩ (opened ⟨c.view, db.applied ++ [m.version]⟩)) ∨
      ∃ e c' j tables, applyFile driver fault m (opened db) = .error e c' ∧
        c'.stored = ⟨tables, db.applied⟩ ∧ InterruptedAt driver fault m db.tables j ∧
        applyAll (keptOf (!driver.executescript) (m.script.take j)) db.tables = some tables := by
  have hrun : applyFile driver fault m (opened db) =
      (tryCatch (apply driver fault m) undo : Migrator D Unit) (opened db) := by
    unfold applyFile
    rw [apply_bind, apply_get]
    dsimp only
    rw [view_opened, if_neg hnew]
  rw [hrun]
  rcases apply_cases driver fault hnew with
    ⟨c, hall, hclear, happly⟩ | ⟨e, c', j, tables, happly, hstored, hinterrupted, hkept⟩
  · refine .inl ⟨c, hall, hclear, ?_⟩
    rw [apply_tryCatch, happly]
  · obtain ⟨c₁, hundo, hsame⟩ := undo_error e c'
    refine .inr ⟨e, c₁, j, tables, ?_, hsame.trans hstored, hinterrupted, hkept⟩
    rw [apply_tryCatch, happly]
    exact hundo

/-- A migration is interrupted at one position only. -/
theorem InterruptedAt.not_lt {tables : D} {j j' : ℕ} (h : InterruptedAt driver fault m tables j)
    (h' : InterruptedAt driver fault m tables j') : ¬ j < j' := by
  intro hlt
  obtain ⟨⟨c, htake, hwhy⟩, -⟩ := h
  obtain ⟨⟨c', htake', -⟩, hfirst'⟩ := h'
  rcases hwhy with hmeets | ⟨s, hs, hnone⟩
  · exact hfirst' j hlt hmeets
  · -- the later position is behind a statement that fails
    refine exec_ne_none (j := j) htake' ?_ ?_ hnone
    · rw [List.getElem?_take_of_lt hlt]
      exact hs
    · rw [List.take_take, Nat.min_eq_left hlt.le]
      exact htake

theorem InterruptedAt.unique {tables : D} {j j' : ℕ} (h : InterruptedAt driver fault m tables j)
    (h' : InterruptedAt driver fault m tables j') : j = j' :=
  Nat.le_antisymm (Nat.le_of_not_lt (h'.not_lt h)) (Nat.le_of_not_lt (h.not_lt h'))

/-- It is not interrupted where it is done as a whole. -/
theorem InterruptedAt.not_clear {tables : D} {j : ℕ} {c : Connection D}
    (h : InterruptedAt driver fault m tables j)
    (hall : execAll m.script (driver.start tables) = some c) : ¬ Clear fault m := by
  intro hclear
  obtain ⟨⟨c', htake, hwhy⟩, -⟩ := h
  rcases hwhy with hmeets | ⟨s, hs, hnone⟩
  · exact hclear.not_meets j hmeets
  · exact exec_ne_none hall hs htake hnone

end

/-! ## Runs -/

section

variable {driver : Driver} {fault : Option Fault} {ms done todo : List (Migration D)}
  {m : Migration D} {db db' : Database D}

theorem whole_of_new (hnew : m.version ∉ db.applied) {c : Connection D}
    (hall : execAll m.script (driver.start db.tables) = some c) :
    m.whole driver db = some ⟨c.view, db.applied ++ [m.version]⟩ := by
  rw [Migration.whole, if_neg hnew, hall]
  rfl

theorem whole_of_applied (h : m.version ∈ db.applied) : m.whole driver db = some db := if_pos h

/-- A migration that returns has been applied as a whole, and without the fault it does the same. -/
theorem whole_of_ok {c : Connection (Database D)}
    (h : applyFile driver fault m (opened db) = .ok ⟨⟩ c) :
    ∃ db', c = opened db' ∧ m.whole driver db = some db' ∧
      applyFile driver none m (opened db) = .ok ⟨⟩ c := by
  by_cases hnew : m.version ∈ db.applied
  · rw [applyFile_of_applied driver fault hnew] at h
    cases h
    exact ⟨db, rfl, whole_of_applied hnew, applyFile_of_applied driver none hnew⟩
  · rcases applyFile_cases driver fault hnew with ⟨c₁, hall, -, hrun⟩ | ⟨e, c₁, -, -, hrun, -⟩
    · rw [hrun] at h
      cases h
      refine ⟨_, rfl, whole_of_new hnew hall, ?_⟩
      rcases applyFile_cases driver none hnew with
        ⟨c₂, hall', -, hrun'⟩ | ⟨e, c₂, j, -, -, -, hinterrupted, -⟩
      · rw [hall] at hall'
        cases hall'
        exact hrun'
      · -- without a fault there is no other reason
        exact absurd (fun _ _ => rfl) (hinterrupted.not_clear hall)
    · rw [hrun] at h
      cases h

theorem migrate_cons (m : Migration D) (ms : List (Migration D)) (db : Database D) :
    migrate driver (m :: ms) db = (m.whole driver db).bind (migrate driver ms) :=
  List.foldlM_cons ..

theorem migrate_append (done todo : List (Migration D)) (db : Database D) :
    migrate driver (done ++ todo) db = (migrate driver done db).bind (migrate driver todo) :=
  List.foldlM_append

theorem applyFiles_cons (m : Migration D) (ms : List (Migration D)) (c : Connection (Database D)) :
    applyFiles driver fault (m :: ms) c =
      (applyFile driver fault m >>= fun _ => applyFiles driver fault ms) c := rfl

theorem migrate_of_ok {c : Connection (Database D)}
    (h : applyFiles driver fault ms (opened db) = .ok ⟨⟩ c) :
    ∃ db', c = opened db' ∧ migrate driver ms db = some db' ∧
      applyFiles driver none ms (opened db) = .ok ⟨⟩ c := by
  induction ms generalizing db with
  | nil =>
    cases h
    exact ⟨db, rfl, rfl, rfl⟩
  | cons m ms ih =>
    obtain ⟨⟨⟩, c₁, hfirst, hrest⟩ := ok_of_bind h
    obtain ⟨db₁, rfl, hwhole, hnone⟩ := whole_of_ok hfirst
    obtain ⟨db', rfl, hmigrate, hrun⟩ := ih hrest
    refine ⟨db', rfl, ?_, ?_⟩
    · rw [migrate_cons, hwhole]
      exact hmigrate
    · rw [applyFiles_cons, apply_bind, hnone]
      exact hrun

theorem applyFiles_append (done todo : List (Migration D)) (c : Connection (Database D)) :
    applyFiles driver fault (done ++ todo) c =
      (applyFiles driver fault done >>= fun _ => applyFiles driver fault todo) c := by
  induction done generalizing c with
  | nil => rfl
  | cons m done ih =>
    rw [apply_bind, List.cons_append, applyFiles_cons, applyFiles_cons, apply_bind, apply_bind]
    cases applyFile driver fault m c with
    | error e c' => rfl
    | ok u c' => exact (ih c').trans (apply_bind ..)

/-- Versions are only added; those of the migrations are there in the end. -/
theorem applied_of_whole (h : m.whole driver db = some db') :
    m.version ∈ db'.applied ∧ db.applied <+: db'.applied := by
  by_cases hnew : m.version ∈ db.applied
  · rw [whole_of_applied hnew] at h
    cases h
    exact ⟨hnew, List.prefix_rfl⟩
  · rw [Migration.whole, if_neg hnew] at h
    obtain ⟨c, -, rfl⟩ := Option.map_eq_some_iff.mp h
    exact ⟨List.mem_append_right _ (List.mem_singleton_self _), List.prefix_append _ _⟩

theorem applied_of_migrate (h : migrate driver ms db = some db') :
    (∀ m ∈ ms, m.version ∈ db'.applied) ∧ db.applied <+: db'.applied := by
  induction ms generalizing db with
  | nil =>
    cases h
    exact ⟨fun m hm => absurd hm List.not_mem_nil, List.prefix_rfl⟩
  | cons m ms ih =>
    rw [migrate_cons] at h
    obtain ⟨db₁, hwhole, hrest⟩ := Option.bind_eq_some_iff.mp h
    obtain ⟨hmem, hadded⟩ := applied_of_whole hwhole
    obtain ⟨hmems, hadded'⟩ := ih hrest
    refine ⟨?_, hadded.trans hadded'⟩
    intro m' hm'
    rcases List.mem_cons.mp hm' with rfl | hm'
    · exact hadded'.subset hmem
    · exact hmems m' hm'

/-- Migrations whose versions are there are skipped. -/
theorem applyFiles_of_applied (h : ∀ m ∈ ms, m.version ∈ db.applied) :
    applyFiles driver fault ms (opened db) = .ok ⟨⟩ (opened db) := by
  induction ms with
  | nil => rfl
  | cons m ms ih =>
    rw [applyFiles_cons, apply_bind, applyFile_of_applied driver fault (h m List.mem_cons_self)]
    exact ih fun m' hm' => h m' (List.mem_cons_of_mem m hm')

theorem migrate_of_applied (h : ∀ m ∈ ms, m.version ∈ db.applied) :
    migrate driver ms db = some db := by
  induction ms with
  | nil => rfl
  | cons m ms ih =>
    rw [migrate_cons, whole_of_applied (h m List.mem_cons_self)]
    exact ih fun m' hm' => h m' (List.mem_cons_of_mem m hm')

/-- How a run ends: all migrations are done, or the first that is interrupted ends it. -/
def Ends (driver : Driver) (fault : Option Fault) (ms : List (Migration D)) (db : Database D) :
    Prop :=
  (∃ db', applyFiles driver fault ms (opened db) = .ok ⟨⟩ (opened db')) ∨
    ∃ done m todo db' j e c tables, ms = done ++ m :: todo ∧
      applyFiles driver fault done (opened db) = .ok ⟨⟩ (opened db') ∧
      m.version ∉ db'.applied ∧ InterruptedAt driver fault m db'.tables j ∧
      applyFiles driver fault ms (opened db) = .error e c ∧
      c.stored = ⟨tables, db'.applied⟩ ∧
      applyAll (keptOf (!driver.executescript) (m.script.take j)) db'.tables = some tables

theorem applyFiles_ends (driver : Driver) (fault : Option Fault) (ms : List (Migration D))
    (db : Database D) : Ends driver fault ms db := by
  induction ms generalizing db with
  | nil => exact .inl ⟨db, rfl⟩
  | cons m ms ih =>
    -- what is done after the first migration, is done after it in the run
    have hnext : ∀ {db₁ db' : Database D} {done : List (Migration D)},
        applyFile driver fault m (opened db) = .ok ⟨⟩ (opened db₁) →
        applyFiles driver fault done (opened db₁) = .ok ⟨⟩ (opened db') →
        applyFiles driver fault (m :: done) (opened db) = .ok ⟨⟩ (opened db') := by
      intro db₁ db' done hfirst hdone
      rw [applyFiles_cons, apply_bind, hfirst]
      exact hdone
    have hrest : ∀ {db₁ : Database D},
        applyFile driver fault m (opened db) = .ok ⟨⟩ (opened db₁) →
        Ends driver fault (m :: ms) db := by
      intro db₁ hfirst
      rcases ih db₁ with ⟨db', hall⟩ | ⟨done, m', todo, db', j, e, c, tables, rfl, hdone, hnew, h⟩
      · exact .inl ⟨db', hnext hfirst hall⟩
      · obtain ⟨hinterrupted, hrun, hstored, hkept⟩ := h
        refine .inr ⟨m :: done, m', todo, db', j, e, c, tables, rfl, hnext hfirst hdone, hnew,
          hinterrupted, ?_, hstored, hkept⟩
        rw [applyFiles_cons, apply_bind, hfirst]
        exact hrun
    by_cases hnew : m.version ∈ db.applied
    · exact hrest (applyFile_of_applied driver fault hnew)
    · rcases applyFile_cases driver fault hnew with
        ⟨c, -, -, hfirst⟩ | ⟨e, c, j, tables, hfirst, hstored, hinterrupted, hkept⟩
      · exact hrest hfirst
      · refine .inr ⟨[], m, ms, db, j, e, c, tables, rfl, rfl, hnew, hinterrupted, ?_, hstored,
          hkept⟩
        rw [applyFiles_cons, apply_bind, hfirst]

variable {dir : Option (Dict String (List (Statement D)))}

theorem runMigrations_opened (driver : Driver) (fault : Option Fault) (db : Database D) :
    runMigrations driver fault dir (opened db) =
      applyFiles driver fault (migrationFiles dir) (opened db) := rfl

/-- A run that leaves what some of the migrations have made can be resumed. -/
theorem AllOrNothing.of_done (hsplit : migrationFiles dir = done ++ todo)
    (hdone : applyFiles driver fault done (opened db) = .ok ⟨⟩ (opened db'))
    (hstored : storedAfter driver fault dir db = db') : AllOrNothing driver fault dir db := by
  obtain ⟨db₁, heq, hmigrate, hnone⟩ := migrate_of_ok hdone
  obtain rfl : db' = db₁ := congrArg Connection.stored heq
  refine ⟨⟨done, todo, hsplit, hmigrate.trans (congrArg some hstored.symm)⟩, ?_⟩
  -- what is done is skipped, and the rest finds the same database
  have hskipped : applyFiles driver none done (opened db') = .ok ⟨⟩ (opened db') :=
    applyFiles_of_applied (applied_of_migrate hmigrate).1
  rw [hstored, runMigrations_opened, runMigrations_opened, hsplit, applyFiles_append,
    applyFiles_append, apply_bind, apply_bind, hskipped, hnone]

/-- A part of the migrations that leaves the versions of the others leaves the same tables. -/
theorem tables_eq_of_migrate {done' todo' : List (Migration D)} {tables : D}
    (hsplit : done ++ m :: todo = done' ++ todo') (hmigrate : migrate driver done db = some db')
    (hnew : m.version ∉ db'.applied)
    (hmigrate' : migrate driver done' db = some ⟨tables, db'.applied⟩) : tables = db'.tables := by
  rcases List.append_eq_append_iff.mp hsplit with ⟨more, rfl, hrest⟩ | ⟨more, rfl, -⟩
  · rw [migrate_append, hmigrate, Option.bind_some] at hmigrate'
    rcases more with _ | ⟨m', more⟩
    · exact (congrArg Database.tables (Option.some.inj hmigrate')).symm
    · -- then the version of the next migration would be there
      obtain ⟨rfl, -⟩ := List.cons_eq_cons.mp hrest
      exact absurd ((applied_of_migrate hmigrate').1 m List.mem_cons_self) hnew
  · rw [migrate_append, hmigrate', Option.bind_some] at hmigrate
    have hskipped : migrate driver more (⟨tables, db'.applied⟩ : Database D) = some _ :=
      migrate_of_applied (applied_of_migrate hmigrate).1
    rw [hskipped] at hmigrate
    exact congrArg Database.tables (Option.some.inj hmigrate)

end

/-- **When migrations are all or nothing.** For every driver, every directory, every
database and every fault, the runner leaves the effects and the versions of
the first migrations, each of them whole, and completes the others when it
runs again, exactly when the changes that the interrupted script has stored
outside of transactions of its own leave the tables as they were. -/
theorem allOrNothing_iff (driver : Driver) (fault : Option Fault)
    (dir : Option (Dict String (List (Statement D)))) (db : Database D) :
    AllOrNothing driver fault dir db ↔ LeavesNothing driver fault dir db := by
  constructor
  -- the tables that a first half leaves must be those of some first migrations; the
  -- interrupted one is new to the database, so it can only be those before it
  · rintro ⟨⟨done', todo', hsplit', hmigrate'⟩, -⟩ done m todo db' j hsplit hdone hnew hinterrupted
    obtain ⟨db₁, heq, hmigrate, -⟩ := migrate_of_ok hdone
    obtain rfl : db' = db₁ := congrArg Connection.stored heq
    rcases applyFile_cases driver fault hnew with
      ⟨c, hall, hclear, -⟩ | ⟨e, c, j', tables, hrun, hstored, hinterrupted', hkept⟩
    · exact absurd hclear (hinterrupted.not_clear hall)
    · rw [hinterrupted.unique hinterrupted', hkept]
      -- what the runner leaves is where the interrupted script stopped
      have hafter : storedAfter driver fault dir db = ⟨tables, db'.applied⟩ := by
        rw [storedAfter, runMigrations_opened, hsplit, applyFiles_append, apply_bind, hdone]
        dsimp only
        rw [applyFiles_cons, apply_bind, hrun]
        exact hstored
      rw [hafter] at hmigrate'
      exact congrArg some (tables_eq_of_migrate (hsplit.symm.trans hsplit') hmigrate hnew hmigrate')
  · intro h
    -- either every file is applied, or the run ends inside of the first new file that
    -- fails
    rcases applyFiles_ends driver fault (migrationFiles dir) db with
      ⟨db', hall⟩ | ⟨done, m, todo, db', j, e, c, tables, hsplit, hdone, hnew, hinterrupted, hends⟩
    · refine AllOrNothing.of_done (List.append_nil _).symm hall ?_
      rw [storedAfter, runMigrations_opened, hall]
      rfl
    · obtain ⟨hrun, hstored, hkept⟩ := hends
      refine AllOrNothing.of_done hsplit hdone ?_
      rw [h done m todo db' j hsplit hdone hnew hinterrupted] at hkept
      rw [storedAfter, runMigrations_opened, hrun]
      -- no effect of the script is stored, so the next run starts it from its first
      -- statement
      have hdb : (⟨tables, db'.applied⟩ : Database D) = db' := by rw [← Option.some.inj hkept]
      exact hstored.trans hdb

/-! ## A script with two changes -/

/-- A table as the names of its columns. -/
def addColumn (column : String) : Statement (List String) :=
  .change fun columns => if column ∈ columns then none else some (columns ++ [column])

/-- The migration that adds the columns for the keys of the key encapsulation. -/
def pqKem : Dict String (List (Statement (List String))) :=
  Dict.empty.insert "0005_pq_kem.sql"
    [addColumn "peer_kem_public_key", addColumn "my_kem_private_key"]

/-- The second statement fails: the first column stays, no version is recorded, and the next run
fails at the first column. -/
theorem pqKem_halfApplied :
    ¬ AllOrNothing ⟨true⟩ (some ⟨"0005_pq_kem.sql", 1, .failed⟩) (some pqKem)
      ⟨["onion_address"], []⟩ := by
  rintro ⟨-, hresumed⟩
  have happlied := congrArg (fun r => r.state.stored.applied) hresumed
  exact absurd happlied (by decide +kernel)

end AnonyMus.Python
