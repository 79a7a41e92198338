import AnonyMus.P2p.OneTime

/-!
# P2P node — the pool and the row of a bundle

`sync_pool_to_db` writes the public keys of the pool into the row and leaves them in
the pool, from which `fetch_bundle` refills the row. The handlers here run one after
another.

* `Mark`, `Traced` — what has been written, taken and handed out, in order;
* `OneSource` — no key is handed out twice, taken after it was synced, or synced
  after it was handed out;
* `Apart` — `sync_pool_to_db` finds an empty pool, or no row;
* `fits_ran`, `conserved_ran` — keys then move, and no one copies them;
* `Reaches` — one handler after another, step by step;
* `oneSource` — such runs have one source of keys, and a sync that finds keys and a
  row can be followed by handlers that have not;
* `syncThenFetch_served` — a sync of one key and two fetches.
-/

namespace AnonyMus.P2p.Keys

open Interleave

/-! ## Traces -/

inductive Mark
  /-- `sync_pool_to_db` has written these keys. -/
  | synced (keys : List String)
  /-- The pool has given up this key. -/
  | taken (key : String)
  /-- `fetch_bundle` has returned this key. -/
  | handedOut (key : String)
deriving DecidableEq

/-- What a command adds to the trace. -/
def marksOf (s : Store) : Command → List Mark
  | .start .takeOneTimePrekey | .fetchTake _ (_ + 1) _ =>
    s.pool.getLast?.toList.map fun pair => .taken pair.pub
  | .syncCommit _ pubKeys => if s.bundle = none then [] else [.synced pubKeys]
  | .respond fetched => fetched.opk.toList.map .handedOut
  | _ => []

def Event.marks (sys : System) : Event → List Mark
  | .request _ => []
  | .run i => ((sys.next i).map (marksOf sys.store)).getD []

structure Traced where
  sys   : System
  marks : List Mark

def Traced.init : Traced := ⟨System.init, []⟩

section

variable (R : Runtime) (onion : String)

def applyTraced (t : Traced) (e : Event) : Option Traced :=
  (apply R onion t.sys e).map fun sys => ⟨sys, t.marks ++ e.marks t.sys⟩

end

/-- One source of published keys. -/
structure OneSource (t : Traced) : Prop where
  once  : (served .oneTime t.sys.store).Nodup
  taken : ∀ before key after, t.marks = before ++ .taken key :: after →
    ∀ keys, .synced keys ∈ before → key ∉ keys
  back  : ∀ before keys after, t.marks = before ++ .synced keys :: after →
    ∀ key ∈ keys, .handedOut key ∉ before

/-- Handlers run one after another, and bring keys that are new. -/
def OneByOne (t : Traced) : Event → Prop
  | .request r => pending t.sys.threads = [] ∧ ∀ c, (supplied c (t.sys.requests ++ [r])).Nodup
  | .run _ => True

/-- Moreover `sync_pool_to_db` finds an empty pool, or no row to write to. -/
def Apart (t : Traced) (e : Event) : Prop :=
  OneByOne t e ∧
    (e = .request .syncPoolToDb → t.sys.store.pool = [] ∨ t.sys.store.bundle = none)

/-! ## A handler that runs alone -/

/-- It has seen all writes. -/
def Seen (s : Store) : Command → Prop
  | .fetchCommit _ readAt => s.writes.length = readAt
  | .fetchTake fetched _ _ | .refillCommit fetched _ =>
    s.writes.length = fetched.readAt + fetched.own
  | _ => True

def Command.isSync : Command → Bool
  | .start .syncPoolToDb | .syncSelect _ | .syncCommit _ _ => true
  | _ => false

/-- It knows the row, and syncs no key. -/
def Fits (s : Store) : Command → Prop
  | .start .syncPoolToDb => s.pool = [] ∨ s.bundle = none
  | .syncSelect pubKeys => pubKeys = [] ∨ s.bundle = none
  | .syncCommit _ pubKeys => pubKeys = []
  | command => Current s command ∧ Seen s command

section

variable {R : Runtime} {onion : String} {s s' : Store} {command : Command}
  {commands : List Command}

theorem Seen.alone (h : Seen s command) : Alone s command := by
  cases command with
  | fetchCommit loaded readAt => exact .inr h
  | refillCommit fetched added => exact h
  | _ => trivial

theorem seen_refillIfLow {fetched : Fetched} (h : s.writes.length = fetched.readAt + fetched.own) :
    Seen s (refillIfLow fetched) := by
  unfold refillIfLow
  dsimp only
  split_ifs
  · exact h
  · trivial

theorem seen_ran (hran : Ran onion s command s' commands) (hcurrent : Current s command)
    (hseen : Seen s command) : ∀ next ∈ commands, Seen s' next := by
  cases hran with
  | start hstarted =>
    cases hstarted with
    | fetch _ => exact List.forall_mem_singleton.mpr rfl
    | _ => simp [Seen]
  | @fetch loaded readAt row hrow hpop =>
    -- its own write is the one that has been added
    have hlength : s.writes.length = readAt := hseen
    have hown : (takeKeys loaded readAt).own = 1 := if_neg hpop
    refine List.forall_mem_singleton.mpr (seen_refillIfLow ?_)
    rw [hown]
    simp [Store.write, takeKeys, hlength]
  | @fetchNothing loaded readAt hpop =>
    have hsame := pop_eq_of_nothing hcurrent hseen.alone hpop
    have hown : (takeKeys loaded readAt).own = 0 := if_pos hsame
    refine List.forall_mem_singleton.mpr (seen_refillIfLow ?_)
    rw [hown]
    exact hseen
  | take _ => exact List.forall_mem_singleton.mpr hseen
  | taken _ => exact List.forall_mem_singleton.mpr hseen
  | _ => simp [Seen]

theorem fits_of_current (hcurrent : Current s command) (hseen : Seen s command) : Fits s command := by
  cases command with
  | start r =>
    cases r with
    | syncPoolToDb => exact hcurrent.elim
    | _ => exact ⟨hcurrent, hseen⟩
  | syncSelect pubKeys => exact hcurrent.elim
  | syncCommit loaded pubKeys => exact hcurrent.elim
  | _ => exact ⟨hcurrent, hseen⟩

theorem Fits.current (h : Fits s command) (hsync : command.isSync = false) :
    Current s command ∧ Seen s command := by
  cases command with
  | start r =>
    cases r with
    | syncPoolToDb => cases hsync
    | _ => exact h
  | syncSelect pubKeys => cases hsync
  | syncCommit loaded pubKeys => cases hsync
  | _ => exact h

/-- What a handler leads to knows the row again. -/
theorem fits_ran (hran : Ran onion s command s' commands) (hfits : Fits s command) :
    ∀ next ∈ commands, Fits s' next := by
  by_cases hsync : command.isSync = true
  · cases hran with
    | start hstarted =>
      cases hstarted with
      | sync =>
        -- what it reads of an empty pool is empty
        refine List.forall_mem_singleton.mpr (hfits.imp_left fun hpool => ?_)
        rw [hpool]
        rfl
      | failed | elsewhere => exact List.forall_mem_nil _
      | _ => cases hsync
    | syncSelect hrow =>
      refine List.forall_mem_singleton.mpr (hfits.resolve_right fun hnone => ?_)
      cases hrow.symm.trans hnone
    | syncSelectNothing | syncCommit _ | syncCommitNothing => exact List.forall_mem_nil _
    | _ => cases hsync
  · obtain ⟨hcurrent, hseen⟩ := hfits.current (Bool.eq_false_iff.mpr hsync)
    intro next hnext
    exact fits_of_current (ran_current hran hcurrent hseen.alone next hnext)
      (seen_ran hran hcurrent hseen next hnext)

/-- A handler moves keys and makes none: one that syncs has no keys to write. -/
theorem conserved_ran (hran : Ran onion s command s' commands) (hfits : Fits s command)
    (c : Column) (key : String) :
    stored c key s' + (commands.flatMap (held c)).count key ≤
      stored c key s + (held c command).count key := by
  by_cases hsync : command.isSync = true
  · cases hran with
    | start hstarted =>
      cases hstarted with
      | sync => exact Nat.le_refl _
      | failed failure =>
        show stored c key (s.answer (.failed failure)) + 0 ≤ _
        rw [stored_answer rfl]
        exact Nat.le_add_right _ _
      | elsewhere => exact Nat.le_add_right _ _
      | _ => cases hsync
    | syncSelect _ | syncSelectNothing | syncCommitNothing => exact Nat.le_refl _
    | @syncCommit loaded pubKeys row hrow =>
      obtain rfl : pubKeys = [] := hfits
      rw [stored_write, bundleKeys_update]
      -- the column of the pool loses its keys, the other one is not written
      have hcolumn : (PreKeyBundle.column (bundleKeys c loaded)
          (bundleKeys c { loaded with oneTimePrekeys := [] }) (bundleKeys c row)).count key ≤
            (bundleKeys c row).count key := by
        cases c with
        | oneTime => exact (count_column_le _ _ _).trans (Nat.le_of_eq (Nat.add_zero _))
        | oneTimePq => exact Nat.le_of_eq (congrArg _ (if_pos rfl))
      unfold stored
      rw [rowKeys_of_some c hrow]
      show _ + _ + _ + 0 ≤ _ + _ + _ + 0
      omega
    | _ => cases hsync
  · obtain ⟨hcurrent, hseen⟩ := hfits.current (Bool.eq_false_iff.mpr hsync)
    exact ran_conserves hran hcurrent hseen.alone

theorem length_ran (hran : Ran onion s command s' commands) : commands.length ≤ 1 := by
  cases hran with
  | start hstarted => cases hstarted <;> simp
  | _ => simp

/-- A sync writes no keys. -/
theorem synced_marksOf (hfits : Fits s command) {keys : List String}
    (h : .synced keys ∈ marksOf s command) : keys = [] := by
  cases command with
  | syncCommit loaded pubKeys =>
    rw [marksOf] at h
    split at h
    · cases h
    · obtain rfl : keys = pubKeys := by simpa using h
      exact hfits
  | start r => cases r <;> simp [marksOf] at h
  | fetchTake fetched turns added => cases turns <;> simp [marksOf] at h
  | _ => simp [marksOf] at h

/-! ## Runs -/

/-- At most one command is pending, it fits the store, and every key is in one place. -/
structure InTurn (t : Traced) : Prop where
  single    : (pending t.sys.threads).length ≤ 1
  fits      : ∀ command ∈ pending t.sys.threads, Fits t.sys.store command
  conserved : ∀ c key, stored c key t.sys.store +
    ((pending t.sys.threads).flatMap (held c)).count key ≤ (supplied c t.sys.requests).count key
  fresh     : ∀ c, (supplied c t.sys.requests).Nodup
  synced    : ∀ keys, .synced keys ∈ t.marks → keys = []

theorem inTurn_init : InTurn Traced.init where
  single        := Nat.zero_le 1
  fits          := List.forall_mem_nil _
  conserved c _ := by cases c <;> exact Nat.le_refl _
  fresh _       := List.nodup_nil
  synced _ h    := by cases h

theorem inTurn_apply {t t' : Traced} (e : Event) (h : InTurn t) (hok : Apart t e)
    (happly : applyTraced R onion t e = some t') : InTurn t' := by
  obtain ⟨sys', hsys, rfl⟩ := Option.map_eq_some_iff.mp happly
  cases e with
  | request r =>
    obtain rfl := Option.some.inj hsys
    -- the handler begins alone
    obtain ⟨⟨hidle, hfresh⟩, hsync⟩ := hok
    have hpending : pending (t.sys.threads ++ [⟨(), [Command.start r]⟩]) = [.start r] := by
      rw [pending_append, hidle]
      rfl
    constructor
    case single =>
      rw [hpending]
      exact Nat.le_refl 1
    case fits =>
      rw [hpending]
      refine List.forall_mem_singleton.mpr ?_
      cases r with
      | syncPoolToDb => exact hsync rfl
      | _ => exact ⟨trivial, trivial⟩
    case conserved =>
      intro c key
      have hconserved := h.conserved c key
      rw [hidle] at hconserved
      rw [hpending, List.flatMap_singleton]
      show stored c key t.sys.store + (r.keys c).count key ≤
        (supplied c (t.sys.requests ++ [r])).count key
      unfold supplied at hconserved ⊢
      rw [List.flatMap_append, List.flatMap_singleton, List.count_append]
      rw [List.flatMap_nil, List.count_nil] at hconserved
      omega
    case fresh => exact hfresh
    case synced => simpa [Event.marks] using h.synced
  | run i =>
    obtain ⟨⟨s', threads'⟩, hstep, rfl⟩ := Option.map_eq_some_iff.mp hsys
    obtain ⟨l₁, loc, command, rest, l₂, hget, hsplit, rfl, rfl⟩ := stepThread_cases hstep
    have hran : Ran onion t.sys.store command (exec R onion loc false command t.sys.store).1
      (exec R onion loc false command t.sys.store).2 := ran R onion command t.sys.store
    -- its command is the only one, and so is the next
    have hsingle := h.single
    rw [hsplit] at hsingle
    have hbefore : pending t.sys.threads = [command] := by
      rw [hsplit]
      exact pending_at_of_single hsingle [command]
    have hafter := pending_at_of_single hsingle (exec R onion loc false command t.sys.store).2
    have hfits := h.fits command (by rw [hbefore]; exact List.mem_singleton_self _)
    constructor
    case single =>
      rw [hafter]
      exact length_ran hran
    case fits =>
      rw [hafter]
      exact fits_ran hran hfits
    case conserved =>
      intro c key
      have hmoved := conserved_ran hran hfits c key
      have hconserved := h.conserved c key
      rw [hbefore, List.flatMap_singleton] at hconserved
      rw [hafter]
      exact hmoved.trans hconserved
    case fresh => exact h.fresh
    case synced =>
      intro keys hmem
      rcases List.mem_append.mp hmem with hold | hnew
      · exact h.synced keys hold
      · have hnext : t.sys.next i = some command := by
          unfold System.next
          rw [hget]
          rfl
        rw [Event.marks, hnext] at hnew
        exact synced_marksOf hfits hnew

/-- If `sync_pool_to_db` finds an empty pool or no row, then in any run of handlers one after
another there is one source of published keys. -/
theorem oneSource_of_apart {t : Traced} (hrun : Run (applyTraced R onion) Apart Traced.init t) :
    OneSource t := by
  have hinv : InTurn t := hrun.invariant inTurn_init fun t e t' => inTurn_apply e
  -- no sync has written a key, and no key is handed out oftener than it was supplied
  constructor
  case once =>
    refine List.nodup_iff_count_le_one.mpr fun key => ?_
    have hconserved := hinv.conserved .oneTime key
    have honce := List.nodup_iff_count_le_one.mp (hinv.fresh .oneTime) key
    unfold stored at hconserved
    omega
  case taken =>
    intro before key after hsplit keys hkeys
    rw [hinv.synced keys (by rw [hsplit]; exact List.mem_append_left _ hkeys)]
    exact List.not_mem_nil
  case back =>
    intro before keys after hsplit key hkey
    rw [hinv.synced keys (by rw [hsplit]; simp)] at hkey
    cases hkey

/-! ## A sync that finds keys -/

/-- A run in which the handler that has come last has `todo` before it. -/
def Reaches (R : Runtime) (onion : String) (t : Traced) (threads : List (Thread Unit Command))
    (requests : List Request) (s : Store) (todo : List Command) (marks : List Mark) : Prop :=
  Run (applyTraced R onion) OneByOne t ⟨⟨s, threads ++ [⟨(), todo⟩], requests⟩, marks⟩

variable {t : Traced} {threads : List (Thread Unit Command)} {requests : List Request}
  {todo : List Command} {marks : List Mark}

theorem Reaches.run (h : Reaches R onion t threads requests s [command] marks)
    (hexec : exec R onion () false command s = (s', commands)) :
    Reaches R onion t threads requests s' commands (marks ++ marksOf s command) := by
  refine Run.next (.run threads.length) h trivial ?_
  have hnext : System.next ⟨s, threads ++ [⟨(), [command]⟩], requests⟩ threads.length =
      some command := by
    simp [System.next]
  simp [applyTraced, apply, stepThread_concat, Event.marks, hnext, hexec]

/-- A handler that brings no keys begins when the one before has returned. -/
theorem reaches_request
    (h : Run (applyTraced R onion) OneByOne t ⟨⟨s, threads, requests⟩, marks⟩)
    (hidle : pending threads = []) (hfresh : ∀ c, (supplied c requests).Nodup) {r : Request}
    (hkeys : ∀ c, r.keys c = []) :
    Reaches R onion t threads (requests ++ [r]) s [.start r] marks ∧
      ∀ c, (supplied c (requests ++ [r])).Nodup := by
  have hnew : ∀ c, (supplied c (requests ++ [r])).Nodup := by
    intro c
    rw [supplied, List.flatMap_append, List.flatMap_singleton, hkeys, List.append_nil]
    exact hfresh c
  refine ⟨Run.next (.request r) h ⟨hidle, hnew⟩ ?_, hnew⟩
  simp [applyTraced, apply, Event.marks]

/-- `sync_pool_to_db` leaves the keys of the pool in the row, and in the pool. -/
theorem Reaches.sync (h : Reaches R onion t threads requests s [.start .syncPoolToDb] marks)
    {row : PreKeyBundle} (hrow : s.bundle = some row) :
    ∃ s' row', Reaches R onion t threads requests s' []
        (marks ++ [.synced (s.pool.map KeyPair.pub)]) ∧
      s'.pool = s.pool ∧ s'.bundle = some row' ∧ row'.oneTimePrekeys = s.pool.map KeyPair.pub := by
  have hselect : exec R onion () false (.syncSelect (s.pool.map KeyPair.pub)) s =
      (s, [.syncCommit row (s.pool.map KeyPair.pub)]) := by
    simp [exec, hrow]
  have hmarks : marks ++ marksOf s (.start .syncPoolToDb) ++
      marksOf s (.syncSelect (s.pool.map KeyPair.pub)) ++
        marksOf s (.syncCommit row (s.pool.map KeyPair.pub)) =
      marks ++ [.synced (s.pool.map KeyPair.pub)] := by
    simp [marksOf, hrow]
  have hcommit : ∃ s' row', exec R onion () false (.syncCommit row (s.pool.map KeyPair.pub)) s =
      (s', []) ∧ s'.pool = s.pool ∧ s'.bundle = some row' ∧
        row'.oneTimePrekeys = s.pool.map KeyPair.pub := by
    by_cases hsame : s.pool.map KeyPair.pub = row.oneTimePrekeys
    · refine ⟨s, row, ?_, rfl, hrow, hsame.symm⟩
      simp [exec, hrow, hsame]
    · refine ⟨s.write (row.update { row with oneTimePrekeys := s.pool.map KeyPair.pub } row) .synced,
        _, ?_, rfl, rfl, if_neg hsame⟩
      simp only [exec, hrow, if_neg hsame]
  obtain ⟨s', row', hexec, hpool, hrow', hkeys⟩ := hcommit
  refine ⟨s', row', ?_, hpool, hrow', hkeys⟩
  rw [← hmarks]
  exact ((h.run rfl).run hselect).run hexec

/-- The first two waits of `fetch_bundle`. -/
theorem Reaches.fetch {address : String} (haddress : validateOnion R address = .ok onion)
    (hlength : 16 ≤ address.length ∧ address.length ≤ 128)
    (h : Reaches R onion t threads requests s [.start (.fetch address)] marks) {row : PreKeyBundle}
    (hrow : s.bundle = some row) :
    ∃ s' row', Reaches R onion t threads requests s'
        [refillIfLow (takeKeys row s.writes.length)] marks ∧
      s'.pool = s.pool ∧ s'.bundle = some row' := by
  have hselect : exec R onion () false (.start (.fetch address)) s =
      (s, [.fetchCommit row s.writes.length]) := by
    simp [exec, startRequest, hlength, haddress, hrow]
  have hcommit : ∃ s' row', exec R onion () false (.fetchCommit row s.writes.length) s =
      (s', [refillIfLow (takeKeys row s.writes.length)]) ∧ s'.pool = s.pool ∧
        s'.bundle = some row' := by
    by_cases hsame : row.pop = row
    · exact ⟨s, row, by simp only [exec, hrow, if_pos hsame], rfl, hrow⟩
    · refine ⟨s.write (row.update row.pop row) (.fetched s.writes.length), _, ?_, rfl, rfl⟩
      simp only [exec, hrow, if_neg hsame]
  obtain ⟨s', row', hexec, hpool, hrow'⟩ := hcommit
  refine ⟨s', row', ?_, hpool, hrow'⟩
  have hmarks : marks ++ marksOf s (.start (.fetch address)) ++
      marksOf s (.fetchCommit row s.writes.length) = marks := by
    simp [marksOf]
  rw [← hmarks]
  exact (h.run hselect).run hexec

/-- A key that was synced is taken again, or was handed out and is synced again. -/
theorem not_oneSource (marks mid : List Mark) {keys : List String} {key : String} (hkey : key ∈ keys)
    (hmarks : t.marks = marks ++ .synced keys :: mid ++ [.taken key] ∨
      t.marks = marks ++ .handedOut key :: mid ++ [.synced keys]) : ¬ OneSource t := by
  intro hone
  rcases hmarks with hmarks | hmarks
  · exact hone.taken _ key [] hmarks keys (by simp) hkey
  · exact hone.back _ keys [] hmarks key hkey (by simp)

/-- After `sync_pool_to_db` has found keys and a row, a fetch takes one of them again, or hands one
out that a further `sync_pool_to_db` writes back. -/
theorem not_oneSource_of_sync (hrun : Run (applyTraced R onion) OneByOne Traced.init t)
    (hidle : pending t.sys.threads = []) (hpool : t.sys.store.pool ≠ [])
    (hrow : t.sys.store.bundle ≠ none) {address : String}
    (haddress : validateOnion R address = .ok onion)
    (hlength : 16 ≤ address.length ∧ address.length ≤ 128) :
    ∃ t', Run (applyTraced R onion) OneByOne t t' ∧ ¬ OneSource t' := by
  have hfresh : ∀ c, (supplied c t.sys.requests).Nodup := by
    have hinit : ∀ c, (supplied c Traced.init.sys.requests).Nodup := fun _ => List.nodup_nil
    refine hrun.invariant (I := fun t : Traced => ∀ c, (supplied c t.sys.requests).Nodup) hinit
      fun t e t' h hok happly => ?_
    obtain ⟨sys', hsys, rfl⟩ := Option.map_eq_some_iff.mp happly
    cases e with
    | request r =>
      obtain rfl := Option.some.inj hsys
      exact hok.2
    | run i =>
      obtain ⟨_, -, rfl⟩ := Option.map_eq_some_iff.mp hsys
      exact h
  obtain ⟨row, hrow⟩ := Option.ne_none_iff_exists'.mp hrow
  have hstart : Run (applyTraced R onion) OneByOne t t := .start
  obtain ⟨hsync, hfresh⟩ := reaches_request (r := .syncPoolToDb) hstart hidle hfresh fun _ => rfl
  obtain ⟨s₁, row₁, hsynced, hpool₁, hrow₁, hkeys₁⟩ := hsync.sync hrow
  have hidle₁ : pending (t.sys.threads ++ [⟨(), []⟩]) = [] := by simp [hidle]
  obtain ⟨hfetch, hfresh⟩ := reaches_request (r := .fetch address) hsynced hidle₁ hfresh fun _ => rfl
  obtain ⟨s₂, row₂, hfetched, hpool₂, hrow₂⟩ := hfetch.fetch haddress hlength hrow₁
  -- the row has the keys of the pool now: does the fetch leave enough of them?
  by_cases hlow : row₁.pop.oneTimePrekeys.length < 20
  · -- a synced key is taken from the pool
    obtain ⟨turns, hturns⟩ : ∃ turns, 20 - row₁.pop.oneTimePrekeys.length = turns + 1 :=
      ⟨19 - row₁.pop.oneTimePrekeys.length, by omega⟩
    have hrefill : refillIfLow (takeKeys row₁ s₁.writes.length) =
        .fetchTake (takeKeys row₁ s₁.writes.length) (turns + 1) [] := by
      rw [← hturns]
      exact if_pos hlow
    have hlast : s₂.pool.getLast? = some (t.sys.store.pool.getLast hpool) := by
      rw [hpool₂, hpool₁, List.getLast?_eq_some_getLast]
    rw [hrefill] at hfetched
    have hkey : (t.sys.store.pool.getLast hpool).pub ∈ t.sys.store.pool.map KeyPair.pub :=
      List.mem_map_of_mem (List.getLast_mem hpool)
    refine ⟨_, hfetched.run rfl, not_oneSource t.marks [] hkey (.inl ?_)⟩
    simp [marksOf, hlast]
  · -- the first key is handed out, and stays in the pool
    have hrefill : refillIfLow (takeKeys row₁ s₁.writes.length) =
        .respond (takeKeys row₁ s₁.writes.length) := if_neg hlow
    rw [hrefill] at hfetched
    have hresponded := hfetched.run rfl
    have hidle₂ : pending (t.sys.threads ++ [⟨(), []⟩] ++ [⟨(), []⟩]) = [] := by simp [hidle]
    obtain ⟨hagain, -⟩ := reaches_request (r := .syncPoolToDb) hresponded hidle₂ hfresh fun _ => rfl
    obtain ⟨s₃, row₃, hsynced₃, -⟩ := hagain.sync hrow₂
    rw [show (s₂.answer _).pool = t.sys.store.pool from hpool₂.trans hpool₁] at hsynced₃
    obtain ⟨first, others, hfirst⟩ := List.exists_cons_of_ne_nil hpool
    have hopk : row₁.oneTimePrekeys.head? = some first.pub := by
      rw [hkeys₁, hfirst]
      rfl
    have hkey : first.pub ∈ t.sys.store.pool.map KeyPair.pub := by
      rw [hfirst]
      exact List.mem_map_of_mem List.mem_cons_self
    refine ⟨_, hsynced₃, not_oneSource
      (t.marks ++ [.synced (t.sys.store.pool.map KeyPair.pub)]) [] hkey (.inr ?_)⟩
    simp [marksOf, takeKeys, hopk]

end

/-- As long as `sync_pool_to_db` finds an empty pool or no row, handlers that run one after another
have one source of published keys. As soon as it finds keys and a row, some further ones have not. -/
theorem oneSource (R : Runtime) (onion : String) :
    (∀ t, Run (applyTraced R onion) Apart Traced.init t → OneSource t) ∧
    ∀ t, Run (applyTraced R onion) OneByOne Traced.init t → pending t.sys.threads = [] →
      t.sys.store.pool ≠ [] → t.sys.store.bundle ≠ none →
        ∀ address, validateOnion R address = .ok onion →
          16 ≤ address.length ∧ address.length ≤ 128 →
            ∃ t', Run (applyTraced R onion) OneByOne t t' ∧ ¬ OneSource t' :=
  ⟨fun _ => oneSource_of_apart, fun _ hrun hidle hpool hrow _ haddress hlength =>
    not_oneSource_of_sync hrun hidle hpool hrow haddress hlength⟩

/-! ## A sync of one key, and two fetches -/

instance (t : Traced) : (e : Event) → Decidable (OneByOne t e)
  | .request r => inferInstanceAs (Decidable
      (pending t.sys.threads = [] ∧ ∀ c, (supplied c (t.sys.requests ++ [r])).Nodup))
  | .run _ => .isTrue trivial

instance (t : Traced) (e : Event) : Decidable (Apart t e) :=
  inferInstanceAs (Decidable (_ ∧ _))

/-- A key that only the pool has. -/
def pooled : KeyPair := ⟨"p", "q"⟩

theorem length_noKeys : ([] : List String).length ≤ 100 := by decide

theorem length_oneKey : ["a"].length ≤ 100 := by decide

/-- A publication of one key, a fill of one, and two fetches; then the pool is empty and synced. -/
def fetchThenSync : List Event :=
  [.request (publishKeys ["a"] length_oneKey), .run 0, .run 0,
   .request (.fillPool 1 [pooled]), .run 1, .run 1,
   .request (.fetch "oooooooooooooooo.onion"), .run 2, .run 2, .run 2, .run 2, .run 2, .run 2,
   .request (.fetch "oooooooooooooooo.onion"), .run 3, .run 3, .run 3, .run 3,
   .request .syncPoolToDb, .run 4, .run 4]

/-- A publication of no key, and a fill of one. -/
def fillOnly : List Event :=
  [.request (publishKeys [] length_noKeys), .run 0, .run 0,
   .request (.fillPool 1 [pooled]), .run 1, .run 1]

theorem fetchThenSync_oneSource :
    (∃ t, Run (applyTraced asciiRuntime "oooooooooooooooo.onion") Apart Traced.init t ∧
      t.marks = [.taken "p", .handedOut "a", .handedOut "p"] ∧ OneSource t) ∧
    ∃ t, Run (applyTraced asciiRuntime "oooooooooooooooo.onion") OneByOne Traced.init t ∧
      t.sys.store.pool = [pooled] ∧
        ∃ t', Run (applyTraced asciiRuntime "oooooooooooooooo.onion") OneByOne t t' ∧
          ¬ OneSource t' := by
  constructor
  · obtain ⟨t, hrun, hmarks⟩ := @Run.exists_of_runAll _ _
      (applyTraced asciiRuntime "oooooooooooooooo.onion") Apart Traced.init _ fetchThenSync
      (fun t => t.marks = [.taken "p", .handedOut "a", .handedOut "p"]) (by decide +kernel)
    exact ⟨t, hrun, of_decide_eq_true hmarks, (oneSource asciiRuntime _).1 t hrun⟩
  · obtain ⟨t, hrun, h⟩ := @Run.exists_of_runAll _ _
      (applyTraced asciiRuntime "oooooooooooooooo.onion") OneByOne Traced.init _ fillOnly
      (fun t => pending t.sys.threads = [] ∧ t.sys.store.pool = [pooled] ∧
        t.sys.store.bundle ≠ none) (by decide +kernel)
    obtain ⟨hidle, hpool, hrow⟩ := of_decide_eq_true h
    exact ⟨t, hrun, hpool, (oneSource asciiRuntime _).2 t hrun hidle (by rw [hpool]; simp) hrow
      "oooooooooooooooo.onion" (by decide +kernel) (by decide)⟩

/-- A fill of one key that is synced into the row, and two fetches. -/
def syncThenFetch : List Event :=
  [.request (publishKeys [] length_noKeys), .run 0, .run 0,
   .request (.fillPool 1 [pooled]), .run 1, .run 1,
   .request .syncPoolToDb, .run 2, .run 2, .run 2,
   .request (.fetch "oooooooooooooooo.onion"), .run 3, .run 3, .run 3, .run 3, .run 3, .run 3,
   .request (.fetch "oooooooooooooooo.onion"), .run 4, .run 4, .run 4, .run 4]

/-- The first fetch hands out the key and takes it from the pool, and the second one hands it out
again. -/
theorem syncThenFetch_served : ∃ t, Run (applyTraced asciiRuntime "oooooooooooooooo.onion") OneByOne
    Traced.init t ∧
      t.marks = [.synced ["p"], .taken "p", .handedOut "p", .handedOut "p"] ∧ ¬ OneSource t := by
  obtain ⟨t, hrun, h⟩ := @Run.exists_of_runAll _ _
    (applyTraced asciiRuntime "oooooooooooooooo.onion") OneByOne Traced.init _ syncThenFetch
    (fun t => t.marks = [.synced ["p"], .taken "p", .handedOut "p", .handedOut "p"] ∧
      served .oneTime t.sys.store = ["p", "p"]) (by decide +kernel)
  obtain ⟨hmarks, htwice⟩ := of_decide_eq_true h
  refine ⟨t, hrun, hmarks, fun hone => ?_⟩
  have honce := hone.once
  rw [htwice] at honce
  exact absurd honce (by decide)

end AnonyMus.P2p.Keys
