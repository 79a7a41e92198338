import AnonyMus.P2p.Keys

/-!
# P2P node — one-time keys are handed out once

Fetching reads a list of keys, takes its head in memory and writes the rest
back, and may put keys of the pool behind it. A key is counted where it is: in
the row, in the pool, in a request under way or in an answer.

* `ran_conserves` — a command moves keys and makes none, if no other write came
  between a fetch's reading and its writing;
* `served_once` — no key is in two answers, and no list that was read before a
  publication is written after it;
* `twoAtOnce_served` — without that, two fetches return one key.
-/

namespace AnonyMus.P2p.Keys

open Interleave

/-! ## Where keys are -/

variable (c : Column)

/-- The keys that a request brings along. -/
def Request.keys : Request → List String
  | .publish _ body _ => bodyKeys c body
  | .fillPool _ generated => poolKeys c (generated.map KeyPair.pub)
  | _ => []

def supplied (requests : List Request) : List String := requests.flatMap (Request.keys c)

/-- The keys that a command carries. -/
def held : Command → List String
  | .start r => r.keys c
  | .publishCommit _ body _ => bodyKeys c body
  | .fetchTake fetched _ added => fetched.keys c ++ poolKeys c added
  | .refillCommit fetched added => fetched.keys c ++ poolKeys c added
  | .respond fetched => fetched.keys c
  | .extendPool added => poolKeys c (added.map KeyPair.pub)
  | _ => []

/-- How often a key is in the row, the pool and the answers. -/
def stored (key : String) (s : Store) : ℕ :=
  (rowKeys c s).count key + (poolKeys c (s.pool.map KeyPair.pub)).count key + (served c s).count key

/-! ## Fetches that are up to date -/

/-- No list that was read before a publication replaces what was published. -/
def NoStaleWrite (writes : List Write) : Prop :=
  ∀ i readAt, writes[i]? = some (Write.fetched readAt) →
    ∀ j body, readAt ≤ j → j < i → writes[j]? ≠ some (Write.published body)

/-- As long as there was no other write, the row has the keys of the session's bundle. -/
def UpToDate (s : Store) (bundle : PreKeyBundle) (seen : ℕ) : Prop :=
  s.writes.length = seen → ∃ row, s.bundle = some row ∧ ∀ c, bundleKeys c row = bundleKeys c bundle

/-- A fetch that has made its first write: it saw the writes up to `readAt`, and its own one. -/
structure Fetched.Current (s : Store) (fetched : Fetched) : Prop where
  seen     : fetched.readAt + fetched.own ≤ s.writes.length
  ownWrite : ∀ i body, fetched.readAt ≤ i → i < fetched.readAt + fetched.own →
    s.writes[i]? ≠ some (Write.published body)
  upToDate : UpToDate s fetched.bundle (fetched.readAt + fetched.own)

/-- Fetches know the writes so far, and nobody copies the pool into the row. -/
def Current (s : Store) : Command → Prop
  | .fetchCommit loaded readAt => readAt ≤ s.writes.length ∧ UpToDate s loaded readAt
  | .fetchTake fetched _ _ => fetched.Current s
  | .refillCommit fetched _ => fetched.Current s
  | .start .syncPoolToDb | .syncSelect _ | .syncCommit _ _ => False
  | _ => True

/-- A fetch writes only if there was no other write since it read the row. -/
def Alone (s : Store) : Command → Prop
  | .fetchCommit loaded readAt => loaded.pop = loaded ∨ s.writes.length = readAt
  | .refillCommit fetched _ => s.writes.length = fetched.readAt + fetched.own
  | _ => True

/-! ## Keys move -/

section

variable {c : Column} {key : String} {s : Store} {row loaded current : PreKeyBundle}

/-- An answer without keys. -/
theorem stored_answer {a : Answer} (ha : answerKeys c a = []) :
    stored c key (s.answer a) = stored c key s := by
  unfold stored
  rw [served_answer, ha, List.append_nil]
  rfl

/-- A row with other keys. -/
theorem stored_write (w : Write) : stored c key (s.write row w) =
    (bundleKeys c row).count key + (poolKeys c (s.pool.map KeyPair.pub)).count key +
      (served c s).count key := rfl

/-- Another pool. -/
theorem stored_pool (pool : List KeyPair) : stored c key { s with pool := pool } =
    (rowKeys c s).count key + (poolKeys c (pool.map KeyPair.pub)).count key +
      (served c s).count key := rfl

theorem count_column_le (loaded current row : List String) :
    (PreKeyBundle.column loaded current row).count key ≤ row.count key + current.count key := by
  unfold PreKeyBundle.column
  split_ifs <;> omega

theorem count_head_tail (l : List String) :
    l.head?.toList.count key + l.tail.count key = l.count key := by
  cases l with
  | nil => rfl
  | cons x l =>
    rw [← List.count_append]
    rfl

theorem held_refillIfLow (fetched : Fetched) : held c (refillIfLow fetched) = fetched.keys c := by
  unfold refillIfLow
  dsimp only
  split_ifs
  · cases c <;> exact List.append_nil _
  · rfl

theorem count_poolKeys_append (l l' : List String) :
    (poolKeys c (l ++ l')).count key = (poolKeys c l).count key + (poolKeys c l').count key := by
  cases c
  · exact List.count_append
  · rfl

theorem count_poolKeys_sublist {l l' : List String} (h : l.Sublist l') :
    (poolKeys c l).count key ≤ (poolKeys c l').count key := by
  cases c
  · exact h.count_le key
  · exact le_rfl

end

section

variable {R : Runtime} {onion : String} {c : Column} {key : String} {s : Store}

theorem start_conserves {r : Request} {s' : Store} {commands : List Command}
    (hstarted : Started s r s' commands) (hsync : r ≠ .syncPoolToDb) :
    stored c key s' + (commands.flatMap (held c)).count key ≤
      stored c key s + (r.keys c).count key := by
  cases hstarted with
  | failed failure =>
    show stored c key (s.answer (.failed failure)) + 0 ≤ _
    rw [stored_answer rfl]
    omega
  | elsewhere =>
    show stored c key s + 0 ≤ _
    omega
  | publish =>
    rw [List.flatMap_singleton]
    exact le_rfl
  | rotate _ =>
    show stored c key s + 0 ≤ _
    omega
  | fetch _ =>
    show stored c key s + 0 ≤ _
    omega
  | @fill targetSize generated =>
    rw [List.flatMap_singleton]
    exact Nat.add_le_add_left (count_poolKeys_sublist ((List.take_sublist _ _).map _)) _
  | take =>
    have hle := @count_poolKeys_sublist c key _ _ ((List.dropLast_sublist s.pool).map KeyPair.pub)
    rw [stored_pool]
    show _ + 0 ≤ stored c key s + 0
    unfold stored
    omega
  | drain =>
    have hle := @count_poolKeys_sublist c key _ _ ((List.nil_sublist s.pool).map KeyPair.pub)
    rw [stored_pool]
    show _ + 0 ≤ stored c key s + 0
    unfold stored
    omega
  | sync => exact absurd rfl hsync

/-- A fetch that writes nothing has found no keys: the row is there, if nobody has written. -/
theorem pop_eq_of_nothing {loaded : PreKeyBundle} {readAt : ℕ}
    (hcurrent : Current s (.fetchCommit loaded readAt))
    (halone : Alone s (.fetchCommit loaded readAt))
    (hpop : s.bundle = none ∨ loaded.pop = loaded) : loaded.pop = loaded := by
  rcases halone with hsame | hlength
  · exact hsame
  · obtain ⟨row, hrow, -⟩ := hcurrent.2 hlength
    rcases hpop with hnone | hsame
    · cases hrow.symm.trans hnone
    · exact hsame

/-- A command moves keys and makes none. -/
theorem ran_conserves {command : Command} {s' : Store} {commands : List Command}
    (hran : Ran onion s command s' commands) (hcurrent : Current s command)
    (halone : Alone s command) :
    stored c key s' + (commands.flatMap (held c)).count key ≤
      stored c key s + (held c command).count key := by
  cases hran with
  | start hstarted =>
    refine start_conserves hstarted ?_
    rintro rfl
    exact hcurrent
  | @insert body now hrow =>
    rw [stored_answer rfl, stored_write, bundleKeys_body]
    show (bodyKeys c body).count key + _ + _ + 0 ≤ stored c key s + (bodyKeys c body).count key
    unfold stored
    omega
  | @publish loaded row body now hrow =>
    rw [stored_answer rfl, stored_write, bundleKeys_update, bundleKeys_body]
    have hcolumn := @count_column_le key (bundleKeys c loaded) (bodyKeys c body)
      (bundleKeys c row)
    show (PreKeyBundle.column (bundleKeys c loaded) (bodyKeys c body) _).count key + _ + _ + 0 ≤
      stored c key s + (bodyKeys c body).count key
    unfold stored
    rw [rowKeys_of_some c hrow]
    omega
  | conflict =>
    show stored c key (s.answer _) + 0 ≤ _
    rw [stored_answer rfl]
    omega
  | @rotate loaded body =>
    rw [stored_answer rfl]
    have hrow : rowKeys c { s with bundle := s.bundle.map (loaded.update (body.bundle loaded)) } =
        rowKeys c s := by
      unfold rowKeys
      rcases s.bundle with _ | row
      · rfl
      · exact bundleKeys_rotate c loaded row body
    unfold stored
    rw [hrow]
    show (rowKeys c s).count key + (poolKeys c (s.pool.map KeyPair.pub)).count key +
      (served c s).count key + 0 ≤ _
    omega
  | @fetch loaded readAt row hrow hpop =>
    -- nobody has written since the SELECT, so the row is what was loaded
    obtain ⟨row', hrow', hkeys⟩ := hcurrent.2 (halone.resolve_left hpop)
    obtain rfl : row' = row := Option.some.inj (hrow'.symm.trans hrow)
    rw [stored_write, bundleKeys_update_of_eq _ _ _ _ (hkeys c), bundleKeys_pop,
      List.flatMap_singleton, held_refillIfLow, keys_takeKeys]
    have hpopped := @count_head_tail key (bundleKeys c loaded)
    show _ ≤ stored c key s + 0
    unfold stored
    rw [rowKeys_of_some c hrow, hkeys c]
    omega
  | @fetchNothing loaded readAt hpop =>
    have hempty := pop_eq_of_nothing hcurrent halone hpop
    have hpopped := @count_head_tail key (bundleKeys c loaded)
    rw [← bundleKeys_pop, hempty] at hpopped
    rw [List.flatMap_singleton, held_refillIfLow, keys_takeKeys]
    omega
  | @take fetched turns added pair hpair =>
    have hpool : s.pool.dropLast ++ [pair] = s.pool := List.dropLast_append_getLast? pair hpair
    have hcount := @count_poolKeys_append c key (s.pool.dropLast.map KeyPair.pub) [pair.pub]
    rw [show s.pool.dropLast.map KeyPair.pub ++ [pair.pub] = s.pool.map KeyPair.pub by
      rw [← List.map_singleton, ← List.map_append, hpool]] at hcount
    rw [stored_pool, List.flatMap_singleton]
    show _ + (fetched.keys c ++ poolKeys c (added ++ [pair.pub])).count key ≤
      stored c key s + (fetched.keys c ++ poolKeys c added).count key
    rw [List.count_append, List.count_append, count_poolKeys_append]
    unfold stored
    omega
  | @takeNothing fetched turns =>
    rw [List.flatMap_singleton]
    show _ + (fetched.keys c).count key ≤ _ + (fetched.keys c ++ poolKeys c []).count key
    rw [List.count_append]
    omega
  | taken _ =>
    rw [List.flatMap_singleton]
    exact le_rfl
  | @refill fetched added row hrow =>
    obtain ⟨row', hrow', hkeys⟩ := hcurrent.upToDate halone
    obtain rfl : row' = row := Option.some.inj (hrow'.symm.trans hrow)
    rw [stored_write, bundleKeys_update_of_eq _ _ _ _ (hkeys c), bundleKeys_append,
      List.flatMap_singleton]
    show _ + (fetched.keys c).count key ≤
      stored c key s + (fetched.keys c ++ poolKeys c added).count key
    unfold stored
    rw [rowKeys_of_some c hrow, hkeys c, List.count_append, List.count_append]
    omega
  | @refillNothing fetched added _ =>
    rw [List.flatMap_singleton]
    show _ + (fetched.keys c).count key ≤
      stored c key s + (fetched.keys c ++ poolKeys c added).count key
    rw [List.count_append]
    omega
  | @respond fetched =>
    show stored c key (s.answer _) + 0 ≤ stored c key s + (fetched.keys c).count key
    unfold stored
    rw [served_answer, List.count_append]
    have hkeys : answerKeys c (.bundle (fetched.response onion)) = fetched.keys c :=
      responseKeys_response c onion fetched
    rw [hkeys]
    show (rowKeys c s).count key + (poolKeys c (s.pool.map KeyPair.pub)).count key + _ + 0 ≤ _
    omega
  | @extend added =>
    rw [stored_pool, List.map_append, count_poolKeys_append]
    show _ + 0 ≤ stored c key s + (poolKeys c (added.map KeyPair.pub)).count key
    unfold stored
    omega
  | syncSelect _ => exact hcurrent.elim
  | syncSelectNothing => exact hcurrent.elim
  | syncCommit _ => exact hcurrent.elim
  | syncCommitNothing => exact hcurrent.elim

/-! ## Fetches stay up to date -/

/-- There was one more write, or the key lists of the row are the same. -/
def Extends (s s' : Store) : Prop :=
  (∃ w, s'.writes = s.writes ++ [w]) ∨
    s'.writes = s.writes ∧ ∀ row, s.bundle = some row →
      ∃ row', s'.bundle = some row' ∧ ∀ c, bundleKeys c row' = bundleKeys c row

theorem ran_extends {command : Command} {s' : Store} {commands : List Command}
    (hran : Ran onion s command s' commands) : Extends s s' := by
  have hsame : Extends s s := .inr ⟨rfl, fun row hrow => ⟨row, hrow, fun _ => rfl⟩⟩
  cases hran with
  | start hstarted =>
    cases hstarted with
    | take => exact hsame
    | drain => exact hsame
    | failed => exact hsame
    | _ => exact hsame
  | insert _ => exact .inl ⟨_, rfl⟩
  | publish _ => exact .inl ⟨_, rfl⟩
  | conflict => exact hsame
  | @rotate loaded body =>
    refine .inr ⟨rfl, fun row hrow => ⟨loaded.update (body.bundle loaded) row, ?_, fun c => ?_⟩⟩
    · show s.bundle.map _ = _
      rw [hrow]
      rfl
    · exact bundleKeys_rotate c loaded row body
  | fetch _ _ => exact .inl ⟨_, rfl⟩
  | refill _ => exact .inl ⟨_, rfl⟩
  | syncCommit _ => exact .inl ⟨_, rfl⟩
  | _ => exact hsame

variable {s' : Store}

theorem UpToDate.mono {bundle : PreKeyBundle} {seen : ℕ} (h : UpToDate s bundle seen)
    (hseen : seen ≤ s.writes.length) (hext : Extends s s') : UpToDate s' bundle seen := by
  intro hlength
  rcases hext with ⟨w, hwrites⟩ | ⟨hwrites, hrow⟩
  · -- a write puts the fetch out of date
    rw [hwrites, List.length_append, List.length_singleton] at hlength
    omega
  · rw [hwrites] at hlength
    obtain ⟨row, hold, hkeys⟩ := h hlength
    obtain ⟨row', hnew, hkeys'⟩ := hrow row hold
    exact ⟨row', hnew, fun c => (hkeys' c).trans (hkeys c)⟩

theorem Extends.length_le (hext : Extends s s') : s.writes.length ≤ s'.writes.length := by
  rcases hext with ⟨w, hwrites⟩ | ⟨hwrites, -⟩
  · rw [hwrites, List.length_append]
    omega
  · rw [hwrites]

theorem Extends.getElem?_eq (hext : Extends s s') {i : ℕ} (hi : i < s.writes.length) :
    s'.writes[i]? = s.writes[i]? := by
  rcases hext with ⟨w, hwrites⟩ | ⟨hwrites, -⟩
  · rw [hwrites, List.getElem?_append_left hi]
  · rw [hwrites]

theorem Fetched.Current.mono {fetched : Fetched} (h : fetched.Current s) (hext : Extends s s') :
    fetched.Current s' where
  seen     := h.seen.trans hext.length_le
  ownWrite := by
    intro i body hfrom hto
    have := h.seen
    rw [hext.getElem?_eq (by omega)]
    exact h.ownWrite i body hfrom hto
  upToDate := h.upToDate.mono h.seen hext

/-- What the other threads know stays true. -/
theorem Current.mono {command : Command} (h : Current s command) (hext : Extends s s') :
    Current s' command := by
  cases command with
  | fetchCommit loaded readAt => exact ⟨h.1.trans hext.length_le, h.2.mono h.1 hext⟩
  | fetchTake fetched turns added => exact Fetched.Current.mono h hext
  | refillCommit fetched added => exact Fetched.Current.mono h hext
  | start r =>
    cases r with
    | syncPoolToDb => exact h.elim
    | _ => trivial
  | syncSelect pubKeys => exact h
  | syncCommit loaded pubKeys => exact h
  | _ => trivial

theorem current_refillIfLow {fetched : Fetched} (h : fetched.Current s) :
    Current s (refillIfLow fetched) := by
  unfold refillIfLow
  dsimp only
  split_ifs
  · exact h
  · trivial

/-- What a command leads to knows the writes so far. -/
theorem ran_current {command : Command} {commands : List Command}
    (hran : Ran onion s command s' commands) (hcurrent : Current s command)
    (halone : Alone s command) : ∀ next ∈ commands, Current s' next := by
  have hext := ran_extends hran
  cases hran with
  | start hstarted =>
    cases hstarted with
    | fetch hrow =>
      rw [List.forall_mem_singleton]
      exact ⟨le_rfl, fun _ => ⟨_, hrow, fun _ => rfl⟩⟩
    | sync => exact hcurrent.elim
    | publish => exact List.forall_mem_singleton.mpr trivial
    | rotate _ => exact List.forall_mem_singleton.mpr trivial
    | fill => exact List.forall_mem_singleton.mpr trivial
    | _ => exact List.forall_mem_nil _
  | @fetch loaded readAt row hrow hpop =>
    have hlength := halone.resolve_left hpop
    have hown : (takeKeys loaded readAt).own = 1 := if_neg hpop
    refine List.forall_mem_singleton.mpr (current_refillIfLow ⟨?_, fun i body hfrom hto => ?_, ?_⟩)
    · rw [hown]
      show readAt + 1 ≤ (s.writes ++ [_]).length
      rw [List.length_append, List.length_singleton, hlength]
    · -- the only write since the SELECT is its own
      rw [hown] at hto
      obtain rfl : i = readAt := Nat.le_antisymm (Nat.le_of_lt_succ hto) hfrom
      show (s.writes ++ [_])[i]? ≠ _
      rw [← hlength, List.getElem?_concat_length]
      simp
    · intro _
      obtain ⟨row', hrow', hkeys⟩ := hcurrent.2 hlength
      obtain rfl : row' = row := Option.some.inj (hrow'.symm.trans hrow)
      exact ⟨_, rfl, fun c => bundleKeys_update_of_eq c loaded loaded.pop row' (hkeys c)⟩
  | @fetchNothing loaded readAt hpop =>
    have hsame := pop_eq_of_nothing hcurrent halone hpop
    have hown : (takeKeys loaded readAt).own = 0 := if_pos hsame
    have hbundle : (takeKeys loaded readAt).bundle = loaded := hsame
    refine List.forall_mem_singleton.mpr (current_refillIfLow ⟨?_, fun i body hfrom hto => ?_, ?_⟩)
    · rw [hown]
      exact hcurrent.1
    · rw [hown] at hto
      exact absurd hto (Nat.not_lt_of_le hfrom)
    · rw [hown, hbundle]
      exact hcurrent.2
  | take _ =>
    rw [List.forall_mem_singleton]
    exact Fetched.Current.mono hcurrent hext
  | taken _ => exact List.forall_mem_singleton.mpr hcurrent
  | takeNothing => exact List.forall_mem_singleton.mpr trivial
  | refill _ => exact List.forall_mem_singleton.mpr trivial
  | refillNothing _ => exact List.forall_mem_singleton.mpr trivial
  | syncSelect _ => exact hcurrent.elim
  | _ => exact List.forall_mem_nil _

/-- A new write that no publication came in front of. -/
theorem NoStaleWrite.concat {writes : List Write} (h : NoStaleWrite writes) {w : Write}
    (hw : ∀ readAt, w = .fetched readAt → ∀ j body, readAt ≤ j → j < writes.length →
      writes[j]? ≠ some (Write.published body)) : NoStaleWrite (writes ++ [w]) := by
  intro i readAt hi j body hfrom hto
  have hlt : i < (writes ++ [w]).length := (List.getElem?_eq_some_iff.mp hi).1
  rw [List.length_append, List.length_singleton] at hlt
  rw [List.getElem?_append_left (by omega)]
  rcases Nat.lt_succ_iff_lt_or_eq.mp hlt with hold | rfl
  · rw [List.getElem?_append_left hold] at hi
    exact h i readAt hi j body hfrom hto
  · rw [List.getElem?_concat_length] at hi
    exact hw readAt (Option.some.inj hi) j body hfrom hto

theorem ran_noStaleWrite {command : Command} {commands : List Command}
    (hran : Ran onion s command s' commands) (hcurrent : Current s command)
    (halone : Alone s command) (h : NoStaleWrite s.writes) : NoStaleWrite s'.writes := by
  cases hran with
  | start hstarted => cases hstarted <;> exact h
  | insert _ => exact h.concat (by simp)
  | publish _ => exact h.concat (by simp)
  | @fetch loaded readAt row hrow hpop =>
    refine h.concat ?_
    rintro _ ⟨⟩ j body hfrom hto
    -- nothing was written since the SELECT
    have hlength := halone.resolve_left hpop
    omega
  | @refill fetched added row hrow =>
    refine h.concat ?_
    rintro _ ⟨⟩ j body hfrom hto
    have hlength : s.writes.length = fetched.readAt + fetched.own := halone
    exact hcurrent.ownWrite j body hfrom (by omega)
  | syncCommit _ => exact hcurrent.elim
  | _ => exact h

/-! ## Runs -/

/-- The command that thread `i` runs next. -/
def System.next (sys : System) (i : ℕ) : Option Command :=
  sys.threads[i]?.bind fun t => t.todo.head?

/-- Requests bring keys that are new, and a fetch writes only if there was no other write since it
read the row. -/
def Serial (sys : System) : Event → Prop
  | .request r => r ≠ .syncPoolToDb ∧ ∀ c, (supplied c (sys.requests ++ [r])).Nodup
  | .run i => ∀ command ∈ sys.next i, Alone sys.store command

/-- Every key is in one place, and the fetches under way know the writes so far. -/
structure Inv (sys : System) : Prop where
  conserved : ∀ c key, stored c key sys.store +
    ((pending sys.threads).flatMap (held c)).count key ≤ (supplied c sys.requests).count key
  fresh     : ∀ c, (supplied c sys.requests).Nodup
  current   : ∀ command ∈ pending sys.threads, Current sys.store command
  writes    : NoStaleWrite sys.store.writes

theorem inv_init : Inv System.init where
  conserved c key := by cases c <;> exact le_rfl
  fresh _         := List.nodup_nil
  current         := List.forall_mem_nil _
  writes _ _ hi   := by cases hi

theorem inv_request {sys : System} (h : Inv sys) {r : Request} (hok : Serial sys (.request r)) :
    Inv { sys with
      threads := sys.threads ++ [⟨(), [.start r]⟩]
      requests := sys.requests ++ [r] } where
  conserved := by
    intro c key
    have hconserved := h.conserved c key
    unfold supplied at hconserved ⊢
    rw [pending_append, pending_cons, pending_nil, List.append_nil, List.flatMap_append,
      List.flatMap_append, List.flatMap_singleton, List.flatMap_singleton, List.count_append,
      List.count_append]
    show stored c key sys.store + (_ + (r.keys c).count key) ≤ _
    omega
  fresh := hok.2
  current := by
    rw [pending_append, List.forall_mem_append]
    refine ⟨h.current, List.forall_mem_singleton.mpr ?_⟩
    cases r with
    | syncPoolToDb => exact absurd rfl hok.1
    | _ => trivial
  writes := h.writes

theorem inv_run {sys : System} (h : Inv sys) {i : ℕ} (hok : Serial sys (.run i)) {s' : Store}
    {threads' : List (Thread Unit Command)}
    (hstep : stepThread (exec R onion) i false sys.threads sys.store = some (s', threads')) :
    Inv { sys with store := s', threads := threads' } := by
  obtain ⟨l₁, loc, command, rest, l₂, hget, hsplit, hstore, hthreads⟩ := stepThread_cases hstep
  have hnext : sys.next i = some command := by
    unfold System.next
    rw [hget]
    rfl
  have halone := hok command hnext
  have hpending : command ∈ pending sys.threads := by
    rw [hsplit, mem_pending_at]
    exact .inl List.mem_cons_self
  have hcurrent := h.current command hpending
  have hran : Ran onion sys.store command s' (exec R onion loc false command sys.store).2 := by
    rw [hstore]
    exact ran R onion command sys.store
  refine ⟨fun c key => ?_, h.fresh, ?_, ran_noStaleWrite hran hcurrent halone h.writes⟩
  · have hmoved := @ran_conserves onion c key _ _ _ _ hran hcurrent halone
    have hconserved := h.conserved c key
    rw [hsplit] at hconserved
    have hcount := count_flatMap_pending_step l₁ l₂ loc command
      (exec R onion loc false command sys.store).2 rest (held c) key
    show stored c key s' + ((pending threads').flatMap (held c)).count key ≤
      (supplied c sys.requests).count key
    rw [hthreads]
    omega
  · -- the other threads know less, or the same, and this one has just looked
    intro other hother
    rw [hthreads] at hother
    rcases mem_pending_step command hother with hnew | hold
    · exact ran_current hran hcurrent halone other hnew
    · rw [← hsplit] at hold
      exact (h.current other hold).mono (ran_extends hran)

/-- If every fetch writes alone, no key is in two answers to fetches, and no list that was read
before a publication replaces what was published. -/
theorem served_once {sys : System} (hrun : Run (apply R onion) Serial System.init sys) :
    (∀ c, (served c sys.store).Nodup) ∧ NoStaleWrite sys.store.writes := by
  have hinv : Inv sys := hrun.invariant inv_init (by
    intro sys e sys' h hok happly
    cases e with
    | request r =>
      obtain rfl := Option.some.inj happly
      exact inv_request h hok
    | run i =>
      obtain ⟨⟨s', threads'⟩, hstep, rfl⟩ := Option.map_eq_some_iff.mp happly
      exact inv_run h hok hstep)
  refine ⟨fun c => List.nodup_iff_count_le_one.mpr fun key => ?_, hinv.writes⟩
  have hconserved := hinv.conserved c key
  have honce := List.nodup_iff_count_le_one.mp (hinv.fresh c) key
  unfold stored at hconserved
  omega

end

/-! ## One fetch after the other, and two at once -/

instance (P : Column → Prop) [DecidablePred P] : Decidable (∀ c, P c) :=
  decidable_of_iff (P .oneTime ∧ P .oneTimePq)
    ⟨fun h c => by cases c; exacts [h.1, h.2], fun h => ⟨h _, h _⟩⟩

instance (s : Store) : (command : Command) → Decidable (Alone s command)
  | .fetchCommit loaded readAt =>
    inferInstanceAs (Decidable (loaded.pop = loaded ∨ s.writes.length = readAt))
  | .refillCommit fetched _ =>
    inferInstanceAs (Decidable (s.writes.length = fetched.readAt + fetched.own))
  | .start _ | .publishCommit _ _ _ | .rotateCommit _ _ | .fetchTake _ _ _ | .respond _
  | .extendPool _ | .syncSelect _ | .syncCommit _ _ => .isTrue trivial

instance (sys : System) : (e : Event) → Decidable (Serial sys e)
  | .request r => inferInstanceAs
      (Decidable (r ≠ .syncPoolToDb ∧ ∀ c, (supplied c (sys.requests ++ [r])).Nodup))
  | .run i => inferInstanceAs (Decidable (∀ command ∈ sys.next i, Alone sys.store command))

def keyOwner : User := ⟨"olga", some "oooooooooooooooo.onion"⟩

/-- A bundle with one-time keys of one kind. -/
def keysBody (keys : List String) (hkeys : keys.length ≤ 100) : PreKeyBundlePublish where
  onionAddress     := "oooooooooooooooo.onion"
  identityKey      := "ik"
  signedPrekey     := "spk"
  signedPrekeySig  := "s"
  pqPrekey         := "pq"
  pqPrekeySig      := "t"
  oneTimePrekeys   := keys
  oneTimePqPrekeys := []
  onionLength      := by decide
  listLength       := ⟨hkeys, by decide⟩

def publishKeys (keys : List String) (hkeys : keys.length ≤ 100) : Request :=
  .publish keyOwner (keysBody keys hkeys) ⟨2024, 2, 3, 10, 15, 20, 0, by decide, by decide⟩

/-- A publication and two fetches, each after the one before. -/
def oneByOne : List Event :=
  [.request (publishKeys ["a", "b"] (by decide)), .run 0, .run 0,
   .request (.fetch "oooooooooooooooo.onion"), .run 1, .run 1, .run 1, .run 1,
   .request (.fetch "oooooooooooooooo.onion"), .run 2, .run 2, .run 2, .run 2]

theorem oneByOne_served : ∃ sys, Run (apply asciiRuntime "oooooooooooooooo.onion") Serial
    System.init sys ∧ served .oneTime sys.store = ["a", "b"] ∧
      (∀ c, (served c sys.store).Nodup) ∧ NoStaleWrite sys.store.writes := by
  obtain ⟨sys, hrun, hserved⟩ := @Run.exists_of_runAll _ _
    (apply asciiRuntime "oooooooooooooooo.onion") Serial System.init _ oneByOne
    (fun sys => served .oneTime sys.store = ["a", "b"]) (by decide +kernel)
  exact ⟨sys, hrun, of_decide_eq_true hserved, served_once hrun⟩

/-- Requests bring keys that are new, and come in any order. -/
def NewKeys (sys : System) : Event → Prop
  | .request r => ∀ c, (supplied c (sys.requests ++ [r])).Nodup
  | .run _ => True

instance (sys : System) : (e : Event) → Decidable (NewKeys sys e)
  | .request r => inferInstanceAs (Decidable (∀ c, (supplied c (sys.requests ++ [r])).Nodup))
  | .run _ => .isTrue trivial

/-- Two fetches read the list before either of them has written it, and a publication comes
between their writes. -/
def twoAtOnce : List Event :=
  [.request (publishKeys ["a", "b"] (by decide)), .run 0, .run 0,
   .request (.fetch "oooooooooooooooo.onion"), .request (.fetch "oooooooooooooooo.onion"),
   .run 1, .run 2, .run 1,
   .request (publishKeys ["c"] (by decide)), .run 3, .run 3,
   .run 2, .run 1, .run 1, .run 2, .run 2]

/-- Both fetches return the first key, and the second one puts the rest of the old list in the place
of the list that was published. -/
theorem twoAtOnce_served : ∃ sys, Run (apply asciiRuntime "oooooooooooooooo.onion") NewKeys
    System.init sys ∧ ¬ (served .oneTime sys.store).Nodup ∧ ¬ NoStaleWrite sys.store.writes ∧
      sys.store.bundle.map PreKeyBundle.oneTimePrekeys = some ["b"] := by
  obtain ⟨sys, hrun, h⟩ := @Run.exists_of_runAll _ _
    (apply asciiRuntime "oooooooooooooooo.onion") NewKeys System.init _ twoAtOnce
    (fun sys => served .oneTime sys.store = ["a", "a"] ∧
      sys.store.writes[2]? = some (Write.published (keysBody ["c"] (by decide))) ∧
      sys.store.writes[3]? = some (Write.fetched 1) ∧
      sys.store.bundle.map PreKeyBundle.oneTimePrekeys = some ["b"]) (by decide +kernel)
  obtain ⟨htwice, hpublished, hfetched, hrow⟩ := of_decide_eq_true h
  refine ⟨sys, hrun, ?_, fun hstale => ?_, hrow⟩
  · rw [htwice]
    decide
  · exact hstale 3 1 hfetched 2 _ (by decide) (by decide) hpublished

end AnonyMus.P2p.Keys
