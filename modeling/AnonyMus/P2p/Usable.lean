import AnonyMus.P2p.OneTime

/-!
# P2P node — the private halves of served keys

A key of the pool is usable as long as its pair is in the pool: the node keeps
the private half nowhere else. The keys of the row are copied by fetches and
returned later, so a pair has to stay in the pool while its public key is in the
row, in a request under way or in an answer.

* `ran_exposed` — a command exposes no key that was not exposed or usable before;
* `served_usable` — if no exposed pair leaves the pool, the keys that fetches
  return are usable;
* `refill_serves_lost` — a fetch that refills the row from the pool throws the
  private halves away.
-/

namespace AnonyMus.P2p.Keys

open Interleave

/-! ## Usable keys -/

section

variable (c : Column)

def Write.keys : Write → List String
  | .published body => bodyKeys c body
  | _ => []

/-- The owner published the key, or the pool has its pair. -/
def Usable (s : Store) (key : String) : Prop :=
  key ∈ s.writes.flatMap (Write.keys c) ∨ key ∈ poolKeys c (s.pool.map KeyPair.pub)

instance (s : Store) (key : String) : Decidable (Usable c s key) :=
  inferInstanceAs (Decidable (_ ∨ _))

/-- The keys that a command may put into the row or into an answer. -/
def carried : Command → List String
  | .fetchCommit loaded _ => bundleKeys c loaded
  | .fetchTake fetched _ added => bundleKeys c fetched.bundle ++ fetched.keys c ++ poolKeys c added
  | .refillCommit fetched added => bundleKeys c fetched.bundle ++ fetched.keys c ++ poolKeys c added
  | .respond fetched => fetched.keys c
  | .syncSelect pubKeys | .syncCommit _ pubKeys => poolKeys c pubKeys
  | _ => []

/-- The keys that have left the owner's hands or are about to. -/
def exposed (sys : System) : List String :=
  rowKeys c sys.store ++ served c sys.store ++ (pending sys.threads).flatMap (carried c)

end

/-- No pair whose public key is among `keys` leaves the pool, and a fetch that would refill the row
finds the pool empty. -/
def Keeps (keys : List String) (s : Store) : Command → Prop
  | .fetchTake _ (_ + 1) _ => s.pool = []
  | .start .takeOneTimePrekey => ∀ pair ∈ s.pool.getLast?, pair.pub ∉ keys
  | .start .drainPool => ∀ pair ∈ s.pool, pair.pub ∉ keys
  | _ => True

/-- No exposed key loses its pair. -/
def Kept (sys : System) : Event → Prop
  | .request _ => True
  | .run i => ∀ command ∈ sys.next i, Keeps (exposed .oneTime sys) sys.store command

/-! ## Commands -/

section

variable {onion : String} {c : Column} {key : String} {s s' : Store} {command : Command}
  {commands : List Command}

theorem Usable.mono {writes : List Write} {pool : List KeyPair} (h : Usable c s key)
    (hwrites : s.writes <+: writes)
    (hpool : key ∈ poolKeys c (s.pool.map KeyPair.pub) → key ∈ poolKeys c (pool.map KeyPair.pub)) :
    Usable c { s with pool := pool, writes := writes } key := by
  rcases h with hpublished | hinPool
  · obtain ⟨later, rfl⟩ := hwrites
    refine .inl ?_
    show key ∈ (s.writes ++ later).flatMap _
    rw [List.flatMap_append]
    exact List.mem_append_left _ hpublished
  · exact .inr (hpool hinPool)

/-- A key outside the part of the pool that is taken away. -/
theorem mem_poolKeys_dropLast (hlast : ∀ pair ∈ s.pool.getLast?, c = .oneTime → pair.pub ≠ key)
    (h : key ∈ poolKeys c (s.pool.map KeyPair.pub)) :
    key ∈ poolKeys c (s.pool.dropLast.map KeyPair.pub) := by
  cases c with
  | oneTimePq => exact h
  | oneTime =>
    obtain ⟨pair, hpair, hpub⟩ := List.mem_map.mp h
    rcases hpool : s.pool.getLast? with _ | last
    · rw [List.getLast?_eq_none_iff.mp hpool] at hpair
      cases hpair
    · rw [← List.dropLast_append_getLast? last hpool] at hpair
      rcases List.mem_append.mp hpair with hkept | hlost
      · exact List.mem_map.mpr ⟨pair, hkept, hpub⟩
      · obtain rfl := List.mem_singleton.mp hlost
        exact absurd hpub (hlast pair hpool rfl)

/-- A command that keeps the exposed pairs leaves usable keys usable. -/
theorem ran_usable (hran : Ran onion s command s' commands) {keys : List String}
    (hkeeps : Keeps keys s command) (hkey : c = .oneTime → key ∈ keys) (h : Usable c s key) :
    Usable c s' key := by
  have hlost {pair : KeyPair} (hpair : pair.pub ∉ keys) : c = .oneTime → pair.pub ≠ key := by
    rintro hc rfl
    exact hpair (hkey hc)
  -- what was published stays so; only taking and draining make the pool smaller
  cases hran with
  | start hstarted =>
    cases hstarted with
    | take =>
      exact h.mono List.prefix_rfl
        (mem_poolKeys_dropLast fun pair hpair => hlost (hkeeps pair hpair))
    | drain =>
      refine h.mono List.prefix_rfl fun hinPool => ?_
      cases c with
      | oneTimePq => exact hinPool
      | oneTime =>
        obtain ⟨pair, hpair, hpub⟩ := List.mem_map.mp hinPool
        exact absurd hpub (hlost (hkeeps pair hpair) rfl)
    | _ => exact h
  | insert _ => exact h.mono (List.prefix_append _ _) id
  | publish _ => exact h.mono (List.prefix_append _ _) id
  | fetch _ _ => exact h.mono (List.prefix_append _ _) id
  | refill _ => exact h.mono (List.prefix_append _ _) id
  | syncCommit _ => exact h.mono (List.prefix_append _ _) id
  | take hpair =>
    rw [show s.pool = [] from hkeeps] at hpair
    cases hpair
  | extend =>
    refine h.mono List.prefix_rfl fun hinPool => ?_
    cases c with
    | oneTimePq => exact hinPool
    | oneTime =>
      show key ∈ (s.pool ++ _).map _
      rw [List.map_append]
      exact List.mem_append_left _ hinPool
  | _ => exact h

theorem mem_column {loaded current row : List String}
    (h : key ∈ PreKeyBundle.column loaded current row) : key ∈ row ∨ key ∈ current := by
  unfold PreKeyBundle.column at h
  split_ifs at h
  · exact .inl h
  · exact .inr h

theorem mem_carried_refillIfLow {fetched : Fetched} (h : key ∈ carried c (refillIfLow fetched)) :
    key ∈ bundleKeys c fetched.bundle ∨ key ∈ fetched.keys c := by
  unfold refillIfLow at h
  dsimp only at h
  split_ifs at h
  · rcases List.mem_append.mp h with hold | hadded
    · exact List.mem_append.mp hold
    · cases c <;> cases hadded
  · exact .inr h

/-- What a fetch takes and leaves was in the bundle it has loaded. -/
theorem mem_carried_takeKeys {loaded : PreKeyBundle} {readAt : ℕ}
    (h : key ∈ carried c (refillIfLow (takeKeys loaded readAt))) : key ∈ bundleKeys c loaded := by
  rcases mem_carried_refillIfLow h with hrest | htaken
  · rw [show (takeKeys loaded readAt).bundle = loaded.pop from rfl, bundleKeys_pop] at hrest
    exact List.mem_of_mem_tail hrest
  · rw [keys_takeKeys, Option.mem_toList] at htaken
    exact List.mem_of_mem_head? htaken

theorem ran_row (hran : Ran onion s command s' commands) (h : key ∈ rowKeys c s') :
    key ∈ rowKeys c s ∨ key ∈ carried c command ∨ Usable c s' key := by
  cases hran with
  | start hstarted => cases hstarted <;> exact .inl h
  | @insert body now _ =>
    -- what the owner publishes is usable
    change key ∈ bundleKeys c (body.bundle now) at h
    rw [bundleKeys_body] at h
    exact .inr (.inr (.inl (List.mem_flatMap.mpr ⟨_, List.mem_concat_self, h⟩)))
  | @publish loaded row body now hrow =>
    change key ∈ bundleKeys c (loaded.update (body.bundle now) row) at h
    rw [bundleKeys_update, bundleKeys_body] at h
    rcases mem_column h with hold | hnew
    · rw [rowKeys_of_some c hrow]
      exact .inl hold
    · exact .inr (.inr (.inl (List.mem_flatMap.mpr ⟨_, List.mem_concat_self, hnew⟩)))
  | @rotate loaded body =>
    rcases hrow : s.bundle with _ | row
    · change key ∈ rowKeys c { s with bundle := s.bundle.map _ } at h
      rw [rowKeys, hrow] at h
      cases h
    · change key ∈ rowKeys c { s with bundle := s.bundle.map _ } at h
      rw [rowKeys, hrow] at h
      change key ∈ bundleKeys c (loaded.update (body.bundle loaded) row) at h
      rw [bundleKeys_rotate] at h
      rw [rowKeys_of_some c hrow]
      exact .inl h
  | @fetch loaded readAt row hrow _ =>
    change key ∈ bundleKeys c (loaded.update loaded.pop row) at h
    rw [bundleKeys_update, bundleKeys_pop] at h
    rcases mem_column h with hold | htail
    · rw [rowKeys_of_some c hrow]
      exact .inl hold
    · exact .inr (.inl (List.mem_of_mem_tail htail))
  | @refill fetched added row hrow =>
    change key ∈ bundleKeys c (fetched.bundle.update (fetched.bundle.append added) row) at h
    rw [bundleKeys_update, bundleKeys_append] at h
    rcases mem_column h with hold | hnew
    · rw [rowKeys_of_some c hrow]
      exact .inl hold
    · refine .inr (.inl ?_)
      show key ∈ _ ++ _ ++ _
      simp only [List.mem_append] at hnew ⊢
      exact hnew.imp_left .inl
  | @syncCommit loaded pubKeys row hrow =>
    change key ∈ bundleKeys c (loaded.update { loaded with oneTimePrekeys := pubKeys } row) at h
    rw [bundleKeys_update] at h
    rw [rowKeys_of_some c hrow]
    cases c with
    | oneTime => exact (mem_column h).imp_right .inl
    | oneTimePq =>
      -- the session did not touch this list
      rw [show bundleKeys .oneTimePq { loaded with oneTimePrekeys := pubKeys } =
        bundleKeys .oneTimePq loaded from rfl, PreKeyBundle.column, if_pos rfl] at h
      exact .inl h
  | _ => exact .inl h

theorem ran_served (hran : Ran onion s command s' commands) (h : key ∈ served c s') :
    key ∈ served c s ∨ key ∈ carried c command := by
  have hanswer {a : Answer} (ha : key ∈ served c (s.answer a)) :
      key ∈ served c s ∨ key ∈ answerKeys c a := by
    rw [served_answer] at ha
    exact List.mem_append.mp ha
  have hsilent {a : Answer} (hnone : answerKeys c a = []) (ha : key ∈ served c (s.answer a)) :
      key ∈ served c s := by
    refine (hanswer ha).resolve_right ?_
    rw [hnone]
    exact List.not_mem_nil
  cases hran with
  | start hstarted =>
    cases hstarted with
    | failed failure => exact .inl (hsilent rfl h)
    | _ => exact .inl h
  | @respond fetched =>
    refine (hanswer h).imp_right fun hkey => ?_
    show key ∈ fetched.keys c
    rw [← responseKeys_response c onion fetched]
    exact hkey
  | insert _ => exact .inl (hsilent rfl h)
  | publish _ => exact .inl (hsilent rfl h)
  | conflict => exact .inl (hsilent rfl h)
  | rotate => exact .inl (hsilent rfl h)
  | _ => exact .inl h

theorem ran_carried (hran : Ran onion s command s' commands) {keys : List String}
    (hkeeps : Keeps keys s command) (h : key ∈ commands.flatMap (carried c)) :
    key ∈ rowKeys c s ∨ key ∈ carried c command ∨ Usable c s' key := by
  -- the keys were read from the row, came with the command, or are those of the pool
  cases hran with
  | start hstarted =>
    cases hstarted with
    | fetch hrow =>
      rw [List.flatMap_singleton] at h
      rw [rowKeys_of_some c hrow]
      exact .inl h
    | sync =>
      rw [List.flatMap_singleton] at h
      exact .inr (.inr (.inr h))
    | _ => cases h
  | fetch _ _ =>
    rw [List.flatMap_singleton] at h
    exact .inr (.inl (mem_carried_takeKeys h))
  | fetchNothing _ =>
    rw [List.flatMap_singleton] at h
    exact .inr (.inl (mem_carried_takeKeys h))
  | take hpair =>
    rw [show s.pool = [] from hkeeps] at hpair
    cases hpair
  | takeNothing =>
    rw [List.flatMap_singleton] at h
    exact .inr (.inl (List.mem_append_left _ (List.mem_append_right _ h)))
  | taken _ =>
    rw [List.flatMap_singleton] at h
    exact .inr (.inl h)
  | refill _ =>
    rw [List.flatMap_singleton] at h
    exact .inr (.inl (List.mem_append_left _ (List.mem_append_right _ h)))
  | refillNothing _ =>
    rw [List.flatMap_singleton] at h
    exact .inr (.inl (List.mem_append_left _ (List.mem_append_right _ h)))
  | syncSelect _ =>
    rw [List.flatMap_singleton] at h
    exact .inr (.inl h)
  | _ => cases h

end

/-! ## Runs -/

variable {R : Runtime} {onion : String}

theorem mem_exposed {c : Column} {key : String} {sys : System} : key ∈ exposed c sys ↔
    key ∈ rowKeys c sys.store ∨ key ∈ served c sys.store ∨
      ∃ command ∈ pending sys.threads, key ∈ carried c command := by
  unfold exposed
  simp only [List.mem_append, List.mem_flatMap, or_assoc]

/-- Every exposed key is usable. -/
def AllUsable (sys : System) : Prop := ∀ c, ∀ key ∈ exposed c sys, Usable c sys.store key

theorem allUsable_run {sys : System} (h : AllUsable sys) {i : ℕ} (hok : Kept sys (.run i))
    {s' : Store} {threads' : List (Thread Unit Command)}
    (hstep : stepThread (exec R onion) i false sys.threads sys.store = some (s', threads')) :
    AllUsable { sys with store := s', threads := threads' } := by
  obtain ⟨l₁, loc, command, rest, l₂, hget, hsplit, hstore, hthreads⟩ := stepThread_cases hstep
  have hkeeps : Keeps (exposed .oneTime sys) sys.store command := by
    refine hok command ?_
    unfold System.next
    rw [hget]
    rfl
  have hran : Ran onion sys.store command s' (exec R onion loc false command sys.store).2 := by
    rw [hstore]
    exact ran R onion command sys.store
  have hpending : command ∈ pending sys.threads := by
    rw [hsplit, mem_pending_at]
    exact .inl List.mem_cons_self
  intro c key hkey
  -- a key that was exposed before the step was usable, and still is
  have hbefore (hexposed : key ∈ exposed c sys) : Usable c s' key := by
    refine ran_usable hran hkeeps ?_ (h c key hexposed)
    rintro rfl
    exact hexposed
  have hcommand (hcarried : key ∈ carried c command) : Usable c s' key :=
    hbefore (mem_exposed.mpr (.inr (.inr ⟨command, hpending, hcarried⟩)))
  rcases mem_exposed.mp hkey with hrow | hserved | ⟨other, hother, hcarried⟩
  · rcases ran_row hran hrow with hold | hold | hnew
    · exact hbefore (mem_exposed.mpr (.inl hold))
    · exact hcommand hold
    · exact hnew
  · rcases ran_served hran hserved with hold | hold
    · exact hbefore (mem_exposed.mpr (.inr (.inl hold)))
    · exact hcommand hold
  · change other ∈ pending threads' at hother
    rw [hthreads] at hother
    rcases mem_pending_step command hother with hnew | hold
    · rcases ran_carried hran hkeeps (List.mem_flatMap.mpr ⟨other, hnew, hcarried⟩) with
        hold | hold | husable
      · exact hbefore (mem_exposed.mpr (.inl hold))
      · exact hcommand hold
      · exact husable
    · rw [← hsplit] at hold
      exact hbefore (mem_exposed.mpr (.inr (.inr ⟨other, hold, hcarried⟩)))

/-- If no exposed pair leaves the pool, the keys that fetches have returned are usable. -/
theorem served_usable {sys : System} (hrun : Run (apply R onion) Kept System.init sys) (c : Column) :
    ∀ key ∈ served c sys.store, Usable c sys.store key := by
  have hall : AllUsable sys := by
    refine hrun.invariant ?_ ?_
    · intro c key hkey
      rcases mem_exposed.mp hkey with hrow | hserved | ⟨_, hcommand, -⟩
      · cases hrow
      · cases hserved
      · cases hcommand
    · intro sys e sys' h hok happly
      cases e with
      | request r =>
        obtain rfl := Option.some.inj happly
        intro c key hkey
        refine h c key (mem_exposed.mpr ?_)
        rcases mem_exposed.mp hkey with hrow | hserved | ⟨command, hcommand, hcarried⟩
        · exact .inl hrow
        · exact .inr (.inl hserved)
        · rw [pending_append] at hcommand
          rcases List.mem_append.mp hcommand with hold | hnew
          · exact .inr (.inr ⟨command, hold, hcarried⟩)
          · -- a request that has just arrived carries nothing
            obtain rfl := List.mem_singleton.mp hnew
            cases hcarried
      | run i =>
        obtain ⟨⟨s', threads'⟩, hstep, rfl⟩ := Option.map_eq_some_iff.mp happly
        exact allUsable_run h hok hstep
  intro key hkey
  exact hall c key (mem_exposed.mpr (.inr (.inl hkey)))

/-! ## A fetch from a published list, and one from the pool -/

instance (keys : List String) (s : Store) : (command : Command) → Decidable (Keeps keys s command)
  | .fetchTake _ (_ + 1) _ => inferInstanceAs (Decidable (s.pool = []))
  | .start .takeOneTimePrekey =>
    inferInstanceAs (Decidable (∀ pair ∈ s.pool.getLast?, pair.pub ∉ keys))
  | .start .drainPool => inferInstanceAs (Decidable (∀ pair ∈ s.pool, pair.pub ∉ keys))
  | .start (.publish _ _ _) | .start (.rotate _ _) | .start (.fetch _) | .start (.fillPool _ _)
  | .start .syncPoolToDb | .fetchTake _ 0 _ | .publishCommit _ _ _ | .rotateCommit _ _
  | .fetchCommit _ _ | .refillCommit _ _ | .respond _ | .extendPool _ | .syncSelect _
  | .syncCommit _ _ => .isTrue trivial

instance (sys : System) : (e : Event) → Decidable (Kept sys e)
  | .request _ => .isTrue trivial
  | .run i => inferInstanceAs
      (Decidable (∀ command ∈ sys.next i, Keeps (exposed .oneTime sys) sys.store command))

/-- The pool is filled and drained again before a key is published and fetched. -/
def fromPublication : List Event :=
  [.request (.fillPool 1 [⟨"p", "q"⟩]), .run 0, .run 0, .request .drainPool, .run 1,
   .request (publishKeys ["a"] (by decide)), .run 2, .run 2,
   .request (.fetch "oooooooooooooooo.onion"), .run 3, .run 3, .run 3, .run 3]

theorem fromPublication_usable : ∃ sys, Run (apply asciiRuntime "oooooooooooooooo.onion") Kept
    System.init sys ∧ served .oneTime sys.store = ["a"] ∧
      ∀ key ∈ served .oneTime sys.store, Usable .oneTime sys.store key := by
  obtain ⟨sys, hrun, hserved⟩ := @Run.exists_of_runAll _ _
    (apply asciiRuntime "oooooooooooooooo.onion") Kept System.init _ fromPublication
    (fun sys => served .oneTime sys.store = ["a"]) (by decide +kernel)
  exact ⟨sys, hrun, of_decide_eq_true hserved, served_usable hrun .oneTime⟩

/-- A fetch finds the published list empty and refills it from the pool; the next one returns the
key that the first one has put there. -/
def fromPool : List Event :=
  [.request (publishKeys [] (by decide)), .run 0, .run 0,
   .request (.fillPool 1 [⟨"p", "q"⟩]), .run 1, .run 1,
   .request (.fetch "oooooooooooooooo.onion"), .run 2, .run 2, .run 2, .run 2, .run 2, .run 2,
   .request (.fetch "oooooooooooooooo.onion"), .run 3, .run 3, .run 3, .run 3]

/-- A key is returned that the owner did not publish and of which no pair is left. -/
theorem refill_serves_lost : ∃ sys,
    Run (apply asciiRuntime "oooooooooooooooo.onion") (fun _ _ => True) System.init sys ∧
      "p" ∈ served .oneTime sys.store ∧ ¬ Usable .oneTime sys.store "p" := by
  obtain ⟨sys, hrun, h⟩ := @Run.exists_of_runAll _ _
    (apply asciiRuntime "oooooooooooooooo.onion") (fun _ _ => True) System.init _ fromPool
    (fun sys => "p" ∈ served .oneTime sys.store ∧ ¬ Usable .oneTime sys.store "p")
    (by decide +kernel)
  exact ⟨sys, hrun, of_decide_eq_true h⟩

end AnonyMus.P2p.Keys
