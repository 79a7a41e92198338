import AnonyMus.Lib.Recency

/-!
# The session cache

`DRSessionCache` of `core/double_ratchet.py`: an `OrderedDict` of ratchet sessions under the peers'
onion addresses. The front is the least recently used entry; a lock makes each call one step.

* `DRSessionCache` — the methods, with `None` as a possible session;
* `lastPut`, `lastUse` — what a history of calls says about a peer;
* `Reference` — the map that keeps the most recently used peers, decided from the history alone;
* `Simulates` — the entries are those of the reference, in the order of their last use;
* `Simulates.call`, `Simulates.run` — kept by each call, which returns what the reference returns;
* `dr_cache_is_lru` — over every sequence of calls.
-/

namespace AnonyMus.Python.SessionCache

variable {V : Type}

/-- `capacity` has been clamped to at least one; an entry may hold `None`. -/
structure DRSessionCache (V : Type) where
  capacity : ℕ
  entries  : Dict String (Option V)

/-- The methods, with their arguments. -/
inductive Call (V : Type) where
  | get (peerOnion : String)
  | put (peerOnion : String) (session : Option V)
  | invalidate (peerOnion : String)
  | clear
  | len
deriving DecidableEq

/-- What a method returns: a session or `None`, or the number of entries. -/
inductive Reply (V : Type) where
  | value (session : Option V)
  | length (n : ℕ)
deriving DecidableEq

namespace DRSessionCache

/-- `envSize` is what `ANONYMUS_DR_CACHE_SIZE` says. -/
def init (envSize : ℤ) (capacity : Option ℤ) : DRSessionCache V where
  capacity := (max 1 (capacity.getD envSize)).toNat
  entries := .empty

def get (cache : DRSessionCache V) (peerOnion : String) : Option V × DRSessionCache V :=
  match cache.entries.get? peerOnion with
  | some (some session) =>
    (some session, { cache with entries := cache.entries.moveToEnd peerOnion })
  -- a stored `None` is not marked as used
  | some none | none => (none, cache)

def put (cache : DRSessionCache V) (peerOnion : String) (session : Option V) :
    DRSessionCache V where
  capacity := cache.capacity
  entries := ((cache.entries.insert peerOnion session).moveToEnd peerOnion).trim cache.capacity

def invalidate (cache : DRSessionCache V) (peerOnion : String) : DRSessionCache V :=
  { cache with entries := cache.entries.erase peerOnion }

def clear (cache : DRSessionCache V) : DRSessionCache V := { cache with entries := .empty }

def len (cache : DRSessionCache V) : ℕ := cache.entries.size

def call (cache : DRSessionCache V) : Call V → Reply V × DRSessionCache V
  | .get peerOnion => ((cache.get peerOnion).map .value id)
  | .put peerOnion session => (.value none, cache.put peerOnion session)
  | .invalidate peerOnion => (.value none, cache.invalidate peerOnion)
  | .clear => (.value none, cache.clear)
  | .len => (.length cache.len, cache)

def after (cache : DRSessionCache V) (calls : List (Call V)) : DRSessionCache V :=
  calls.foldl (fun c k => (c.call k).2) cache

def replies (cache : DRSessionCache V) : List (Call V) → List (Reply V)
  | [] => []
  | k :: calls => (cache.call k).1 :: replies (cache.call k).2 calls

theorem capacity_call (cache : DRSessionCache V) (k : Call V) :
    (cache.call k).2.capacity = cache.capacity := by
  cases k with
  | get peer =>
    show (cache.get peer).2.capacity = _
    rw [get]
    rcases cache.entries.get? peer with _ | _ | session <;> rfl
  | put peer session => rfl
  | invalidate peer => rfl
  | clear => rfl
  | len => rfl

theorem capacity_after (cache : DRSessionCache V) (calls : List (Call V)) :
    (cache.after calls).capacity = cache.capacity := by
  induction calls generalizing cache with
  | nil => rfl
  | cons k calls ih => exact (ih _).trans (capacity_call cache k)

end DRSessionCache

/-! ## The reference -/

/-- The last session put for the peer since it was last invalidated or cleared; the history stands
with the newest call first. -/
def lastPut : List (Call V) → String → Option (Option V)
  | [], _ => none
  | .put peer session :: past, peerOnion =>
    if peerOnion = peer then some session else lastPut past peerOnion
  | .invalidate peer :: past, peerOnion => if peerOnion = peer then none else lastPut past peerOnion
  | .clear :: _, _ => none
  | .get _ :: past, peerOnion | .len :: past, peerOnion => lastPut past peerOnion

/-- The call puts a session for the peer, or gets one that was put. -/
def Uses (past : List (Call V)) (peerOnion : String) : Call V → Prop
  | .put peer _ => peerOnion = peer
  | .get peer => peerOnion = peer ∧ ∃ session, lastPut past peer = some (some session)
  | _ => False

instance (past : List (Call V)) (peerOnion : String) (k : Call V) :
    Decidable (Uses past peerOnion k) :=
  match k with
  | .put _ _ => inferInstanceAs (Decidable (_ = _))
  | .get peer =>
    have : Decidable (∃ session, lastPut past peer = some (some session)) :=
      decidable_of_iff ((lastPut past peer).join.isSome)
        (by simp [Option.isSome_iff_exists, Option.join_eq_some_iff])
    inferInstanceAs (Decidable (_ ∧ _))
  | .invalidate _ | .clear | .len => .isFalse id

/-- When the peer was last got or put, as the number of the call; 0 when never. -/
def lastUse : List (Call V) → String → ℕ
  | [], _ => 0
  | k :: past, peerOnion =>
    if Uses past peerOnion k then past.length + 1 else lastUse past peerOnion

/-- All calls so far, the newest first, and the peers whose last session is kept. -/
structure Reference (V : Type) where
  past : List (Call V)
  held : Finset String

namespace Reference

def empty : Reference V := ⟨[], ∅⟩

def reply (ref : Reference V) : Call V → Reply V
  | .get peerOnion =>
    .value (if peerOnion ∈ ref.held then (lastPut ref.past peerOnion).join else none)
  | .len => .length ref.held.card
  | _ => .value none

/-- After a `put` the `capacity` most recently used peers are kept. -/
def call (capacity : ℕ) (ref : Reference V) (k : Call V) : Reference V where
  past := k :: ref.past
  held := match k with
    | .put peerOnion _ =>
      Dict.mostRecent (lastUse (k :: ref.past)) capacity (insert peerOnion ref.held)
    | .invalidate peerOnion => ref.held.erase peerOnion
    | .clear => ∅
    | .get _ | .len => ref.held

def replies (capacity : ℕ) (ref : Reference V) : List (Call V) → List (Reply V)
  | [] => []
  | k :: calls => ref.reply k :: replies capacity (ref.call capacity k) calls

end Reference

/-! ## The simulation -/

variable {past : List (Call V)} {peerOnion : String} {k : Call V}

theorem lastUse_of_uses (h : Uses past peerOnion k) :
    lastUse (k :: past) peerOnion = past.length + 1 := if_pos h

theorem lastUse_of_not_uses (h : ¬ Uses past peerOnion k) :
    lastUse (k :: past) peerOnion = lastUse past peerOnion := if_neg h

theorem lastUse_le (past : List (Call V)) (peerOnion : String) :
    lastUse past peerOnion ≤ past.length := by
  induction past with
  | nil => exact le_rfl
  | cons k past ih =>
    rw [lastUse, List.length_cons]
    split_ifs
    · exact le_rfl
    · exact ih.trans (Nat.le_succ _)

/-- The entries are the sessions that the reference keeps, in the order of their last use. -/
structure Simulates (cache : DRSessionCache V) (ref : Reference V) : Prop where
  held   : ∀ peerOnion, peerOnion ∈ cache.entries.keys ↔ peerOnion ∈ ref.held
  lookup : ∀ peerOnion ∈ cache.entries.keys,
    cache.entries.get? peerOnion = lastPut ref.past peerOnion
  order  : cache.entries.InOrder (lastUse ref.past)
  size   : cache.entries.size ≤ cache.capacity

namespace Simulates

variable {cache : DRSessionCache V} {ref : Reference V}

/-- A cache without entries, whatever was called before. -/
theorem of_empty (capacity : ℕ) (past : List (Call V)) :
    Simulates (⟨capacity, .empty⟩ : DRSessionCache V) ⟨past, ∅⟩ where
  held _ := ⟨fun h => absurd h List.not_mem_nil, fun h => absurd h (Finset.notMem_empty _)⟩
  lookup _ h := absurd h List.not_mem_nil
  order := List.Pairwise.nil
  size := Nat.zero_le _

theorem init (envSize : ℤ) (capacity : Option ℤ) :
    Simulates (DRSessionCache.init envSize capacity : DRSessionCache V) Reference.empty :=
  of_empty _ []

theorem toFinset_keys (h : Simulates cache ref) : cache.entries.keys.toFinset = ref.held := by
  ext peerOnion
  rw [List.mem_toFinset]
  exact h.held peerOnion

/-- The order before the trim: the peer of the `put` is last. -/
theorem order_put (h : Simulates cache ref) (peer : String) (session : Option V) :
    ((cache.entries.insert peer session).moveToEnd peer).InOrder
      (lastUse (.put peer session :: ref.past)) := by
  refine h.order.of_keys_eq (cache.entries.keys_insert_moveToEnd peer session) ?_ ?_
  · intro other _ hne
    exact lastUse_of_not_uses (k := .put peer session) hne
  · intro other _ _
    rw [lastUse_of_uses (k := .put peer session) rfl]
    exact Nat.lt_succ_of_le (lastUse_le _ _)

/-- A peer whose entry is a session is marked as used. -/
theorem get_session (h : Simulates cache ref) (n : ℕ) {peer : String} {session : V}
    (hentry : cache.entries.get? peer = some (some session)) :
    Simulates { cache with entries := cache.entries.moveToEnd peer } (ref.call n (.get peer)) := by
  have hmem : peer ∈ cache.entries.keys := by
    by_contra hnot
    rw [Dict.get?_eq_none_iff_notMem_keys.mpr hnot] at hentry
    exact Option.some_ne_none _ hentry.symm
  have huses : Uses ref.past peer (.get peer) :=
    ⟨rfl, session, (h.lookup peer hmem).symm.trans hentry⟩
  constructor
  · intro other
    exact Dict.mem_keys_moveToEnd.trans (h.held other)
  · intro other hother
    rw [Dict.get?_moveToEnd]
    exact h.lookup other (Dict.mem_keys_moveToEnd.mp hother)
  · refine h.order.of_keys_eq (Dict.keys_moveToEnd hmem) ?_ ?_
    · intro other _ hne
      exact lastUse_of_not_uses (k := .get peer) fun huse => hne huse.1
    · intro other _ _
      refine Nat.lt_of_lt_of_eq ?_ (lastUse_of_uses huses).symm
      exact Nat.lt_succ_of_le (lastUse_le _ _)
  · exact (Dict.size_moveToEnd _ _).trans_le h.size

/-- A peer without a session is not. -/
theorem get_nothing (h : Simulates cache ref) (n : ℕ) {peer : String}
    (hentry : (cache.entries.get? peer).join = none) :
    Simulates cache (ref.call n (.get peer)) where
  held := h.held
  lookup := h.lookup
  order := by
    refine h.order.congr ?_
    intro other hother
    refine lastUse_of_not_uses ?_
    rintro ⟨rfl, session, hsession⟩
    rw [h.lookup other hother, hsession] at hentry
    exact Option.some_ne_none _ hentry
  size := h.size

theorem get (h : Simulates cache ref) (n : ℕ) (peer : String) :
    Simulates (cache.get peer).2 (ref.call n (.get peer)) := by
  rw [DRSessionCache.get]
  rcases hentry : cache.entries.get? peer with _ | _ | session
  · exact h.get_nothing n (by rw [hentry]; rfl)
  · exact h.get_nothing n (by rw [hentry]; rfl)
  · exact h.get_session n hentry

theorem put (h : Simulates cache ref) (peer : String) (session : Option V) :
    Simulates (cache.put peer session) (ref.call cache.capacity (.put peer session)) := by
  have horder := h.order_put peer session
  constructor
  · -- what the loop leaves are the most recently used peers
    intro other
    refine horder.mem_keys_trim.trans ?_
    have hkeys : ((cache.entries.insert peer session).moveToEnd peer).keys.toFinset =
        insert peer ref.held := by
      ext other
      rw [List.mem_toFinset, Dict.mem_keys_moveToEnd, Dict.mem_keys_insert, Finset.mem_insert,
        h.held]
    rw [hkeys]
    rfl
  · -- what is left was there before the trim, as the session just put or as before
    intro other hother
    refine (Dict.get?_trim hother).trans ?_
    rw [Dict.get?_moveToEnd, Dict.get?_insert]
    show _ = if other = peer then _ else _
    by_cases hpeer : other = peer
    · rw [if_pos hpeer, if_pos hpeer]
    · rw [if_neg hpeer, if_neg hpeer]
      refine h.lookup other ?_
      have hkept := horder.mem_keys_trim.mp hother
      have hmem := List.mem_toFinset.mp (Finset.mem_of_mem_filter _ hkept)
      rw [Dict.mem_keys_moveToEnd, Dict.mem_keys_insert] at hmem
      exact hmem.resolve_left hpeer
  · exact horder.trim
  · exact Dict.size_trim_le _ _

theorem invalidate (h : Simulates cache ref) (n : ℕ) (peer : String) :
    Simulates (cache.invalidate peer) (ref.call n (.invalidate peer)) where
  held other := by
    refine Dict.mem_keys_erase.trans ?_
    show _ ↔ other ∈ ref.held.erase peer
    rw [Finset.mem_erase, h.held, and_comm]
  lookup other hother := by
    obtain ⟨hmem, hne⟩ := Dict.mem_keys_erase.mp hother
    refine (Dict.get?_erase _ _ _).trans ?_
    show _ = if other = peer then _ else _
    rw [if_neg hne, if_neg hne]
    exact h.lookup other hmem
  order := h.order.erase.congr fun _ _ => lastUse_of_not_uses id
  size := (List.length_filter_le _ _).trans h.size

theorem clear (cache : DRSessionCache V) (ref : Reference V) (n : ℕ) :
    Simulates cache.clear (ref.call n .clear) := of_empty _ _

theorem call (h : Simulates cache ref) (k : Call V) :
    Simulates (cache.call k).2 (ref.call cache.capacity k) := by
  cases k with
  | get peer => exact h.get _ peer
  | put peer session => exact h.put peer session
  | invalidate peer => exact h.invalidate _ peer
  | clear => exact clear cache ref _
  | len => exact ⟨h.held, h.lookup, h.order.congr fun _ _ => lastUse_of_not_uses id, h.size⟩

/-- Each call returns what the reference returns. -/
theorem reply (h : Simulates cache ref) (k : Call V) : (cache.call k).1 = ref.reply k := by
  cases k with
  | get peer =>
    have hvalue : (cache.get peer).1 = (cache.entries.get? peer).join := by
      rw [DRSessionCache.get]
      rcases cache.entries.get? peer with _ | _ | session <;> rfl
    show Reply.value (cache.get peer).1 = Reply.value _
    rw [hvalue]
    by_cases hheld : peer ∈ ref.held
    · rw [if_pos hheld, h.lookup peer ((h.held peer).mpr hheld)]
    · have hnot := mt (h.held peer).mp hheld
      rw [if_neg hheld, Dict.get?_eq_none_iff_notMem_keys.mpr hnot, Option.join_none]
  | len =>
    have hnodup : cache.entries.keys.Nodup := cache.entries.nodup
    show Reply.length cache.entries.size = Reply.length ref.held.card
    rw [← h.toFinset_keys, List.toFinset_card_of_nodup hnodup, Dict.length_keys]
  | put peer session => rfl
  | invalidate peer => rfl
  | clear => rfl

/-- An entry goes by its own `invalidate`, by `clear`, or by a `put` as the least recently used. -/
theorem lost (h : Simulates cache ref) {gone : String} (hmem : gone ∈ cache.entries.keys)
    (hgone : gone ∉ (cache.call k).2.entries.keys) :
    k = .invalidate gone ∨ k = .clear ∨ ∃ peer session, k = .put peer session ∧
      ∀ other, other = peer ∨ other ∈ cache.entries.keys → other ≠ gone →
        lastUse (k :: ref.past) gone < lastUse (k :: ref.past) other := by
  cases k with
  | get peer =>
    refine absurd ?_ hgone
    show gone ∈ (cache.get peer).2.entries.keys
    rw [DRSessionCache.get]
    rcases cache.entries.get? peer with _ | _ | session
    · exact hmem
    · exact hmem
    · exact Dict.mem_keys_moveToEnd.mpr hmem
  | put peer session =>
    refine .inr (.inr ⟨peer, session, rfl, ?_⟩)
    intro other hother hne
    refine (h.order_put peer session).lt_of_trimmed (n := cache.capacity) ?_ ?_ hgone ?_ hne
    · -- one `put` adds one entry at most
      rw [Dict.size_moveToEnd]
      exact (cache.entries.size_insert_le peer session).trans (Nat.succ_le_succ h.size)
    · exact Dict.mem_keys_moveToEnd.mpr (Dict.mem_keys_insert.mpr (.inr hmem))
    · exact Dict.mem_keys_moveToEnd.mpr (Dict.mem_keys_insert.mpr hother)
  | invalidate peer =>
    by_cases hpeer : gone = peer
    · exact .inl (by rw [hpeer])
    · exact absurd (Dict.mem_keys_erase.mpr ⟨hmem, hpeer⟩) hgone
  | clear => exact .inr (.inl rfl)
  | len => exact absurd hmem hgone

/-- Over a sequence of calls all replies are those of the reference. -/
theorem run (h : Simulates cache ref) (calls : List (Call V)) :
    cache.replies calls = ref.replies cache.capacity calls ∧
      ∃ ref', Simulates (cache.after calls) ref' ∧ ref'.past = calls.reverse ++ ref.past := by
  induction calls generalizing cache ref with
  | nil => exact ⟨rfl, ref, h, rfl⟩
  | cons k calls ih =>
    obtain ⟨hreplies, ref', hafter, hpast⟩ := ih (h.call k)
    constructor
    · rw [DRSessionCache.replies, Reference.replies, h.reply, hreplies, cache.capacity_call]
    · refine ⟨ref', hafter, hpast.trans ?_⟩
      rw [List.reverse_cons, List.append_assoc]
      rfl

end Simulates

/-! ## Every sequence of calls -/

/-- From an empty cache on, every call returns what the reference map returns, at most
`max(1, capacity)` entries are there, a `get` returns the last session put for a peer that is there,
and a peer that is no longer there was invalidated, cleared, or the least recently got or put. -/
theorem dr_cache_is_lru (envSize : ℤ) (capacity : Option ℤ) (calls : List (Call V)) :
    let limit := max 1 (capacity.getD envSize)
    let cache := (DRSessionCache.init envSize capacity : DRSessionCache V).after calls
    (DRSessionCache.init envSize capacity).replies calls =
        Reference.empty.replies limit.toNat calls ∧
      cache.len ≤ limit ∧
      (∀ peerOnion, (cache.get peerOnion).1 =
        if peerOnion ∈ cache.entries.keys then (lastPut calls.reverse peerOnion).join else none) ∧
      ∀ k, ∀ gone ∈ cache.entries.keys, gone ∉ (cache.call k).2.entries.keys →
        k = .invalidate gone ∨ k = .clear ∨ ∃ peer session, k = .put peer session ∧
          ∀ other, other = peer ∨ other ∈ cache.entries.keys → other ≠ gone →
            lastUse (k :: calls.reverse) gone < lastUse (k :: calls.reverse) other := by
  intro limit cache
  obtain ⟨hreplies, ref, hsim, hpast⟩ := (Simulates.init (V := V) envSize capacity).run calls
  rw [show (Reference.empty : Reference V).past = [] from rfl, List.append_nil] at hpast
  refine ⟨hreplies, ?_, ?_, ?_⟩
  · -- the capacity is that of the start, clamped to at least one
    have hsize := hsim.size
    rw [DRSessionCache.capacity_after] at hsize
    have hlimit : ((DRSessionCache.init envSize capacity : DRSessionCache V).capacity : ℤ) = limit :=
      Int.toNat_of_nonneg (le_max_of_le_left (by decide))
    rw [← hlimit]
    exact Int.ofNat_le.mpr hsize
  · intro peerOnion
    have hreply := hsim.reply (.get peerOnion)
    have hvalue := Reply.value.inj hreply
    rw [hpast] at hvalue
    refine hvalue.trans ?_
    by_cases hheld : peerOnion ∈ ref.held
    · rw [if_pos hheld, if_pos ((hsim.held _).mpr hheld)]
    · rw [if_neg hheld, if_neg (mt (hsim.held _).mp hheld)]
  · intro k gone hmem hgone
    rw [← hpast]
    exact hsim.lost hmem hgone

/-- A `get` moves its peer away from the front. -/
example : (DRSessionCache.init 50 (some 2)).replies
    [.put "a" (some 1), .put "b" (some 2), .get "a", .put "c" (some 3), .get "b", .get "a", .len] =
    [.value none, .value none, .value (some 1), .value none, .value none, .value (some 1),
      .length 2] := by decide

end AnonyMus.Python.SessionCache
