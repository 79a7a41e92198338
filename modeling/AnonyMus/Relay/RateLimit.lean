import Mathlib.Algebra.Order.Field.Rat
import Mathlib.Tactic.Linarith
import AnonyMus.Lib.Dict
import AnonyMus.Lib.Simulation
import AnonyMus.Lib.Window

/-!
# Relay server — the rate limiter of the sockets

`is_rate_limited` of `transports/relay/server.py`. Three handlers ask it, with two
limits and two windows, and it keeps one list of timestamps for each socket: a push
counts the requests for a queue, and prunes the timestamps that these still need.

* `isRateLimited`, `SocketCall` — the limiter, and the calls of the handlers;
* `Enforced` — each limit holds for its own kind of request;
* `recent_remembered` — what the list still knows;
* `enforced_iff` — the limits hold exactly when no call meets a list that misleads it;
* `enforced_of_unmixed` — so they do for a socket that never pushes, or only pushes.
-/

namespace AnonyMus.Relay.RateLimit

open EStateM (after outputs)
open Window

/-! ## The limiter -/

/-- `socket_rate_limits`. -/
abbrev SocketRateLimits := Dict String (List ℚ)

/-- `now - t < window`. -/
def Young (window t now : ℚ) : Prop := now - t < window

instance (window : ℚ) : DecidableRel (Young window) := fun t now =>
  inferInstanceAs (Decidable (now - t < window))

/-- `is_rate_limited`, at the time `now`. -/
def isRateLimited (sid : String) (limit : ℕ) (window now : ℚ) (limits : SocketRateLimits) :
    Bool × SocketRateLimits :=
  let timestamps := (limits.get? sid).getD []
  let pruned := timestamps.filter fun t => Young window t now
  let isLimited := decide (limit ≤ pruned.length)
  let kept := if isLimited then pruned else pruned ++ [now]
  -- a key without timestamps is deallocated
  (isLimited, if kept = [] then limits.erase sid else limits.insert sid kept)

/-- The handlers that ask the limiter. -/
inductive Handler
  | createQueue
  | rejoinQueue
  | pushQueue
deriving DecidableEq

namespace Handler

def limit : Handler → ℕ
  | createQueue => 5
  | rejoinQueue => 5
  | pushQueue => 10

def window : Handler → ℚ
  | createQueue => 10
  | rejoinQueue => 10
  | pushQueue => 1

/-- The handlers that set a queue up share a limit. -/
def setsUp : Handler → Bool
  | pushQueue => false
  | _ => true

def pushes : Handler → Bool
  | pushQueue => true
  | _ => false

end Handler

structure SocketCall where
  sid     : String
  handler : Handler
  now     : ℚ

def SocketCall.ask (call : SocketCall) (limits : SocketRateLimits) : Bool × SocketRateLimits :=
  isRateLimited call.sid call.handler.limit call.handler.window call.now limits

/-- The call, which returns whether it is refused. -/
def act (call : SocketCall) : EStateM Empty SocketRateLimits Bool :=
  modifyGet call.ask

/-! ## The limits -/

/-- When a call of the socket to one of these handlers is let through. -/
def letThrough (sid : String) (p : Handler → Bool) (call : SocketCall)
    (limits : SocketRateLimits) : Option ℚ :=
  if call.sid = sid ∧ p call.handler = true ∧ (call.ask limits).1 = false then some call.now
  else none

/-- The times at which calls of the socket to these handlers are let through. -/
def admitted (sid : String) (p : Handler → Bool) (calls : List SocketCall) : List ℚ :=
  outputs act (letThrough sid p) calls Dict.empty

/-- The limiter after the calls. -/
def limitsAfter (calls : List SocketCall) : SocketRateLimits := after act calls Dict.empty

/-- The timestamps that the limiter has of a socket. -/
def remembered (sid : String) (calls : List SocketCall) : List ℚ :=
  ((limitsAfter calls).get? sid).getD []

/-- What the limits are to mean for a socket: at most 5 requests for a queue in 10
seconds, at most 10 pushes in a second, and no push refused as long as fewer than 10
were let through in the last second. -/
structure Enforced (sid : String) (calls : List SocketCall) : Prop where
  setsUp : ∀ w, within (Young 10) w (admitted sid Handler.setsUp calls) ≤ 5
  pushes : ∀ w, within (Young 1) w (admitted sid Handler.pushes calls) ≤ 10
  free   : ∀ done call todo, calls = done ++ call :: todo → call.sid = sid →
    call.handler = .pushQueue →
      recent (Young 1) call.now (admitted sid Handler.pushes done) < 10 →
        (call.ask (limitsAfter done)).1 = false

/-- The list that the call meets does not mislead it: for a push, no requests for a
queue fill up what pushes of the last second have left; for a request for a queue, the
list still has 5 timestamps of the last 10 seconds if as many such requests were made. -/
def NotMisled (sid : String) (done : List SocketCall) (call : SocketCall) : Prop :=
  call.sid = sid →
    if call.handler = .pushQueue then
      recent (Young 1) call.now (admitted sid Handler.pushes done) < 10 →
        recent (Young 1) call.now (admitted sid Handler.pushes done) +
          recent (Young 1) call.now (admitted sid Handler.setsUp done) < 10
    else
      5 ≤ recent (Young 10) call.now (admitted sid Handler.setsUp done) →
        5 ≤ recent (Young 10) call.now (remembered sid done)

/-- Every call of the socket meets a list that does not mislead it. -/
def Unmisled (sid : String) (calls : List SocketCall) : Prop :=
  ∀ done call todo, calls = done ++ call :: todo → NotMisled sid done call

/-- The calls come one after another. -/
def InTime (calls : List SocketCall) : Prop := calls.Pairwise fun call later => call.now ≤ later.now

/-! ## What the list knows -/

section

variable {sid : String} {done calls : List SocketCall} {call : SocketCall} {now later : ℚ}

theorem closing_young (window : ℚ) : Closing (Young window) := by
  intro w w' t t' hw ht h
  unfold Young at h ⊢
  linarith

theorem young_self {window : ℚ} (h : 0 < window) (t : ℚ) : Young window t t := by
  unfold Young
  rwa [sub_self]

theorem Handler.one_le_window (handler : Handler) : 1 ≤ handler.window := by
  cases handler <;> norm_num [Handler.window]

theorem limitsAfter_concat :
    limitsAfter (done ++ [call]) = (call.ask (limitsAfter done)).2 := by
  rw [limitsAfter, EStateM.after_append]
  rfl

theorem admitted_concat (p : Handler → Bool) :
    admitted sid p (done ++ [call]) =
      admitted sid p done ++ (letThrough sid p call (limitsAfter done)).toList := by
  rw [admitted, EStateM.outputs_append, outputs, outputs, List.append_nil]
  rfl

/-- The limiter refuses a call when it remembers too many young timestamps. -/
theorem ask_refused (hsid : call.sid = sid) :
    (call.ask (limitsAfter done)).1 =
      decide (call.handler.limit ≤
        recent (Young call.handler.window) call.now (remembered sid done)) := by
  rw [recent, List.countP_eq_length_filter, remembered, ← hsid]
  rfl

/-- A deallocated key and an empty list are the same to the limiter. -/
theorem getD_store (sid' : String) (kept : List ℚ) (limits : SocketRateLimits) :
    ((if kept = [] then limits.erase sid' else limits.insert sid' kept).get? sid).getD [] =
      if sid = sid' then kept else (limits.get? sid).getD [] := by
  by_cases hsid : sid = sid'
  · rw [if_pos hsid]
    split_ifs with hempty
    · rw [Dict.get?_erase, if_pos hsid, hempty]
      rfl
    · rw [Dict.get?_insert, if_pos hsid]
      rfl
  · rw [if_neg hsid]
    split_ifs
    · rw [Dict.get?_erase, if_neg hsid]
    · rw [Dict.get?_insert, if_neg hsid]

theorem getD_isRateLimited (sid' : String) (limit : ℕ) (window : ℚ) (limits : SocketRateLimits) :
    ((isRateLimited sid' limit window now limits).2.get? sid).getD [] =
      if sid = sid' then
        ((limits.get? sid).getD []).filter (fun t => Young window t now) ++
          if (isRateLimited sid' limit window now limits).1 = false then [now] else []
      else (limits.get? sid).getD [] := by
  unfold isRateLimited
  dsimp only
  rw [getD_store]
  by_cases hsid : sid = sid'
  · subst hsid
    rw [if_pos rfl, if_pos rfl]
    by_cases hlimited : limit ≤
        (((limits.get? sid).getD []).filter fun t => Young window t now).length
    · simp only [hlimited, decide_true, if_true, Bool.true_eq_false, if_false, List.append_nil]
    · simp only [hlimited, decide_false, Bool.false_eq_true, if_false, if_true]
  · rw [if_neg hsid, if_neg hsid]

/-- The calls of other sockets do not touch the list. -/
theorem remembered_concat_other (hsid : call.sid ≠ sid) :
    remembered sid (done ++ [call]) = remembered sid done := by
  rw [remembered, limitsAfter_concat, SocketCall.ask, getD_isRateLimited, if_neg (Ne.symm hsid)]
  rfl

/-- A call of the socket prunes the list by its own window, and a call that is let
through is appended. -/
theorem remembered_concat (hsid : call.sid = sid) :
    remembered sid (done ++ [call]) =
      ((remembered sid done).filter fun t => Young call.handler.window t call.now) ++
        if (call.ask (limitsAfter done)).1 = false then [call.now] else [] := by
  rw [remembered, limitsAfter_concat, SocketCall.ask, getD_isRateLimited, if_pos hsid.symm]
  rfl

/-- As long as no call has pruned by a shorter window, the list has all that was let
through and is young. -/
theorem recent_remembered {window : ℚ} (htime : InTime calls)
    (hlater : ∀ call ∈ calls, call.now ≤ later)
    (hwindow : ∀ call ∈ calls, call.sid = sid → window ≤ call.handler.window) :
    recent (Young window) later (remembered sid calls) =
      recent (Young window) later (admitted sid Handler.pushes calls) +
        recent (Young window) later (admitted sid Handler.setsUp calls) := by
  -- over the calls from the last: what it prunes is not young later
  induction calls using List.reverseRecOn with
  | nil => rfl
  | append_singleton done call ih =>
    have hcall : call ∈ done ++ [call] := List.mem_append_right _ List.mem_cons_self
    have hnow : call.now ≤ later := hlater call hcall
    have ih := ih (List.pairwise_append.mp htime).1
      (fun c hc => hlater c (List.mem_append_left _ hc))
      (fun c hc => hwindow c (List.mem_append_left _ hc))
    rw [admitted_concat, admitted_concat, recent_append, recent_append]
    by_cases hsid : call.sid = sid
    · have hpruned : recent (Young window) later
          ((remembered sid done).filter fun t => Young call.handler.window t call.now) =
            recent (Young window) later (remembered sid done) := by
        rw [recent, List.countP_filter]
        apply List.countP_congr
        intro t _
        have hkept : Young window t later → Young call.handler.window t call.now := by
          have hlonger := hwindow call hcall hsid
          unfold Young
          intro hyoung
          linarith
        simp only [Bool.and_eq_true, decide_eq_true_eq]
        exact and_iff_left_of_imp hkept
      rw [remembered_concat hsid, recent_append, hpruned, ih]
      -- a call that is let through is of one of the two kinds
      rcases hhandler : call.handler with _ | _ | _ <;>
        cases hrefused : (call.ask (limitsAfter done)).1 <;>
          simp [letThrough, hsid, hhandler, hrefused, Handler.setsUp, Handler.pushes, recent] <;>
            omega
    · rw [remembered_concat_other hsid, ih, letThrough, letThrough, if_neg (fun h => hsid h.1),
        if_neg (fun h => hsid h.1)]
      rfl

theorem admitted_sublist (sid : String) (p : Handler → Bool) (calls : List SocketCall) :
    (admitted sid p calls).Sublist (calls.map SocketCall.now) := by
  induction calls using List.reverseRecOn with
  | nil => exact .slnil
  | append_singleton done call ih =>
    rw [admitted_concat, List.map_append]
    refine ih.append ?_
    unfold letThrough
    split_ifs
    · exact .refl _
    · exact List.nil_sublist _

theorem admitted_sorted (htime : InTime calls) (p : Handler → Bool) :
    (admitted sid p calls).Pairwise (· ≤ ·) :=
  (List.pairwise_map.mpr htime).sublist (admitted_sublist sid p calls)

theorem InTime.before {todo : List SocketCall} (h : InTime (done ++ call :: todo)) :
    InTime done ∧ ∀ c ∈ done, c.now ≤ call.now := by
  obtain ⟨hdone, -, hcross⟩ := List.pairwise_append.mp h
  exact ⟨hdone, fun c hc => hcross c hc call List.mem_cons_self⟩

/-- A window limit, call by call. -/
theorem within_admitted_iff (htime : InTime calls) {window : ℚ} (hwindow : 0 < window)
    {limit : ℕ} {p : Handler → Bool} :
    (∀ w, within (Young window) w (admitted sid p calls) ≤ limit) ↔
      ∀ done call todo, calls = done ++ call :: todo → call.sid = sid → p call.handler = true →
        (call.ask (limitsAfter done)).1 = false →
          recent (Young window) call.now (admitted sid p done) < limit := by
  rw [within_le_iff (closing_young window) (young_self hwindow) (admitted_sorted htime p)]
  refine EStateM.forall_outputs_iff.trans ⟨?_, ?_⟩
  · intro h done call todo hcalls hsid hp hthrough
    exact h done call todo hcalls _ (if_pos ⟨hsid, hp, hthrough⟩)
  · intro h done call todo hcalls t ht
    obtain ⟨⟨hsid, hp, hthrough⟩, hnow⟩ := Option.ite_none_right_eq_some.mp ht
    rw [← Option.some.inj hnow]
    exact h done call todo hcalls hsid hp hthrough

/-! ## When the limits hold -/

theorem refused_push (htime : InTime done) (hbefore : ∀ c ∈ done, c.now ≤ call.now)
    (hsid : call.sid = sid) (hpush : call.handler = .pushQueue) :
    (call.ask (limitsAfter done)).1 = false ↔
      recent (Young 1) call.now (admitted sid Handler.pushes done) +
        recent (Young 1) call.now (admitted sid Handler.setsUp done) < 10 := by
  rw [ask_refused hsid, hpush, decide_eq_false_iff_not, not_le]
  show recent (Young 1) call.now (remembered sid done) < 10 ↔ _
  rw [recent_remembered htime hbefore fun c _ _ => c.handler.one_le_window]

theorem refused_setsUp (hsid : call.sid = sid) (hsets : call.handler.setsUp = true) :
    (call.ask (limitsAfter done)).1 = false ↔
      recent (Young 10) call.now (remembered sid done) < 5 := by
  rw [ask_refused hsid, decide_eq_false_iff_not, not_le]
  rcases hhandler : call.handler with _ | _ | _
  · rfl
  · rfl
  · rw [hhandler] at hsets
    cases hsets

/-- Pushes never exceed their own limit. -/
theorem few_pushes (htime : InTime calls) (w : ℚ) :
    within (Young 1) w (admitted sid Handler.pushes calls) ≤ 10 := by
  refine (within_admitted_iff htime one_pos).mpr ?_ w
  rintro done call todo rfl hsid hp hthrough
  obtain ⟨hdone, hbefore⟩ := htime.before
  have hpush : call.handler = .pushQueue := by
    rcases hhandler : call.handler with _ | _ | _
    · rw [hhandler] at hp
      cases hp
    · rw [hhandler] at hp
      cases hp
    · rfl
  exact Nat.lt_of_le_of_lt (Nat.le_add_right _ _)
    ((refused_push hdone hbefore hsid hpush).mp hthrough)

/-- **When the limits hold.** For a socket among others, in every sequence of calls in
time: exactly when each of its calls meets a list that does not mislead it. -/
theorem enforced_iff (sid : String) {calls : List SocketCall} (htime : InTime calls) :
    Enforced sid calls ↔ Unmisled sid calls := by
  have hsets : ∀ {handler : Handler}, handler ≠ .pushQueue ↔ handler.setsUp = true := by
    intro handler
    cases handler <;> decide
  constructor
  · rintro h done call todo rfl hsid
    obtain ⟨hdone, hbefore⟩ := htime.before
    split_ifs with hpush
    · intro hfew
      exact (refused_push hdone hbefore hsid hpush).mp (h.free done call todo rfl hsid hpush hfew)
    · -- a request that five others precede is refused
      intro hmany
      by_contra hforgotten
      have hthrough := (refused_setsUp hsid (hsets.mp hpush)).mpr (not_le.mp hforgotten)
      have hfew := (within_admitted_iff htime (by norm_num)).mp h.setsUp done call todo rfl hsid
        (hsets.mp hpush) hthrough
      exact absurd hmany (not_le.mpr hfew)
  · intro h
    refine ⟨?_, few_pushes htime, ?_⟩
    · refine (within_admitted_iff htime (by norm_num)).mpr ?_
      rintro done call todo rfl hsid hp hthrough
      have hmet := h done call todo rfl hsid
      rw [if_neg (hsets.mpr hp)] at hmet
      by_contra hmany
      exact absurd (hmet (not_lt.mp hmany)) (not_le.mpr ((refused_setsUp hsid hp).mp hthrough))
    · rintro done call todo rfl hsid hpush hfew
      obtain ⟨hdone, hbefore⟩ := htime.before
      have hmet := h done call todo rfl hsid
      rw [if_pos hpush] at hmet
      exact (refused_push hdone hbefore hsid hpush).mpr (hmet hfew)

theorem admitted_eq_nil {p : Handler → Bool}
    (h : ∀ call ∈ calls, call.sid = sid → p call.handler = false) :
    admitted sid p calls = [] := by
  induction calls using List.reverseRecOn with
  | nil => rfl
  | append_singleton done call ih =>
    rw [admitted_concat, ih fun c hc => h c (List.mem_append_left _ hc), letThrough, if_neg]
    · rfl
    · rintro ⟨hsid, hp, -⟩
      rw [h call (List.mem_append_right _ List.mem_cons_self) hsid] at hp
      cases hp

/-- A socket that never pushes, and one that only pushes, are limited as they should be. -/
theorem enforced_of_unmixed (htime : InTime calls)
    (h : (∀ call ∈ calls, call.sid = sid → call.handler.pushes = false) ∨
      ∀ call ∈ calls, call.sid = sid → call.handler.setsUp = false) : Enforced sid calls := by
  rw [enforced_iff sid htime]
  rintro done call todo rfl hsid
  obtain ⟨hdone, hbefore⟩ := htime.before
  have hmem : call ∈ done ++ call :: todo := List.mem_append_right _ List.mem_cons_self
  rcases h with hnever | honly
  · rw [if_neg]
    · -- all calls so far have pruned by ten seconds
      have hall : ∀ c ∈ done, c.sid = sid → 10 ≤ c.handler.window := by
        intro c hc hcsid
        have hset := hnever c (List.mem_append_left _ hc) hcsid
        rcases hhandler : c.handler with _ | _ | _
        · rfl
        · rfl
        · rw [hhandler] at hset
          cases hset
      have hnone : admitted sid Handler.pushes done = [] :=
        admitted_eq_nil fun c hc => hnever c (List.mem_append_left _ hc)
      rw [recent_remembered hdone hbefore hall, hnone]
      exact fun hmany => hmany.trans (Nat.le_add_left _ _)
    · intro hpush
      have hset := hnever call hmem hsid
      rw [hpush] at hset
      cases hset
  · rw [if_pos]
    · have hnone : admitted sid Handler.setsUp done = [] :=
        admitted_eq_nil fun c hc => honly c (List.mem_append_left _ hc)
      rw [hnone]
      exact id
    · have hset := honly call hmem hsid
      rcases hhandler : call.handler with _ | _ | _
      · rw [hhandler] at hset
        cases hset
      · rw [hhandler] at hset
        cases hset
      · rfl

theorem enforced_of_unmixed_pushes :
    Enforced "s1" [⟨"s1", .pushQueue, 0⟩, ⟨"s1", .pushQueue, 1 / 2⟩] :=
  enforced_of_unmixed (by unfold InTime; decide +kernel) (.inr (by decide))

end

/-- A socket that creates a queue and pushes twice. -/
def quietCalls : List SocketCall :=
  [⟨"s1", .createQueue, 0⟩, ⟨"s1", .pushQueue, 0⟩, ⟨"s1", .pushQueue, 1 / 2⟩]

theorem enforced_quietCalls : Enforced "s1" quietCalls := by
  refine (enforced_iff "s1" (by unfold InTime quietCalls; decide +kernel)).mpr ?_
  intro done call todo hcalls _
  rcases done with _ | ⟨c₁, _ | ⟨c₂, _ | ⟨c₃, done⟩⟩⟩
  · obtain ⟨rfl, -⟩ := List.cons.inj hcalls
    decide +kernel
  · obtain ⟨rfl, hrest⟩ := List.cons.inj hcalls
    obtain ⟨rfl, -⟩ := List.cons.inj hrest
    decide +kernel
  · obtain ⟨rfl, hrest⟩ := List.cons.inj hcalls
    obtain ⟨rfl, hlast⟩ := List.cons.inj hrest
    obtain ⟨rfl, -⟩ := List.cons.inj hlast
    decide +kernel
  · -- there are three calls only
    have hlength := congrArg List.length hcalls
    simp only [quietCalls, List.length_cons, List.length_nil, List.length_append] at hlength
    omega

/-- Five requests for a queue, and a push a second later that makes room for a sixth; and
five requests that take the places of pushes. -/
theorem not_enforced_mixed :
    ¬ Enforced "s1" (List.replicate 5 ⟨"s1", .createQueue, 0⟩ ++
        [⟨"s1", .pushQueue, 1⟩, ⟨"s1", .rejoinQueue, 1⟩]) ∧
      ¬ Enforced "s1" (List.replicate 5 ⟨"s1", .createQueue, 0⟩ ++
        List.replicate 6 ⟨"s1", .pushQueue, 0⟩) := by
  constructor
  · intro h
    exact absurd (h.setsUp 0) (by decide +kernel)
  · intro h
    have hfree := h.free (List.replicate 5 ⟨"s1", .createQueue, 0⟩ ++
      List.replicate 5 ⟨"s1", .pushQueue, 0⟩) ⟨"s1", .pushQueue, 0⟩ [] rfl rfl rfl (by decide +kernel)
    exact absurd hfree (by decide +kernel)

end AnonyMus.Relay.RateLimit
