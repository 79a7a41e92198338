import AnonyMus.Lib.Dict
import AnonyMus.Lib.Interleave
import Mathlib.Data.List.Nodup

/-!
# P2P node — group invites

`use_group_invite` of `transports/p2p/database.py`, called by any number of threads.
A call reads the invite outside of any transaction; its UPDATE opens one and takes
the only write lock, and waits as long as another connection has it.

* `exec` — one statement, or the commit;
* `Apart` — an invite is not found unused while another call is about to use it up;
* `InHand` — the calls that have found an invite unused, and what has been returned;
* `redeemed_once` — in such runs no token is returned twice;
* `redeemed_twice` — two calls that read the invite at the same time.
-/

namespace AnonyMus.P2p.GroupInvites

open Interleave

/-! ## Calls -/

/-- A row of `group_invites`, by its token. -/
structure Invite where
  groupId : String
  usedAt  : Option ℤ
deriving DecidableEq

/-- What is committed, the write lock, the clock, and what calls have returned. -/
structure Store where
  invites  : Dict String Invite
  locked   : Bool
  now      : ℤ
  /-- The tokens with the group ids. -/
  returned : List (String × String)

inductive Command
  | select (inviteToken : String)
  | update (inviteToken groupId : String)
  | commit (inviteToken groupId : String) (usedAt : ℤ)
deriving DecidableEq

/-- `SET used_at = ? WHERE invite_token = ?`. -/
def useInvite (invites : Dict String Invite) (inviteToken : String) (usedAt : ℤ) :
    Dict String Invite :=
  match invites.get? inviteToken with
  | some invite => invites.insert inviteToken { invite with usedAt := some usedAt }
  | none => invites

/-- One statement, unless it raises, and with it the call. -/
def exec (_ : Unit) (fail : Bool) (command : Command) (s : Store) : Store × List Command :=
  if fail then (s, [])
  else
    match command with
    | .select inviteToken =>
      match s.invites.get? inviteToken with
      | some ⟨groupId, none⟩ => (s, [.update inviteToken groupId])
      | _ => (s, [])
    | .update inviteToken groupId =>
      -- the busy handler tries again
      if s.locked then (s, [.update inviteToken groupId])
      else ({ s with locked := true }, [.commit inviteToken groupId s.now])
    | .commit inviteToken groupId usedAt =>
      ({ s with
          invites := useInvite s.invites inviteToken usedAt
          locked := false
          returned := s.returned ++ [(inviteToken, groupId)] }, [])

structure System where
  store   : Store
  threads : List (Thread Unit Command)

def System.init (invites : Dict String Invite) (now : ℤ) : System := ⟨⟨invites, false, now, []⟩, []⟩

inductive Event
  | useGroupInvite (inviteToken : String)
  | run (i : ℕ) (fail : Bool)
  | clock (now : ℤ)
deriving DecidableEq

def apply (sys : System) : Event → Option System
  | .useGroupInvite inviteToken =>
    some { sys with threads := sys.threads ++ [⟨(), [.select inviteToken]⟩] }
  | .run i fail => (stepThread exec i fail sys.threads sys.store).map fun out => ⟨out.1, out.2⟩
  | .clock now => some { sys with store := { sys.store with now := now } }

/-! ## Single redemption -/

/-- No token is returned by two calls. -/
def Once (s : Store) : Prop := (s.returned.map Prod.fst).Nodup

/-- The call has found the invite unused. -/
def Command.uses (inviteToken : String) : Command → Bool
  | select _ => false
  | update inviteToken' _ | commit inviteToken' _ _ => inviteToken' = inviteToken

def System.next (sys : System) (i : ℕ) : Option Command :=
  sys.threads[i]?.bind fun t => t.todo.head?

/-- No invite is read while another call has found it unused, before the commit of that call. -/
def Alone (sys : System) : Command → Prop
  | .select inviteToken => (sys.store.invites.get? inviteToken).bind Invite.usedAt ≠ none ∨
      ∀ c ∈ pending sys.threads, c.uses inviteToken = false
  | _ => True

def Apart (sys : System) : Event → Prop
  | .run i _ => ∀ command ∈ sys.next i, Alone sys command
  | _ => True

/-- An invite is with one call, or has been returned by one and is used. -/
structure InHand (sys : System) : Prop where
  single : ∀ inviteToken, (pending sys.threads).countP (Command.uses inviteToken) +
    (sys.store.returned.map Prod.fst).count inviteToken ≤ 1
  found  : ∀ inviteToken, ∀ c ∈ pending sys.threads, c.uses inviteToken = true →
    (sys.store.invites.get? inviteToken).isSome = true
  used   : ∀ inviteToken ∈ sys.store.returned.map Prod.fst,
    (sys.store.invites.get? inviteToken).bind Invite.usedAt ≠ none

section

variable {sys sys' : System} {s : Store} {inviteToken inviteToken' : String} {usedAt : ℤ}

theorem get?_useInvite (invites : Dict String Invite) :
    (useInvite invites inviteToken usedAt).get? inviteToken' =
      if inviteToken' = inviteToken then
        (invites.get? inviteToken).map fun invite => { invite with usedAt := some usedAt }
      else invites.get? inviteToken' := by
  unfold useInvite
  cases hget : invites.get? inviteToken with
  | none =>
    split_ifs with heq
    · rw [heq, hget]
      rfl
    · rfl
  | some invite =>
    dsimp only
    rw [Dict.get?_insert]
    rfl

theorem inHand_init (invites : Dict String Invite) (now : ℤ) : InHand (.init invites now) where
  single _ := Nat.zero_le 1
  found _  := by intro c hc; cases hc
  used _   := by intro h; cases h

/-- What the next commands use, the command has used, or it has found the invite unused. -/
theorem uses_exec (fail : Bool) (command : Command) :
    (exec () fail command s).2.countP (Command.uses inviteToken) +
        ((exec () fail command s).1.returned.map Prod.fst).count inviteToken ≤
      [command].countP (Command.uses inviteToken) + (s.returned.map Prod.fst).count inviteToken ∨
    command = .select inviteToken ∧
      (∃ groupId, s.invites.get? inviteToken = some ⟨groupId, none⟩) ∧
      (exec () fail command s).1 = s ∧
      (exec () fail command s).2.countP (Command.uses inviteToken) = 1 := by
  cases fail with
  | true =>
    left
    simp [exec]
  | false =>
    cases command with
    | select inviteToken' =>
      by_cases heq : inviteToken' = inviteToken
      · subst heq
        rcases hget : s.invites.get? inviteToken' with _ | ⟨groupId, _ | usedAt⟩
        · left
          simp [exec, hget]
        · -- the one way to come by a token
          right
          exact ⟨rfl, ⟨groupId, rfl⟩, by simp [exec, hget], by simp [exec, hget, Command.uses]⟩
        · left
          simp [exec, hget]
      · left
        rcases hget : s.invites.get? inviteToken' with _ | ⟨groupId, _ | usedAt⟩ <;>
          simp [exec, hget, Command.uses, heq]
    | update inviteToken' groupId =>
      left
      cases hlocked : s.locked <;> simp [exec, hlocked, Command.uses]
    | commit inviteToken' groupId usedAt =>
      left
      -- the token goes from the call to what is returned
      by_cases heq : inviteToken' = inviteToken
      · simp [exec, Command.uses, heq, Nat.add_comm]
      · simp [exec, Command.uses, heq]

/-- Invites stay, and used ones stay used. -/
theorem get?_exec (fail : Bool) (command : Command) :
    (((exec () fail command s).1.invites.get? inviteToken).isSome =
        (s.invites.get? inviteToken).isSome) ∧
      ((s.invites.get? inviteToken).bind Invite.usedAt ≠ none →
        ((exec () fail command s).1.invites.get? inviteToken).bind Invite.usedAt ≠ none) := by
  cases fail with
  | true => exact ⟨rfl, id⟩
  | false =>
    cases command with
    | select inviteToken' =>
      simp only [exec, Bool.false_eq_true, if_false]
      split <;> exact ⟨rfl, id⟩
    | update inviteToken' groupId =>
      simp only [exec, Bool.false_eq_true, if_false]
      split <;> exact ⟨rfl, id⟩
    | commit inviteToken' groupId usedAt =>
      simp only [exec, Bool.false_eq_true, if_false, get?_useInvite]
      split_ifs with heq
      · subst heq
        cases s.invites.get? inviteToken with
        | none => exact ⟨rfl, id⟩
        | some invite => exact ⟨rfl, fun _ => by simp⟩
      · exact ⟨rfl, id⟩

/-- A call returns the token of an invite that it has used. -/
theorem returned_exec (fail : Bool) (command : Command)
    (h : inviteToken ∈ (exec () fail command s).1.returned.map Prod.fst) :
    inviteToken ∈ s.returned.map Prod.fst ∨ command.uses inviteToken = true ∧
      ((s.invites.get? inviteToken).isSome = true →
        ((exec () fail command s).1.invites.get? inviteToken).bind Invite.usedAt ≠ none) := by
  cases fail with
  | true => exact .inl h
  | false =>
    cases command with
    | select inviteToken' =>
      simp only [exec, Bool.false_eq_true, if_false] at h
      split at h <;> exact .inl h
    | update inviteToken' groupId =>
      simp only [exec, Bool.false_eq_true, if_false] at h
      split at h <;> exact .inl h
    | commit inviteToken' groupId usedAt =>
      simp only [exec, Bool.false_eq_true, if_false, List.map_append, List.map_cons, List.map_nil,
        List.mem_append, List.mem_singleton] at h
      refine h.imp_right ?_
      rintro rfl
      refine ⟨by simp [Command.uses], fun hsome => ?_⟩
      obtain ⟨invite, hget⟩ := Option.isSome_iff_exists.mp hsome
      simp [exec, get?_useInvite, hget]

/-- A call uses an invite that it used before, or has found. -/
theorem found_exec (fail : Bool) (command : Command) :
    ∀ c ∈ (exec () fail command s).2, c.uses inviteToken = true →
      command.uses inviteToken = true ∨ (s.invites.get? inviteToken).isSome = true := by
  intro c hc huses
  cases fail with
  | true => cases hc
  | false =>
    cases command with
    | select inviteToken' =>
      simp only [exec, Bool.false_eq_true, if_false] at hc
      split at hc
      · rename_i hget
        obtain rfl := List.mem_singleton.mp hc
        obtain rfl : inviteToken' = inviteToken := of_decide_eq_true huses
        exact .inr (by rw [hget]; rfl)
      · cases hc
    | update inviteToken' groupId =>
      left
      simp only [exec, Bool.false_eq_true, if_false] at hc
      split at hc <;> obtain rfl := List.mem_singleton.mp hc <;> exact huses
    | commit inviteToken' groupId usedAt => cases hc

theorem inHand_run {i : ℕ} {fail : Bool} (h : InHand sys) (hok : Apart sys (.run i fail))
    (happly : apply sys (.run i fail) = some sys') : InHand sys' := by
  obtain ⟨⟨s', threads'⟩, hstep, rfl⟩ := Option.map_eq_some_iff.mp happly
  obtain ⟨l₁, loc, command, rest, l₂, hget, hsplit, rfl, rfl⟩ := stepThread_cases hstep
  obtain rfl : loc = () := rfl
  have hself : command ∈ pending sys.threads := by
    rw [hsplit, mem_pending_at]
    exact .inl List.mem_cons_self
  have halone : Alone sys command := hok command (by rw [System.next, hget]; rfl)
  constructor
  case single =>
    intro inviteToken
    have hsingle := h.single inviteToken
    have hmoved := countP_pending_step l₁ l₂ () command (exec () fail command sys.store).2 rest
      (Command.uses inviteToken)
    rw [hsplit] at hsingle
    rcases @uses_exec sys.store inviteToken fail command with
      hle | ⟨rfl, ⟨groupId, hunused⟩, hsame, hone⟩
    · dsimp only at hle ⊢
      omega
    · -- the invite is unused, so it was neither returned nor is it with another call
      have hnone : (sys.store.returned.map Prod.fst).count inviteToken = 0 := by
        refine List.count_eq_zero.mpr fun hmem => h.used inviteToken hmem ?_
        rw [hunused]
        rfl
      have hothers : (pending sys.threads).countP (Command.uses inviteToken) = 0 := by
        refine List.countP_eq_zero.mpr fun c hc => ?_
        have hfree := halone.resolve_left (by rw [hunused]; simp)
        simp [hfree c hc]
      rw [hsplit] at hothers
      dsimp only at hsame hone ⊢
      rw [hsame]
      omega
  case found =>
    intro inviteToken c hc huses
    dsimp only
    rw [(get?_exec fail command).1]
    rcases mem_pending_step command hc with hnew | hold
    · rcases found_exec fail command c hnew huses with hused | hfound
      · exact h.found inviteToken command hself hused
      · exact hfound
    · rw [← hsplit] at hold
      exact h.found inviteToken c hold huses
  case used =>
    intro inviteToken hmem
    rcases returned_exec fail command hmem with hold | ⟨huses, hused⟩
    · exact (get?_exec fail command).2 (h.used inviteToken hold)
    · -- the commit has found the invite, and marks it
      exact hused (h.found inviteToken command hself huses)

theorem inHand_apply (e : Event) (h : InHand sys) (hok : Apart sys e)
    (happly : apply sys e = some sys') : InHand sys' := by
  cases e with
  | useGroupInvite inviteToken =>
    obtain rfl := Option.some.inj happly
    have hpending : ∀ inviteToken', ∀ c ∈ [Command.select inviteToken],
        c.uses inviteToken' = false := by
      simp [Command.uses]
    constructor
    -- a call that begins has found nothing yet
    case single =>
      intro inviteToken'
      rw [pending_append, List.countP_append]
      exact h.single inviteToken'
    case found =>
      intro inviteToken' c hc huses
      rw [pending_append] at hc
      rcases List.mem_append.mp hc with hold | hnew
      · exact h.found inviteToken' c hold huses
      · rw [hpending inviteToken' c (by simpa using hnew)] at huses
        cases huses
    case used => exact h.used
  | run i fail => exact inHand_run h hok happly
  | clock now =>
    obtain rfl := Option.some.inj happly
    exact ⟨h.single, h.found, h.used⟩

/-- If no invite is read while another call is about to use it up, no token is returned twice. -/
theorem redeemed_once {invites : Dict String Invite} {now : ℤ}
    (hrun : Run apply Apart (.init invites now) sys) : Once sys.store := by
  have hinHand : InHand sys :=
    hrun.invariant (inHand_init invites now) fun _ e _ => inHand_apply e
  refine List.nodup_iff_count_le_one.mpr fun inviteToken => ?_
  have := hinHand.single inviteToken
  omega

end

/-! ## Two calls -/

instance (sys : System) : (command : Command) → Decidable (Alone sys command)
  | .select inviteToken => inferInstanceAs (Decidable
      ((sys.store.invites.get? inviteToken).bind Invite.usedAt ≠ none ∨
        ∀ c ∈ pending sys.threads, c.uses inviteToken = false))
  | .update _ _ | .commit _ _ _ => .isTrue trivial

instance (sys : System) : (e : Event) → Decidable (Apart sys e)
  | .run i _ => inferInstanceAs (Decidable (∀ command ∈ sys.next i, Alone sys command))
  | .useGroupInvite _ | .clock _ => .isTrue trivial

/-- One invite to a group. -/
def oneInvite : Dict String Invite := Dict.empty.insert "token" ⟨"group", none⟩

/-- Two calls, one after the other. -/
def inTurn : List Event :=
  [.useGroupInvite "token", .run 0 false, .run 0 false, .run 0 false,
   .useGroupInvite "token", .run 1 false]

theorem redeemed_once_inTurn : ∃ sys, Run apply Apart (.init oneInvite 0) sys ∧
    sys.store.returned = [("token", "group")] ∧ Once sys.store := by
  obtain ⟨sys, hrun, hreturned⟩ := @Run.exists_of_runAll _ _ apply Apart (.init oneInvite 0) _ inTurn
    (fun sys => sys.store.returned = [("token", "group")]) (by decide +kernel)
  exact ⟨sys, hrun, of_decide_eq_true hreturned, redeemed_once hrun⟩

/-- Two calls that find the invite unused. -/
def atOnce : List Event :=
  [.useGroupInvite "token", .useGroupInvite "token", .run 0 false, .run 1 false,
   .run 0 false, .run 0 false, .run 1 false, .run 1 false]

/-- Both calls return the group. -/
theorem redeemed_twice : ∃ sys, Run apply (fun _ _ => True) (.init oneInvite 0) sys ∧
    sys.store.returned = [("token", "group"), ("token", "group")] ∧ ¬ Once sys.store := by
  obtain ⟨sys, hrun, hreturned⟩ := @Run.exists_of_runAll _ _ apply (fun _ _ => True)
    (.init oneInvite 0) _ atOnce
    (fun sys => sys.store.returned = [("token", "group"), ("token", "group")]) (by decide +kernel)
  have hreturned := of_decide_eq_true hreturned
  refine ⟨sys, hrun, hreturned, ?_⟩
  rw [Once, hreturned]
  decide

end AnonyMus.P2p.GroupInvites
