import Mathlib.Logic.Relation
import AnonyMus.Lib.Ratchet

/-!
# Two parties of a double ratchet over an unreliable network

The ratchet keys of a conversation form one sequence: the receiver's first key,
then the sender's, then the receiver's second, and so on, each pair of
neighbours agreeing on the chain that starts at the later one. An `Epoch` is
one member of that sequence. The whole two-party state is described by the
sequence so far, the epoch each side stands at, and the number of messages sent
in each epoch.

* `Net`, `Step` — sends, deliveries (any number of times, in any order), and
  the loss of skipped keys;
* `OnceStep` — the same with at most one delivery per message and no loss;
* `Linked` — what the sequence of epochs looks like, and how it grows.
-/

namespace Ratchet

/-- The two ends: `alice` opened the conversation. -/
inductive Side
  | alice
  | bob
deriving DecidableEq, Repr

namespace Side

def peer : Side → Side
  | alice => bob
  | bob => alice

def parity : Side → Nat
  | alice => 1
  | bob => 0

@[simp] theorem peer_peer (s : Side) : s.peer.peer = s := by cases s <;> rfl

theorem peer_ne (s : Side) : s.peer ≠ s := by cases s <;> decide

theorem eq_or_eq_peer (s s' : Side) : s' = s ∨ s' = s.peer := by
  cases s <;> cases s' <;> decide

end Side

variable {Priv Pub Dh RK CK MK : Type}

/-! ## The network -/

/-- A message that was sent: its header, and the key its sender used. -/
structure Wire (Pub MK : Type) where
  src    : Side
  header : Header Pub
  key    : MK
deriving DecidableEq

/-- Both parties, everything sent so far, and three histories: the peer keys a
side has ratcheted away from, the ratchet keys generated, and the positions of
the log that were delivered. -/
structure Net (Priv Pub RK CK MK : Type) where
  party   : Side → Party Priv Pub RK CK MK
  log     : List (Wire Pub MK)
  retired : Side → List Pub
  used    : List Pub
  done    : List Nat

namespace Party

variable (K : Kdf Priv Pub Dh RK CK MK)

def initSender (rk : RK) (a : Priv) (bobPub : Pub) : Party Priv Pub RK CK MK :=
  let out := K.kdfRk rk (K.dh a bobPub)
  { self := a, remote := some bobPub, rk := out.1, cks := some out.2, ckr := none,
    ns := 0, nr := 0, pn := 0, skipped := fun _ _ => none }

def initReceiver (rk : RK) (b : Priv) : Party Priv Pub RK CK MK :=
  { self := b, remote := none, rk := rk, cks := none, ckr := none,
    ns := 0, nr := 0, pn := 0, skipped := fun _ _ => none }

end Party

section Steps

variable [DecidableEq Pub] (K : Kdf Priv Pub Dh RK CK MK)

namespace Net

def init (rk : RK) (a b : Priv) : Net Priv Pub RK CK MK where
  party
    | .alice => Party.initSender K rk a (K.pub b)
    | .bob => Party.initReceiver rk b
  log := []
  retired := fun _ => []
  used := [K.pub a, K.pub b]
  done := []

/-- Side `s` would ratchet if it were handed `h`. -/
abbrev Turns (net : Net Priv Pub RK CK MK) (s : Side) (h : Header Pub) : Prop :=
  (net.party s).skipped h.dh h.n = none ∧ some h.dh ≠ (net.party s).remote

/-- The keys side `s` will have left behind after it was handed `h`. -/
def retire (net : Net Priv Pub RK CK MK) (s : Side) (h : Header Pub) : List Pub :=
  if net.Turns s h then (net.party s).remote.toList ++ net.retired s else net.retired s

def deliver (net : Net Priv Pub RK CK MK) (s : Side) (i : Nat) (h : Header Pub)
    (fresh : Priv) : Net Priv Pub RK CK MK :=
  { net with
    party := Function.update net.party s ((net.party s).recv K h fresh).2
    retired := Function.update net.retired s (net.retire s h)
    used := if net.Turns s h then K.pub fresh :: net.used else net.used
    done := i :: net.done }

/-- The header is one side `s` can still place: its key is stored, or its
number has not been passed in the current chain, or it opens a new chain. -/
def Timely (net : Net Priv Pub RK CK MK) (s : Side) (h : Header Pub) : Prop :=
  (net.party s).skipped h.dh h.n ≠ none ∨
    (some h.dh = (net.party s).remote ∧ (net.party s).nr ≤ h.n) ∨
    (some h.dh ≠ (net.party s).remote ∧ h.dh ∉ net.retired s)

end Net

/-- One event of a run: a send, a timely delivery of any message of the log
(delivered before or not), or the loss of some skipped keys. -/
inductive Step : Net Priv Pub RK CK MK → Net Priv Pub RK CK MK → Prop
  | send {net} (s : Side) {key h p} (hsend : (net.party s).send K = some (key, h, p)) :
      Step net { net with
        party := Function.update net.party s p, log := net.log ++ [⟨s, h, key⟩] }
  | recv {net} (s : Side) (i : Nat) {w} (fresh : Priv) (hlog : net.log[i]? = some w)
      (hsrc : w.src = s.peer) (hfresh : net.Turns s w.header → K.pub fresh ∉ net.used)
      (htime : net.Timely s w.header) :
      Step net (net.deliver K s i w.header fresh)
  | evict {net} (s : Side) (kept : Pub → Nat → Option MK)
      (hkept : ∀ d n key, kept d n = some key → (net.party s).skipped d n = some key) :
      Step net { net with
        party := Function.update net.party s { net.party s with skipped := kept } }

/-- The events of a run in which each message is delivered at most once and no
skipped key is lost. -/
inductive OnceStep : Net Priv Pub RK CK MK → Net Priv Pub RK CK MK → Prop
  | send {net} (s : Side) {key h p} (hsend : (net.party s).send K = some (key, h, p)) :
      OnceStep net { net with
        party := Function.update net.party s p, log := net.log ++ [⟨s, h, key⟩] }
  | recv {net} (s : Side) (i : Nat) {w} (fresh : Priv) (hlog : net.log[i]? = some w)
      (hsrc : w.src = s.peer) (hfresh : net.Turns s w.header → K.pub fresh ∉ net.used)
      (honce : i ∉ net.done) :
      OnceStep net (net.deliver K s i w.header fresh)

end Steps

/-! ## Epochs -/

/-- One ratchet key of the conversation, the root key once it is in use, and
the chain it opens (none for the very first key). -/
structure Epoch (Priv RK CK : Type) where
  key  : Priv
  root : RK
  seed : Option CK

/-- The epoch opened by the ratchet key `k` right after `e`. -/
def Epoch.next (K : Kdf Priv Pub Dh RK CK MK) (e : Epoch Priv RK CK) (k : Priv) :
    Epoch Priv RK CK :=
  let out := K.kdfRk e.root (K.dh k (K.pub e.key))
  ⟨k, out.1, some out.2⟩

/-- The value of `f` one position earlier, zero at the start. -/
def before (f : Nat → Nat) : Nat → Nat
  | 0 => 0
  | t + 1 => f t

theorem before_update {f : Nat → Nat} {t u v : Nat} (h : u ≠ t + 1) :
    before (Function.update f t v) u = before f u := by
  cases u with
  | zero => rfl
  | succ u =>
    have hne : u ≠ t := fun hu => h (by omega)
    rw [before, before, Function.update_of_ne hne]

theorem before_before_update {f : Nat → Nat} {t u v : Nat} (h : u ≠ t + 2) :
    before (before (Function.update f t v)) u = before (before f) u := by
  cases u with
  | zero => rfl
  | succ u => exact before_update (by omega)

theorem before_le_before {f g : Nat → Nat} (h : ∀ t, f t ≤ g t) (u : Nat) :
    before f u ≤ before g u := by
  cases u with
  | zero => exact Nat.le_refl _
  | succ u => exact h u

theorem le_update {f : Nat → Nat} {t : Nat} (u : Nat) :
    f u ≤ Function.update f t (f t + 1) u := by
  by_cases hu : u = t
  · subst hu
    rw [Function.update_self]
    omega
  · exact Nat.le_of_eq (Function.update_of_ne hu ..).symm

/-- Every epoch after the first is the successor of the one before it. -/
structure Linked (K : Kdf Priv Pub Dh RK CK MK) (E : List (Epoch Priv RK CK)) :
    Prop where
  first : ∀ e, E[0]? = some e → e.seed = none
  next  : ∀ t e e', E[t]? = some e → E[t + 1]? = some e' → e' = e.next K e'.key

/-- An epoch keeps its place when later epochs are added. -/
theorem getElem?_mono {α : Type} {E E' : List α} {c : Nat} {e : α}
    (h : E <+: E') (hc : E[c]? = some e) : E'[c]? = some e := by
  obtain ⟨l, rfl⟩ := h
  rw [List.getElem?_append_left (List.getElem?_eq_some_iff.mp hc).1, hc]

theorem Linked.append_next {K : Kdf Priv Pub Dh RK CK MK}
    {E : List (Epoch Priv RK CK)} {t : Nat} {e : Epoch Priv RK CK} {k : Priv}
    (hE : Linked K E) (hlen : E.length = t + 1) (he : E[t]? = some e) :
    Linked K (E ++ [e.next K k]) := by
  constructor
  · intro e' he'
    rw [List.getElem?_append_left (by omega)] at he'
    exact hE.first e' he'
  · intro c d d' hd hd'
    have hc : c + 1 < (E ++ [e.next K k]).length := (List.getElem?_eq_some_iff.mp hd').1
    rw [List.length_append, List.length_singleton] at hc
    rw [List.getElem?_append_left (by omega)] at hd
    by_cases hlt : c + 1 < E.length
    · rw [List.getElem?_append_left hlt] at hd'
      exact hE.next c d d' hd hd'
    · obtain rfl : c = t := by omega
      rw [List.getElem?_append_right (by omega)] at hd'
      obtain rfl : e.next K k = d' := by simpa [hlen] using hd'
      rw [he, Option.some.injEq] at hd
      rw [hd]
      rfl

end Ratchet
