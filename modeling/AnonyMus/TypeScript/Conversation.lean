import AnonyMus.Lib.RatchetCounts
import AnonyMus.TypeScript.Client

/-!
# TypeScript SDK — two clients and the relay between them

One client accepts the invite link of the other, and from then on either may
send. The relay hands a payload to the owner of its queue, in any order and at
most once; it may also keep it for good.

* `World`, `Step` — the events of a run;
* `Waiting`, `Sim` — before and after the opener of the conversation has its
  session; the latter follows the abstract network;
* `Started.step` — every event keeps one of the two;
* `conversation_faithful` — listeners get what was said, once for each payload,
  and get it whenever a payload comes to a client that has a session.
-/

namespace AnonyMus.TypeScript

open Json (write)
open Ratchet (Side Wire)

variable {Priv : Type}

/-! ## Runs -/

/-- What each client begins with. -/
structure Parties (Priv : Type) where
  url   : Side → String
  keys  : Side → Priv
  queue : Side → String

section

variable (B : Browser Priv) (P : Parties Priv)

/-- Addresses without a number sign, queues with different names, and `alice`
for the side whose key comes first. -/
structure Parties.Real : Prop where
  url    : ∀ s, '#' ∉ (P.url s).toList
  named  : ∀ s, truthy (some (P.queue s)) = true
  queues : P.queue .alice ≠ P.queue .bob
  order  : lessThan (exported B (P.keys .alice)) (exported B (P.keys .bob)) = true

/-- A client that is connected and has created its queue. -/
def Parties.seat (s : Side) : Client Priv :=
  queueCreated (P.queue s) (connect B (P.url s) (P.keys s))

structure World (Priv : Type) where
  client : Side → Client Priv
  /-- The payloads that the relay was given, with their queues. -/
  pushed : List (Option String × List Char)
  /-- The message in each of them; none for a handshake. -/
  said   : List (Option Json)
  /-- What the listeners of a client got, with the payload it came in. -/
  heard  : Side → List (ℕ × Json)
  /-- The payloads that were handed over. -/
  done   : List ℕ
  /-- The public keys generated so far. -/
  used   : List (Bytes 32)

def pushOf : Emit → Option (Option String × List Char)
  | .pushQueue queueId payload => some (queueId, payload)
  | .registerPeer .. => none

/-- Side `s` has accepted the link of its peer. -/
def World.start (s : Side) (generated : Priv) : Except SdkError (World Priv) := do
  let link ← getInviteLink B (P.seat B s.peer)
  match acceptInvite B link generated (P.seat B s) with
  | .error e _ => throw e
  | .ok emits c =>
    return { client := Function.update (P.seat B) s c
             pushed := emits.filterMap pushOf
             said := (emits.filterMap pushOf).map fun _ => none
             heard := fun _ => []
             done := []
             used := [B.subtle.publicKey generated, B.subtle.publicKey (P.keys .alice),
               B.subtle.publicKey (P.keys .bob)] }

namespace World

/-- Side `s` calls `sendMessage`. -/
def send (w : World Priv) (s : Side) (text : String) (iv : Bytes 12) (now : ℕ) : World Priv :=
  match sendMessage B text iv now (w.client s) with
  | .ok emit c => { w with
      client := Function.update w.client s c
      pushed := w.pushed ++ (pushOf emit).toList
      said := w.said ++ (pushOf emit).toList.map fun _ => some (textMessage text now) }
  | .error _ c => { w with client := Function.update w.client s c }

/-- What the handler of side `s` does with a payload. -/
abbrev result (w : World Priv) (s : Side) (payload : List Char) (generated : Priv) :
    EStateM.Result SdkError (Client Priv) Reaction :=
  handleQueuePayload B payload generated (w.client s)

/-- Side `s` is handed payload `i`. -/
def deliver (w : World Priv) (s : Side) (i : ℕ) (payload : List Char) (generated : Priv) :
    World Priv :=
  { w with
    client := Function.update w.client s (w.result B s payload generated).state
    heard := match (w.result B s payload generated).value? with
      | some (.message msgObj) => Function.update w.heard s (w.heard s ++ [(i, msgObj)])
      | _ => w.heard
    done := i :: w.done
    used := B.subtle.publicKey generated :: w.used }

/-- The header in the text of a payload. -/
def headerOf (payload : List Char) : Option (Ratchet.Header (Bytes 32)) := do
  let .obj members ← Json.parse? B.numerals payload | none
  let dhPub ← (fromBase64 (textOf (members.lookup "dh_pub"))).toOption
  let dhPub ← (importRaw dhPub).toOption
  return ⟨dhPub, (countOf (members.lookup "prev_chain_len")).toNat,
    (countOf (members.lookup "seq")).toNat⟩

/-- Payload `i` is in the queue of `s` and was not handed over before, the key
that would be generated is new, and the session need not skip more than it may. -/
structure Deliverable (w : World Priv) (s : Side) (i : ℕ) (payload : List Char)
    (generated : Priv) : Prop where
  pushed : w.pushed[i]? = some (some (P.queue s), payload)
  once   : i ∉ w.done
  fresh  : B.subtle.publicKey generated ∉ w.used
  within : ∀ session hd, (w.client s).ratchet = some session → headerOf B payload = some hd →
    WithinSkip session hd

end World

/-- One event: a call of `sendMessage`, or a payload that is handed over. -/
inductive Step : World Priv → World Priv → Prop
  | send {w} (s : Side) (text : String) (iv : Bytes 12) (now : ℕ)
      -- the greatest time value
      (hnow : now ≤ 8640000000000000) : Step w (w.send B s text iv now)
  | deliver {w} (s : Side) (i : ℕ) (payload : List Char) (generated : Priv)
      (hdel : w.Deliverable B P s i payload generated) :
      Step w (w.deliver B s i payload generated)

/-! ## Simulation by the abstract network -/

abbrev SdkNet (Priv : Type) := Ratchet.Net Priv (Bytes 32) (List UInt8) (Bytes 32) (Bytes 32)

/-- The handshake of side `s`. -/
def handshakeText (s : Side) : List Char :=
  write B.numerals (handshakePayload (some (P.queue s)) (some (exported B (P.keys s))))

/-- Side `s` with a session. -/
def Parties.talking (s : Side) (session : DoubleRatchetSession Priv) : Client Priv :=
  joined (P.seat B s) (P.queue s.peer) (exported B (P.keys s.peer)) session

/-- `bob` has accepted the link of `alice`, who has not had his handshake yet. -/
structure Waiting (z : Bytes 32) (w : World Priv) : Prop where
  alice  : w.client .alice = P.seat B .alice
  bob    : ∃ session, w.client .bob = P.talking B .bob session ∧
    Shows B.subtle session (Ratchet.Party.initReceiver z.1 (P.keys .bob))
  pushed : w.pushed = [(some (P.queue .alice), handshakeText B P .bob)]
  said   : w.said = [none]
  used   : B.subtle.publicKey (P.keys .bob) ∈ w.used

/-- The two clients follow the abstract network, where `bob` may not have had
the handshake of `alice` yet. -/
structure Sim (z : Bytes 32) (w : World Priv) (net : SdkNet Priv) : Prop where
  client : ∀ s, (∃ session, w.client s = P.talking B s session ∧
      Shows B.subtle session (net.party s) ∧ (s = .bob → 0 ∈ w.done)) ∨
    (s = .bob ∧ w.client .bob = P.seat B .bob ∧
      net.party .bob = Ratchet.Party.initReceiver z.1 (P.keys .bob))
  first  : w.pushed[0]? = some (some (P.queue .bob), handshakeText B P .alice) ∨ 0 ∈ w.done
  silent : w.said[0]? = some none
  log    : ∀ (i : ℕ) (wire : Wire (Bytes 32) (Bytes 32)), net.log[i]? = some wire →
    ∃ iv text now, now ≤ 2 ^ 53 ∧
      w.pushed[i + 1]? =
        some (some (P.queue wire.src.peer),
          messageText B wire.key wire.header iv (textMessage text now)) ∧
      w.said[i + 1]? = some (some (textMessage text now))
  length : w.pushed.length = net.log.length + 1 ∧ w.said.length = net.log.length + 1
  done   : ∀ i ∈ net.done, i + 1 ∈ w.done
  used   : ∀ d ∈ net.used, d ∈ w.used

/-- A handler gives listeners the message of its payload; it gives them nothing
if there is no session or no message. -/
def Answered (w : World Priv) (s : Side) (i : ℕ)
    (r : EStateM.Result SdkError (Client Priv) Reaction) : Prop :=
  (∃ m, r.value? = some (.message m) ∧ w.said[i]? = some (some m)) ∨
    ((∀ m, r.value? ≠ some (.message m)) ∧
      ((w.client s).ratchet = none ∨ w.said[i]? = some none))

/-- Listeners got what was said, once for each payload of their queue. -/
structure Genuine (w : World Priv) : Prop where
  said  : ∀ s, ∀ e ∈ w.heard s, w.said[e.1]? = some (some e.2)
  queue : ∀ s, ∀ e ∈ w.heard s, ∃ payload, w.pushed[e.1]? = some (some (P.queue s), payload)
  done  : ∀ s, ∀ e ∈ w.heard s, e.1 ∈ w.done
  once  : ∀ s, ((w.heard s).map Prod.fst).Nodup

/-- The secret of the two key pairs. -/
def Parties.Secret (z : Bytes 32) : Prop :=
  ∀ s, B.subtle.deriveBits (P.keys s) (B.subtle.publicKey (P.keys s.peer)) = some z

end

section

variable {B : Browser Priv} {P : Parties Priv} {w : World Priv} {net : SdkNet Priv} {z : Bytes 32}

theorem exists_secret (hdoc : B.Documented) : ∃ z, P.Secret B z := by
  obtain ⟨z, halice, hbob⟩ := hdoc.agrees (P.keys .alice) (P.keys .bob)
  refine ⟨z, fun s => ?_⟩
  cases s with
  | alice => exact halice
  | bob => exact hbob

theorem Browser.Documented.dh_comm (hdoc : B.Documented) (x y : Priv) :
    B.subtle.kdf.dh x (B.subtle.kdf.pub y) = B.subtle.kdf.dh y (B.subtle.kdf.pub x) := by
  obtain ⟨z, hz, hz'⟩ := hdoc.agrees x y
  show (B.subtle.deriveBits x (B.subtle.publicKey y)).getD _ =
    (B.subtle.deriveBits y (B.subtle.publicKey x)).getD _
  rw [hz, hz']

theorem lessThan_asymm {a b : String} (h : lessThan a b = true) : lessThan b a = false := by
  rw [lessThan, decide_eq_true_eq] at h
  rw [lessThan, decide_eq_false_iff_not]
  exact List.lt_asymm h

theorem used_init {a : Priv} {used : List (Bytes 32)} (ha : B.subtle.publicKey a ∈ used)
    (hb : B.subtle.publicKey (P.keys .bob) ∈ used) :
    ∀ d ∈ (Ratchet.Net.init B.subtle.kdf z.1 a (P.keys .bob)).used, d ∈ used := by
  intro d hd
  rcases List.mem_cons.mp hd with rfl | hd
  · exact ha
  · rw [List.mem_singleton.mp hd]
    exact hb

theorem Parties.Real.ready (hreal : P.Real B) (s : Side) :
    Ready B (P.seat B s) (P.keys s) (P.queue s) := ⟨rfl, rfl, rfl, rfl, hreal.named s⟩

theorem Parties.Real.queue_injective (hreal : P.Real B) {s s' : Side}
    (h : P.queue s = P.queue s') : s = s' := by
  have hne := hreal.queues
  cases s <;> cases s'
  · rfl
  · exact absurd h hne
  · exact absurd h.symm hne
  · rfl

theorem Parties.Real.roleParty_alice (hreal : P.Real B) (generated : Priv) :
    roleParty B (P.keys .alice) (P.keys Side.alice.peer) generated z =
      Ratchet.Party.initSender B.subtle.kdf z.1 generated (B.subtle.publicKey (P.keys .bob)) := by
  exact if_pos hreal.order

theorem Parties.Real.roleParty_bob (hreal : P.Real B) (generated : Priv) :
    roleParty B (P.keys .bob) (P.keys Side.bob.peer) generated z =
      Ratchet.Party.initReceiver z.1 (P.keys .bob) := by
  refine if_neg fun h => Bool.false_ne_true ?_
  exact (lessThan_asymm hreal.order).symm.trans h

theorem headerOf_messageText (hdoc : B.Documented) {hd : Ratchet.Header (Bytes 32)}
    (hn : hd.n ≤ 2 ^ 53) (hpn : hd.pn ≤ 2 ^ 53) (key : Bytes 32) (iv : Bytes 12) (msgObj : Json) :
    World.headerOf B (messageText B key hd iv msgObj) = some hd := by
  have hparse := hdoc.parse_outerPayload hn hpn iv.1
    (B.subtle.gcmEncrypt key.1 iv.1 (encodeJson B msgObj)) hd.dh.1
  rw [messageText, World.headerOf, hparse, outerPayload]
  show ((fromBase64 (some (toBase64 hd.dh.1))).toOption.bind fun dhPub =>
    (importRaw dhPub).toOption.bind fun dhPub =>
      some (⟨dhPub, (hd.pn : ℤ).toNat, (hd.n : ℤ).toNat⟩ : Ratchet.Header (Bytes 32))) = some hd
  rw [fromBase64_toBase64]
  show ((importRaw hd.dh.1).toOption.bind fun dhPub =>
    some (⟨dhPub, (hd.pn : ℤ).toNat, (hd.n : ℤ).toNat⟩ : Ratchet.Header (Bytes 32))) = some hd
  rw [importRaw_eq]
  rfl

/-- A call that fails and changes nothing is no event. -/
theorem World.send_of_error {s : Side} {text : String} {iv : Bytes 12} {now : ℕ} {e : SdkError}
    (h : sendMessage B text iv now (w.client s) = .error e (w.client s)) :
    w.send B s text iv now = w := by
  rw [World.send, h]
  dsimp only
  rw [Function.update_eq_self]

theorem World.client_deliver {s : Side} {i : ℕ} {payload : List Char} {generated : Priv}
    {r : Reaction} {c : Client Priv} (h : w.result B s payload generated = .ok r c) :
    (w.deliver B s i payload generated).client = Function.update w.client s c := by
  rw [World.deliver, h]
  rfl

theorem Sim.update_client (h : Sim B P z w net) {s : Side} {session : DoubleRatchetSession Priv}
    {p : SdkParty Priv} (hshows : Shows B.subtle session p) {done : List ℕ}
    (hdone : ∀ i ∈ w.done, i ∈ done) (hzero : s = .bob → 0 ∈ done) (s' : Side) :
    (∃ session', Function.update w.client s (P.talking B s session) s' = P.talking B s' session' ∧
      Shows B.subtle session' (Function.update net.party s p s') ∧ (s' = .bob → 0 ∈ done)) ∨
    (s' = .bob ∧ Function.update w.client s (P.talking B s session) .bob = P.seat B .bob ∧
      Function.update net.party s p .bob =
        Ratchet.Party.initReceiver z.1 (P.keys .bob)) := by
  rcases Side.eq_or_eq_peer s s' with rfl | rfl
  · left
    rw [Function.update_self, Function.update_self]
    exact ⟨session, rfl, hshows, hzero⟩
  · rw [Function.update_of_ne (Side.peer_ne s), Function.update_of_ne (Side.peer_ne s)]
    rcases h.client s.peer with ⟨session', hclient, hshows', h0⟩ | ⟨hbob, hclient, hparty⟩
    · exact .inl ⟨session', hclient, hshows', fun hs => hdone _ (h0 hs)⟩
    · right
      have hne : Side.bob ≠ s := hbob ▸ Side.peer_ne s
      rw [Function.update_of_ne hne, Function.update_of_ne hne]
      exact ⟨hbob, hclient, hparty⟩

/-- A call of `sendMessage` is a send of the abstract network, or it throws and
nothing happens. -/
theorem Sim.send (h : Sim B P z w net) (hreal : P.Real B) (hcounted : Ratchet.Counted net)
    {s : Side} {text : String} {iv : Bytes 12} {now : ℕ} (hnow : now ≤ 2 ^ 53)
    (hfew : w.pushed.length ≤ 2 ^ 53) :
    w.send B s text iv now = w ∨ ∃ net', Ratchet.OnceStep B.subtle.kdf net net' ∧
      Sim B P z (w.send B s text iv now) net' := by
  rcases h.client s with ⟨session, hclient, hshows, h0⟩ | ⟨rfl, hclient, -⟩
  · have hratchet : (w.client s).ratchet = some session := by rw [hclient]; rfl
    by_cases hchain : session.sendingChainKey = none
    · obtain ⟨e, he⟩ := sendMessage_of_waiting (B := B) hratchet hchain text iv now
      exact .inl (World.send_of_error he)
    · right
      have hqueue : (w.client s).theirQueueId = some (P.queue s.peer) := by rw [hclient]; rfl
      have hns := hcounted.ns s
      have hlength := h.length
      have hseq : session.seqSend < 2 ^ 53 := by
        rw [hshows.ns]
        omega
      obtain ⟨key, hd, p', session', hsend, hrun, hshows'⟩ := hshows.sendMessage hratchet
        (by rw [hclient]; rfl) (by rw [hqueue]; exact hreal.named s.peer) hseq hchain text iv now
      have hworld : w.send B s text iv now = { w with
          client := Function.update w.client s (P.talking B s session')
          pushed := w.pushed ++
            [(some (P.queue s.peer), messageText B key hd iv (textMessage text now))]
          said := w.said ++ [some (textMessage text now)] } := by
        rw [World.send, hrun, hqueue, hclient]
        rfl
      refine ⟨_, .send s hsend, ?_⟩
      rw [hworld]
      constructor
      case client => exact h.update_client hshows' (fun _ hi => hi) h0
      case first => exact h.first.imp_left (Ratchet.getElem?_mono (List.prefix_append ..))
      case silent => exact Ratchet.getElem?_mono (List.prefix_append ..) h.silent
      case log =>
        intro i wire hwire
        rcases Ratchet.getElem?_append_singleton.mp hwire with hold | ⟨rfl, rfl⟩
        · obtain ⟨iv', text', now', hnow', hpushed, hsaid⟩ := h.log i wire hold
          exact ⟨iv', text', now', hnow', Ratchet.getElem?_mono (List.prefix_append ..) hpushed,
            Ratchet.getElem?_mono (List.prefix_append ..) hsaid⟩
        · refine ⟨iv, text, now, hnow, ?_, ?_⟩
          · rw [← hlength.1, List.getElem?_concat_length]
          · rw [← hlength.2, List.getElem?_concat_length]
      case length =>
        simp only [List.length_append, List.length_singleton]
        omega
      case done => exact h.done
      case used => exact h.used
  · left
    have hnone : (w.client .bob).ratchet = none := by rw [hclient]; rfl
    exact World.send_of_error (sendMessage_of_none hnone text iv now)

/-- What is left to show of a delivery: what becomes of the clients, and of the network. -/
theorem Sim.delivered (h : Sim B P z w net) {s : Side} {i : ℕ} {payload : List Char}
    {generated : Priv} {net' : SdkNet Priv} (hlog : net'.log = net.log)
    (hdone : ∀ j ∈ net'.done, j ∈ net.done ∨ j + 1 = i)
    (hused : ∀ d ∈ net'.used, d ∈ net.used ∨ d = B.subtle.publicKey generated)
    (hclient : ∀ s', (∃ session, (w.deliver B s i payload generated).client s' =
        P.talking B s' session ∧ Shows B.subtle session (net'.party s') ∧
        (s' = .bob → 0 ∈ i :: w.done)) ∨
      (s' = .bob ∧ (w.deliver B s i payload generated).client .bob = P.seat B .bob ∧
        net'.party .bob = Ratchet.Party.initReceiver z.1 (P.keys .bob))) :
    Sim B P z (w.deliver B s i payload generated) net' where
  client := hclient
  first := h.first.imp_right (List.mem_cons_of_mem _)
  silent := h.silent
  log := hlog ▸ h.log
  length := hlog ▸ h.length
  done j hj := (hdone j hj).elim (fun hold => List.mem_cons_of_mem _ (h.done j hold))
    fun hi => hi ▸ List.mem_cons_self
  used d hd := (hused d hd).elim (fun hold => List.mem_cons_of_mem _ (h.used d hold))
    fun hd => hd ▸ List.mem_cons_self

/-- A delivery to a client that answers with no message. -/
theorem Sim.deliver_of_same (h : Sim B P z w net) {s : Side} {i : ℕ} {payload : List Char}
    {generated : Priv} (hsame : (w.result B s payload generated).state = w.client s) :
    Sim B P z (w.deliver B s i payload generated) net := by
  have hclients : (w.deliver B s i payload generated).client = w.client := by
    rw [World.deliver, hsame]
    exact Function.update_eq_self ..
  refine h.delivered rfl (fun _ hj => .inl hj) (fun _ hd => .inl hd) fun s' => ?_
  rw [hclients]
  exact (h.client s').imp_left fun ⟨session, hc, hs, h0⟩ =>
    ⟨session, hc, hs, fun hb => List.mem_cons_of_mem _ (h0 hb)⟩

/-- The handshake of `alice` gives `bob` his session. -/
theorem Sim.deliver_handshake (h : Sim B P z w net) (hdoc : B.Documented) (hreal : P.Real B)
    (hz : P.Secret B z) {s : Side} {payload : List Char} {generated : Priv}
    (hdel : w.Deliverable B P s 0 payload generated) :
    Answered w s 0 (w.result B s payload generated) ∧
      Sim B P z (w.deliver B s 0 payload generated) net := by
  have hfirst := h.first.resolve_right hdel.once
  rw [hdel.pushed] at hfirst
  obtain ⟨hqueue, rfl⟩ := Prod.mk.inj (Option.some.inj hfirst)
  obtain rfl : s = .bob := hreal.queue_injective (Option.some.inj hqueue)
  rcases h.client .bob with ⟨session, -, -, h0⟩ | ⟨-, hclient, hparty⟩
  · exact absurd (h0 rfl) hdel.once
  · obtain ⟨session, hrun, hshows⟩ := handleQueuePayload_handshake hdoc generated
      (P.queue .alice) (hreal.ready .bob) (hz .bob)
    have hresult : w.result B .bob (handshakeText B P .alice) generated =
        .ok (.registered (.registerPeer (some (P.queue .bob)) (some (P.queue .alice))))
          (P.talking B .bob session) := by
      rw [World.result, hclient]
      exact hrun
    have hshows' : Shows B.subtle session (net.party .bob) := by
      rw [hparty, ← hreal.roleParty_bob generated]
      exact hshows
    constructor
    · refine .inr ⟨fun m hm => ?_, .inr h.silent⟩
      rw [hresult] at hm
      cases hm
    · refine h.delivered rfl (fun _ hj => .inl hj) (fun _ hd => .inl hd) fun s' => ?_
      have hdone : ∀ i ∈ w.done, i ∈ 0 :: w.done := fun _ hj => List.mem_cons_of_mem _ hj
      have hupdate := h.update_client (s := .bob) hshows' hdone (fun _ => List.mem_cons_self) s'
      rw [Function.update_eq_self] at hupdate
      rw [World.client_deliver (i := 0) hresult]
      exact hupdate

/-- A message that comes to a session is a delivery of the abstract network, and
its listeners get what was said. -/
theorem Sim.deliver_message (h : Sim B P z w net) (hdoc : B.Documented) {a : Priv}
    (hab : B.subtle.publicKey a ≠ B.subtle.publicKey (P.keys .bob))
    (hnet : Relation.ReflTransGen (Ratchet.OnceStep B.subtle.kdf)
      (Ratchet.Net.init B.subtle.kdf z.1 a (P.keys .bob)) net)
    {s : Side} {j : ℕ} {wire : Wire (Bytes 32) (Bytes 32)} {iv : Bytes 12} {text : String}
    {now : ℕ} {generated : Priv} {session : DoubleRatchetSession Priv}
    (hdel : w.Deliverable B P s (j + 1)
      (messageText B wire.key wire.header iv (textMessage text now)) generated)
    (hlog : net.log[j]? = some wire) (hsrc : wire.src = s.peer) (hnow : now ≤ 2 ^ 53)
    (hsaid : w.said[j + 1]? = some (some (textMessage text now)))
    (hclient : w.client s = P.talking B s session) (hshows : Shows B.subtle session (net.party s))
    (h0 : s = .bob → 0 ∈ w.done) (hfew : w.pushed.length ≤ 2 ^ 53) :
    ∃ net', Ratchet.OnceStep B.subtle.kdf net net' ∧
      Answered w s (j + 1) (w.result B s
        (messageText B wire.key wire.header iv (textMessage text now)) generated) ∧
      Sim B P z (w.deliver B s (j + 1)
        (messageText B wire.key wire.header iv (textMessage text now)) generated) net' := by
  have honce : j ∉ net.done := fun hj => hdel.once (h.done j hj)
  have hmem : wire ∈ net.log := List.mem_of_getElem? hlog
  have hlength := h.length
  obtain ⟨⟨E, sent, stage, hinv⟩, hready⟩ := Ratchet.once_run hdoc.dh_comm hab hnet
  have htime := hready.timely s j wire hlog hsrc honce
  have hfresh : net.Turns s wire.header → B.subtle.kdf.pub generated ∉ net.used :=
    fun _ hused => hdel.fresh (h.used _ hused)
  have hstep : Ratchet.OnceStep B.subtle.kdf net
      (net.deliver B.subtle.kdf s j wire.header generated) :=
    .recv s j generated hlog hsrc hfresh honce
  -- the abstract receiver takes the sender's key
  obtain ⟨hkey, -⟩ := hinv.deliver (i := j) hdoc.dh_comm hmem hsrc hfresh htime
  have hrecv : (net.party s).recv B.subtle.kdf wire.header generated =
      (some wire.key, ((net.party s).recv B.subtle.kdf wire.header generated).2) := by
    rw [← hkey]
  have hparty : (net.deliver B.subtle.kdf s j wire.header generated).party s =
      ((net.party s).recv B.subtle.kdf wire.header generated).2 := Function.update_self ..
  -- all numbers are exact
  obtain ⟨hn, hpn⟩ := (Ratchet.counted_run hnet).log wire hmem
  have hnr := Ratchet.counted_nr hdoc.dh_comm hab (hnet.tail hstep) s
  rw [hparty] at hnr
  change _ ≤ net.log.length at hnr
  -- a genuine header carries the public key of a generated key
  obtain ⟨_, e, _, -, -, hdh, -⟩ := hinv.log_epoch hmem hsrc
  have hexchange : ∃ z z', B.subtle.deriveBits (net.party s).self wire.header.dh = some z ∧
      B.subtle.deriveBits generated wire.header.dh = some z' := by
    obtain ⟨x, hx, -⟩ := hdoc.agrees (net.party s).self e.key
    obtain ⟨x', hx', -⟩ := hdoc.agrees generated e.key
    rw [hdh]
    exact ⟨x, x', hx, hx'⟩
  have hratchet : (w.client s).ratchet = some session := by rw [hclient]; rfl
  have hwithin := hdel.within session wire.header hratchet
    (headerOf_messageText hdoc (by omega) (by omega) wire.key iv _)
  obtain ⟨session', hrun, hshows'⟩ := hshows.handleMessage (hinv.stands s).remote_ne_none hdoc
    hratchet (by omega) (by omega) (by omega) hwithin (fun _ _ => hexchange) hrecv hnow text iv
  have hresult : w.result B s (messageText B wire.key wire.header iv (textMessage text now))
      generated = .ok (.message (textMessage text now)) (P.talking B s session') := by
    rw [World.result, hrun, hclient]
    rfl
  refine ⟨_, hstep, .inl ⟨_, by rw [hresult]; rfl, hsaid⟩, h.delivered rfl ?_ ?_ fun s' => ?_⟩
  · exact fun i hi => (List.mem_cons.mp hi).symm.imp_right (congrArg (· + 1))
  · intro d hd
    rw [Ratchet.Net.deliver] at hd
    dsimp only at hd
    split at hd
    · exact (List.mem_cons.mp hd).symm
    · exact .inl hd
  · rw [World.client_deliver (i := j + 1) hresult]
    exact h.update_client hshows' (fun _ hj => List.mem_cons_of_mem _ hj)
      (fun hs => List.mem_cons_of_mem _ (h0 hs)) s'

/-- A payload without a session to open it with. -/
theorem answered_of_none (hdoc : B.Documented) {s : Side} (i : ℕ) (key : Bytes 32)
    (hd : Ratchet.Header (Bytes 32)) (iv : Bytes 12) (msgObj : Json) (generated : Priv)
    (hn : hd.n ≤ 2 ^ 53) (hpn : hd.pn ≤ 2 ^ 53) (hnone : (w.client s).ratchet = none) :
    Answered w s i (w.result B s (messageText B key hd iv msgObj) generated) ∧
      (w.result B s (messageText B key hd iv msgObj) generated).state = w.client s := by
  have hresult : w.result B s (messageText B key hd iv msgObj) generated =
      .ok .nothing (w.client s) := by
    rw [World.result, handleQueuePayload_messageText hdoc hn hpn, handleMessage_of_none hnone]
  rw [hresult]
  exact ⟨.inr ⟨fun m hm => (by cases hm), .inl hnone⟩, rfl⟩

theorem Sim.deliver (h : Sim B P z w net) (hdoc : B.Documented) (hreal : P.Real B)
    (hz : P.Secret B z) {a : Priv}
    (hab : B.subtle.publicKey a ≠ B.subtle.publicKey (P.keys .bob))
    (hnet : Relation.ReflTransGen (Ratchet.OnceStep B.subtle.kdf)
      (Ratchet.Net.init B.subtle.kdf z.1 a (P.keys .bob)) net)
    {s : Side} {i : ℕ} {payload : List Char} {generated : Priv}
    (hdel : w.Deliverable B P s i payload generated) (hfew : w.pushed.length ≤ 2 ^ 53) :
    Answered w s i (w.result B s payload generated) ∧
      ∃ net', Relation.ReflTransGen (Ratchet.OnceStep B.subtle.kdf) net net' ∧
        Sim B P z (w.deliver B s i payload generated) net' := by
  cases i with
  | zero =>
    obtain ⟨hanswer, hsim⟩ := h.deliver_handshake hdoc hreal hz hdel
    exact ⟨hanswer, net, .refl, hsim⟩
  | succ j =>
    have hlength := h.length
    have hlt := (List.getElem?_eq_some_iff.mp hdel.pushed).1
    have hlog := List.getElem?_eq_getElem (l := net.log) (i := j) (by omega)
    obtain ⟨iv, text, now, hnow, hpushed, hsaid⟩ := h.log j _ hlog
    rw [hdel.pushed] at hpushed
    obtain ⟨hqueue, rfl⟩ := Prod.mk.inj (Option.some.inj hpushed)
    have hs := hreal.queue_injective (Option.some.inj hqueue)
    have hsrc : net.log[j].src = s.peer := by rw [hs, Side.peer_peer]
    rcases h.client s with ⟨session, hclient, hshows, h0⟩ | ⟨rfl, hclient, -⟩
    · obtain ⟨net', hstep, hanswer, hsim⟩ := h.deliver_message hdoc hab hnet hdel hlog hsrc hnow
        hsaid hclient hshows h0 hfew
      exact ⟨hanswer, net', .single hstep, hsim⟩
    · have hmem : net.log[j] ∈ net.log := List.getElem_mem _
      obtain ⟨hn, hpn⟩ := (Ratchet.counted_run hnet).log _ hmem
      have hnone : (w.client .bob).ratchet = none := by rw [hclient]; rfl
      obtain ⟨hanswer, hsame⟩ := answered_of_none hdoc (j + 1) net.log[j].key
        net.log[j].header iv (textMessage text now) generated (by omega) (by omega) hnone
      exact ⟨hanswer, net, .refl, h.deliver_of_same hsame⟩

/-! ## Before the handshake of `bob` -/

theorem Waiting.send (h : Waiting B P z w) (s : Side) (text : String) (iv : Bytes 12) (now : ℕ) :
    w.send B s text iv now = w := by
  cases s with
  | alice =>
    have hnone : (w.client .alice).ratchet = none := by rw [h.alice]; rfl
    exact World.send_of_error (sendMessage_of_none hnone text iv now)
  | bob =>
    obtain ⟨session, hclient, hshows⟩ := h.bob
    have hratchet : (w.client .bob).ratchet = some session := by rw [hclient]; rfl
    obtain ⟨e, he⟩ := sendMessage_of_waiting (B := B) hratchet hshows.cks text iv now
    exact World.send_of_error he

/-- The handshake of `bob` opens the conversation. -/
theorem Waiting.deliver (h : Waiting B P z w) (hdoc : B.Documented) (hreal : P.Real B)
    (hz : P.Secret B z) {s : Side} {i : ℕ} {payload : List Char} {generated : Priv}
    (hdel : w.Deliverable B P s i payload generated) :
    Answered w s i (w.result B s payload generated) ∧
      B.subtle.publicKey generated ≠ B.subtle.publicKey (P.keys .bob) ∧
      Sim B P z (w.deliver B s i payload generated)
        (Ratchet.Net.init B.subtle.kdf z.1 generated (P.keys .bob)) := by
  have hpushed := hdel.pushed
  have hi : i = 0 := by
    have hlt := (List.getElem?_eq_some_iff.mp hpushed).1
    rw [h.pushed, List.length_singleton] at hlt
    omega
  subst hi
  rw [h.pushed] at hpushed
  obtain ⟨hqueue, rfl⟩ := Prod.mk.inj (Option.some.inj hpushed)
  obtain rfl : s = .alice := (hreal.queue_injective (Option.some.inj hqueue)).symm
  obtain ⟨session, hrun, hshows⟩ := handleQueuePayload_handshake hdoc generated (P.queue .bob)
    (hreal.ready .alice) (hz .alice)
  have hresult : w.result B .alice (handshakeText B P .bob) generated =
      .ok (.registered (.registerPeer (some (P.queue .alice)) (some (P.queue .bob))))
        (P.talking B .alice session) := by
    rw [World.result, h.alice]
    exact hrun
  have hclients := World.client_deliver (i := 0) hresult
  have hshows' : Shows B.subtle session
      ((Ratchet.Net.init B.subtle.kdf z.1 generated (P.keys .bob)).party .alice) := by
    rw [hreal.roleParty_alice] at hshows
    exact hshows
  obtain ⟨sessionBob, hbob, hshowsBob⟩ := h.bob
  refine ⟨.inr ⟨fun m hm => ?_, .inr (by rw [h.said]; rfl)⟩, ?_, ?_⟩
  · rw [hresult] at hm
    cases hm
  · intro heq
    exact hdel.fresh (heq ▸ h.used)
  · constructor
    case client =>
      intro s'
      left
      rw [hclients]
      cases s' with
      | alice => exact ⟨session, rfl, hshows', fun hs => by cases hs⟩
      | bob => exact ⟨sessionBob, hbob, hshowsBob, fun _ => List.mem_cons_self⟩
    case first => exact .inr List.mem_cons_self
    case silent =>
      show w.said[0]? = _
      rw [h.said]
      rfl
    case log =>
      intro i wire hwire
      cases hwire
    case length =>
      show w.pushed.length = _ ∧ w.said.length = _
      rw [h.pushed, h.said]
      exact ⟨rfl, rfl⟩
    case done =>
      intro i hi
      cases hi
    case used => exact used_init List.mem_cons_self (List.mem_cons_of_mem _ h.used)

/-! ## Whole runs -/

theorem Genuine.send (h : Genuine P w) (s : Side) (text : String) (iv : Bytes 12) (now : ℕ) :
    Genuine P (w.send B s text iv now) := by
  rw [World.send]
  split
  · constructor
    case said =>
      exact fun t e he => Ratchet.getElem?_mono (List.prefix_append ..) (h.said t e he)
    case queue =>
      intro t e he
      obtain ⟨payload, hold⟩ := h.queue t e he
      exact ⟨payload, Ratchet.getElem?_mono (List.prefix_append ..) hold⟩
    case done => exact h.done
    case once => exact h.once
  · exact ⟨h.said, h.queue, h.done, h.once⟩

/-- The listeners of a client that answers with a message. -/
theorem World.heard_deliver_message {s : Side} {i : ℕ} {payload : List Char} {generated : Priv}
    {m : Json} (h : (w.result B s payload generated).value? = some (.message m)) :
    (w.deliver B s i payload generated).heard =
      Function.update w.heard s (w.heard s ++ [(i, m)]) := by
  rw [World.deliver, h]

theorem World.heard_deliver_other {s : Side} {i : ℕ} {payload : List Char} {generated : Priv}
    (h : ∀ m, (w.result B s payload generated).value? ≠ some (.message m)) :
    (w.deliver B s i payload generated).heard = w.heard := by
  rw [World.deliver]
  dsimp only
  split
  · rename_i m hm
    exact absurd hm (h m)
  · rfl

theorem Genuine.deliver (h : Genuine P w) {s : Side} {i : ℕ} {payload : List Char}
    {generated : Priv} (hdel : w.Deliverable B P s i payload generated)
    (hanswer : Answered w s i (w.result B s payload generated)) :
    Genuine P (w.deliver B s i payload generated) := by
  rcases hanswer with ⟨m, hm, hsaid⟩ | ⟨hother, -⟩
  · have hheard := World.heard_deliver_message (i := i) hm
    -- what is new at side `s` is the message of payload `i`
    have hcases : ∀ t, ∀ e ∈ (w.deliver B s i payload generated).heard t,
        e ∈ w.heard t ∨ t = s ∧ e = (i, m) := by
      intro t e he
      rw [hheard] at he
      rcases Side.eq_or_eq_peer s t with rfl | rfl
      · rw [Function.update_self] at he
        rcases List.mem_append.mp he with he | he
        · exact .inl he
        · exact .inr ⟨rfl, List.mem_singleton.mp he⟩
      · rw [Function.update_of_ne (Side.peer_ne s)] at he
        exact .inl he
    constructor
    case said =>
      intro t e he
      rcases hcases t e he with hold | ⟨rfl, rfl⟩
      · exact h.said t e hold
      · exact hsaid
    case queue =>
      intro t e he
      rcases hcases t e he with hold | ⟨rfl, rfl⟩
      · exact h.queue t e hold
      · exact ⟨payload, hdel.pushed⟩
    case done =>
      intro t e he
      rcases hcases t e he with hold | ⟨rfl, rfl⟩
      · exact List.mem_cons_of_mem _ (h.done t e hold)
      · exact List.mem_cons_self
    case once =>
      intro t
      rw [hheard]
      rcases Side.eq_or_eq_peer s t with rfl | rfl
      · rw [Function.update_self, List.map_append]
        refine (h.once t).append (List.nodup_singleton i) fun j hj hj' => ?_
        obtain rfl := List.mem_singleton.mp hj'
        obtain ⟨e, he, rfl⟩ := List.mem_map.mp hj
        exact hdel.once (h.done t e he)
      · rw [Function.update_of_ne (Side.peer_ne s)]
        exact h.once _
  · have hheard := World.heard_deliver_other (i := i) hother
    refine ⟨?_, ?_, ?_, ?_⟩
    · rw [hheard]
      exact h.said
    · rw [hheard]
      exact h.queue
    · rw [hheard]
      exact fun t e he => List.mem_cons_of_mem _ (h.done t e he)
    · rw [hheard]
      exact h.once

variable (B P) in
/-- The two clients wait for the handshake of `bob`, or follow the abstract network. -/
def Started (z : Bytes 32) (w : World Priv) : Prop :=
  Waiting B P z w ∨ ∃ a net, B.subtle.publicKey a ≠ B.subtle.publicKey (P.keys .bob) ∧
    Relation.ReflTransGen (Ratchet.OnceStep B.subtle.kdf)
      (Ratchet.Net.init B.subtle.kdf z.1 a (P.keys .bob)) net ∧ Sim B P z w net

theorem Started.send (h : Started B P z w) (hreal : P.Real B) {s : Side} {text : String}
    {iv : Bytes 12} {now : ℕ} (hnow : now ≤ 2 ^ 53) (hfew : w.pushed.length ≤ 2 ^ 53) :
    Started B P z (w.send B s text iv now) := by
  rcases h with hwait | ⟨a, net, hab, hnet, hsim⟩
  · left
    rw [hwait.send]
    exact hwait
  · right
    rcases hsim.send hreal (Ratchet.counted_run hnet) hnow hfew with hsame | ⟨net', hstep, hsim'⟩
    · rw [hsame]
      exact ⟨a, net, hab, hnet, hsim⟩
    · exact ⟨a, net', hab, hnet.tail hstep, hsim'⟩

theorem Started.deliver (h : Started B P z w) (hdoc : B.Documented) (hreal : P.Real B)
    (hz : P.Secret B z) {s : Side} {i : ℕ} {payload : List Char} {generated : Priv}
    (hdel : w.Deliverable B P s i payload generated) (hfew : w.pushed.length ≤ 2 ^ 53) :
    Answered w s i (w.result B s payload generated) ∧
      Started B P z (w.deliver B s i payload generated) := by
  rcases h with hwait | ⟨a, net, hab, hnet, hsim⟩
  · obtain ⟨hanswer, hne, hsim⟩ := hwait.deliver hdoc hreal hz hdel
    exact ⟨hanswer, .inr ⟨generated, _, hne, .refl, hsim⟩⟩
  · obtain ⟨hanswer, net', hrun, hsim'⟩ := hsim.deliver hdoc hreal hz hab hnet hdel hfew
    exact ⟨hanswer, .inr ⟨a, net', hab, hnet.trans hrun, hsim'⟩⟩

/-- A client that accepts the link of the other. -/
theorem start_started (hdoc : B.Documented) (hreal : P.Real B) (hz : P.Secret B z) (s : Side)
    {a : Priv} (hab : B.subtle.publicKey a ≠ B.subtle.publicKey (P.keys .bob)) :
    ∃ w₀, World.start B P s a = .ok w₀ ∧ Started B P z w₀ ∧ Genuine P w₀ := by
  obtain ⟨session, hlink, haccept, hshows⟩ := acceptInvite_link hdoc a
    (hreal.ready s.peer) (hreal.ready s) (hreal.url s.peer) (hz s)
  have hstart : World.start B P s a = .ok
      { client := Function.update (P.seat B) s (P.talking B s session)
        pushed := [(some (P.queue s.peer), handshakeText B P s)]
        said := [none]
        heard := fun _ => []
        done := []
        used := [B.subtle.publicKey a, B.subtle.publicKey (P.keys .alice),
          B.subtle.publicKey (P.keys .bob)] } := by
    have hlink' : getInviteLink B (P.seat B s.peer) = .ok (inviteLink B (P.url s.peer)
        (P.queue s.peer) (exported B (P.keys s.peer))) := hlink
    rw [World.start, hlink', EStateM.except_ok_bind]
    rw [show acceptInvite B (inviteLink B (P.url s.peer) (P.queue s.peer)
      (exported B (P.keys s.peer))) a (P.seat B s) = _ from haccept]
    rfl
  refine ⟨_, hstart, ?_, ?_⟩
  · cases s with
    | alice =>
      right
      refine ⟨a, _, hab, .refl, ?_⟩
      constructor
      case client =>
        intro s'
        cases s' with
        | alice =>
          left
          rw [hreal.roleParty_alice] at hshows
          exact ⟨session, rfl, hshows, fun hs => by cases hs⟩
        | bob => exact .inr ⟨rfl, rfl, rfl⟩
      case first => exact .inl rfl
      case silent => rfl
      case log =>
        intro i wire hwire
        cases hwire
      case length => exact ⟨rfl, rfl⟩
      case done =>
        intro i hi
        cases hi
      case used =>
        exact used_init List.mem_cons_self
          (List.mem_cons_of_mem _ (List.mem_cons_of_mem _ List.mem_cons_self))
    | bob =>
      left
      rw [hreal.roleParty_bob] at hshows
      exact ⟨rfl, ⟨session, rfl, hshows⟩, rfl, rfl,
        List.mem_cons_of_mem _ (List.mem_cons_of_mem _ List.mem_cons_self)⟩
  · exact ⟨fun _ _ he => (by cases he), fun _ _ he => (by cases he), fun _ _ he => (by cases he),
      fun _ => List.nodup_nil⟩

theorem Step.length_le {w' : World Priv} (h : Step B P w w') :
    w.pushed.length ≤ w'.pushed.length := by
  cases h with
  | send s text iv now hnow =>
    rw [World.send]
    split
    · rw [List.length_append]
      exact Nat.le_add_right ..
    · exact Nat.le_refl _
  | deliver s i payload generated hdel => exact Nat.le_refl _

theorem run_started (hdoc : B.Documented) (hreal : P.Real B) (hz : P.Secret B z)
    {w₀ : World Priv} (hstart : Started B P z w₀) (hgenuine : Genuine P w₀)
    (hrun : Relation.ReflTransGen (Step B P) w₀ w) (hfew : w.pushed.length ≤ 2 ^ 53) :
    Started B P z w ∧ Genuine P w := by
  induction hrun with
  | refl => exact ⟨hstart, hgenuine⟩
  | tail _ hstep ih =>
    have hfew' := hstep.length_le.trans hfew
    obtain ⟨hs, hg⟩ := ih hfew'
    cases hstep with
    | send s text iv now hnow => exact ⟨hs.send hreal (by omega) hfew', hg.send s text iv now⟩
    | deliver s i payload generated hdel =>
      obtain ⟨hanswer, hs'⟩ := hs.deliver hdoc hreal hz hdel hfew'
      exact ⟨hs', hg.deliver hdel hanswer⟩

/-- **Conversation.** Whichever client accepts the link of the other, and in
whatever order payloads are handed over, each at most once: the listeners of a
client get nothing but what was said to it, each message once, and they get the
message of every payload that comes to a client with a session. -/
theorem conversation_faithful (hdoc : B.Documented) (hreal : P.Real B) (s₀ : Side) {a : Priv}
    (hab : B.subtle.publicKey a ≠ B.subtle.publicKey (P.keys .bob)) :
    ∃ w₀, World.start B P s₀ a = .ok w₀ ∧
      ∀ w, Relation.ReflTransGen (Step B P) w₀ w → w.pushed.length ≤ 2 ^ 53 →
        Genuine P w ∧
        ∀ (s : Side) (i : ℕ) (payload : List Char) (generated : Priv) (m : Json),
          w.Deliverable B P s i payload generated → (w.client s).ratchet ≠ none →
          w.said[i]? = some (some m) →
          (w.deliver B s i payload generated).heard =
            Function.update w.heard s (w.heard s ++ [(i, m)]) := by
  obtain ⟨z, hz⟩ := exists_secret (P := P) hdoc
  obtain ⟨w₀, hstart, hstarted, hgenuine⟩ := start_started hdoc hreal hz s₀ hab
  refine ⟨w₀, hstart, fun w hrun hfew => ?_⟩
  obtain ⟨hs, hg⟩ := run_started hdoc hreal hz hstarted hgenuine hrun hfew
  refine ⟨hg, fun s i payload generated m hdel hratchet hsaid => ?_⟩
  obtain ⟨hanswer, -⟩ := hs.deliver hdoc hreal hz hdel hfew
  rcases hanswer with ⟨m', hm', hsaid'⟩ | ⟨-, hnone | hsilent⟩
  · rw [hsaid] at hsaid'
    obtain rfl := Option.some.inj (Option.some.inj hsaid')
    exact World.heard_deliver_message hm'
  · exact absurd hnone hratchet
  · rw [hsaid] at hsilent
    cases hsilent

end

/-- Primitives by small formulas; a ciphertext is opened with its own key only. -/
def sampleBrowser : Browser UInt8 where
  subtle :=
    { sampleSubtle with
      gcmEncrypt key iv plaintext := key ++ iv ++ plaintext
      gcmDecrypt key iv ciphertext :=
        if (key ++ iv).isPrefixOf ciphertext then some (ciphertext.drop (key ++ iv).length)
        else none }
  numerals := { float := fun _ => [], value := fun text => (String.ofList text).toInt?.map .int }
  malformed _ := ""

theorem sampleBrowser_documented : sampleBrowser.Documented where
  agrees x y := ⟨_, rfl, congrArg (fun b => some (Bytes.replicate 32 b)) (UInt8.add_comm y x)⟩
  opens key iv plaintext := by
    show (if (key ++ iv).isPrefixOf (key ++ iv ++ plaintext) then
      some ((key ++ iv ++ plaintext).drop (key ++ iv).length) else none) = some plaintext
    rw [if_pos (List.isPrefixOf_iff_prefix.mpr (List.prefix_append _ _)), List.drop_left]
  integers n _ := by
    show (String.ofList (toString n).toList).toInt?.map Json.int = some (.int n)
    rw [String.ofList_toList, show toString n = n.repr from rfl, Int.toInt?_repr]
    rfl

/-- `alice` with key 1 and `bob` with key 2. -/
def sampleParties : Parties UInt8 where
  url _ := "wss://relay"
  keys
    | .alice => 1
    | .bob => 2
  queue
    | .alice => "qa"
    | .bob => "qb"

theorem sampleParties_real : sampleParties.Real sampleBrowser where
  url s := by cases s <;> decide +kernel
  named s := by cases s <;> decide
  queues := by decide
  order := by decide +kernel

theorem conversation_faithful_sample :
    ∃ w₀, World.start sampleBrowser sampleParties .alice 3 = .ok w₀ ∧
      ∀ w, Relation.ReflTransGen (Step sampleBrowser sampleParties) w₀ w →
        w.pushed.length ≤ 2 ^ 53 →
        Genuine sampleParties w ∧
        ∀ (s : Side) (i : ℕ) (payload : List Char) (generated : UInt8) (m : Json),
          w.Deliverable sampleBrowser sampleParties s i payload generated →
          (w.client s).ratchet ≠ none → w.said[i]? = some (some m) →
          (w.deliver sampleBrowser s i payload generated).heard =
            Function.update w.heard s (w.heard s ++ [(i, m)]) :=
  conversation_faithful sampleBrowser_documented sampleParties_real .alice (by decide)

end AnonyMus.TypeScript
