import AnonyMus.Android.Outsider
import AnonyMus.Android.Shown

/-!
# Android clients — timestamps name messages

Two clients that push payloads to each other, over a relay that may lose and
reorder them. A receipt, an edit, a deletion or a reaction names the timestamp of
the message it is about.

* `Pair`, `apply` — the clients, the payloads on their way, and the texts so far;
* `SoundAt` — a timestamp names the same text at both clients;
* `timestamps_match` — so it is, if the clock does not advance while a text is
  sent and no reading of it is used twice.
-/

namespace AnonyMus.Android.Chat.Timestamps

open Interleave

variable {Text Base64 : Type}

/-! ## Two clients -/

/-- A text that was sent: the timestamp in its payload, and the ids of the message that the sender
shows and of its copy. -/
structure SentText where
  key : ℤ
  ids : Bool → Option ℕ

/-- Client `i` has a message of the text. -/
def SentText.tell (e : SentText) (i : Bool) (id : ℕ) : SentText :=
  { e with ids := Function.update e.ids i (some id) }

/-- A payload on its way, and the number of the text in it. -/
structure Parcel (Base64 : Type) where
  payload : Payload Base64
  text    : Option ℕ

structure Pair (Base64 : Type) where
  clients : Bool → ChatManager Base64
  /-- What each client has pushed and the other one has not received. -/
  wires   : Bool → List (Parcel Base64)
  /-- For the proofs: the texts, and the readings of the clock that messages were shown with. -/
  texts   : List SentText
  stamps  : Bool → List ℤ

def Pair.init (clock : Bool → ℕ → ℤ) (nonces : Bool → ℕ → List UInt8) : Pair Base64 where
  clients i := .init (clock i) (nonces i)
  wires _ := []
  texts := []
  stamps _ := []

/-- The payloads that are pushed. -/
def pushes (emitted : List (Emit Base64)) : List (Payload Base64) :=
  emitted.filterMap fun
    | .pushQueue _ payload => some payload
    | _ => none

section

variable (P : CryptoProvider Text Base64)

namespace Pair

variable (sys : Pair Base64)

/-- Client `i` handles an input; what it pushes is on its way as `text`, and `texts` are the texts
afterwards. -/
def turn (i : Bool) (input : Input Base64) (text : Option ℕ) (texts : List SentText) :
    Pair Base64 :=
  let s := sys.clients i
  let s' := s.after P input
  { clients := Function.update sys.clients i { s' with emitted := [] }
    wires := Function.update sys.wires i
      (sys.wires i ++ (pushes s'.emitted).map fun payload => ⟨payload, text⟩)
    texts := texts
    stamps := if s.shows P input then
      Function.update sys.stamps i (sys.stamps i ++ [s.clock 0]) else sys.stamps }

section

variable (i : Bool) (input : Input Base64) (text : Option ℕ) (texts : List SentText)

theorem clients_turn : (sys.turn P i input text texts).clients i =
    { (sys.clients i).after P input with emitted := [] } := Function.update_self ..

theorem clients_turn_not : (sys.turn P i input text texts).clients (!i) = sys.clients (!i) :=
  Function.update_of_ne (Bool.not_not_eq.mpr rfl) ..

theorem wires_turn : (sys.turn P i input text texts).wires i = sys.wires i ++
    (pushes ((sys.clients i).after P input).emitted).map fun payload => ⟨payload, text⟩ :=
  Function.update_self ..

theorem wires_turn_not : (sys.turn P i input text texts).wires (!i) = sys.wires (!i) :=
  Function.update_of_ne (Bool.not_not_eq.mpr rfl) ..

theorem stamps_turn : (sys.turn P i input text texts).stamps i =
    if (sys.clients i).shows P input then sys.stamps i ++ [(sys.clients i).clock 0]
    else sys.stamps i := by
  unfold turn
  dsimp only
  split
  · exact Function.update_self ..
  · rfl

theorem stamps_turn_not : (sys.turn P i input text texts).stamps (!i) = sys.stamps (!i) := by
  unfold turn
  dsimp only
  split
  · exact Function.update_of_ne (Bool.not_not_eq.mpr rfl) ..
  · rfl

end

/-- A text of client `i`, which is noted if it is pushed. -/
def send (i : Bool) (text : String) : Pair Base64 :=
  let s := sys.clients i
  let sent := SentText.tell ⟨s.clock 0, fun _ => none⟩ i s.nextId
  if pushes (s.after P (.sendPrivateMessage text)).emitted = [] then
    sys.turn P i (.sendPrivateMessage text) none sys.texts
  else sys.turn P i (.sendPrivateMessage text) (some sys.texts.length) (sys.texts ++ [sent])

/-- The copy of a text, if the client can read it. -/
def copied (i : Bool) (parcel : Parcel Base64) : List SentText :=
  match parcel.text, parcel.payload with
  | some n, .message iv ciphertext _ =>
    match (sys.clients i).opened P iv ciphertext with
    | none => sys.texts
    | some _ => sys.texts.modify n (·.tell i (sys.clients i).nextId)
  | _, _ => sys.texts

end Pair

/-- A client does something, or one of the payloads on their way to it arrives or is lost. -/
inductive Event (Base64 : Type)
  | act (i : Bool) (input : Input Base64)
  | deliver (i : Bool) (n : ℕ) (queueId : String)
  | lose (i : Bool) (n : ℕ)

def apply (sys : Pair Base64) : Event Base64 → Option (Pair Base64)
  | .act _ (.queuePayload _ _) => none
  | .act i (.sendPrivateMessage text) => some (sys.send P i text)
  | .act i input => some (sys.turn P i input none sys.texts)
  | .deliver i n queueId =>
    match (sys.wires (!i))[n]? with
    | none => none
    | some parcel =>
      some ({ sys with
        wires := Function.update sys.wires (!i) ((sys.wires (!i)).eraseIdx n) }.turn P i
          (.queuePayload queueId parcel.payload) none (sys.copied P i parcel))
  | .lose i n =>
    some { sys with wires := Function.update sys.wires (!i) ((sys.wires (!i)).eraseIdx n) }

/-- No message of client `i` and no text has this timestamp. -/
def Pair.Free (sys : Pair Base64) (i : Bool) (t : ℤ) : Prop :=
  t ∉ sys.stamps i ∧ ∀ e ∈ sys.texts, e.key ≠ t

/-- The clock shows a new time whenever a message is shown with it, and shows it twice for a text
that is sent. -/
def Unambiguous (sys : Pair Base64) : Event Base64 → Prop
  | .act i (.sendPrivateMessage text) =>
    let s := sys.clients i
    s.shows P (.sendPrivateMessage text) →
      s.clock 1 = s.clock 0 ∧ sys.Free i (s.clock 0) ∧ sys.Free (!i) (s.clock 0)
  | .act i input =>
    (sys.clients i).shows P input → sys.Free i ((sys.clients i).clock 0)
  | .deliver i n queueId => ∀ parcel ∈ (sys.wires (!i))[n]?,
      (sys.clients i).shows P (.queuePayload queueId parcel.payload) →
        sys.Free i ((sys.clients i).clock 0)
  | .lose _ _ => True

end

/-! ## What a client knows of the texts -/

/-- A message of client `i` has the timestamp of a text exactly if it is that text, and no two
messages of a conversation have one timestamp. -/
structure Knows (texts : List SentText) (stamps : List ℤ) (i : Bool) (s : ChatManager Base64) :
    Prop where
  below   : ∀ partner, ∀ k ∈ s.keys partner, k.1 < s.nextId
  stamped : ∀ partner, ∀ k ∈ s.keys partner, k.2 ∈ stamps ∨ ∃ e ∈ texts, e.key = k.2
  matched : ∀ e ∈ texts, ∀ partner, ∀ k ∈ s.keys partner, k.2 = e.key ↔ e.ids i = some k.1
  nodup   : ∀ partner, ((s.keys partner).map Prod.snd).Nodup

/-- The messages of the texts that client `i` has been told have ids of its own. -/
def Told (texts : List SentText) (i : Bool) (nextId : ℕ) : Prop :=
  ∀ e ∈ texts, ∀ id, e.ids i = some id → id < nextId

section

variable {texts texts' : List SentText} {stamps stamps' : List ℤ} {i : Bool}
  {s s' : ChatManager Base64} {t : ℤ}

theorem Told.mono {n n' : ℕ} (h : Told texts i n) (hn : n ≤ n') : Told texts i n' :=
  fun e he id hid => Nat.lt_of_lt_of_le (h e he id hid) hn

theorem Told.ne {n : ℕ} (h : Told texts i n) {e : SentText} (he : e ∈ texts) :
    e.ids i ≠ some n :=
  fun hid => Nat.lt_irrefl _ (h e he n hid)

theorem Adds.mem {new : List (ℕ × ℤ)} (h : Adds new s s') {partner : String} {k : ℕ × ℤ}
    (hk : k ∈ s'.keys partner) : k ∈ s.keys partner ∨ k ∈ new :=
  List.mem_append.mp ((h.keys partner).subset hk)

theorem Knows.quiet (h : Knows texts stamps i s) (hadds : Adds [] s s')
    (hstamps : stamps ⊆ stamps') : Knows texts stamps' i s' := by
  have hmem {partner : String} {k : ℕ × ℤ} (hk : k ∈ s'.keys partner) : k ∈ s.keys partner :=
    (Adds.mem hadds hk).resolve_right List.not_mem_nil
  refine ⟨fun partner k hk => ?_, fun partner k hk => ?_,
    fun e he partner k hk => h.matched e he partner k (hmem hk), fun partner => ?_⟩
  · exact Nat.lt_of_lt_of_le (h.below partner k (hmem hk)) hadds.nextId
  · exact (h.stamped partner k (hmem hk)).imp_left (hstamps ·)
  · have hsub := (hadds.keys partner).map Prod.snd
    rw [List.append_nil] at hsub
    exact (h.nodup partner).sublist hsub

/-- The texts may change as long as the client's messages stay the ones they were. -/
theorem Knows.retell (h : Knows texts stamps i s)
    (hkept : ∀ e ∈ texts, ∃ e' ∈ texts', e'.key = e.key)
    (hmatched : ∀ e' ∈ texts', ∀ partner, ∀ k ∈ s.keys partner, k.2 = e'.key ↔ e'.ids i = some k.1) :
    Knows texts' stamps i s := by
  refine ⟨h.below, fun partner k hk => ?_, hmatched, h.nodup⟩
  refine (h.stamped partner k hk).imp_right ?_
  rintro ⟨e, he, hkey⟩
  obtain ⟨e', he', hkey'⟩ := hkept e he
  exact ⟨e', he', hkey'.trans hkey⟩

/-- One more message, with a timestamp that the client's other messages do not have. -/
theorem Knows.add (h : Knows texts stamps i s) (hadds : Adds [(s.nextId, t)] s s')
    (hother : ∀ partner, ∀ k ∈ s.keys partner, k.2 ≠ t) (hstamps : stamps ⊆ stamps')
    (hstamped : t ∈ stamps' ∨ ∃ e ∈ texts, e.key = t)
    (hmatched : ∀ e ∈ texts, t = e.key ↔ e.ids i = some s.nextId) : Knows texts stamps' i s' := by
  have hcases {partner : String} {k : ℕ × ℤ} (hk : k ∈ s'.keys partner) :
      k ∈ s.keys partner ∨ k = (s.nextId, t) :=
    (Adds.mem hadds hk).imp_right List.mem_singleton.mp
  refine ⟨fun partner k hk => ?_, fun partner k hk => ?_, fun e he partner k hk => ?_,
    fun partner => ?_⟩
  · rcases hcases hk with hold | rfl
    · exact Nat.lt_of_lt_of_le (h.below partner k hold) hadds.nextId
    · exact (hadds.ids _ (List.mem_singleton.mpr rfl)).2
  · rcases hcases hk with hold | rfl
    · exact (h.stamped partner k hold).imp_left (hstamps ·)
    · exact hstamped
  · rcases hcases hk with hold | rfl
    · exact h.matched e he partner k hold
    · exact hmatched e he
  · have hsub := (hadds.keys partner).map Prod.snd
    refine List.Nodup.sublist hsub ?_
    rw [List.map_append]
    refine (h.nodup partner).append (List.nodup_singleton _) fun x hx hnew => ?_
    obtain ⟨k, hk, rfl⟩ := List.mem_map.mp hx
    exact hother partner k hk (List.mem_singleton.mp hnew)

/-- A time that no message of the client and no text has. -/
theorem Knows.unused (h : Knows texts stamps i s) (hstamps : t ∉ stamps)
    (htexts : ∀ e ∈ texts, e.key ≠ t) (partner : String) : ∀ k ∈ s.keys partner, k.2 ≠ t := by
  rintro k hk rfl
  rcases h.stamped partner k hk with hstamp | ⟨e, he, hkey⟩
  · exact hstamps hstamp
  · exact htexts e he hkey

/-- A message with a new time that is none of the texts. -/
theorem Knows.stamp (h : Knows texts stamps i s) (htold : Told texts i s.nextId)
    (hadds : Adds [(s.nextId, t)] s s') (hfree : t ∉ stamps) (htexts : ∀ e ∈ texts, e.key ≠ t) :
    Knows texts (stamps ++ [t]) i s' := by
  refine h.add hadds (h.unused hfree htexts) (List.subset_append_left _ _) (.inl ?_) fun e he => ?_
  · exact List.mem_append_right _ (List.mem_singleton.mpr rfl)
  · exact ⟨fun heq => absurd heq.symm (htexts e he), fun hid => absurd hid (htold.ne he)⟩

/-- A new text, of which client `i` has no message yet or is about to show one. -/
theorem Knows.newText (h : Knows texts stamps i s) {e : SentText} (hfree : e.key ∉ stamps)
    (htexts : ∀ e' ∈ texts, e'.key ≠ e.key) (hids : ∀ id, e.ids i = some id → s.nextId ≤ id) :
    Knows (texts ++ [e]) stamps i s := by
  refine h.retell (fun e' he' => ⟨e', List.mem_append_left _ he', rfl⟩) fun e' he' partner k hk => ?_
  rcases List.mem_append.mp he' with hold | hnew
  · exact h.matched e' hold partner k hk
  · rw [List.mem_singleton.mp hnew]
    refine ⟨fun heq => absurd heq (h.unused hfree htexts partner k hk), fun hid => ?_⟩
    exact absurd (h.below partner k hk) (Nat.not_lt.mpr (hids k.1 hid))

end

/-! ## Payloads on their way -/

/-- A text that the receiver has no copy of yet, or a note. -/
def Honest (P : CryptoProvider Text Base64) (texts : List SentText) (i : Bool)
    (parcel : Parcel Base64) : Prop :=
  match parcel.text with
  | none => Note P parcel.payload
  | some n => ∃ e iv ciphertext ephemeral content, texts[n]? = some e ∧ e.ids i ≠ none ∧
      e.ids (!i) = none ∧ parcel.payload = .message iv ciphertext ephemeral ∧
        Made P (.text content (some e.key)) iv ciphertext

structure Inv (P : CryptoProvider Text Base64) (sys : Pair Base64) : Prop where
  knows    : ∀ i, Knows sys.texts (sys.stamps i) i (sys.clients i)
  told     : ∀ i, Told sys.texts i (sys.clients i).nextId
  distinct : (sys.texts.map SentText.key).Nodup
  silent   : ∀ i, (sys.clients i).emitted = []
  honest   : ∀ i, ∀ parcel ∈ sys.wires i, Honest P sys.texts i parcel
  once     : ∀ i, ((sys.wires i).filterMap Parcel.text).Nodup

section

variable {P : CryptoProvider Text Base64} {sys : Pair Base64} {i : Bool}

theorem opened_made (hP : P.Genuine) (hread : ∀ content, P.read (P.write content) = some content)
    {content content' : Content} {iv ciphertext : Base64} (hmade : Made P content iv ciphertext)
    {s : ChatManager Base64} (h : s.opened P iv ciphertext = some content') : content' = content := by
  obtain ⟨key, role, seqNum, sessionId, nonce, hencrypted⟩ := hmade
  unfold ChatManager.opened at h
  obtain ⟨recvChainKey, -, h⟩ := Option.bind_eq_some_iff.mp h
  obtain ⟨theirRole, -, h⟩ := Option.bind_eq_some_iff.mp h
  obtain ⟨decrypted, hdecrypted, h⟩ := Option.bind_eq_some_iff.mp h
  have htext := hP key _ role seqNum sessionId nonce _ hencrypted _ _ _ _ _ hdecrypted
  rw [htext, hread] at h
  exact (Option.some.inj h).symm

theorem showsIf_note (hP : P.Genuine)
    (hread : ∀ content, P.read (P.write content) = some content) {payload : Payload Base64}
    (hnote : Note P payload) (queueId : String) (s : ChatManager Base64) :
    ShowsIf (s.shows P (.queuePayload queueId payload)) (handle P (.queuePayload queueId payload)) s := by
  have hone {x : Handler Base64 Unit} (hx : ShowsOne x) : ShowsIf true x s :=
    (hx s).imp_right fun h => ⟨rfl, h⟩
  cases payload with
  | handshake replyQueue publicKey => exact hone (showsOne_onHandshake P queueId replyQueue publicKey)
  | queueUpdate newQueue => exact hone (showsOne_onQueueUpdate newQueue)
  | message iv ciphertext ephemeral =>
    obtain ⟨content, hnote, hmade⟩ := hnote
    have hopened := onMessage_opened P iv ciphertext s
    unfold ShowsIf ChatManager.shows
    dsimp only
    rcases hcase : s.opened P iv ciphertext with _ | content'
    · rw [hcase] at hopened
      exact hopened.imp_right fun h => ⟨rfl, h⟩
    · obtain rfl := opened_made hP hread hmade hcase
      rw [hcase] at hopened
      obtain ⟨s', hshown, hstate⟩ := hopened
      obtain ⟨hshows, hmute⟩ := onContent_note P hnote
      have hid : s'.nextId = s.nextId := congrArg (·.2.2.1) hshown
      have hclock : s'.clock = s.clock := congrArg (·.2.2.2) hshown
      rw [show (handle P (.queuePayload queueId (.message iv ciphertext ephemeral)) s).state = _
        from hstate]
      rcases hcontent : content'.shows with _ | _
      · exact .inl ((hmute hcontent s').congr hshown.symm)
      · rw [← hid, ← hclock]
        exact (hshows s').imp (·.congr hshown.symm) fun h => ⟨hcontent, h.congr hshown.symm⟩
  | batch events => exact hnote.elim
  | other => exact hnote.elim
  | broken => exact hnote.elim

theorem Inv.erase (h : Inv P sys) (j : Bool) (n : ℕ) : Inv P { sys with
    wires := Function.update sys.wires j ((sys.wires j).eraseIdx n) } := by
  have hsub (k : Bool) : (Function.update sys.wires j ((sys.wires j).eraseIdx n) k).Sublist
      (sys.wires k) := by
    by_cases hk : k = j
    · rw [hk, Function.update_self]
      exact List.eraseIdx_sublist _ _
    · rw [Function.update_of_ne hk]
  exact ⟨h.knows, h.told, h.distinct, h.silent,
    fun k parcel hparcel => h.honest k parcel ((hsub k).subset hparcel),
    fun k => (h.once k).sublist ((hsub k).filterMap _)⟩

theorem note_of_pushes {s : ChatManager Base64} (h : Tidy P s) {payload : Payload Base64}
    (hpayload : payload ∈ pushes s.emitted) : Note P payload := by
  obtain ⟨e, he, hpush⟩ := List.mem_filterMap.mp hpayload
  cases e with
  | createQueue => cases hpush
  | registerPeer myQueue peerQueue => cases hpush
  | pushQueue queueId payload' =>
    obtain rfl := Option.some.inj hpush
    exact h queueId payload' he

/-- After a turn of client `i`: what it shows, what it pushes, and what changed of the texts. -/
theorem Inv.turn (h : Inv P sys) {input : Input Base64} {text : Option ℕ} {texts : List SentText}
    (hknows : Knows texts ((sys.turn P i input text texts).stamps i) i
      ((sys.clients i).after P input))
    (hother : Knows texts (sys.stamps (!i)) (!i) (sys.clients (!i)))
    (htold : Told texts i ((sys.clients i).after P input).nextId)
    (htold' : Told texts (!i) (sys.clients (!i)).nextId)
    (hdistinct : (texts.map SentText.key).Nodup)
    (hkept : ∀ j, ∀ parcel ∈ sys.wires j, Honest P texts j parcel)
    (hpushed : ∀ payload ∈ pushes ((sys.clients i).after P input).emitted,
      Honest P texts i ⟨payload, text⟩)
    (honce : (((sys.turn P i input text texts).wires i).filterMap Parcel.text).Nodup) :
    Inv P (sys.turn P i input text texts) := by
  -- one client moves and the other stays, so each field has two cases
  have hsides {p : Bool → Prop} (hi : p i) (hnot : p (!i)) (j : Bool) : p j := by
    by_cases hj : j = i
    · rw [hj]
      exact hi
    · rw [Bool.eq_not_of_ne hj]
      exact hnot
  refine ⟨hsides ?_ ?_, hsides ?_ ?_, hdistinct, hsides ?_ ?_, hsides ?_ ?_, hsides honce ?_⟩
  · rw [sys.clients_turn]
    exact ⟨hknows.below, hknows.stamped, hknows.matched, hknows.nodup⟩
  · rw [sys.clients_turn_not, sys.stamps_turn_not]
    exact hother
  · rw [sys.clients_turn]
    exact htold
  · rw [sys.clients_turn_not]
    exact htold'
  · rw [sys.clients_turn]
  · rw [sys.clients_turn_not]
    exact h.silent (!i)
  · rw [sys.wires_turn]
    intro parcel hparcel
    rcases List.mem_append.mp hparcel with hold | hnew
    · exact hkept i parcel hold
    · obtain ⟨payload, hpayload, rfl⟩ := List.mem_map.mp hnew
      exact hpushed payload hpayload
  · rw [sys.wires_turn_not]
    exact hkept (!i)
  · rw [sys.wires_turn_not]
    exact h.once (!i)

theorem unlabelled (payloads : List (Payload Base64)) :
    (payloads.map fun payload => (⟨payload, none⟩ : Parcel Base64)).filterMap Parcel.text = [] := by
  rw [List.filterMap_map]
  exact List.filterMap_eq_nil_iff.mpr fun _ _ => rfl

/-- A turn that brings no text. -/
theorem Inv.turn_note (h : Inv P sys) {input : Input Base64}
    (hshows : ShowsIf ((sys.clients i).shows P input) (handle P input) (sys.clients i))
    (htidy : Tidy P ((sys.clients i).after P input))
    (hfree : (sys.clients i).shows P input → sys.Free i ((sys.clients i).clock 0)) :
    Inv P (sys.turn P i input none sys.texts) := by
  refine h.turn ?_ (h.knows (!i)) ?_ (h.told (!i)) h.distinct h.honest
    (fun payload hpayload => note_of_pushes htidy hpayload) ?_
  · rw [sys.stamps_turn]
    rcases hshows with hnone | ⟨hshown, hone⟩
    · refine (h.knows i).quiet hnone ?_
      split
      · exact List.subset_append_left _ _
      · exact fun _ hx => hx
    · rw [if_pos hshown]
      exact (h.knows i).stamp (h.told i) hone (hfree hshown).1 (hfree hshown).2
  · exact (h.told i).mono (hshows.elim (·.nextId) (·.2.nextId))
  · rw [sys.wires_turn, List.filterMap_append, unlabelled, List.append_nil]
    exact h.once i

theorem distinct_ne {texts : List SentText} (h : (texts.map SentText.key).Nodup) {n m : ℕ}
    {e e' : SentText} (hn : texts[n]? = some e) (hm : texts[m]? = some e') (hne : m ≠ n) :
    e.key ≠ e'.key := by
  intro heq
  have hn' : (texts.map SentText.key)[n]? = some e.key := by rw [List.getElem?_map, hn]; rfl
  have hm' : (texts.map SentText.key)[m]? = some e.key := by rw [List.getElem?_map, hm, heq]; rfl
  have hlt : n < (texts.map SentText.key).length := (List.getElem?_eq_some_iff.mp hn').1
  exact hne ((List.getElem?_inj hlt h).mp (hn'.trans hm'.symm)).symm

theorem mem_modify {α : Type} {l : List α} {n : ℕ} {a : α} (hn : l[n]? = some a) {f : α → α}
    {b : α} (hb : b ∈ l.modify n f) : (∃ m, m ≠ n ∧ l[m]? = some b) ∨ b = f a := by
  obtain ⟨m, hm⟩ := List.mem_iff_getElem?.mp hb
  by_cases hmn : m = n
  · right
    rw [hmn, List.getElem?_modify_eq, hn] at hm
    exact (Option.some.inj hm).symm
  · left
    rw [List.getElem?_modify_ne f l (Ne.symm hmn)] at hm
    exact ⟨m, hmn, hm⟩

theorem ids_tell (e : SentText) (i : Bool) (id : ℕ) : (e.tell i id).ids i = some id :=
  Function.update_self ..

theorem ids_tell_not (e : SentText) (i : Bool) (id : ℕ) : (e.tell i id).ids (!i) = e.ids (!i) :=
  Function.update_of_ne (Bool.not_not_eq.mpr rfl) ..

/-- A text is told what it is called, and keeps its key. -/
theorem map_key_tell (texts : List SentText) (n : ℕ) (i : Bool) (id : ℕ) :
    (texts.modify n (·.tell i id)).map SentText.key = texts.map SentText.key := by
  refine List.ext_getElem? fun m => ?_
  rw [List.getElem?_map, List.getElem?_map, List.getElem?_modify, Option.map_eq_map,
    Option.map_map]
  refine Option.map_congr fun e' _ => ?_
  rw [Function.comp_apply]
  split
  · rfl
  · rfl

theorem exists_key_tell {texts : List SentText} {e : SentText} (he : e ∈ texts) (n : ℕ) (i : Bool)
    (id : ℕ) : ∃ e' ∈ texts.modify n (·.tell i id), e'.key = e.key := by
  have hkey := List.mem_map_of_mem (f := SentText.key) he
  rw [← map_key_tell texts n i id] at hkey
  exact List.mem_map.mp hkey

/-- A parcel is about its own text only. -/
theorem Honest.modify {texts : List SentText} {parcel : Parcel Base64} {n : ℕ}
    (h : Honest P texts i parcel) (hother : parcel.text ≠ some n) (f : SentText → SentText) :
    Honest P (texts.modify n f) i parcel := by
  unfold Honest at h ⊢
  rcases htext : parcel.text with _ | m
  · rw [htext] at h
    exact h
  · rw [htext] at h hother
    obtain ⟨e', iv, ciphertext, ephemeral, content, hm, hrest⟩ := h
    refine ⟨e', iv, ciphertext, ephemeral, content, ?_, hrest⟩
    rw [List.getElem?_modify_ne _ _ fun heq => hother (congrArg some heq.symm)]
    exact hm

/-- A text arrives: it gets a copy. -/
theorem Inv.turn_copy (h : Inv P sys) {input : Input Base64} {n : ℕ} {e : SentText}
    (hn : sys.texts[n]? = some e) (hcopy : e.ids i = none)
    (hwires : ∀ j, ∀ parcel ∈ sys.wires j, parcel.text ≠ some n)
    (hshows : (sys.clients i).shows P input = false)
    (hadds : Adds [((sys.clients i).nextId, e.key)] (sys.clients i) ((sys.clients i).after P input))
    (htidy : Tidy P ((sys.clients i).after P input)) :
    Inv P (sys.turn P i input none (sys.texts.modify n (·.tell i (sys.clients i).nextId))) := by
  have hcases {e' : SentText} (he' : e' ∈ sys.texts.modify n (·.tell i (sys.clients i).nextId)) :
      (∃ m, m ≠ n ∧ sys.texts[m]? = some e') ∨ e' = e.tell i (sys.clients i).nextId :=
    mem_modify hn he'
  have hmem : e.tell i (sys.clients i).nextId ∈
      sys.texts.modify n (·.tell i (sys.clients i).nextId) := by
    refine List.mem_of_getElem? (i := n) ?_
    rw [List.getElem?_modify_eq, hn]
    rfl
  have hid : (sys.clients i).nextId < ((sys.clients i).after P input).nextId :=
    (hadds.ids _ (List.mem_singleton.mpr rfl)).2
  have hkept (e' : SentText) (he' : e' ∈ sys.texts) :
      ∃ e'' ∈ sys.texts.modify n (·.tell i (sys.clients i).nextId), e''.key = e'.key :=
    exists_key_tell he' n i _
  have hother (partner : String) : ∀ k ∈ (sys.clients i).keys partner, k.2 ≠ e.key := by
    intro k hk heq
    have hid' := ((h.knows i).matched e (List.mem_of_getElem? hn) partner k hk).mp heq
    rw [hcopy] at hid'
    cases hid'
  have hold : Knows (sys.texts.modify n (·.tell i (sys.clients i).nextId)) (sys.stamps i) i
      (sys.clients i) := by
    refine (h.knows i).retell hkept fun e' he' partner k hk => ?_
    rcases hcases he' with ⟨m, -, hm⟩ | rfl
    · exact (h.knows i).matched e' (List.mem_of_getElem? hm) partner k hk
    · have hbelow := (h.knows i).below partner k hk
      rw [ids_tell]
      refine ⟨fun heq => absurd heq (hother partner k hk), fun heq => ?_⟩
      exact absurd (Option.some.inj heq) (Nat.ne_of_gt hbelow)
  refine h.turn ?_ ?_ ?_ ?_ ?_ (fun j parcel hparcel => ?_)
    (fun payload hpayload => note_of_pushes htidy hpayload) ?_
  · rw [sys.stamps_turn, hshows, if_neg Bool.false_ne_true]
    refine hold.add hadds hother (fun _ hx => hx) (.inr ⟨_, hmem, rfl⟩) fun e' he' => ?_
    rcases hcases he' with ⟨m, hmn, hm⟩ | rfl
    · have hkey := distinct_ne h.distinct hn hm hmn
      exact ⟨fun heq => absurd heq hkey,
        fun hid' => absurd hid' ((h.told i).ne (List.mem_of_getElem? hm))⟩
    · exact ⟨fun _ => ids_tell e i _, fun _ => rfl⟩
  · -- the sender knows no more than before
    refine (h.knows (!i)).retell hkept fun e' he' partner k hk => ?_
    rcases hcases he' with ⟨m, -, hm⟩ | rfl
    · exact (h.knows (!i)).matched e' (List.mem_of_getElem? hm) partner k hk
    · rw [ids_tell_not]
      exact (h.knows (!i)).matched e (List.mem_of_getElem? hn) partner k hk
  · intro e' he' id hid'
    rcases hcases he' with ⟨m, -, hm⟩ | rfl
    · exact Nat.lt_trans (h.told i e' (List.mem_of_getElem? hm) id hid') hid
    · rw [ids_tell] at hid'
      rw [← Option.some.inj hid']
      exact hid
  · intro e' he' id hid'
    rcases hcases he' with ⟨m, -, hm⟩ | rfl
    · exact h.told (!i) e' (List.mem_of_getElem? hm) id hid'
    · rw [ids_tell_not] at hid'
      exact h.told (!i) e (List.mem_of_getElem? hn) id hid'
  · rw [map_key_tell]
    exact h.distinct
  · exact (h.honest j parcel hparcel).modify (hwires j parcel hparcel) _
  · rw [sys.wires_turn, List.filterMap_append, unlabelled, List.append_nil]
    exact h.once i

theorem Honest.append {texts : List SentText} {parcel : Parcel Base64} (h : Honest P texts i parcel)
    (more : List SentText) : Honest P (texts ++ more) i parcel := by
  unfold Honest at h ⊢
  rcases htext : parcel.text with _ | n
  · rw [htext] at h
    exact h
  · rw [htext] at h
    obtain ⟨e, iv, ciphertext, ephemeral, content, hn, hrest⟩ := h
    refine ⟨e, iv, ciphertext, ephemeral, content, ?_, hrest⟩
    rw [List.getElem?_append_left (List.getElem?_eq_some_iff.mp hn).1]
    exact hn

theorem Honest.lt {texts : List SentText} {parcel : Parcel Base64} (h : Honest P texts i parcel)
    {n : ℕ} (hn : parcel.text = some n) : n < texts.length := by
  unfold Honest at h
  rw [hn] at h
  obtain ⟨e, iv, ciphertext, ephemeral, content, hn, -⟩ := h
  exact (List.getElem?_eq_some_iff.mp hn).1

/-- A text that is pushed, and shown with the timestamp in its payload. -/
theorem Inv.turn_text (h : Inv P sys) {input : Input Base64} {t : ℤ} {sent : SentText}
    (hsent : sent = SentText.tell ⟨t, fun _ => none⟩ i (sys.clients i).nextId)
    (hfree : sys.Free i t) (hfree' : sys.Free (!i) t) (hshows : (sys.clients i).shows P input)
    (ht : (sys.clients i).clock 0 = t) {queueId : String} {iv ciphertext : Base64}
    {content : String} (hmade : Made P (.text content (some t)) iv ciphertext)
    (hemitted : ((sys.clients i).after P input).emitted =
      [.pushQueue queueId (.message iv ciphertext false)])
    (hadds : Adds [((sys.clients i).nextId, t)] (sys.clients i) ((sys.clients i).after P input)) :
    Inv P (sys.turn P i input (some sys.texts.length) (sys.texts ++ [sent])) := by
  have hids : sent.ids i = some (sys.clients i).nextId := by rw [hsent, ids_tell]
  have hids' : sent.ids (!i) = none := by rw [hsent, ids_tell_not]
  have hkey : sent.key = t := by rw [hsent]; rfl
  have hid : (sys.clients i).nextId < ((sys.clients i).after P input).nextId :=
    (hadds.ids _ (List.mem_singleton.mpr rfl)).2
  have hcases {e : SentText} (he : e ∈ sys.texts ++ [sent]) : e ∈ sys.texts ∨ e = sent :=
    (List.mem_append.mp he).imp_right List.mem_singleton.mp
  have hown : Knows (sys.texts ++ [sent]) (sys.stamps i) i (sys.clients i) := by
    refine (h.knows i).newText (hkey ▸ hfree.1) (hkey ▸ hfree.2) fun id heq => ?_
    rw [hids] at heq
    exact Nat.le_of_eq (Option.some.inj heq)
  refine h.turn ?_ ?_ ?_ ?_ ?_ (fun j parcel hparcel => (h.honest j parcel hparcel).append _) ?_ ?_
  · rw [sys.stamps_turn, if_pos hshows, ht]
    refine hown.add hadds ((h.knows i).unused hfree.1 hfree.2) (List.subset_append_left _ _)
      (.inl (List.mem_append_right _ (List.mem_singleton.mpr rfl))) fun e he => ?_
    rcases hcases he with hold | rfl
    · exact ⟨fun heq => absurd heq.symm (hfree.2 e hold),
        fun hid' => absurd hid' ((h.told i).ne hold)⟩
    · exact ⟨fun _ => hids, fun _ => hkey.symm⟩
  · -- the peer has shown nothing at this time
    refine (h.knows (!i)).newText (hkey ▸ hfree'.1) (hkey ▸ hfree'.2) fun id heq => ?_
    rw [hids'] at heq
    cases heq
  · intro e he id hid'
    rcases hcases he with hold | rfl
    · exact Nat.lt_trans (h.told i e hold id hid') hid
    · rw [hids] at hid'
      rw [← Option.some.inj hid']
      exact hid
  · intro e he id hid'
    rcases hcases he with hold | rfl
    · exact h.told (!i) e hold id hid'
    · rw [hids'] at hid'
      cases hid'
  · rw [List.map_append]
    refine h.distinct.append (List.nodup_singleton _) fun x hx hnew => ?_
    obtain ⟨e, he, rfl⟩ := List.mem_map.mp hx
    exact hfree.2 e he ((List.mem_singleton.mp hnew).trans hkey)
  · intro payload hpayload
    rw [hemitted] at hpayload
    obtain rfl := List.mem_singleton.mp hpayload
    refine ⟨sent, iv, ciphertext, false, content, List.getElem?_concat_length .., ?_, hids', rfl, ?_⟩
    · rw [hids]
      exact Option.some_ne_none _
    · rw [hkey]
      exact hmade
  · -- the text is new, so no parcel in flight is about it
    rw [sys.wires_turn, hemitted, List.filterMap_append]
    refine (h.once i).append (List.nodup_singleton _) fun n hn hnew => ?_
    obtain ⟨parcel, hparcel, htext⟩ := List.mem_filterMap.mp hn
    have hlt := (h.honest i parcel hparcel).lt htext
    exact Nat.ne_of_lt hlt (List.mem_singleton.mp hnew)

/-- A text is sent. -/
theorem Inv.send (h : Inv P sys) {text : String}
    (hclock : (sys.clients i).shows P (.sendPrivateMessage text) →
      (sys.clients i).clock 1 = (sys.clients i).clock 0 ∧
        sys.Free i ((sys.clients i).clock 0) ∧ sys.Free (!i) ((sys.clients i).clock 0)) :
    Inv P (sys.send P i text) := by
  -- nothing is pushed
  have hnote (hemitted : ((sys.clients i).after P (.sendPrivateMessage text)).emitted = [])
      (hshows : ShowsIf ((sys.clients i).shows P (.sendPrivateMessage text))
        (handle P (.sendPrivateMessage text)) (sys.clients i)) : Inv P (sys.send P i text) := by
    unfold Pair.send
    rw [if_pos (by rw [hemitted]; rfl)]
    refine h.turn_note hshows (fun queueId payload hmem => ?_) fun hshown => (hclock hshown).2.1
    rw [hemitted] at hmem
    cases hmem
  rcases hshows : (sys.clients i).shows P (.sendPrivateMessage text) with _ | _
  · have hidle : handle P (.sendPrivateMessage text) (sys.clients i) = .ok () (sys.clients i) :=
      sendPrivateMessage_idle P text hshows
    refine hnote ?_ ?_
    · unfold ChatManager.after
      rw [hidle]
      exact h.silent i
    · unfold ShowsIf
      rw [hidle]
      exact .inl (.of_shown rfl)
  · obtain ⟨htick, hfree, hfree'⟩ := hclock hshows
    have hrun := sendPrivateMessage_cases P text (sys.clients i)
    rw [h.silent i, htick] at hrun
    rcases hrun with ⟨hemitted, hadds⟩ | ⟨queueId, iv, ciphertext, hmade, hemitted, hadds⟩
    · exact hnote hemitted (hadds.imp_right fun hone => ⟨hshows, hone⟩)
    · unfold Pair.send
      dsimp only
      rw [if_neg ?_]
      · exact h.turn_text rfl hfree hfree' hshows rfl hmade hemitted hadds
      · rw [show ((sys.clients i).after P (.sendPrivateMessage text)).emitted = _ from hemitted]
        exact List.cons_ne_nil _ _

theorem Inv.tidy (h : Inv P sys) (i : Bool) {input : Input Base64}
    (hsend : ∀ text, input ≠ .sendPrivateMessage text) :
    Tidy P ((sys.clients i).after P input) := by
  refine tidy_handle P hsend _ fun queueId payload hmem => ?_
  rw [h.silent i] at hmem
  cases hmem

/-- A text that can be read is shown with the timestamp in its payload. -/
theorem adds_message (hP : P.Genuine)
    (hread : ∀ content, P.read (P.write content) = some content) {content : String} {t : ℤ}
    {iv ciphertext : Base64} (hmade : Made P (.text content (some t)) iv ciphertext)
    {s : ChatManager Base64} {opened : Content} (hopened : s.opened P iv ciphertext = some opened)
    (queueId : String) (ephemeral : Bool) :
    s.shows P (.queuePayload queueId (.message iv ciphertext ephemeral)) = false ∧
      Adds [(s.nextId, t)] s (s.after P (.queuePayload queueId (.message iv ciphertext ephemeral))) := by
  obtain rfl := opened_made hP hread hmade hopened
  have hcases := onMessage_opened P iv ciphertext s
  rw [hopened] at hcases
  obtain ⟨s', hshown, hstate⟩ := hcases
  have hadds := (adds_text P content t s').congr hshown.symm
  rw [← hstate, show s'.nextId = s.nextId from congrArg (·.2.2.1) hshown] at hadds
  refine ⟨?_, hadds⟩
  unfold ChatManager.shows
  dsimp only
  rw [hopened]
  rfl

theorem mem_eraseIdx_ne {l : List (Parcel Base64)} (hl : (l.filterMap Parcel.text).Nodup) {n m : ℕ}
    {parcel other : Parcel Base64} (hn : l[n]? = some parcel) (htext : parcel.text = some m)
    (hother : other ∈ l.eraseIdx n) : other.text ≠ some m := by
  intro heq
  obtain ⟨l₁, l₂, rfl, herase, -⟩ := getElem?_split hn
  rw [herase] at hother
  rw [List.filterMap_append, List.filterMap_cons_some htext] at hl
  have hm : m ∈ l₁.filterMap Parcel.text ++ l₂.filterMap Parcel.text := by
    rw [← List.filterMap_append]
    exact List.mem_filterMap.mpr ⟨other, hother, heq⟩
  exact (List.nodup_middle.mp hl).notMem hm

theorem inv_apply (hP : P.Genuine)
    (hread : ∀ content, P.read (P.write content) = some content) (h : Inv P sys)
    {sys' : Pair Base64} {e : Event Base64} (hok : Unambiguous P sys e)
    (happly : apply P sys e = some sys') : Inv P sys' := by
  cases e with
  | lose i n =>
    obtain rfl := Option.some.inj happly
    exact h.erase (!i) n
  | deliver i n queueId =>
    simp only [apply] at happly
    rcases hparcel : (sys.wires (!i))[n]? with _ | parcel
    · rw [hparcel] at happly
      cases happly
    · rw [hparcel] at happly
      have hok := hok parcel hparcel
      obtain rfl := Option.some.inj happly
      have herased := h.erase (!i) n
      have hhonest := h.honest (!i) parcel (List.mem_of_getElem? hparcel)
      have htidy := @Inv.tidy _ _ P sys h i (.queuePayload queueId parcel.payload) nofun
      unfold Honest at hhonest
      unfold Pair.copied
      rcases htext : parcel.text with _ | m
      · rw [htext] at hhonest
        exact herased.turn_note (showsIf_note hP hread hhonest queueId _) htidy hok
      · rw [htext] at hhonest
        obtain ⟨sent, iv, ciphertext, ephemeral, content, hm, -, hcopy, hpayload, hmade⟩ := hhonest
        rw [hpayload] at htidy hok ⊢
        rw [Bool.not_not] at hcopy
        dsimp only
        rcases hopened : (sys.clients i).opened P iv ciphertext with _ | opened
        · -- the client cannot read it
          refine herased.turn_note ?_ htidy hok
          have hcases := onMessage_opened P iv ciphertext (sys.clients i)
          rw [hopened] at hcases
          refine hcases.imp_right fun hone => ⟨?_, hone⟩
          unfold ChatManager.shows
          dsimp only
          rw [hopened]
        · obtain ⟨hshows, hadds⟩ := adds_message hP hread hmade hopened queueId ephemeral
          refine herased.turn_copy hm hcopy (fun j other hother heq => ?_) hshows hadds htidy
          by_cases hj : j = !i
          · have hrest : other ∈ Function.update sys.wires (!i) ((sys.wires (!i)).eraseIdx n) (!i) :=
              hj ▸ hother
            rw [Function.update_self] at hrest
            exact mem_eraseIdx_ne (h.once (!i)) hparcel htext hrest heq
          · -- client i has not sent this text
            obtain rfl : j = i := (Bool.eq_not_of_ne hj).trans (Bool.not_not i)
            have hown := herased.honest j other hother
            unfold Honest at hown
            rw [heq] at hown
            obtain ⟨sent', _, _, _, _, hm', hids, -⟩ := hown
            obtain rfl := Option.some.inj (hm.symm.trans hm')
            exact hids hcopy
  | act i input =>
    have hnote (hsend : ∀ text, input ≠ .sendPrivateMessage text)
        (hpayload : ∀ queueId payload, input ≠ .queuePayload queueId payload)
        (hfree : (sys.clients i).shows P input → sys.Free i ((sys.clients i).clock 0))
        (hturn : some (sys.turn P i input none sys.texts) = some sys') : Inv P sys' := by
      obtain rfl := Option.some.inj hturn
      exact h.turn_note (showsIf_local P hsend hpayload _) (h.tidy i hsend) hfree
    cases input with
    | queuePayload queueId payload => cases happly
    | sendPrivateMessage text =>
      obtain rfl := Option.some.inj happly
      exact h.send hok
    | _ => exact hnote nofun nofun hok happly

end

/-- In every run in which the clock is never ambiguous, a message has the timestamp of a text
exactly if it is the message of that text, at either client, and no two messages of a conversation
have one timestamp. -/
theorem timestamps_match {P : CryptoProvider Text Base64} (hP : P.Genuine)
    (hread : ∀ content, P.read (P.write content) = some content) {clock : Bool → ℕ → ℤ}
    {nonces : Bool → ℕ → List UInt8} {sys : Pair Base64}
    (hrun : Run (apply P) (Unambiguous P) (.init clock nonces) sys) :
    (∀ e ∈ sys.texts, ∀ i partner, ∀ msg ∈ (sys.clients i).conversations partner,
      msg.timestamp = e.key ↔ e.ids i = some msg.id) ∧
    ∀ i partner, (((sys.clients i).conversations partner).map ChatMessage.timestamp).Nodup := by
  have hinv : Inv P sys := by
    refine hrun.invariant (I := Inv P) ?_ fun sys e sys' h hok happly => inv_apply hP hread h hok happly
    exact ⟨fun _ => ⟨nofun, nofun, nofun, fun _ => List.nodup_nil⟩, fun _ => nofun, List.nodup_nil,
      fun _ => rfl, fun _ => nofun, fun _ => List.nodup_nil⟩
  refine ⟨fun e he i partner msg hmsg => ?_, fun i partner => ?_⟩
  · have hkey : msg.key ∈ (sys.clients i).keys partner :=
      List.mem_map_of_mem (List.mem_append_left _ hmsg)
    exact (hinv.knows i).matched e he partner msg.key hkey
  · have hnodup := (hinv.knows i).nodup partner
    unfold ChatManager.keys ChatManager.messages at hnodup
    rw [List.map_map, List.map_append] at hnodup
    exact (List.nodup_append.mp hnodup).1

/-! ## A text that is read -/

theorem sampleProvider_genuine : sampleProvider.Genuine := by
  intro key text role seqNum sessionId nonce encrypted hencrypted key' role' seqNum' sessionId' text'
    hopen
  obtain rfl := Option.some.inj hencrypted
  exact (Option.some.inj (Option.ite_none_right_eq_some.mp hopen).2).symm

instance (sys : Pair Base64) (i : Bool) (t : ℤ) : Decidable (sys.Free i t) :=
  inferInstanceAs (Decidable (_ ∧ _))

instance (P : CryptoProvider Text Base64) (sys : Pair Base64) :
    (e : Event Base64) → Decidable (Unambiguous P sys e)
  | .act _ (.sendPrivateMessage _) => inferInstanceAs (Decidable (_ → _ ∧ _ ∧ _))
  | .act _ (.connected _) | .act _ .disconnected | .act _ (.connectError _)
  | .act _ (.queueCreated _) | .act _ (.queuePayload _ _) | .act _ (.pushQueueError _)
  | .act _ .connect | .act _ (.acceptInvite _ _) | .act _ (.setDisappearingTimer _)
  | .act _ (.sendTypingDraft _) | .act _ (.sendReaction _ _) | .act _ (.sendEditMessage _ _)
  | .act _ (.sendDeleteMessage _) | .act _ .obliviate | .act _ .resetClient | .act _ .keepAlive
  | .act _ (.countdown _ _) | .act _ .runPosted => inferInstanceAs (Decidable (_ → _))
  | .deliver i n _ => inferInstanceAs (Decidable (∀ parcel ∈ (sys.wires (!i))[n]?, _ → _))
  | .lose _ _ => .isTrue trivial

/-- Two clients whose clocks are given. -/
def newPair (clock : Bool → ℕ → ℤ) : Pair Sealed := .init clock fun _ _ => []

/-- Client `true` accepts the invite of the other one and sends a text, which is read; both show
what they have. -/
def textRead : List (Event Sealed) :=
  [.act true .connect, .act true (.connected (some ⟨[65], [65]⟩)), .act true (.queueCreated "q1"),
    .act false .connect, .act false (.connected (some ⟨[66], [66]⟩)),
    .act false (.queueCreated "q2"),
    .act true (.acceptInvite "q2" "B"), .deliver false 0 "q2",
    .act true (.sendPrivateMessage "hi"), .deliver false 0 "q2",
    .act true .runPosted, .act true .runPosted, .act false .runPosted, .act false .runPosted,
    .deliver true 0 "q1"]

theorem textRead_matches : ∃ sys : Pair Sealed,
    Run (apply sampleProvider) (Unambiguous sampleProvider)
      (newPair fun i n => if i then (if n = 0 then 10 else 20) else 11 + n) sys ∧
    (sys.texts.map fun e => (e.key, e.ids true, e.ids false)) = [(20, some 1, some 1)] ∧
    (∀ e ∈ sys.texts, ∀ i partner, ∀ msg ∈ (sys.clients i).conversations partner,
      msg.timestamp = e.key ↔ e.ids i = some msg.id) ∧
    ∀ i partner, (((sys.clients i).conversations partner).map ChatMessage.timestamp).Nodup := by
  obtain ⟨sys, hrun, h⟩ := @Run.exists_of_runAll _ _ (apply sampleProvider)
    (Unambiguous sampleProvider) (newPair fun i n => if i then (if n = 0 then 10 else 20) else 11 + n)
    _ textRead (fun sys => (sys.texts.map fun e => (e.key, e.ids true, e.ids false)) =
      [(20, some 1, some 1)]) (by decide +kernel)
  exact ⟨sys, hrun, of_decide_eq_true h,
    timestamps_match sampleProvider_genuine (fun _ => rfl) hrun⟩

/-- The clock advances between its two readings: the receipt names no message of the sender, whose
text is never shown as read. -/
theorem receipt_lost : ∃ sys : Pair Sealed,
    Run (apply sampleProvider) (fun _ _ => True) (newPair fun i n => if i then 10 + n else 50 + n)
      sys ∧
    ∃ e ∈ sys.texts, ∃ msg ∈ (sys.clients true).conversations "q2",
      ∃ copy ∈ (sys.clients false).conversations "q1",
        e.ids true = some msg.id ∧ e.ids false = some copy.id ∧
          msg.timestamp ≠ copy.timestamp ∧ msg.deliveryState = "sent" ∧
            sys.wires true = [] ∧ sys.wires false = [] := by
  obtain ⟨sys, hrun, h⟩ := @Run.exists_of_runAll _ _ (apply sampleProvider) (fun _ _ => True)
    (newPair fun i n => if i then 10 + n else 50 + n) _ textRead
    (fun sys => ∃ e ∈ sys.texts, ∃ msg ∈ (sys.clients true).conversations "q2",
      ∃ copy ∈ (sys.clients false).conversations "q1",
        e.ids true = some msg.id ∧ e.ids false = some copy.id ∧
          msg.timestamp ≠ copy.timestamp ∧ msg.deliveryState = "sent" ∧
            sys.wires true = [] ∧ sys.wires false = []) (by decide +kernel)
  exact ⟨sys, hrun, of_decide_eq_true h⟩

end AnonyMus.Android.Chat.Timestamps
