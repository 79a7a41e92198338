import AnonyMus.Android.Outsider
import AnonyMus.Lib.Simulation

/-!
# Android client — sending, and what a failure leaves

The functions of `data/ChatManager.kt` that send, each with its own copy of the same
steps: derive the next chain key and store it, encrypt, count, emit. Any of the calls on
the way may throw; what is thrown is caught. The handler of `message`, which does the same
for the other chain, stores the key after it has decrypted.

* `push` — the steps; `SendOp.run` — the functions;
* `Outcome`, `run_outcome` — all that a call can leave;
* `Atomic`, `Safe` — the key and the number go together; when they do;
* `Lockstep` — what is emitted along a run;
* `atomic_iff` — one call is atomic exactly if it is safe, and runs of safe calls are
  in lockstep.
-/

namespace AnonyMus.Android.Chat.Sending

open EStateM (apply_bind apply_get apply_set apply_modify apply_pure apply_tryCatch AllMeet after)
open ChatManager (silent)

variable {Text Base64 : Type}

/-! ## The functions that send -/

/-- Calls that throw. -/
structure Faults where
  /-- One before the next chain key is stored, such as `deriveChainKeys`. -/
  early : Bool
  /-- `socket?.emit`, or what makes its argument. -/
  emit  : Bool
  /-- What comes after it. -/
  late  : Bool

def mayThrow (fails : Bool) : Handler Base64 Unit := if fails then throw () else return

section

variable (P : CryptoProvider Text Base64) (f : Faults)

/-- What comes after the encryption. -/
def pushMessage (queueId : String) (encrypted : EncryptedPayload Base64) (ephemeral : Bool)
    (mark : Handler Base64 Unit) : Handler Base64 Bool := do
  modify fun s => { s with sendSeq := s.sendSeq + 1 }
  mayThrow f.emit
  emit (.pushQueue queueId (.message encrypted.iv encrypted.ciphertext ephemeral))
  mayThrow f.late
  mark
  return true

/-- What every function that sends does under the lock; `payload` is made and `mark` is done inside
of the `try`. False if something was thrown, or there is nobody to send to. -/
def push (payload : Handler Base64 Content) (ephemeral : Bool) (mark : Handler Base64 Unit) :
    Handler Base64 Bool := do
  let s ← get
  match s.sendChainKey, s.theirQueueId with
  | some sendChainKey, some theirQueueId =>
    tryCatch (do
      let payload ← payload
      mayThrow f.early
      let (msgKey, nextKey) := P.deriveChainKeys sendChainKey
      modify fun s => { s with sendChainKey := some nextKey }
      match s.myRole with
      | none => throw ()
      | some myRole =>
        let nonce ← randomNonce
        match P.encryptMessage msgKey (P.write payload) myRole s.sendSeq s.sessionId nonce with
        | none => throw ()
        | some encrypted => pushMessage f theirQueueId encrypted ephemeral mark)
      fun _ => return false
  | _, _ => return false

def sendPrivateMessage (text : String) : Handler Base64 Bool :=
  push P f (do return .text text (some (← currentTimeMillis))) false (appendNow .you text)

def sendEphemeralPayload (payload : Content) : Handler Base64 Bool :=
  push P f (return payload) true (return ⟨⟩)

def sendEncryptedPayload (payload : Content) : Handler Base64 Bool :=
  push P f (return payload) false (return ⟨⟩)

def sendReaction (targetTimestamp : ℤ) (emoji : String) : Handler Base64 Bool :=
  push P f (return .reaction targetTimestamp emoji) false
    (addLocalReaction targetTimestamp emoji .you)

def setDisappearingTimer (seconds : ℤ) : Handler Base64 Bool := do
  modify fun s => { s with disappearTimerSeconds := seconds }
  push P f (return .control (.timerSet seconds)) false (return ⟨⟩)

/-- A run of the runnable of `startAdaptiveKeepAlive`. -/
def keepAlive : Handler Base64 Bool :=
  push P f (return .control .heartbeat) false (return ⟨⟩)

/-- The answer to a `timer_set`. -/
def timerAck (durationSeconds : ℤ) : Handler Base64 Bool :=
  push P f (return .control (.timerAck durationSeconds)) false (return ⟨⟩)

end

inductive SendOp
  | sendPrivateMessage (text : String)
  /-- Also of `sendTypingDraft`. -/
  | sendEphemeralPayload (payload : Content)
  /-- Also of `sendEditMessage`, `sendDeleteMessage` and `sendReceipt`. -/
  | sendEncryptedPayload (payload : Content)
  | sendReaction (targetTimestamp : ℤ) (emoji : String)
  | setDisappearingTimer (seconds : ℤ)
  | keepAlive
  | timerAck (durationSeconds : ℤ)

def SendOp.run (P : CryptoProvider Text Base64) (f : Faults) : SendOp → Handler Base64 Bool
  | sendPrivateMessage text => Sending.sendPrivateMessage P f text
  | sendEphemeralPayload payload => Sending.sendEphemeralPayload P f payload
  | sendEncryptedPayload payload => Sending.sendEncryptedPayload P f payload
  | sendReaction targetTimestamp emoji => Sending.sendReaction P f targetTimestamp emoji
  | setDisappearingTimer seconds => Sending.setDisappearingTimer P f seconds
  | keepAlive => Sending.keepAlive P f
  | timerAck durationSeconds => Sending.timerAck P f durationSeconds

/-- What a function sends; `sendPrivateMessage` asks the clock. -/
def SendOp.content (s : ChatManager Base64) : SendOp → Content
  | sendPrivateMessage text => .text text (some (s.clock 0))
  | sendEphemeralPayload payload | sendEncryptedPayload payload => payload
  | sendReaction targetTimestamp emoji => .reaction targetTimestamp emoji
  | setDisappearingTimer seconds => .control (.timerSet seconds)
  | keepAlive => .control .heartbeat
  | timerAck durationSeconds => .control (.timerAck durationSeconds)

/-! ## What is left at each point -/

section

variable {P : CryptoProvider Text Base64} {f : Faults} {s : ChatManager Base64}
  {payload : Handler Base64 Content} {content : Content} {ephemeral : Bool}
  {mark : Handler Base64 Unit} {key : List UInt8} {queueId : String}

/-- The action does not throw, and leaves all but clock, conversations and postings alone. -/
def Quiet (x : Handler Base64 Unit) : Prop :=
  ∀ s, ∃ s', x s = .ok ⟨⟩ s' ∧ s'.silent = s.silent

/-- The payload that is made, with the same session and the same random bytes. -/
def Makes (payload : Handler Base64 Content) (s : ChatManager Base64) (content : Content) : Prop :=
  ∃ s', payload s = .ok content s' ∧ s'.silent = s.silent ∧ s'.nonces = s.nonces

/-- What `encryptMessage` returns, with the next key of the chain; none if there is no role. -/
def sealed? (P : CryptoProvider Text Base64) (s : ChatManager Base64) (key : List UInt8)
    (content : Content) : Option (EncryptedPayload Base64) :=
  s.myRole.bind fun myRole => P.encryptMessage (P.deriveChainKeys key).1 (P.write content) myRole
    s.sendSeq s.sessionId (s.nonces 0)

theorem push_idle (hidle : s.sendChainKey = none ∨ s.theirQueueId = none) :
    push P f payload ephemeral mark s = .ok false s := by
  unfold push
  rw [apply_bind, apply_get]
  dsimp only
  rcases hidle with hnone | hnone
  · rw [hnone]
    rfl
  · rw [hnone]
    cases s.sendChainKey <;> rfl

theorem mayThrow_true (s : ChatManager Base64) : mayThrow true s = .error () s := rfl

theorem mayThrow_false (s : ChatManager Base64) : mayThrow false s = .ok ⟨⟩ s := rfl

/-- Before the key is stored, nothing has changed. -/
theorem push_early (hkey : s.sendChainKey = some key) (hqueue : s.theirQueueId = some queueId)
    (hmakes : Makes payload s content) (hearly : f.early = true) :
    ∃ s', push P f payload ephemeral mark s = .ok false s' ∧ s'.silent = s.silent := by
  obtain ⟨s₁, hpayload, hsilent, -⟩ := hmakes
  refine ⟨s₁, ?_, hsilent⟩
  unfold push
  rw [apply_bind, apply_get]
  dsimp only
  rw [hkey, hqueue, hearly]
  dsimp only
  rw [apply_tryCatch, apply_bind, hpayload]
  rfl

/-- One message on: the number, and what is emitted if there is a socket and `emit` returns. -/
def counted (f : Faults) (e : Emit Base64) (s : ChatManager Base64) : ChatManager Base64 :=
  { s with
    sendSeq := s.sendSeq + 1
    emitted := if f.emit = false ∧ s.hasSocket = true then s.emitted ++ [e] else s.emitted }

/-- From the encryption on: what is thrown makes it a failure, but key and number have moved. -/
theorem pushMessage_eq (hmark : Quiet mark) (encrypted : EncryptedPayload Base64) :
    ∃ s', s'.silent = (counted f (.pushQueue queueId
        (.message encrypted.iv encrypted.ciphertext ephemeral)) s).silent ∧
      (pushMessage f queueId encrypted ephemeral mark s = .ok true s' ∧
          f.emit = false ∧ f.late = false ∨
        pushMessage f queueId encrypted ephemeral mark s = .error () s' ∧
          (f.emit = true ∨ f.late = true)) := by
  unfold pushMessage counted
  rw [apply_bind, apply_modify]
  dsimp only
  rw [apply_bind]
  cases hemit : f.emit with
  | true =>
    -- it throws, but what went before it has been counted
    rw [mayThrow_true, if_neg (by simp)]
    exact ⟨{ s with sendSeq := s.sendSeq + 1 }, rfl, .inr ⟨rfl, .inl rfl⟩⟩
  | false =>
  rw [mayThrow_false]
  dsimp only
  rw [apply_bind, emit_eq]
  dsimp only
  have hemitted : ∀ e : Emit Base64,
      (if s.hasSocket = true then { s with sendSeq := s.sendSeq + 1, emitted := s.emitted ++ [e] }
        else { s with sendSeq := s.sendSeq + 1 } : ChatManager Base64) =
      { s with
        sendSeq := s.sendSeq + 1
        emitted :=
          if false = false ∧ s.hasSocket = true then s.emitted ++ [e] else s.emitted } := by
    intro e
    cases s.hasSocket <;> rfl
  rw [hemitted, apply_bind]
  cases hlate : f.late with
  | true => exact ⟨_, rfl, .inr ⟨rfl, .inr rfl⟩⟩
  | false =>
  rw [mayThrow_false]
  dsimp only
  rw [apply_bind]
  obtain ⟨s', hdone, hsilent⟩ := hmark _
  rw [hdone]
  exact ⟨s', hsilent, .inl ⟨rfl, rfl, rfl⟩⟩

/-- The state with the next key of the chain. -/
def keyed (P : CryptoProvider Text Base64) (key : List UInt8) (s : ChatManager Base64) :
    ChatManager Base64 :=
  { s with sendChainKey := some (P.deriveChainKeys key).2 }

/-- From the derivation on: the next key is stored, whatever comes of the encryption. -/
theorem push_keyed (hkey : s.sendChainKey = some key) (hqueue : s.theirQueueId = some queueId)
    (hmakes : Makes payload s content) (hearly : f.early = false) :
    ∃ s₁, s₁.silent = (keyed P key s).silent ∧
      push P f payload ephemeral mark s =
        match sealed? P s key content with
        | none => .ok false s₁
        | some encrypted =>
          match pushMessage f queueId encrypted ephemeral mark s₁ with
          | .ok done s' => .ok done s'
          | .error _ s' => .ok false s' := by
  obtain ⟨s₁, hpayload, hsilent, hnonces⟩ := hmakes
  have hkeyed : ({ s₁ with sendChainKey := some (P.deriveChainKeys key).2 } :
      ChatManager Base64).silent = (keyed P key s).silent :=
    congrArg (fun c : Core × List (Emit Base64) =>
      ({ c.1 with sendChainKey := some (P.deriveChainKeys key).2 }, c.2)) hsilent
  -- the chain key is stepped before the payload is sealed, whatever becomes of it
  unfold push sealed?
  rw [apply_bind, apply_get]
  dsimp only
  rw [hkey, hqueue, hearly]
  dsimp only
  rw [apply_tryCatch, apply_bind, hpayload]
  dsimp only
  rw [apply_bind, mayThrow_false]
  dsimp only
  rw [apply_bind, apply_modify]
  dsimp only
  cases hrole : s.myRole with
  | none => exact ⟨_, hkeyed, rfl⟩
  | some myRole =>
    rw [Option.bind_some, ← hnonces]
    dsimp only
    unfold randomNonce
    simp only [apply_bind, apply_get, apply_set, apply_pure]
    refine ⟨{ s₁ with
      sendChainKey := some (P.deriveChainKeys key).2
      nonces := fun n => s₁.nonces (n + 1) }, hkeyed, ?_⟩
    cases P.encryptMessage (P.deriveChainKeys key).1 (P.write content) myRole s.sendSeq s.sessionId
      (s₁.nonces 0) with
    | none => rfl
    | some encrypted =>
      dsimp only
      rcases pushMessage f queueId encrypted ephemeral mark _ with ⟨done, s'⟩ | ⟨e, s'⟩ <;> rfl

/-- What a call leaves, with what it returns. -/
inductive Outcome (P : CryptoProvider Text Base64) (f : Faults) (content : Content)
    (s : ChatManager Base64) : Bool → Core × List (Emit Base64) → Prop
  /-- There is nobody to send to. -/
  | idle (hidle : s.sendChainKey = none ∨ s.theirQueueId = none) :
      Outcome P f content s false s.silent
  | early {key : List UInt8} {queueId : String} (hkey : s.sendChainKey = some key)
      (hqueue : s.theirQueueId = some queueId) (hearly : f.early = true) :
      Outcome P f content s false s.silent
  /-- The chain has moved, and the number has not. -/
  | unsealed {key : List UInt8} {queueId : String} (hkey : s.sendChainKey = some key)
      (hqueue : s.theirQueueId = some queueId) (hearly : f.early = false)
      (hsealed : sealed? P s key content = none) :
      Outcome P f content s false (keyed P key s).silent
  /-- Both have, whether the rest succeeds or not. -/
  | sealed {key : List UInt8} {queueId : String} {encrypted : EncryptedPayload Base64}
      (ephemeral : Bool) (hkey : s.sendChainKey = some key)
      (hqueue : s.theirQueueId = some queueId) (hearly : f.early = false)
      (hsealed : sealed? P s key content = some encrypted) :
      Outcome P f content s (!f.emit && !f.late) (counted f (.pushQueue queueId
        (.message encrypted.iv encrypted.ciphertext ephemeral)) (keyed P key s)).silent

theorem counted_congr (e : Emit Base64) {s s' : ChatManager Base64} (h : s.silent = s'.silent) :
    (counted f e s).silent = (counted f e s').silent :=
  congrArg (fun c : Core × List (Emit Base64) => ({ c.1 with sendSeq := c.1.sendSeq + 1 },
    if f.emit = false ∧ c.1.hasSocket = true then c.2 ++ [e] else c.2)) h

/-- All that a call can do. -/
theorem push_outcome (hmakes : Makes payload s content) (hmark : Quiet mark) :
    ∃ done s', push P f payload ephemeral mark s = .ok done s' ∧
      Outcome P f content s done s'.silent := by
  cases hkey : s.sendChainKey with
  | none => exact ⟨false, s, push_idle (.inl hkey), .idle (.inl hkey)⟩
  | some key =>
  cases hqueue : s.theirQueueId with
  | none => exact ⟨false, s, push_idle (.inr hqueue), .idle (.inr hqueue)⟩
  | some queueId =>
  cases hearly : f.early with
  | true =>
    obtain ⟨s', hpush, hsilent⟩ := push_early hkey hqueue hmakes hearly
    refine ⟨false, s', hpush, ?_⟩
    rw [hsilent]
    exact .early hkey hqueue hearly
  | false =>
  obtain ⟨s₁, hsilent, hpush⟩ := push_keyed hkey hqueue hmakes hearly
  cases hsealed : sealed? P s key content with
  | none =>
    rw [hsealed] at hpush
    refine ⟨false, s₁, hpush, ?_⟩
    rw [hsilent]
    exact .unsealed hkey hqueue hearly hsealed
  | some encrypted =>
    rw [hsealed] at hpush
    dsimp only at hpush
    -- from here on it is a success or a failure, but one and the same state
    obtain ⟨s', hcounted, hrest⟩ := pushMessage_eq hmark encrypted
    have houtcome := Outcome.sealed ephemeral hkey hqueue hearly hsealed
    rw [← counted_congr _ hsilent, ← hcounted] at houtcome
    rcases hrest with ⟨hdone, hemit, hlate⟩ | ⟨hthrown, hfails⟩
    · rw [hdone] at hpush
      rw [hemit, hlate] at houtcome
      exact ⟨true, s', hpush, houtcome⟩
    · rw [hthrown] at hpush
      have hfalse : (!f.emit && !f.late) = false := by
        rcases hfails with h | h <;> simp [h]
      rw [hfalse] at houtcome
      exact ⟨false, s', hpush, houtcome⟩

/-- The timer has nothing to do with it. -/
theorem Outcome.of_timer {seconds : ℤ} {done : Bool} {c : Core × List (Emit Base64)}
    (h : Outcome P f content { s with disappearTimerSeconds := seconds } done c) :
    Outcome P f content s done c := by
  cases h with
  | idle hidle => exact .idle hidle
  | early hkey hqueue hearly => exact .early hkey hqueue hearly
  | unsealed hkey hqueue hearly hsealed => exact .unsealed hkey hqueue hearly hsealed
  | sealed ephemeral hkey hqueue hearly hsealed =>
    exact .sealed ephemeral hkey hqueue hearly hsealed

theorem quiet_return : Quiet (return ⟨⟩ : Handler Base64 Unit) := fun s => ⟨s, rfl, rfl⟩

theorem quiet_addLocalReaction (targetTimestamp : ℤ) (emoji : String) (sender : Sender) :
    Quiet (addLocalReaction targetTimestamp emoji sender : Handler Base64 Unit) :=
  fun _ => ⟨_, rfl, rfl⟩

theorem quiet_appendNow (sender : Sender) (text : String) :
    Quiet (appendNow sender text : Handler Base64 Unit) := by
  intro s
  have hkept := keeps_silent_appendNow sender text true s
  have happend : ∀ (partner : String) (message : ChatMessage) (s : ChatManager Base64),
      ∃ s', appendMessage partner message s = .ok ⟨⟩ s' := by
    intro partner message s
    unfold appendMessage
    rw [apply_bind, apply_get]
    dsimp only
    split <;> exact ⟨_, rfl⟩
  obtain ⟨s', hs'⟩ : ∃ s', appendNow sender text true s = .ok ⟨⟩ s' := happend _ _ _
  rw [hs'] at hkept
  exact ⟨s', hs', hkept⟩

/-- All that a function can do. -/
theorem run_outcome (P : CryptoProvider Text Base64) (f : Faults) (op : SendOp)
    (s : ChatManager Base64) :
    ∃ done s', op.run P f s = .ok done s' ∧ Outcome P f (op.content s) s done s'.silent := by
  have hreturn : ∀ (content : Content) (s : ChatManager Base64), Makes (return content) s content :=
    fun _ s => ⟨s, rfl, rfl, rfl⟩
  cases op with
  | sendPrivateMessage text =>
    exact push_outcome ⟨_, rfl, rfl, rfl⟩ (quiet_appendNow .you text)
  | sendEphemeralPayload payload => exact push_outcome (hreturn payload s) quiet_return
  | sendEncryptedPayload payload => exact push_outcome (hreturn payload s) quiet_return
  | sendReaction targetTimestamp emoji =>
    exact push_outcome (hreturn _ s) (quiet_addLocalReaction targetTimestamp emoji .you)
  | setDisappearingTimer seconds =>
    have hpushed : ∃ done s', push P f (return .control (.timerSet seconds)) false (return ⟨⟩)
        { s with disappearTimerSeconds := seconds } = .ok done s' ∧
          Outcome P f (.control (.timerSet seconds)) { s with disappearTimerSeconds := seconds }
            done s'.silent :=
      push_outcome (hreturn _ _) quiet_return
    obtain ⟨done, s', hpush, houtcome⟩ := hpushed
    exact ⟨done, s', hpush, houtcome.of_timer⟩
  | keepAlive => exact push_outcome (hreturn _ s) quiet_return
  | timerAck durationSeconds => exact push_outcome (hreturn _ s) quiet_return

end

/-! ## Key and number -/

section

variable (P : CryptoProvider Text Base64)

/-- A failure leaves key and number; a success takes both one step on. -/
def Atomic (before after : ChatManager Base64) (done : Bool) : Prop :=
  done = false ∧ after.sendChainKey = before.sendChainKey ∧ after.sendSeq = before.sendSeq ∨
    done = true ∧ after.sendSeq = before.sendSeq + 1 ∧
      ∃ key, before.sendChainKey = some key ∧ after.sendChainKey = some (P.deriveChainKeys key).2

/-- There is nobody to send to; or a call throws before the next key is stored; or the payload can
be encrypted, and no call throws; or it cannot, but the chain stands still. -/
def Safe (f : Faults) (content : Content) (s : ChatManager Base64) : Prop :=
  ∀ key, s.sendChainKey = some key → s.theirQueueId ≠ none → f.early = false →
    sealed? P s key content ≠ none ∧ f.emit = false ∧ f.late = false ∨
      sealed? P s key content = none ∧ (P.deriveChainKeys key).2 = key

variable {P} {f : Faults} {content : Content} {s s' : ChatManager Base64} {done : Bool}

theorem Outcome.atomic_iff_safe (h : Outcome P f content s done s'.silent) :
    Atomic P s s' done ↔ Safe P f content s := by
  have hlane : ∀ t : ChatManager Base64, t.silent = s'.silent →
      s'.sendChainKey = t.sendChainKey ∧ s'.sendSeq = t.sendSeq := by
    intro t ht
    have hcore := congrArg Prod.fst ht.symm
    exact ⟨congrArg (fun c : Core => c.sendChainKey) hcore,
      congrArg (fun c : Core => c.sendSeq) hcore⟩
  unfold Atomic
  generalize hsilent : s'.silent = c at h
  cases h with
  | idle hidle =>
    obtain ⟨hkey', hseq'⟩ := hlane s hsilent.symm
    refine iff_of_true (.inl ⟨rfl, hkey', hseq'⟩) fun key hkey hqueue => ?_
    rcases hidle with hnone | hnone
    · cases hnone.symm.trans hkey
    · exact absurd hnone hqueue
  | early hkey hqueue hearly =>
    obtain ⟨hkey', hseq'⟩ := hlane s hsilent.symm
    refine iff_of_true (.inl ⟨rfl, hkey', hseq'⟩) fun key _ _ hlate => ?_
    exact absurd (hearly.symm.trans hlate) (by decide)
  | @unsealed key queueId hkey hqueue hearly hsealed =>
    -- a failure: it leaves the key only if that was its own successor
    obtain ⟨hkey', hseq'⟩ := hlane _ hsilent.symm
    rw [hkey', hseq']
    constructor
    · rintro (⟨-, hsame, -⟩ | ⟨h, -⟩)
      · intro key' hkey₁ _ _
        obtain rfl := Option.some.inj (hkey.symm.trans hkey₁)
        exact .inr ⟨hsealed, Option.some.inj (hsame.trans hkey)⟩
      · cases h
    · intro hsafe
      rcases hsafe key hkey (by simp [hqueue]) hearly with ⟨h, -⟩ | ⟨-, hstill⟩
      · exact absurd hsealed h
      · refine .inl ⟨rfl, ?_, rfl⟩
        rw [hkey]
        exact congrArg some hstill
  | @sealed key queueId encrypted ephemeral hkey hqueue hearly hsealed =>
    obtain ⟨hkey', hseq'⟩ := hlane _ hsilent.symm
    rw [hkey', hseq']
    -- the number has moved, so it has to be a success
    have hmoved : s.sendSeq + 1 ≠ s.sendSeq := by omega
    constructor
    · rintro (⟨-, -, hsame⟩ | ⟨hdone, -⟩)
      · exact absurd hsame hmoved
      · intro key' hkey₁ _ _
        obtain rfl := Option.some.inj (hkey.symm.trans hkey₁)
        simp only [Bool.and_eq_true, Bool.not_eq_true'] at hdone
        exact .inl ⟨by simp [hsealed], hdone.1, hdone.2⟩
    · intro hsafe
      rcases hsafe key hkey (by simp [hqueue]) hearly with ⟨-, hemit, hlate⟩ | ⟨h, -⟩
      · exact .inr ⟨by rw [hemit, hlate]; rfl, rfl, key, hkey, rfl⟩
      · cases hsealed.symm.trans h

end

/-! ## Runs -/

def isMessage : Emit Base64 → Bool
  | .pushQueue _ (.message _ _ _) => true
  | _ => false

/-- The messages among what has been emitted. -/
def messages (emitted : List (Emit Base64)) : List (Emit Base64) := emitted.filter isMessage

/-- The sending chain, and what has been sent along it. -/
def lane (s : ChatManager Base64) :
    Option (List UInt8) × ℕ × Option String × Bool × List (Emit Base64) :=
  (s.sendChainKey, s.sendSeq, s.sessionId, s.hasSocket, messages s.emitted)

inductive Step (Base64 : Type)
  | call (f : Faults) (op : SendOp)
  /-- Anything else that a client does within a session. -/
  | other (change : ChatManager Base64 → ChatManager Base64)

section

variable (P : CryptoProvider Text Base64)

def Step.act : Step Base64 → Handler Base64 Unit
  | call f op => discard (op.run P f)
  | other change => modify change

/-- Calls are safe, and what is no call leaves the sending chain alone. -/
def Step.Meets : Step Base64 → ChatManager Base64 → Prop
  | call f op, s => Safe P f (op.content s) s
  | other change, s => lane (change s) = lane s

/-- A message under a chain key, with a number. -/
def Under (sessionId : Option String) (key : List UInt8) (seq : ℕ) (e : Emit Base64) : Prop :=
  ∃ content role nonce encrypted queueId ephemeral,
    P.encryptMessage (P.deriveChainKeys key).1 (P.write content) role seq sessionId nonce =
      some encrypted ∧
    e = .pushQueue queueId (.message encrypted.iv encrypted.ciphertext ephemeral)

/-- From `s` to `s'` the messages go out one after the other, each under the next key and with the
next number. -/
structure Lockstep (s s' : ChatManager Base64) (letters : List (Emit Base64)) : Prop where
  socket  : s'.hasSocket = s.hasSocket
  session : s'.sessionId = s.sessionId
  key     : s'.sendChainKey = s.sendChainKey.map (chainKeyAt P · letters.length)
  seq     : s'.sendSeq = s.sendSeq + letters.length
  emitted : messages s'.emitted = messages s.emitted ++ if s.hasSocket then letters else []
  letter  : ∀ k e, letters[k]? = some e → ∃ key, s.sendChainKey = some key ∧
    Under P s.sessionId (chainKeyAt P key k) (s.sendSeq + k) e

variable {P} {f : Faults} {content : Content} {s s' s'' : ChatManager Base64} {done : Bool}
  {letters letters' : List (Emit Base64)}

theorem chainKeyAt_add (key : List UInt8) (m n : ℕ) :
    chainKeyAt P (chainKeyAt P key m) n = chainKeyAt P key (m + n) := by
  induction n with
  | zero => rfl
  | succ n ih => rw [chainKeyAt, ih, ← Nat.add_assoc, chainKeyAt]

theorem Lockstep.of_lane (h : lane s' = lane s) : Lockstep P s s' [] := by
  obtain ⟨hkey, hrest⟩ := Prod.mk.inj h
  obtain ⟨hseq, hrest⟩ := Prod.mk.inj hrest
  obtain ⟨hsession, hrest⟩ := Prod.mk.inj hrest
  obtain ⟨hsocket, hemitted⟩ := Prod.mk.inj hrest
  refine ⟨hsocket, hsession, ?_, hseq, ?_, fun k e he => ?_⟩
  · rw [hkey]
    cases s.sendChainKey <;> rfl
  · rw [hemitted, ite_self, List.append_nil]
  · cases he

/-- What goes out first, and what goes out then. -/
theorem Lockstep.trans (h : Lockstep P s s' letters) (h' : Lockstep P s' s'' letters') :
    Lockstep P s s'' (letters ++ letters') := by
  refine ⟨h'.socket.trans h.socket, h'.session.trans h.session, ?_, ?_, ?_, fun k e he => ?_⟩
  · rw [h'.key, h.key, Option.map_map, List.length_append]
    congr 1
    funext key
    exact chainKeyAt_add key letters.length letters'.length
  · rw [h'.seq, h.seq, List.length_append, Nat.add_assoc]
  · rw [h'.emitted, h.emitted, h.socket, List.append_assoc]
    cases s.hasSocket <;> rfl
  · by_cases hk : k < letters.length
    · rw [List.getElem?_append_left hk] at he
      exact h.letter k e he
    · -- the keys of the second part are those of the first, further on
      rw [List.getElem?_append_right (by omega)] at he
      obtain ⟨key', hkey', hunder⟩ := h'.letter _ e he
      rw [h.key, Option.map_eq_some_iff] at hkey'
      obtain ⟨key, hkey, rfl⟩ := hkey'
      rw [h.session, h.seq, chainKeyAt_add, Nat.add_assoc, Nat.add_sub_cancel' (by omega)] at hunder
      exact ⟨key, hkey, hunder⟩

theorem lane_of_silent (h : s'.silent = s.silent) : lane s' = lane s := by
  have hcore := congrArg Prod.fst h
  have hemitted : s'.emitted = s.emitted := congrArg Prod.snd h
  unfold lane
  rw [hemitted, show s'.sendChainKey = s.sendChainKey from congrArg (fun c : Core => c.sendChainKey)
    hcore, show s'.sendSeq = s.sendSeq from congrArg (fun c : Core => c.sendSeq) hcore,
    show s'.sessionId = s.sessionId from congrArg (fun c : Core => c.sessionId) hcore,
    show s'.hasSocket = s.hasSocket from congrArg (fun c : Core => c.hasSocket) hcore]

/-- One message more. -/
theorem lockstep_counted {key : List UInt8} {encrypted : EncryptedPayload Base64}
    (hkey : s.sendChainKey = some key) (hsealed : sealed? P s key content = some encrypted)
    (hemit : f.emit = false) (queueId : String) (ephemeral : Bool) :
    Lockstep P s (counted f (.pushQueue queueId
      (.message encrypted.iv encrypted.ciphertext ephemeral)) (keyed P key s))
      [.pushQueue queueId (.message encrypted.iv encrypted.ciphertext ephemeral)] where
  socket  := rfl
  session := rfl
  key     := by
    rw [hkey]
    rfl
  seq     := rfl
  emitted := by
    unfold counted keyed
    dsimp only
    rw [hemit]
    cases s.hasSocket with
    | false => simp
    | true => simp [messages, isMessage]
  letter k e he := by
    obtain ⟨role, -, hencrypt⟩ := Option.bind_eq_some_iff.mp hsealed
    cases k with
    | zero =>
      obtain rfl := Option.some.inj he
      exact ⟨key, hkey, content, role, s.nonces 0, encrypted, queueId, ephemeral, hencrypt, rfl⟩
    | succ k => cases he

/-- A safe call sends nothing, or the next message. -/
theorem Outcome.lockstep (h : Outcome P f content s done s'.silent) (hsafe : Safe P f content s) :
    ∃ letters, Lockstep P s s' letters := by
  generalize hsilent : s'.silent = c at h
  cases h with
  | idle hidle => exact ⟨[], .of_lane (lane_of_silent hsilent)⟩
  | early hkey hqueue hearly => exact ⟨[], .of_lane (lane_of_silent hsilent)⟩
  | @unsealed key queueId hkey hqueue hearly hsealed =>
    rcases hsafe key hkey (by simp [hqueue]) hearly with ⟨h, -⟩ | ⟨-, hstill⟩
    · exact absurd hsealed h
    · refine ⟨[], .of_lane ((lane_of_silent hsilent).trans ?_)⟩
      unfold lane keyed
      rw [hstill, ← hkey]
  | @sealed key queueId encrypted ephemeral hkey hqueue hearly hsealed =>
    rcases hsafe key hkey (by simp [hqueue]) hearly with ⟨-, hemit, hlate⟩ | ⟨h, -⟩
    · exact ⟨_, (lockstep_counted hkey hsealed hemit queueId ephemeral).trans
        (.of_lane (lane_of_silent hsilent))⟩
    · cases hsealed.symm.trans h

theorem lockstep_act {step : Step Base64} (hmeets : step.Meets P s) :
    ∃ letters, Lockstep P s (step.act P s).state letters := by
  cases step with
  | call f op =>
    obtain ⟨done, s', hrun, houtcome⟩ := run_outcome P f op s
    have hstate : ((Step.call f op).act P s).state = s' := by
      have hdiscard : ((Step.call f op).act P s).state = (op.run P f s).state :=
        EStateM.state_map (Function.const Bool PUnit.unit) (op.run P f) s
      rw [hdiscard, hrun]
      rfl
    rw [hstate]
    exact houtcome.lockstep hmeets
  | other change => exact ⟨[], .of_lane hmeets⟩

/-- A run whose calls are safe is in lockstep. -/
theorem lockstep_run (steps : List (Step Base64))
    (hmeet : AllMeet (Step.act P) (Step.Meets P) steps s) :
    ∃ letters, Lockstep P s (after (Step.act P) steps s) letters := by
  induction steps generalizing s with
  | nil => exact ⟨[], .of_lane rfl⟩
  | cons step steps ih =>
    -- the run goes on from the keys and numbers that the first step leaves
    obtain ⟨letters, hfirst⟩ := lockstep_act hmeet.1
    obtain ⟨letters', hrest⟩ := ih hmeet.2
    exact ⟨letters ++ letters', hfirst.trans hrest⟩

end

/-- A call is atomic exactly if it is safe, in every state and whatever throws; and in a run of safe
calls the `k`-th message has the `k`-th key and number. -/
theorem atomic_iff (P : CryptoProvider Text Base64) :
    (∀ (f : Faults) (op : SendOp) (s : ChatManager Base64),
      ∃ done s', op.run P f s = .ok done s' ∧ (Atomic P s s' done ↔ Safe P f (op.content s) s)) ∧
    ∀ (steps : List (Step Base64)) (s : ChatManager Base64),
      AllMeet (Step.act P) (Step.Meets P) steps s →
      ∃ letters, Lockstep P s (after (Step.act P) steps s) letters := by
  constructor
  · intro f op s
    obtain ⟨done, s', hrun, houtcome⟩ := run_outcome P f op s
    exact ⟨done, s', hrun, houtcome.atomic_iff_safe⟩
  · intro steps s hmeet
    exact lockstep_run steps hmeet

/-! ## A client in a session -/

def speaking : ChatManager Sealed :=
  { newClient with
    hasSocket    := true
    theirQueueId := some "queue"
    sendChainKey := some [7]
    myRole       := some .a
    sessionId    := some "12345" }

/-- No call throws. -/
def calm : Faults := ⟨false, false, false⟩

theorem safe_sampleProvider {content : Content} {s : ChatManager Sealed} (hrole : s.myRole ≠ none) :
    Safe sampleProvider calm content s := by
  intro key hkey hqueue hearly
  obtain ⟨role, hrole⟩ := Option.ne_none_iff_exists'.mp hrole
  refine .inl ⟨?_, rfl, rfl⟩
  unfold sealed?
  rw [hrole]
  exact Option.some_ne_none _

/-- A heartbeat and a text. -/
theorem atomic_heartbeat :
    (∃ done s', SendOp.keepAlive.run sampleProvider calm speaking = .ok done s' ∧
      (Atomic sampleProvider speaking s' done ↔
        Safe sampleProvider calm (SendOp.keepAlive.content speaking) speaking)) ∧
    ∃ letters, Lockstep sampleProvider speaking (after (Step.act sampleProvider)
      [.call calm .keepAlive, .call calm (.sendPrivateMessage "hi")] speaking) letters := by
  obtain ⟨hcall, hrun⟩ := atomic_iff sampleProvider
  have hrole : ((Step.call calm .keepAlive).act sampleProvider speaking).state.myRole =
    some .a := rfl
  have hfirst : Safe sampleProvider calm (SendOp.keepAlive.content speaking) speaking :=
    safe_sampleProvider (Option.some_ne_none _)
  have hsecond : (Step.call calm (.sendPrivateMessage "hi")).Meets sampleProvider
      ((Step.call calm .keepAlive).act sampleProvider speaking).state :=
    safe_sampleProvider (by rw [hrole]; exact Option.some_ne_none _)
  exact ⟨hcall calm .keepAlive speaking, hrun _ speaking ⟨hfirst, hsecond, trivial⟩⟩

/-- A native library that throws. -/
def refusing : CryptoProvider Content Sealed :=
  { sampleProvider with encryptMessage := fun _ _ _ _ _ _ => none }

/-- The text is not sent, the number stays, and the chain has moved on. -/
theorem refused_text_moves :
    ∃ done s', (SendOp.sendPrivateMessage "hi").run refusing calm speaking = .ok done s' ∧
      ¬ Atomic refusing speaking s' done := by
  refine ⟨false, _, rfl, ?_⟩
  rintro (⟨-, hkey, -⟩ | ⟨hdone, -⟩)
  · exact absurd (Option.some.inj hkey) (by decide)
  · cases hdone

end AnonyMus.Android.Chat.Sending
