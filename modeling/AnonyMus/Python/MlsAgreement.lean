import AnonyMus.Python.Atomicity
import AnonyMus.Python.Mls

/-!
# Python core — agreement in an epoch

Copies of a group at one epoch are to have one list of members and one key. Two
commits for one epoch stand against that: a copy applies its own commit at once,
and `process_commit` compares nothing.

* `Agreement` — copies at one epoch agree, and read each other's messages;
* `Serial` — no commit is made for an epoch that has one;
* `agreement_of_serial` — copies then agree throughout a run;
* `forked_epoch` — two members are added at once.
-/

namespace AnonyMus.Python.Mls

open EStateM
open Lineage

section

variable {ι : Type}

/-- The documentation of `cryptography`: AES-GCM opens what it has sealed. -/
def Opens (L : Library) : Prop :=
  ∀ (key : Bytes 32) (nonce : Bytes 12) (data aad sealed : List UInt8),
    L.aesgcmEncrypt key.1 nonce.1 data aad = .ok sealed →
      L.aesgcmDecrypt key.1 nonce.1 sealed aad = .ok data

/-- Copies at one epoch have the same members and the same key, and each can read what another
encrypts. -/
structure Agreement (L : Library) (w : Group ι) : Prop where
  members : ∀ r r', (w.context r).epoch = (w.context r').epoch →
    (w.context r).members = (w.context r').members
  secret  : ∀ r r', (w.context r).epoch = (w.context r').epoch →
    (w.context r).appSecret = (w.context r').appSecret
  reads   : ∀ r r', (w.context r).epoch = (w.context r').epoch → ∀ plaintext nonce payload,
    encryptGroupMessage L plaintext nonce (w.context r) = .ok payload →
      decryptGroupMessage L payload (w.context r') = .ok plaintext

/-- A copy makes a commit only if none has been issued for the next epoch. -/
def Serial (e : GroupEvent ι) (w : Group ι) : Prop :=
  ∀ r, e.issuer? = some r → ∀ (k : ℕ) (entry : Entry EpochState), w.issued[k]? = some entry →
    entry.state.epoch ≠ (w.context r).epoch + 1

/-- What is sealed under a key and a group opens under them. -/
theorem decrypt_encrypt {L : Library} (hopens : Opens L) {g g' : MLSGroupContext}
    {plaintext : String} {nonce : Bytes 12} {payload : GroupPayload} (hepoch : g.epoch = g'.epoch)
    (hgroupId : g.groupId = g'.groupId) (hsecret : g.appSecret = g'.appSecret)
    (hsent : encryptGroupMessage L plaintext nonce g = .ok payload) :
    decryptGroupMessage L payload g' = .ok plaintext := by
  unfold encryptGroupMessage at hsent
  obtain ⟨ciphertext, hseal, hsent⟩ := except_bind_eq_ok_iff.mp hsent
  obtain rfl := Except.ok.inj hsent
  have hopen := hopens g.appSecret nonce _ _ _ hseal
  rw [hsecret, hgroupId] at hopen
  unfold decryptGroupMessage
  dsimp only
  rw [if_neg (not_not.mpr hepoch), b64decode_b64encode, b64decode_b64encode]
  simp only [except_ok_bind]
  rw [hopen, except_ok_bind, decodeUtf8_toUTF8]

variable {hkdf : Hkdf32} {c₀ : MLSGroupContext} {w : Group ι}

/-- Every epoch has one state, which every copy at this epoch has. -/
structure OneState (hkdf : Hkdf32) (c₀ : MLSGroupContext) (w : Group ι) : Prop where
  sound    : w.Sound
  starts   : ∀ r s, (w.replicas r).mark = .start s → s = c₀.start
  distinct : Distinct EpochState.epoch c₀.start w.issued
  later    : ∀ (k : ℕ) (entry : Entry EpochState), w.issued[k]? = some entry →
    c₀.epoch < entry.state.epoch ∧ entry.state.groupId = c₀.groupId
  since    : ∀ r, c₀.epoch ≤ (w.context r).epoch ∧ (w.context r).groupId = c₀.groupId
  secret   : ∀ r, (w.context r).appSecret = if (w.context r).epoch = c₀.epoch then c₀.appSecret
    else deriveAppSecret hkdf c₀.groupId (w.context r).epoch (w.context r).epochSecret

/-- A copy stays as it is, or has a later epoch with the secret derived for it. -/
theorem OneState.copies (h : OneState hkdf c₀ w) (w' : Group ι)
    (hcopies : ∀ r, w'.context r = w.context r ∨
      c₀.epoch < (w'.context r).epoch ∧ (w'.context r).groupId = c₀.groupId ∧
        (w'.context r).appSecret = deriveAppSecret hkdf c₀.groupId (w'.context r).epoch
          (w'.context r).epochSecret) :
    (∀ r, c₀.epoch ≤ (w'.context r).epoch ∧ (w'.context r).groupId = c₀.groupId) ∧
      ∀ r, (w'.context r).appSecret = if (w'.context r).epoch = c₀.epoch then c₀.appSecret
        else deriveAppSecret hkdf c₀.groupId (w'.context r).epoch (w'.context r).epochSecret := by
  constructor
  · intro r
    rcases hcopies r with hsame | ⟨hlt, hgroupId, -⟩
    · rw [hsame]
      exact h.since r
    · exact ⟨Nat.le_of_lt hlt, hgroupId⟩
  · intro r
    rcases hcopies r with hsame | ⟨hlt, -, hsecret⟩
    · rw [hsame]
      exact h.secret r
    · rw [if_neg (Nat.ne_of_gt hlt), hsecret]

theorem oneState_step [DecidableEq ι] (e : GroupEvent ι) (h : OneState hkdf c₀ w)
    (hserial : Serial e w) : OneState hkdf c₀ (e.step hkdf w) := by
  have hsound : (e.step hkdf w).Sound := by
    refine sound_step e h.sound ?_
    intro r k entry _ hentry
    rw [(h.later k entry hentry).2, (h.since r).2]
  rcases step_cases e w with ⟨r, change, epochSecret, hissuer, hstep⟩ |
    ⟨r, k, entry, rfl, hentry, hstep⟩ | hstep
  · -- the commit is the first one for its epoch
    rw [hstep] at hsound ⊢
    have hlt : c₀.epoch < (w.context r).epoch + 1 := Nat.lt_succ_of_le (h.since r).1
    obtain ⟨hsince, hsecret⟩ := h.copies (w.issue r (changed hkdf change epochSecret (w.context r)))
      fun r' => by
        unfold Group.context
        rw [replicas_issue]
        split_ifs
        · refine .inr ⟨hlt, (h.since r).2, ?_⟩
          show deriveAppSecret hkdf (w.context r).groupId _ _ = _
          rw [(h.since r).2]
          rfl
        · exact .inl rfl
    refine ⟨hsound, ?_, ?_, ?_, hsince, hsecret⟩
    · intro r' s hmark
      rw [replicas_issue] at hmark
      split_ifs at hmark
      exact h.starts r' s hmark
    · exact h.distinct.append (hserial r hissuer) (Nat.ne_of_gt hlt)
    · intro k entry hentry
      rcases getElem?_append_new hentry with hentry | ⟨-, rfl⟩
      · exact h.later k entry hentry
      · exact ⟨hlt, (h.since r).2⟩
  · rw [hstep] at hsound ⊢
    obtain ⟨hlt, hgroupId⟩ := h.later k entry hentry
    obtain ⟨hsince, hsecret⟩ := h.copies (w.take hkdf r k entry.state) fun r' => by
      unfold Group.context
      rw [replicas_take]
      split_ifs
      · refine .inr ⟨hlt, (h.since r).2, ?_⟩
        show deriveAppSecret hkdf (w.context r).groupId _ _ = _
        rw [(h.since r).2]
        rfl
      · exact .inl rfl
    refine ⟨hsound, ?_, h.distinct, h.later, hsince, hsecret⟩
    intro r' s hmark
    rw [replicas_take] at hmark
    split_ifs at hmark
    exact h.starts r' s hmark
  · rw [hstep]
    exact h

theorem oneState_opened : OneState hkdf c₀ (Group.opened fun _ : ι => c₀) := by
  refine ⟨sound_opened _, ?_, ⟨?_, ?_⟩, ?_, fun _ => ⟨Nat.le_refl _, rfl⟩, fun _ => ?_⟩
  · rintro r s ⟨⟩
    rfl
  · intro j k entry entry' hentry
    cases hentry
  · intro k entry hentry
    cases hentry
  · intro k entry hentry
    cases hentry
  · exact (if_pos rfl).symm

theorem agreement_of_oneState {L : Library} (hopens : Opens L) (h : OneState hkdf c₀ w) :
    Agreement L w := by
  have hstate : ∀ r r', (w.context r).epoch = (w.context r').epoch →
      (w.context r).members = (w.context r').members ∧
        (w.context r).epochSecret = (w.context r').epochSecret := by
    intro r r' hepoch
    obtain ⟨s, hs⟩ := h.sound.holds r
    obtain ⟨t, ht⟩ := h.sound.holds r'
    have hkey : s.epoch = t.epoch := by
      rw [← hs.epoch, ← ht.epoch]
      exact hepoch
    have hst : s = t :=
      h.distinct.state_eq hs.state ht.state (h.starts r) (h.starts r') hkey
    refine ⟨?_, ?_⟩
    · exact hs.members.trans (hst ▸ ht.members.symm)
    · exact hs.secret.trans (hst ▸ ht.secret.symm)
  have hsecret : ∀ r r', (w.context r).epoch = (w.context r').epoch →
      (w.context r).appSecret = (w.context r').appSecret := by
    intro r r' hepoch
    rw [h.secret r, h.secret r', hepoch, (hstate r r' hepoch).2]
  refine ⟨fun r r' hepoch => (hstate r r' hepoch).1, hsecret, ?_⟩
  intro r r' hepoch plaintext nonce payload hsent
  exact decrypt_encrypt hopens hepoch ((h.since r).2.trans (h.since r').2.symm)
    (hsecret r r' hepoch) hsent

end

/-- Copies that start equal agree throughout every run in which no commit is made for an epoch that
has one; commits may be processed in any order, and more than once. -/
theorem agreement_of_serial {ι : Type} [DecidableEq ι] (hkdf : Hkdf32) {L : Library}
    (hopens : Opens L) (c₀ : MLSGroupContext) (events : List (GroupEvent ι))
    (hserial : AllMeet (GroupEvent.run hkdf) Serial events (Group.opened fun _ => c₀)) :
    Agreement L (after (GroupEvent.run hkdf) events (Group.opened fun _ => c₀)) := by
  have hstep : ∀ e (w : Group ι), OneState hkdf c₀ w → Serial e w →
      OneState hkdf c₀ ((GroupEvent.run hkdf e) w).state := fun e w h hs => oneState_step e h hs
  exact agreement_of_oneState hopens (AllMeet.invariant hstep hserial oneState_opened)

/-! ## Samples -/

/-- A derivation that mixes nothing. -/
def sampleHkdf : Hkdf32 := fun salt info ikm =>
  ⟨(ikm ++ salt ++ info ++ List.replicate 32 0).take 32, by
    rw [List.length_take, List.length_append, List.length_replicate]
    omega⟩

def sampleContext : MLSGroupContext := create sampleHkdf "g" "alice" (Bytes.replicate 32 0)

theorem opens_sampleLibrary : Opens sampleLibrary := by
  intro key nonce data aad sealed hseal
  obtain rfl := Except.ok.inj hseal
  unfold sampleLibrary
  dsimp only
  rw [List.take_left, List.drop_left, if_pos rfl]

/-- One copy adds, the other takes the commit and rotates, and the first takes that one twice. -/
def serialRun : List (GroupEvent Bool) :=
  [.add false ⟨"bob", "key"⟩, .process true 0, .rotate true (Bytes.replicate 32 1),
    .process false 1, .process false 1]

theorem agreement_serialRun :
    (Opens sampleLibrary ∧
      AllMeet (GroupEvent.run sampleHkdf) Serial serialRun (Group.opened fun _ => sampleContext)) ∧
    Agreement sampleLibrary
      (after (GroupEvent.run sampleHkdf) serialRun (Group.opened fun _ => sampleContext)) := by
  have hserial : AllMeet (GroupEvent.run sampleHkdf) Serial serialRun
      (Group.opened fun _ => sampleContext) := by
    refine ⟨?_, ?_, ?_, ?_, ?_, trivial⟩
    · intro r hissuer k entry hentry
      cases hentry
    · intro r hissuer
      cases hissuer
    · -- the only commit is for the first epoch
      rintro r ⟨⟩ k entry hentry
      match k, hentry with
      | 0, hentry =>
        obtain rfl := Option.some.inj hentry
        decide
    · intro r hissuer
      cases hissuer
    · intro r hissuer
      cases hissuer
  exact ⟨⟨opens_sampleLibrary, hserial⟩,
    agreement_of_serial sampleHkdf opens_sampleLibrary sampleContext serialRun hserial⟩

/-- Two copies each add a member, in the same epoch. -/
theorem forked_epoch :
    ¬ Agreement sampleLibrary (after (GroupEvent.run sampleHkdf)
      [.add false ⟨"bob", "key"⟩, .add true ⟨"carol", "other key"⟩]
      (Group.opened fun _ => sampleContext)) := by
  intro hagree
  exact absurd (hagree.members false true rfl) (by decide)

end AnonyMus.Python.Mls
