import AnonyMus.Python.SessionJson

/-!
# Python core — sessions that the code makes

Facts that hold of every session the factories and methods of
`core/double_ratchet.py` leave behind, which its ports to other languages rely
on. Private keys stand for their bytes.

* `Sound` — the facts;
* `Sound.skipRound`, `Sound.erase`, `initAlice_sound`, `initBob_sound` — they are kept.
-/

namespace AnonyMus.Python

/-- A session whose private keys stand for their bytes. -/
abbrev PySession := DoubleRatchetSession (Bytes 32)

/-- What holds of the sessions the code makes from a shared secret that is not empty. -/
structure Sound (s : PySession) : Prop where
  root   : s.rootKey ≠ some []
  own    : s.sendingChainKey ≠ none → s.dhPrivate ≠ none
  remote : s.receivingChainKey ≠ none → s.dhRemote ≠ none
  stored : ∀ k v, s.skippedMessageKeys.get? k = some v → ∃ key : Bytes 32, v = toHex key.1

variable {C : Crypto (Bytes 32)} {s : PySession}

theorem Sound.skipRound (hs : Sound s) (d : Bytes 32) (hd : s.dhRemote = some d) :
    Sound (Python.skipRound C d s) := by
  unfold Python.skipRound
  cases hck : s.receivingChainKey with
  | none => exact hs
  | some ck =>
    refine ⟨hs.root, hs.own, ?_, ?_⟩
    · intro _
      show s.dhRemote ≠ none
      rw [hd]
      exact Option.some_ne_none d
    · intro k v hv
      dsimp only at hv
      rw [Dict.get?_insert] at hv
      split_ifs at hv with hk hfull
      · exact ⟨_, (Option.some.inj hv).symm⟩
      -- an eviction only loses keys
      · exact hs.stored k v (Dict.get?_of_get?_dropOldest hv)
      · exact hs.stored k v hv

theorem Sound.erase (hs : Sound s) (k : List Char) :
    Sound { s with skippedMessageKeys := s.skippedMessageKeys.erase k } := by
  refine ⟨hs.root, hs.own, hs.remote, ?_⟩
  intro k' v hv
  dsimp only at hv
  rw [Dict.get?_erase] at hv
  split_ifs at hv
  exact hs.stored k' v hv

theorem skipRound_keeps {ck d : Bytes 32} (hck : s.receivingChainKey = some ck) :
    (∃ ck', (skipRound C d s).receivingChainKey = some ck') ∧
      (skipRound C d s).dhRemote = s.dhRemote ∧
      (skipRound C d s).seqRecv = s.seqRecv + 1 := by
  unfold skipRound
  rw [hck]
  exact ⟨⟨_, rfl⟩, rfl, rfl⟩

/-! ## Initial sessions -/

theorem initBob_sound {ss : List UInt8} (hss : ss ≠ []) (x : Bytes 32) : Sound (initBob ss x) := by
  refine ⟨fun h => hss (Option.some.inj h), fun h => absurd rfl h, fun h => absurd rfl h, ?_⟩
  intro k v hv
  cases hv

theorem initAlice_sound {ss : List UInt8} {x d z : Bytes 32} (hz : C.exchange x d = some z) :
    ∃ s, initAlice C ss d.1 x = .ok s ∧ Sound s := by
  refine ⟨_, initAlice_of_exchange C ss hz, ?_, fun _ => Option.some_ne_none x,
    fun h => absurd rfl h, ?_⟩
  · exact fun h => rootRatchet_ne_nil C _ _ (Option.some.inj h)
  · intro k v hv
    cases hv

end AnonyMus.Python
