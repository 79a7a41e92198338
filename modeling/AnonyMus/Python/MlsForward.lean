import AnonyMus.Python.MlsAgreement

/-!
# Python core — epochs that move forward

A copy of a group is given the commits of any copy of any group, at any time and
more than once. `process_commit` takes over what a commit says, whatever it is.

* `Forward` — epochs do not decrease, foreign commits change nothing, and removed
  members stay out until they are added again;
* `Descending` — a commit is given to a copy whose state it descends from;
* `forward_of_descending` — runs then move forward;
* `rewound_epoch` — a commit is given to its own maker again, after a removal.
-/

namespace AnonyMus.Python.Mls

open EStateM
open Lineage

/-! ## Moving forward -/

section

variable {ι : Type}

/-- Of every moment `done` of a run, and of every later moment. -/
structure Forward [DecidableEq ι] (hkdf : Hkdf32) (events : List (GroupEvent ι)) (w₀ : Group ι) :
    Prop where
  epoch   : ∀ done e todo, events = done ++ e :: todo → ∀ r,
    ((after (GroupEvent.run hkdf) done w₀).context r).epoch ≤
      ((after (GroupEvent.run hkdf) (done ++ [e]) w₀).context r).epoch
  foreign : ∀ done r k todo entry, events = done ++ .process r k :: todo →
    (after (GroupEvent.run hkdf) done w₀).issued[k]? = some entry →
    entry.state.groupId ≠ ((after (GroupEvent.run hkdf) done w₀).context r).groupId →
      (after (GroupEvent.run hkdf) (done ++ [.process r k]) w₀).context r =
        (after (GroupEvent.run hkdf) done w₀).context r
  /-- The commit that adds the member comes after the one that the copy had at `done`. -/
  stays   : ∀ done mid todo, events = done ++ mid ++ todo → ∀ r memberId,
    memberId ∉ ((after (GroupEvent.run hkdf) done w₀).context r).members →
    memberId ∈ ((after (GroupEvent.run hkdf) (done ++ mid) w₀).context r).members →
      ∃ (j : ℕ) (entry : Entry EpochState),
        (after (GroupEvent.run hkdf) (done ++ mid) w₀).issued[j]? = some entry ∧
          entry.state.change = some (.addedClientId memberId) ∧
            ((after (GroupEvent.run hkdf) done w₀).replicas r).mark.Before j

/-- A commit is given to a copy only if it is the last one that the copy has made or taken, or
descends from that one. -/
def Descending (e : GroupEvent ι) (w : Group ι) : Prop :=
  ∀ r k entry, e = .process r k → w.issued[k]? = some entry →
    Leads w.issued (w.replicas r).mark (.entry k)

/-! ## What a line of commits keeps -/

/-- The group is one, and the epoch does not decrease. -/
structure Onward (s t : EpochState) : Prop where
  groupId : t.groupId = s.groupId
  epoch   : s.epoch ≤ t.epoch

instance : IsTrans EpochState Onward where
  trans _ _ _ h h' := ⟨h'.groupId.trans h.groupId, Nat.le_trans h.epoch h'.epoch⟩

theorem Issues.onward {s t : EpochState} (h : Issues s t) : Onward s t where
  groupId := h.groupId
  epoch   := by
    rw [h.epoch]
    omega

/-- A change that brings a member in adds it. -/
theorem Change.eq_of_mem_apply {change : Change} {members : List String} {memberId : String}
    (hnot : memberId ∉ members) (h : memberId ∈ change.apply members) :
    change = .addedClientId memberId := by
  rcases change with clientId | other | _
  · unfold Change.apply at h
    dsimp only at h
    split_ifs at h
    · exact absurd h hnot
    · rcases List.mem_append.mp h with h | h
      · exact absurd h hnot
      · rw [List.mem_singleton.mp h]
  · exact absurd (List.mem_of_mem_erase h) hnot
  · exact absurd h hnot

variable {log : List (Entry EpochState)} {a b : Mark EpochState} {s t : EpochState}
  {memberId : String}

/-- A state in the line of another one. -/
theorem onward_of_leads (hgrown : Grown Issues log) (hs : a.state? log = some s)
    (ht : b.state? log = some t) (h : Leads log a b) : Onward s t := by
  rcases h with rfl | ⟨k, rfl, hfollows⟩
  · obtain rfl := Option.some.inj (hs.symm.trans ht)
    exact ⟨rfl, Nat.le_refl _⟩
  · obtain ⟨entry, hentry, rfl⟩ := Option.map_eq_some_iff.mp ht
    exact hfollows.related hgrown (fun _ _ => Issues.onward) hs hentry

/-- Who is a member further on in a line, and was not, has been added on the way. -/
theorem exists_added (hgrown : Grown Issues log) (hs : a.state? log = some s)
    (ht : b.state? log = some t) (h : Leads log a b) (hnot : memberId ∉ s.members)
    (hmem : memberId ∈ t.members) :
    ∃ (j : ℕ) (entry : Entry EpochState), log[j]? = some entry ∧
      entry.state.change = some (.addedClientId memberId) ∧ a.Before j := by
  rcases h with rfl | ⟨k, rfl, hfollows⟩
  · obtain rfl := Option.some.inj (hs.symm.trans ht)
    exact absurd hmem hnot
  · obtain ⟨entry, hentry, rfl⟩ := Option.map_eq_some_iff.mp ht
    -- the first commit of the line that lists the member
    obtain ⟨j, made, before, hbefore, hmade, hissues, hout, hin⟩ :=
      hfollows.exists_change (P := fun s => memberId ∈ s.members) hgrown hs hnot hentry hmem
    obtain ⟨change, hchange, hmembers⟩ := hissues.members
    rw [hmembers] at hin
    exact ⟨j, made, hmade, hchange.trans (congrArg some (Change.eq_of_mem_apply hout hin)), hbefore⟩

/-! ## Runs -/

variable {hkdf : Hkdf32} {w w' : Group ι}

/-- From one moment to a later one: no commit is lost, and the copies have moved along lines. -/
structure Reaches (w w' : Group ι) : Prop where
  issued : w.issued <+: w'.issued
  leads  : ∀ r, Leads w'.issued (w.replicas r).mark (w'.replicas r).mark

theorem Reaches.refl (w : Group ι) : Reaches w w := ⟨List.prefix_rfl, fun _ => .inl rfl⟩

theorem Reaches.trans {w'' : Group ι} (h : Reaches w w') (h' : Reaches w' w'') : Reaches w w'' where
  issued := h.issued.trans h'.issued
  leads r := by
    obtain ⟨log', hlog⟩ := h'.issued
    have hleads := (h.leads r).append log'
    rw [hlog] at hleads
    exact hleads.trans (h'.leads r)

theorem reaches_step [DecidableEq ι] (e : GroupEvent ι) (hdescending : Descending e w) :
    Reaches w (e.step hkdf w) := by
  rcases step_cases e w with ⟨r, change, epochSecret, -, hstep⟩ | ⟨r, k, entry, rfl, hentry, hstep⟩ |
    hstep
  · rw [hstep]
    refine ⟨List.prefix_append _ _, fun r' => ?_⟩
    rw [replicas_issue]
    split_ifs with hr
    · subst hr
      exact leads_append_new _ _ _
    · exact .inl rfl
  · rw [hstep]
    refine ⟨List.prefix_rfl, fun r' => ?_⟩
    rw [replicas_take]
    split_ifs with hr
    · subst hr
      exact hdescending r' k entry rfl hentry
    · exact .inl rfl
  · rw [hstep]
    exact .refl w

/-- A commit that a copy is given is of its group. -/
theorem groupId_of_descending (h : w.Sound) {r : ι} {k : ℕ} {entry : Entry EpochState}
    (hdescending : Descending (.process r k) w) (hentry : w.issued[k]? = some entry) :
    entry.state.groupId = (w.context r).groupId := by
  obtain ⟨s, hs⟩ := h.holds r
  have hstate : (Mark.entry k).state? w.issued = some entry.state := by
    show (w.issued[k]?).map Entry.state = some entry.state
    rw [hentry]
    rfl
  exact (onward_of_leads h.grown hs.state hstate (hdescending r k entry rfl hentry)).groupId.trans
    hs.groupId.symm

/-- What a run of descending commits leads to. -/
theorem run_descending [DecidableEq ι] {events : List (GroupEvent ι)} (h : w.Sound)
    (hmeet : AllMeet (GroupEvent.run hkdf) Descending events w) :
    (after (GroupEvent.run hkdf) events w).Sound ∧
      Reaches w (after (GroupEvent.run hkdf) events w) := by
  have hstep : ∀ e (w' : Group ι), w'.Sound ∧ Reaches w w' → Descending e w' →
      ((GroupEvent.run hkdf e) w').state.Sound ∧ Reaches w ((GroupEvent.run hkdf e) w').state := by
    rintro e w' ⟨hsound, hreaches⟩ hdescending
    refine ⟨sound_step e hsound ?_, hreaches.trans (reaches_step e hdescending)⟩
    rintro r k entry rfl hentry
    exact groupId_of_descending hsound hdescending hentry
  exact AllMeet.invariant hstep hmeet ⟨h, .refl w⟩

theorem Reaches.onward (h : Reaches w w') (hw : w.Sound) (hw' : w'.Sound) (r : ι) :
    ∃ s t, (w.replicas r).Holds w'.issued s ∧ (w'.replicas r).Holds w'.issued t ∧ Onward s t := by
  obtain ⟨s, hs⟩ := hw.holds r
  obtain ⟨t, ht⟩ := hw'.holds r
  obtain ⟨log', hlog⟩ := h.issued
  have hs' := hs.append log'
  rw [hlog] at hs'
  exact ⟨s, t, hs', ht, onward_of_leads hw'.grown hs'.state ht.state (h.leads r)⟩

end

/-- Copies of any groups move forward in every run in which each commit that a copy is given
descends from its state. -/
theorem forward_of_descending {ι : Type} [DecidableEq ι] (hkdf : Hkdf32)
    (contexts : ι → MLSGroupContext) (events : List (GroupEvent ι))
    (hmeet : AllMeet (GroupEvent.run hkdf) Descending events (Group.opened contexts)) :
    Forward hkdf events (Group.opened contexts) := by
  have hparts : ∀ done todo, events = done ++ todo →
      (after (GroupEvent.run hkdf) done (Group.opened contexts)).Sound ∧
        AllMeet (GroupEvent.run hkdf) Descending todo
          (after (GroupEvent.run hkdf) done (Group.opened contexts)) := by
    rintro done todo rfl
    obtain ⟨hdone, htodo⟩ := (allMeet_append _).mp hmeet
    exact ⟨(run_descending (sound_opened contexts) hdone).1, htodo⟩
  constructor
  · rintro done e todo rfl r
    obtain ⟨hsound, hmeet'⟩ := hparts done (e :: todo) rfl
    have hevent : AllMeet (GroupEvent.run hkdf) Descending [e]
        (after (GroupEvent.run hkdf) done (Group.opened contexts)) := ⟨hmeet'.1, trivial⟩
    obtain ⟨hsound', hreaches⟩ := run_descending hsound hevent
    obtain ⟨s, t, hs, ht, honward⟩ := hreaches.onward hsound hsound' r
    rw [after_append]
    calc _ = s.epoch := hs.epoch
      _ ≤ t.epoch := honward.epoch
      _ = _ := ht.epoch.symm
  · -- no commit of another group is given
    rintro done r k todo entry rfl hentry hgroupId
    obtain ⟨hsound, hmeet'⟩ := hparts done (.process r k :: todo) rfl
    exact absurd (groupId_of_descending hsound hmeet'.1 hentry) hgroupId
  · rintro done mid todo hevents r memberId hnot hmem
    obtain ⟨hsound, hmeet'⟩ := hparts done (mid ++ todo) (hevents.trans (List.append_assoc _ _ _))
    obtain ⟨hsound', hreaches⟩ := run_descending hsound ((allMeet_append _).mp hmeet').1
    obtain ⟨s, t, hs, ht, -⟩ := hreaches.onward hsound hsound' r
    rw [after_append] at hmem ⊢
    have hnot' : memberId ∉ s.members := fun h => hnot (hs.members.symm ▸ h)
    have hmem' : memberId ∈ t.members := ht.members ▸ hmem
    exact exists_added hsound'.grown hs.state ht.state (hreaches.leads r) hnot' hmem'

/-- One copy adds, the other takes the commit and removes, and the first takes that one twice. -/
def descendingRun : List (GroupEvent Bool) :=
  [.add false ⟨"bob", "key"⟩, .process true 0, .remove true "bob" (Bytes.replicate 32 1),
    .process false 1, .process false 1]

theorem forward_descendingRun :
    AllMeet (GroupEvent.run sampleHkdf) Descending descendingRun
        (Group.opened fun _ => sampleContext) ∧
      Forward sampleHkdf descendingRun (Group.opened fun _ => sampleContext) := by
  have hmeet : AllMeet (GroupEvent.run sampleHkdf) Descending descendingRun
      (Group.opened fun _ => sampleContext) := by
    refine ⟨?_, ?_, ?_, ?_, ?_, trivial⟩
    · rintro r k entry ⟨⟩
    · -- made in the state that both have started with
      rintro r k entry ⟨⟩ -
      exact .inr ⟨0, rfl, .next rfl rfl⟩
    · rintro r k entry ⟨⟩
    · rintro r k entry ⟨⟩ -
      exact .inr ⟨1, rfl, .next rfl rfl⟩
    · rintro r k entry ⟨⟩ -
      exact .inl rfl
  exact ⟨hmeet, forward_of_descending sampleHkdf _ descendingRun hmeet⟩

/-- The commit that has added a member is processed after the one that has removed it. -/
theorem rewound_epoch :
    ¬ Forward sampleHkdf
      [.add () ⟨"bob", "key"⟩, .remove () "bob" (Bytes.replicate 32 1), .process () 0]
      (Group.opened fun _ : Unit => sampleContext) := by
  intro hforward
  have hepoch := hforward.epoch
    [.add () ⟨"bob", "key"⟩, .remove () "bob" (Bytes.replicate 32 1)] (.process () 0) [] rfl ()
  exact absurd hepoch (by decide)

end AnonyMus.Python.Mls
