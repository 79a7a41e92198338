import AnonyMus.Relay.StoreForward

/-!
# Relay server — steps that keep payloads in line

Each command of the handlers keeps the accepted payloads of a queue in line, if
it is allowed: those outside a flush by `Inv.plain`, those of a flush one by one.

* `Inv.quiet`, `Inv.accept`, `Inv.emit`, `Inv.enqueue` — the commands of a push;
* `Inv.lrange`, `Inv.delete`, `Inv.pop`, `Inv.emitFlushed` — those of a flush.
-/

namespace AnonyMus.Relay

open Interleave

variable {Worker : Type} [DecidableEq Worker] {ephemeral : String → Bool} {q : String}
  {s s' : Shared Worker} {l₁ l₂ : List (Thread Worker Instr)} {worker : Worker}
  {instr : Instr} {pre rest : List Instr}

/-! ## Commands outside a flush -/

/-- A read on its way stays on its way unless it is the command that runs. -/
theorem Awaited.replace {store : Option Worker}
    (h : Awaited q store (l₁ ++ ⟨worker, instr :: rest⟩ :: l₂))
    (hinstr : reads q worker store instr = true →
      ∃ instr' ∈ pre, reads q worker store instr' = true) :
    Awaited q store (l₁ ++ ⟨worker, pre ++ rest⟩ :: l₂) := by
  obtain ⟨t, ht, x, hx, hreads⟩ := h
  rcases List.mem_append.mp ht with ht | ht
  · exact ⟨t, List.mem_append_left _ ht, x, hx, hreads⟩
  rcases List.mem_cons.mp ht with rfl | ht
  · refine ⟨⟨worker, pre ++ rest⟩, List.mem_append_right _ List.mem_cons_self, ?_⟩
    rcases List.mem_cons.mp hx with rfl | hx
    · obtain ⟨x', hx', hreads'⟩ := hinstr hreads
      exact ⟨x', List.mem_append_left _ hx', hreads'⟩
    · exact ⟨x, List.mem_append_right _ hx, hreads⟩
  · exact ⟨t, List.mem_append_right _ (List.mem_cons_of_mem _ ht), x, hx, hreads⟩

/-- The command that runs leads to a read. -/
theorem Awaited.here {store : Option Worker}
    (h : ∃ instr' ∈ pre, reads q worker store instr' = true) :
    Awaited q store (l₁ ++ ⟨worker, pre ++ rest⟩ :: l₂) := by
  obtain ⟨x, hx, hreads⟩ := h
  exact ⟨⟨worker, pre ++ rest⟩, List.mem_append_right _ List.mem_cons_self, x,
    List.mem_append_left _ hx, hreads⟩

variable (q instr pre) in
/-- The command has no payload to emit for a flush, and leads to none and to no deletion. -/
structure Plain : Prop where
  held     : flushing q instr = none ∧ pre.filterMap (flushing q) = []
  deleting : pre.countP (deleting q) = 0

variable (l₁ l₂ worker rest) in
omit [DecidableEq Worker] in
theorem countP_deleting_of_plain (h : Plain q instr pre) :
    (pending (l₁ ++ (⟨worker, pre ++ rest⟩ : Thread Worker Instr) :: l₂)).countP (deleting q) ≤
      (pending (l₁ ++ (⟨worker, instr :: rest⟩ : Thread Worker Instr) :: l₂)).countP
        (deleting q) := by
  have hstep := countP_pending_step l₁ l₂ worker instr pre rest (deleting q)
  rw [h.deleting] at hstep
  omega

omit [DecidableEq Worker] in
/-- No deletion is among commands of which none deletes. -/
theorem not_mem_of_countP_deleting {l : List Instr} {sid : String} {payloads : List String}
    (h : l.countP (deleting q) = 0) : .deleteQueue q sid payloads ∉ l :=
  fun hmem => List.countP_eq_zero.mp h _ hmem (decide_eq_true rfl)

/-- A plain command that keeps the payloads in line keeps the invariant, if it
leaves Redis alone or no flush is about to delete. -/
theorem Inv.plain (h : Inv ephemeral q s (l₁ ++ ⟨worker, instr :: rest⟩ :: l₂))
    (hplain : Plain q instr pre)
    (hline : ∃ store, Line ephemeral q s' (l₁ ++ ⟨worker, pre ++ rest⟩ :: l₂) store)
    (hsize : ∀ store, (s'.buffered q store).length ≤ maxOfflineQueue)
    (hread : s'.buffered q none = s.buffered q none ∨
      (pending (l₁ ++ ⟨worker, instr :: rest⟩ :: l₂)).countP (deleting q) = 0)
    (hawait : s'.Rejoined q → ∀ store, s'.buffered q store ≠ [] →
      Awaited q store (l₁ ++ ⟨worker, pre ++ rest⟩ :: l₂)) :
    Inv ephemeral q s' (l₁ ++ ⟨worker, pre ++ rest⟩ :: l₂) := by
  refine ⟨hline, h.once.step hplain.held, hsize, ?_, ?_, hawait⟩
  · intro sid payloads hmem
    have hold := (mem_pending_step instr hmem).resolve_left (not_mem_of_countP_deleting hplain.deleting)
    rcases hread with hsame | hnone
    · rw [hsame]
      exact h.read sid payloads hold
    · exact absurd hold (not_mem_of_countP_deleting hnone)
  · intro hne
    have hcount := countP_deleting_of_plain l₁ l₂ worker rest hplain
    rw [heldAll_step hplain.held]
    rcases hread with hsame | hnone
    · rw [hsame] at hne
      obtain ⟨hone, hfree⟩ := h.single hne
      exact ⟨by omega, fun hpos => hfree (by omega)⟩
    · exact ⟨by omega, fun hpos => by omega⟩

omit [DecidableEq Worker] in
/-- A command that moves no payload keeps the line. -/
theorem Line.keep {store : Option Worker}
    (h : Line ephemeral q s (l₁ ++ ⟨worker, instr :: rest⟩ :: l₂) store)
    (hheld : flushing q instr = none ∧ pre.filterMap (flushing q) = [])
    (hflight : pre.countP (inFlight ephemeral q) = [instr].countP (inFlight ephemeral q))
    (hacc : s'.acceptedOn ephemeral q = s.acceptedOn ephemeral q)
    (hem : s'.emittedOn ephemeral q = s.emittedOn ephemeral q)
    (hbuf : ∀ other, s'.buffered q other = s.buffered q other) :
    Line ephemeral q s' (l₁ ++ ⟨worker, pre ++ rest⟩ :: l₂) store := by
  have hcount := countP_pending_step l₁ l₂ worker instr pre rest (inFlight ephemeral q)
  refine ⟨fun other hother => ?_, ?_, ?_⟩
  · rw [hbuf]
    exact h.sole other hother
  · rw [hem, hbuf, hacc, heldAll_step hheld]
    exact h.order
  · rw [hem, hbuf, hacc, heldAll_step hheld, h.total]
    omega

/-! ## A push -/

/-- A quiet command keeps the invariant. -/
theorem Inv.quiet (h : Inv ephemeral q s (l₁ ++ ⟨worker, instr :: rest⟩ :: l₂))
    (hquiet : Quiet ephemeral q s s' worker instr pre) :
    Inv ephemeral q s' (l₁ ++ ⟨worker, pre ++ rest⟩ :: l₂) := by
  have hplain : Plain q instr pre := ⟨hquiet.held, hquiet.deleting.2⟩
  refine h.plain hplain ?_ ?_ (Or.inl (hquiet.buffered none)) ?_
  · obtain ⟨store, hline⟩ := h.line
    exact ⟨store, hline.keep hplain.held hquiet.inFlight hquiet.accepted hquiet.emitted
      hquiet.buffered⟩
  · intro store
    rw [hquiet.buffered]
    exact h.size store
  · intro hrej store hne
    rw [hquiet.buffered] at hne
    refine (h.await (hquiet.rejoined hrej) store hne).replace fun hreads => ?_
    rw [hquiet.reads] at hreads
    cases hreads

/-- A push is accepted. -/
theorem Inv.accept (h : Inv ephemeral q s (l₁ ++ ⟨worker, instr :: rest⟩ :: l₂))
    {payload : String} (sid : String) (hpayload : ephemeral payload = false)
    (hinstr : flushing q instr = none ∧ inFlight ephemeral q instr = false ∧
      ∀ store, reads q worker store instr = false) :
    Inv ephemeral q (proceed q sid s (.push payload)).1
      (l₁ ++ ⟨worker, (proceed q sid s (.push payload)).2 ++ rest⟩ :: l₂) := by
  obtain ⟨hfl, hin, hreads⟩ := hinstr
  have hplain : Plain q instr (proceed q sid s (.push payload)).2 := ⟨⟨hfl, rfl⟩, rfl⟩
  have hbuf : ∀ store, (proceed q sid s (.push payload)).1.buffered q store =
      s.buffered q store := fun store => by cases store <;> rfl
  refine h.plain hplain ?_ (fun store => hbuf store ▸ h.size store) (Or.inl (hbuf none)) ?_
  · obtain ⟨store, hline⟩ := h.line
    have hacc : (proceed q sid s (.push payload)).1.acceptedOn ephemeral q =
        s.acceptedOn ephemeral q ++ [payload] := by
      simp [proceed, Shared.acceptedOn, hpayload]
    have hem : (proceed q sid s (.push payload)).1.emittedOn ephemeral q =
        s.emittedOn ephemeral q := rfl
    -- one push more is in flight
    have hflight := countP_pending_step l₁ l₂ worker instr
      (proceed q sid s (.push payload)).2 rest (inFlight ephemeral q)
    rw [List.countP_singleton, hin] at hflight
    have hone : (proceed q sid s (.push payload)).2.countP (inFlight ephemeral q) = 1 := by
      simp [proceed, inFlight, hpayload]
    refine ⟨store, fun other hother => ?_, ?_, ?_⟩
    · rw [hbuf]
      exact hline.sole other hother
    · rw [hbuf, hacc, hem, heldAll_step hplain.held]
      exact hline.order.trans (List.prefix_append _ _)
    · rw [hbuf, hacc, hem, heldAll_step hplain.held, List.length_append, List.length_singleton,
        hline.total]
      simp only [Bool.false_eq_true, if_false] at hflight
      omega
  · intro hrej store hne
    rw [hbuf] at hne
    refine (h.await hrej store hne).replace fun hr => ?_
    rw [hreads] at hr
    cases hr

/-- What comes next in a list extends its prefix. -/
theorem prefix_concat_of_getElem? {α : Type} {l l' : List α} {a : α} (h : l <+: l')
    (ha : l'[l.length]? = some a) : l ++ [a] <+: l' := by
  obtain ⟨t, rfl⟩ := h
  rw [List.getElem?_append_right (Nat.le_refl _), Nat.sub_self] at ha
  cases t with
  | nil => cases ha
  | cons b t =>
    obtain rfl : b = a := by simpa using ha
    exact ⟨t, by simp⟩

omit [DecidableEq Worker] in
/-- A payload in flight is emitted, reaching somebody, or buffered in `store`. -/
theorem Line.place {store : Option Worker} {payload : String}
    (hline : Line ephemeral q s (l₁ ++ ⟨worker, instr :: rest⟩ :: l₂) store)
    (hplain : Plain q instr pre)
    (hturn : Turn ephemeral q s (l₁ ++ ⟨worker, instr :: rest⟩ :: l₂) store payload)
    (hflight : inFlight ephemeral q instr = true ∧ pre.countP (inFlight ephemeral q) = 0)
    (hsole : ∀ other, other ≠ store → s'.buffered q other = [])
    (hacc : s'.acceptedOn ephemeral q = s.acceptedOn ephemeral q)
    (hplace : s'.emittedOn ephemeral q ++ heldAll (flushing q)
        (l₁ ++ ⟨worker, instr :: rest⟩ :: l₂) ++ s'.buffered q store =
      s.emittedOn ephemeral q ++ heldAll (flushing q) (l₁ ++ ⟨worker, instr :: rest⟩ :: l₂) ++
        s.buffered q store ++ [payload]) :
    Line ephemeral q s' (l₁ ++ ⟨worker, pre ++ rest⟩ :: l₂) store := by
  have hcount := countP_pending_step l₁ l₂ worker instr pre rest (inFlight ephemeral q)
  rw [hflight.2, List.countP_singleton, if_pos hflight.1] at hcount
  have hlength := congrArg List.length hplace
  simp only [List.length_append, List.length_singleton] at hlength
  refine ⟨hsole, ?_, ?_⟩
  · rw [heldAll_step hplain.held, hacc, hplace]
    refine prefix_concat_of_getElem? hline.order ?_
    rw [List.length_append, List.length_append]
    exact hturn
  · rw [heldAll_step hplain.held, hacc, hline.total]
    omega

/-- A live payload overtakes nothing and reaches somebody. -/
theorem Inv.emit {payload : String}
    (h : Inv ephemeral q s (l₁ ++ ⟨worker, .emitPayload q payload :: rest⟩ :: l₂))
    (hpayload : ephemeral payload = false) (hrooms : s.rooms q ≠ [])
    (hheld : heldAll (flushing q) (l₁ ++ ⟨worker, .emitPayload q payload :: rest⟩ :: l₂) = [])
    (hempty : ∀ store, s.buffered q store = [])
    (hturn : Turn ephemeral q s (l₁ ++ ⟨worker, .emitPayload q payload :: rest⟩ :: l₂) none
      payload) :
    Inv ephemeral q { s with emitted := s.emitted ++ [⟨q, payload, s.rooms q⟩] }
      (l₁ ++ ⟨worker, [] ++ rest⟩ :: l₂) := by
  have hplain : Plain q (.emitPayload q payload) [] := ⟨⟨rfl, rfl⟩, rfl⟩
  have hbuf : ∀ store, ({ s with emitted := s.emitted ++ [⟨q, payload, s.rooms q⟩] } :
      Shared Worker).buffered q store = [] := by
    intro store
    rw [← hempty store]
    cases store <;> rfl
  refine h.plain hplain ⟨none, ?_⟩ (fun store => ?_) (Or.inl ?_) ?_
  · obtain ⟨store, hline⟩ := h.line
    have hnone : Line ephemeral q s
        (l₁ ++ ⟨worker, .emitPayload q payload :: rest⟩ :: l₂) none := by
      refine ⟨fun other _ => hempty other, ?_, ?_⟩
      · rw [hempty none, ← hempty store]
        exact hline.order
      · rw [hempty none, ← hempty store]
        exact hline.total
    refine hnone.place hplain hturn ⟨by simp [inFlight, hpayload], rfl⟩
      (fun other _ => hbuf other) rfl ?_
    rw [hheld, hbuf, hempty none, List.append_nil, List.append_nil, List.append_nil,
      Shared.emittedOn, List.filter_append, List.map_append, Shared.emittedOn]
    simp [hpayload, hrooms]
  · rw [hbuf]
    exact Nat.zero_le _
  · rw [hbuf, hempty]
  · intro _ store hne
    exact absurd (hbuf store) hne

/-- A payload whose turn it is goes into the only store in use. -/
theorem Inv.enqueue {store : Option Worker} {payload : String}
    (h : Inv ephemeral q s (l₁ ++ ⟨worker, instr :: rest⟩ :: l₂)) (hplain : Plain q instr pre)
    (hreads : ∀ other, reads q worker other instr = false)
    (hflight : inFlight ephemeral q instr = true ∧ pre.countP (inFlight ephemeral q) = 0)
    (hfits : Fits ephemeral q s (l₁ ++ ⟨worker, instr :: rest⟩ :: l₂) store payload)
    (hnone : store = none →
      (pending (l₁ ++ ⟨worker, instr :: rest⟩ :: l₂)).countP (deleting q) = 0)
    (hacc : s'.acceptedOn ephemeral q = s.acceptedOn ephemeral q)
    (hem : s'.emittedOn ephemeral q = s.emittedOn ephemeral q)
    (hrej : s'.Rejoined q → s.Rejoined q)
    (hbuf : ∀ other, s'.buffered q other =
      if other = store then s.buffered q store ++ [payload] else s.buffered q other) :
    Inv ephemeral q s' (l₁ ++ ⟨worker, pre ++ rest⟩ :: l₂) := by
  have hstore : s'.buffered q store = s.buffered q store ++ [payload] := by
    rw [hbuf, if_pos rfl]
  have hother : ∀ other, other ≠ store → s'.buffered q other = [] := by
    intro other hne
    rw [hbuf, if_neg hne]
    exact hfits.sole other hne
  refine h.plain hplain ⟨store, ?_⟩ ?_ ?_ ?_
  · obtain ⟨store', hline'⟩ := h.line
    -- two stores that are both the only one in use hold the same
    have hline : Line ephemeral q s (l₁ ++ ⟨worker, instr :: rest⟩ :: l₂) store := by
      have hsame : s.buffered q store' = s.buffered q store := by
        by_cases hs : store' = store
        · rw [hs]
        · rw [hfits.sole _ hs, hline'.sole _ (Ne.symm hs)]
      refine ⟨hfits.sole, ?_, ?_⟩
      · rw [← hsame]
        exact hline'.order
      · rw [← hsame]
        exact hline'.total
    refine hline.place hplain hfits.turn hflight hother hacc ?_
    rw [hem, hstore, List.append_assoc _ (s.buffered q store)]
  · intro other
    by_cases hs : other = store
    · rw [hs, hstore, List.length_append, List.length_singleton]
      exact hfits.room
    · rw [hother other hs]
      exact Nat.zero_le _
  · by_cases hs : store = none
    · exact Or.inr (hnone hs)
    · left
      rw [hbuf, if_neg (Ne.symm hs)]
  · intro hrej' other hne
    by_cases hs : other = store
    · subst hs
      refine (hfits.await (hrej hrej')).replace fun hr => ?_
      rw [hreads] at hr
      cases hr
    · exact absurd (hother other hs) hne

/-! ## A flush -/

/-- A flush has read Redis, or failed to. -/
theorem Inv.lrange (sid : String) (fail : Bool)
    (h : Inv ephemeral q s (l₁ ++ ⟨worker, .lrange q sid :: rest⟩ :: l₂))
    (hbuf : ∀ store, s'.buffered q store = s.buffered q store)
    (hacc : s'.acceptedOn ephemeral q = s.acceptedOn ephemeral q)
    (hem : s'.emittedOn ephemeral q = s.emittedOn ephemeral q)
    (hallowed : if fail = false ∧ s.buffered q none ≠ [] then
        heldAll (flushing q) (l₁ ++ ⟨worker, .lrange q sid :: rest⟩ :: l₂) = [] ∧
          (pending (l₁ ++ ⟨worker, .lrange q sid :: rest⟩ :: l₂)).countP (deleting q) = 0
      else ∀ store, store ≠ some worker → s.buffered q store = [])
    (hpre : pre = if fail then [.lockPop q sid] else [.deleteQueue q sid (s.buffered q none)]) :
    Inv ephemeral q s' (l₁ ++ ⟨worker, pre ++ rest⟩ :: l₂) := by
  have hheld : flushing q (.lrange q sid) = none ∧ pre.filterMap (flushing q) = [] := by
    rw [hpre]
    cases fail <;> exact ⟨rfl, rfl⟩
  have hflight : pre.countP (inFlight ephemeral q) = 0 := by
    rw [hpre]
    cases fail <;> rfl
  refine ⟨?_, h.once.step hheld, fun store => hbuf store ▸ h.size store, ?_, ?_, ?_⟩
  · obtain ⟨store, hline⟩ := h.line
    exact ⟨store, hline.keep hheld hflight hacc hem hbuf⟩
  · intro sid' payloads hmem
    rw [hbuf]
    rcases mem_pending_step (.lrange q sid) hmem with hmem | hmem
    · rw [hpre] at hmem
      cases fail
      · obtain ⟨-, rfl⟩ : sid' = sid ∧ payloads = s.buffered q none := by simpa using hmem
        rfl
      · simp at hmem
    · exact h.read sid' payloads hmem
  · intro hne
    rw [hbuf] at hne
    have hcount := countP_pending_step l₁ l₂ worker (.lrange q sid) pre rest (deleting q)
    rw [heldAll_step hheld]
    split at hallowed
    · obtain ⟨hfree, hnone⟩ := hallowed
      refine ⟨?_, fun _ => hfree⟩
      have hone : pre.countP (deleting q) ≤ 1 := by
        rw [hpre]
        cases fail <;> simp [deleting]
      omega
    · exact absurd (hallowed none (by simp)) hne
  · intro _ store hne
    rw [hbuf] at hne
    refine .here ?_
    rw [hpre]
    split at hallowed
    · rename_i hcase
      obtain ⟨rfl, hredis⟩ := hcase
      -- Redis is the only store in use, and it was read
      have hstore : store = none := by
        obtain ⟨store', hline⟩ := h.line
        have hsole : ∀ other, s.buffered q other ≠ [] → other = store' := fun other ho =>
          by_contra fun hother => ho (hline.sole other hother)
        rw [hsole store hne, hsole none hredis]
      exact ⟨_, List.mem_singleton_self _, by simp [reads, hstore, hredis]⟩
    · rename_i hcase
      have hstore : store = some worker := by_contra fun hs => hne (hallowed store hs)
      cases fail
      · have hredis : s.buffered q none = [] := by simpa using hcase
        exact ⟨_, List.mem_singleton_self _, by simp [reads, hstore, hredis]⟩
      · exact ⟨_, List.mem_singleton_self _, by simp [reads, hstore]⟩

/-- A flush has taken everything that is buffered, and nothing else is being flushed. -/
theorem Inv.drain {store : Option Worker}
    (h : Inv ephemeral q s (l₁ ++ ⟨worker, instr :: rest⟩ :: l₂))
    (hne : s.buffered q store ≠ [])
    (hfree : heldAll (flushing q) (l₁ ++ ⟨worker, instr :: rest⟩ :: l₂) = [])
    (hinstr : flushing q instr = none ∧ inFlight ephemeral q instr = false)
    (hpre : pre.filterMap (flushing q) = s.buffered q store ∧
      pre.countP (inFlight ephemeral q) = 0)
    (hdelete : ∀ sid payloads,
      .deleteQueue q sid payloads ∈ pending (l₁ ++ ⟨worker, pre ++ rest⟩ :: l₂) → payloads = [])
    (hbuf : ∀ other, s'.buffered q other = if other = store then [] else s.buffered q other)
    (hacc : s'.acceptedOn ephemeral q = s.acceptedOn ephemeral q)
    (hem : s'.emittedOn ephemeral q = s.emittedOn ephemeral q) :
    Inv ephemeral q s' (l₁ ++ ⟨worker, pre ++ rest⟩ :: l₂) := by
  obtain ⟨store', hline⟩ := h.line
  obtain rfl : store = store' := by_contra fun hs => hne (hline.sole store hs)
  -- one store has the payloads in line, and the flush has taken them
  have hempty : ∀ other, s'.buffered q other = [] := by
    intro other
    rw [hbuf]
    split
    · rfl
    · exact hline.sole other ‹_›
  have hrest : heldAll (flushing q) l₁ = [] ∧ rest.filterMap (flushing q) = [] ∧
      heldAll (flushing q) l₂ = [] := by
    rw [heldAll_at, held, List.filterMap_cons_none hinstr.1] at hfree
    simpa only [List.append_eq_nil_iff] using hfree
  have hheld : heldAll (flushing q) (l₁ ++ ⟨worker, pre ++ rest⟩ :: l₂) = s.buffered q store := by
    rw [heldAll_at, held, List.filterMap_append, hpre.1, hrest.1, hrest.2.1, hrest.2.2]
    simp
  refine ⟨⟨store, fun other _ => hempty other, ?_, ?_⟩, ?_, fun other => ?_, ?_, ?_, ?_⟩
  · have horder := hline.order
    rw [hfree, List.append_nil] at horder
    rw [hem, hacc, hheld, hempty, List.append_nil]
    exact horder
  · have htotal := hline.total
    have hcount := countP_pending_step l₁ l₂ worker instr pre rest (inFlight ephemeral q)
    rw [List.countP_singleton, hinstr.2] at hcount
    simp only [Bool.false_eq_true, if_false] at hcount
    rw [hfree, List.length_nil] at htotal
    rw [hem, hacc, hheld, hempty, List.length_nil]
    omega
  · refine HeldOnce.of_nil ?_
    rw [heldAll_append, hrest.1, hrest.2.2, List.append_nil]
  · rw [hempty]
    exact Nat.zero_le _
  · intro sid payloads hmem
    rw [hempty]
    exact hdelete sid payloads hmem
  · intro hredis
    exact absurd (hempty none) hredis
  · intro _ other hother
    exact absurd (hempty other) hother

variable (ephemeral q) in
omit [DecidableEq Worker] in
/-- What is emitted for a flush leads to no push in flight and to no deletion. -/
theorem countP_emitFlushed (payloads : List String) (sid : String) :
    (payloads.map (.emitFlushed q sid)).filterMap (flushing q) = payloads ∧
      (payloads.map (.emitFlushed q sid)).countP (inFlight ephemeral q) = 0 ∧
      (payloads.map (.emitFlushed q sid)).countP (deleting q) = 0 := by
  simp [flushing, inFlight, deleting, List.filterMap_map, List.countP_map, Function.comp_def]

/-- A flush has read nothing and goes on to the memory of its worker, or there is nothing either. -/
theorem Inv.skip (h : Inv ephemeral q s (l₁ ++ ⟨worker, instr :: rest⟩ :: l₂))
    (hplain : Plain q instr pre)
    (hflight : pre.countP (inFlight ephemeral q) = [instr].countP (inFlight ephemeral q))
    (hacc : s'.acceptedOn ephemeral q = s.acceptedOn ephemeral q)
    (hem : s'.emittedOn ephemeral q = s.emittedOn ephemeral q)
    (hbuf : ∀ other, s'.buffered q other = s.buffered q other)
    (hrej : s'.Rejoined q → s.Rejoined q)
    (hreads : ∀ store, s.buffered q store ≠ [] → reads q worker store instr = true →
      ∃ instr' ∈ pre, reads q worker store instr' = true) :
    Inv ephemeral q s' (l₁ ++ ⟨worker, pre ++ rest⟩ :: l₂) := by
  refine h.plain hplain ?_ (fun store => hbuf store ▸ h.size store) (Or.inl (hbuf none)) ?_
  · obtain ⟨store, hline⟩ := h.line
    exact ⟨store, hline.keep hplain.held hflight hacc hem hbuf⟩
  · intro hrej' store hne
    rw [hbuf] at hne
    exact (h.await (hrej hrej') store hne).replace (hreads store hne)

/-- A flush deletes what it read. -/
theorem Inv.delete {sid : String} {payloads : List String} {fail : Bool}
    (h : Inv ephemeral q s (l₁ ++ ⟨worker, .deleteQueue q sid payloads :: rest⟩ :: l₂))
    (hfail : payloads ≠ [] → fail = false) :
    Inv ephemeral q (exec ephemeral worker fail (.deleteQueue q sid payloads) s).1
      (l₁ ++ ⟨worker, (exec ephemeral worker fail (.deleteQueue q sid payloads) s).2 ++ rest⟩ ::
        l₂) := by
  have hread := h.read sid payloads (mem_pending_at.mpr (Or.inl List.mem_cons_self))
  by_cases hp : payloads = []
  · -- nothing was read, and nothing is in Redis
    subst hp
    refine h.skip ⟨⟨rfl, rfl⟩, rfl⟩ rfl ?_ ?_ ?_ ?_ ?_
    · cases fail <;> rfl
    · cases fail <;> rfl
    · intro store
      cases fail
      · refine (buffered_setRedisQueue q [] store).trans ?_
        split
        · rename_i hstore
          rw [hstore.2, ← hread]
        · rfl
      · rfl
    · cases fail <;> exact id
    · intro store _ hr
      have hstore : store = some worker := by simpa [reads] using hr
      exact ⟨.lockPop q sid, List.mem_singleton_self _, by simp [reads, hstore]⟩
  · obtain rfl := hfail hp
    obtain ⟨hfl, hin, hdel⟩ := countP_emitFlushed ephemeral q payloads sid
    have hne : s.buffered q none ≠ [] := hread ▸ hp
    obtain ⟨hone, hfree⟩ := h.single hne
    have hhere : 0 < (pending (l₁ ++ (⟨worker, .deleteQueue q sid payloads :: rest⟩ :
        Thread Worker Instr) :: l₂)).countP (deleting q) :=
      List.countP_pos_iff.mpr ⟨_, mem_pending_at.mpr (Or.inl List.mem_cons_self),
        decide_eq_true rfl⟩
    have hpre : (exec ephemeral worker false (.deleteQueue q sid payloads) s).2 =
        payloads.map (.emitFlushed q sid) := if_neg hp
    rw [hpre]
    refine h.drain hne (hfree hhere) ⟨rfl, rfl⟩ ⟨hfl.trans hread, hin⟩ ?_ ?_ rfl rfl
    · -- the deletion that runs was the only one
      intro sid' payloads' hmem
      have hcount := countP_pending_step l₁ l₂ worker (.deleteQueue q sid payloads)
        (payloads.map (.emitFlushed q sid)) rest (deleting q)
      have hself : [Instr.deleteQueue q sid payloads].countP (deleting q) = 1 := by
        simp [deleting]
      exact absurd hmem (not_mem_of_countP_deleting (by omega))
    · intro other
      refine (buffered_setRedisQueue q [] other).trans ?_
      simp

/-- A flush takes what is in the memory of its worker. -/
theorem Inv.pop {sid : String} {fail : Bool}
    (h : Inv ephemeral q s (l₁ ++ ⟨worker, .lockPop q sid :: rest⟩ :: l₂))
    (hfree : s.buffered q (some worker) ≠ [] →
      heldAll (flushing q) (l₁ ++ ⟨worker, .lockPop q sid :: rest⟩ :: l₂) = []) :
    Inv ephemeral q (exec ephemeral worker fail (.lockPop q sid) s).1
      (l₁ ++ ⟨worker, (exec ephemeral worker fail (.lockPop q sid) s).2 ++ rest⟩ :: l₂) := by
  have hpre : (exec ephemeral worker fail (.lockPop q sid) s).2 =
      (s.buffered q (some worker)).map (.emitFlushed q sid) := rfl
  obtain ⟨hfl, hin, hdel⟩ := countP_emitFlushed ephemeral q
    (s.buffered q (some worker)) sid
  rw [hpre]
  by_cases hp : s.buffered q (some worker) = []
  · refine h.skip ⟨⟨rfl, ?_⟩, hdel⟩ hin rfl rfl ?_ id ?_
    · rw [hfl, hp]
    · intro store
      refine (buffered_setMemoryQueue q [] store).trans ?_
      split
      · rename_i hstore
        rw [hstore.2, hp]
      · rfl
    · intro store hne hr
      have hstore : store = some worker := by simpa [reads] using hr
      exact absurd (hstore ▸ hp) hne
  · refine h.drain hp (hfree hp) ⟨rfl, rfl⟩ ⟨hfl, hin⟩ ?_ ?_ rfl rfl
    · -- Redis holds nothing, so no flush has read anything there
      intro sid' payloads hmem
      have hold := (mem_pending_step (.lockPop q sid) hmem).resolve_left
        (not_mem_of_countP_deleting hdel)
      obtain ⟨store, hline⟩ := h.line
      have hstore : some worker = store := by_contra fun hs => hp (hline.sole _ hs)
      rw [h.read sid' payloads hold]
      exact hline.sole none (by rw [← hstore]; simp)
    · intro other
      refine (buffered_setMemoryQueue q [] other).trans ?_
      simp

/-- A flush emits a payload to its open socket. -/
theorem Inv.emitFlushed {sid payload : String}
    (h : Inv ephemeral q s (l₁ ++ ⟨worker, .emitFlushed q sid payload :: rest⟩ :: l₂))
    (hopen : s.isOpen sid) :
    Inv ephemeral q { s with emitted := s.emitted ++ [⟨q, payload, s.rooms sid⟩] }
      (l₁ ++ ⟨worker, [] ++ rest⟩ :: l₂) := by
  have hfl : flushing q (.emitFlushed q sid payload) = some payload := if_pos rfl
  have hbuf : ∀ store, ({ s with emitted := s.emitted ++ [⟨q, payload, s.rooms sid⟩] } :
      Shared Worker).buffered q store = s.buffered q store := fun store => by cases store <;> rfl
  -- the thread that emits is the only one that holds anything
  have hne : held (flushing q) (⟨worker, .emitFlushed q sid payload :: rest⟩ :
      Thread Worker Instr) ≠ [] := by
    rw [held, List.filterMap_cons_some hfl]
    exact List.cons_ne_nil _ _
  obtain ⟨hl₁, hl₂⟩ := h.once.alone hne
  have hold : heldAll (flushing q) (l₁ ++ ⟨worker, .emitFlushed q sid payload :: rest⟩ :: l₂) =
      payload :: rest.filterMap (flushing q) := by
    rw [heldAll_at, hl₁, hl₂, held, List.filterMap_cons_some hfl, List.nil_append, List.append_nil]
  have hnew : heldAll (flushing q) (l₁ ++ ⟨worker, [] ++ rest⟩ :: l₂) =
      rest.filterMap (flushing q) := by
    rw [heldAll_at, hl₁, hl₂, held, List.nil_append, List.nil_append, List.append_nil]
  obtain ⟨store, hline⟩ := h.line
  have horder := hline.order
  rw [hold] at horder
  have hpayload : ephemeral payload = false := by
    have hmem : payload ∈ s.acceptedOn ephemeral q := horder.subset (by simp)
    obtain ⟨a, ha, rfl⟩ := List.mem_map.mp hmem
    simp only [List.mem_filter, decide_eq_true_eq] at ha
    exact ha.2.2
  have hem : ({ s with emitted := s.emitted ++ [⟨q, payload, s.rooms sid⟩] } :
      Shared Worker).emittedOn ephemeral q = s.emittedOn ephemeral q ++ [payload] := by
    have hreached : s.rooms sid ≠ [] := List.ne_nil_of_mem hopen
    rw [Shared.emittedOn, List.filter_append, List.map_append, Shared.emittedOn]
    simp [hpayload, hreached]
  refine ⟨⟨store, fun other hs => (hbuf other).trans (hline.sole other hs), ?_, ?_⟩,
    h.once.replace fun _ => hne, fun other => hbuf other ▸ h.size other, ?_, ?_, ?_⟩
  · rw [hem, hnew, hbuf, List.append_assoc, List.append_assoc]
    rw [List.append_assoc] at horder
    exact horder
  · have htotal := hline.total
    have hcount := countP_pending_step l₁ l₂ worker (.emitFlushed q sid payload) [] rest
      (inFlight ephemeral q)
    simp only [List.countP_nil, List.countP_singleton, inFlight, Bool.false_eq_true,
      if_false] at hcount
    rw [hold, List.length_cons] at htotal
    rw [hem, hnew, hbuf, List.length_append, List.length_singleton]
    show (s.acceptedOn ephemeral q).length = _
    omega
  · intro sid' payloads hmem
    rw [hbuf]
    exact h.read sid' payloads
      ((mem_pending_step (.emitFlushed q sid payload) hmem).resolve_left List.not_mem_nil)
  · intro hredis
    rw [hbuf] at hredis
    obtain ⟨hone, hfree⟩ := h.single hredis
    have hcount := countP_pending_step l₁ l₂ worker (.emitFlushed q sid payload) [] rest
      (deleting q)
    simp only [List.countP_nil, List.countP_singleton, deleting, Bool.false_eq_true,
      if_false] at hcount
    refine ⟨by omega, fun hpos => ?_⟩
    -- a flush about to delete would be alone
    have hnone := hfree (by omega)
    rw [hold] at hnone
    cases hnone
  · intro hrej other hother
    rw [hbuf] at hother
    refine (h.await hrej other hother).replace fun hr => ?_
    cases hr

end AnonyMus.Relay
