import AnonyMus.Lib.Interleave
import Mathlib.Data.List.Nodup
import Mathlib.Data.List.Range

/-!
# Calls that wait, one after another

Calls that share a store and take no lock. From one wait to the next a call makes
one step, on the item that the calls contend for or on the rest of the store, and
any call may go on next.

* `Script`, `serially` — what calls do with the item, with nothing in between;
* `Task`, `Task.Follows` — a call, whose accesses to the item are those of a
  script, whatever the others do to the rest;
* `Pool`, `step` — calls under way;
* `Apart` — a call accesses the item only while no other call is between its first
  access and its last;
* `serially_of_apart` — such calls leave the item as they do one after another.
-/

namespace Serial

variable {ν ρ κ : Type}

/-! ## Scripts -/

/-- The accesses of a call to the item; what follows depends on what it has read. -/
inductive Script (ν : Type) : Type
  | done
  | access (write : ν → ν) (next : ν → Script ν)

namespace Script

/-- All accesses, with nothing in between. -/
def run : Script ν → ν → ν
  | done, item => item
  | access write next, item => (next item).run (write item)

/-- What is left of a script after some of its accesses. -/
inductive RestOf (script : Script ν) : Script ν → Prop
  | whole : RestOf script script
  | next {write : ν → ν} {next : ν → Script ν} (h : RestOf script (.access write next)) (item : ν) :
      RestOf script (next item)

/-- Every write of the script is in the relation. -/
def Each (R : ν → ν → Prop) : Script ν → Prop
  | done => True
  | access write next => (∀ item, R item (write item)) ∧ ∀ item, (next item).Each R

theorem RestOf.each {R : ν → ν → Prop} {script script' : Script ν} (h : RestOf script script')
    (heach : script.Each R) : script'.Each R := by
  induction h with
  | whole => exact heach
  | next _ item ih => exact ih.2 item

theorem Each.run {R : ν → ν → Prop} (hrefl : ∀ item, R item item)
    (htrans : ∀ a b c, R a b → R b c → R a c) {script : Script ν} (h : script.Each R) (item : ν) :
    R item (script.run item) := by
  induction script generalizing item with
  | done => exact hrefl item
  | access write next ih => exact htrans _ _ _ (h.1 item) (ih item (h.2 item) (write item))

end Script

/-- Scripts one after another. -/
def serially (scripts : List (Script ν)) (item : ν) : ν :=
  scripts.foldl (fun item script => script.run item) item

@[simp] theorem serially_nil (item : ν) : serially [] item = item := rfl

@[simp] theorem serially_cons (script : Script ν) (scripts : List (Script ν)) (item : ν) :
    serially (script :: scripts) item = serially scripts (script.run item) := rfl

theorem serially_append (scripts scripts' : List (Script ν)) (item : ν) :
    serially (scripts ++ scripts') item = serially scripts' (serially scripts item) :=
  List.foldl_append

theorem serially_each {R : ν → ν → Prop} (hrefl : ∀ item, R item item)
    (htrans : ∀ a b c, R a b → R b c → R a c) {scripts : List (Script ν)}
    (h : ∀ script ∈ scripts, script.Each R) (item : ν) : R item (serially scripts item) := by
  induction scripts generalizing item with
  | nil => exact hrefl item
  | cons script scripts ih =>
    obtain ⟨hscript, hscripts⟩ := List.forall_mem_cons.mp h
    exact htrans _ _ _ (hscript.run hrefl htrans item) (ih hscripts _)

theorem serially_done {scripts : List (Script ν)} (h : ∀ script ∈ scripts, script = .done)
    (item : ν) : serially scripts item = item := by
  induction scripts with
  | nil => rfl
  | cons script scripts ih =>
    obtain ⟨rfl, hrest⟩ := List.forall_mem_cons.mp h
    exact ih hrest

/-- Where all scripts but one have ended, that one is what is left of them. -/
theorem serially_single {l : List ℕ} {left : ℕ → Script ν} {i : ℕ} (hnodup : l.Nodup) (hi : i ∈ l)
    (hothers : ∀ j ∈ l, j ≠ i → left j = .done) (item : ν) :
    serially (l.map left) item = (left i).run item := by
  obtain ⟨l₁, l₂, rfl⟩ := List.mem_iff_append.mp hi
  have hne : ∀ j ∈ l₁ ++ l₂, j ≠ i := by
    rintro j hj rfl
    exact (List.nodup_middle.mp hnodup).notMem hj
  have hdone : ∀ l' : List ℕ, l' ⊆ l₁ ++ l₂ → ∀ script ∈ l'.map left, script = .done := by
    intro l' hsub script hscript
    obtain ⟨j, hj, rfl⟩ := List.mem_map.mp hscript
    refine hothers j ?_ (hne j (hsub hj))
    rcases List.mem_append.mp (hsub hj) with h | h
    · exact List.mem_append_left _ h
    · exact List.mem_append_right _ (List.mem_cons_of_mem _ h)
  rw [List.map_append, List.map_cons, serially_append, serially_cons,
    serially_done (hdone l₁ (List.subset_append_left _ _)),
    serially_done (hdone l₂ (List.subset_append_right _ _))]

/-! ## Calls -/

/-- What is left of a call; a step reads what it writes. -/
inductive Task (ν ρ : Type) : Type
  | done
  | access (write : ν → ν) (next : ν → Task ν ρ)
  | other (write : ρ → ρ) (next : ρ → Task ν ρ)

namespace Task

/-- The whole call, with nothing in between. -/
def run : Task ν ρ → ν × ρ → ν × ρ
  | done, s => s
  | access write next, s => (next s.1).run (write s.1, s.2)
  | other write next, s => (next s.2).run (s.1, write s.2)

@[simp] theorem run_done (s : ν × ρ) : (done : Task ν ρ).run s = s := rfl

@[simp] theorem run_access (write : ν → ν) (next : ν → Task ν ρ) (s : ν × ρ) :
    (access write next).run s = (next s.1).run (write s.1, s.2) := rfl

@[simp] theorem run_other (write : ρ → ρ) (next : ρ → Task ν ρ) (s : ν × ρ) :
    (other write next).run s = (next s.2).run (s.1, write s.2) := rfl

/-- The accesses of the call are those of the script, whatever it finds in the rest. -/
def Follows : Task ν ρ → Script ν → Prop
  | done, script => script = .done
  | access write next, script =>
    ∃ next', script = .access write next' ∧ ∀ item, (next item).Follows (next' item)
  | other _ next, script => ∀ rest, (next rest).Follows script

/-- The call accesses the item no more. -/
def Quiet : Task ν ρ → Prop
  | done => True
  | access _ _ => False
  | other _ next => ∀ rest, (next rest).Quiet

theorem Follows.quiet_iff [Nonempty ρ] {task : Task ν ρ} {script : Script ν}
    (h : task.Follows script) : task.Quiet ↔ script = .done := by
  induction task with
  | done => exact iff_of_true trivial h
  | access write next ih =>
    obtain ⟨next', rfl, -⟩ := h
    exact iff_of_false id nofun
  | other write next ih =>
    refine ⟨fun hquiet => ?_, fun hdone rest => (ih rest (h rest)).mpr hdone⟩
    obtain ⟨rest⟩ := ‹Nonempty ρ›
    exact (ih rest (h rest)).mp (hquiet rest)

theorem Follows.run {task : Task ν ρ} {script : Script ν} (h : task.Follows script)
    (item : ν) (rest : ρ) : (task.run (item, rest)).1 = script.run item := by
  induction task generalizing script item rest with
  | done =>
    obtain rfl := h
    rfl
  | access write next ih =>
    obtain ⟨next', rfl, hnext⟩ := h
    exact ih item (hnext item) (write item) rest
  | other write next ih => exact ih rest (h rest) item (write rest)

end Task

/-- Calls one after another do with the item what their scripts do. -/
theorem item_foldl_run {task : κ → Task ν ρ} {script : κ → Script ν} {calls : List κ}
    (hfollows : ∀ call ∈ calls, (task call).Follows (script call)) (s : ν × ρ) :
    (calls.foldl (fun s call => (task call).run s) s).1 = serially (calls.map script) s.1 := by
  induction calls generalizing s with
  | nil => rfl
  | cons call calls ih =>
    obtain ⟨hcall, hcalls⟩ := List.forall_mem_cons.mp hfollows
    rw [List.foldl_cons, ih hcalls, List.map_cons, serially_cons, ← hcall.run s.1 s.2]

/-! ## Calls under way -/

/-- A call that has been made, and whether it has accessed the item. -/
structure Thread (ν ρ : Type) where
  task  : Task ν ρ
  begun : Bool

/-- The store, and the calls in the order in which they were made. -/
structure Pool (ν ρ : Type) where
  item    : ν
  rest    : ρ
  threads : List (Thread ν ρ)

namespace Pool

def start (tasks : List (Task ν ρ)) (item : ν) (rest : ρ) : Pool ν ρ :=
  ⟨item, rest, tasks.map (⟨·, false⟩)⟩

/-- All calls have returned. -/
def Finished (s : Pool ν ρ) : Prop := ∀ t ∈ s.threads, t.task = .done

end Pool

/-- The next step of the `i`-th call. -/
def step (s : Pool ν ρ) (i : ℕ) : Option (Pool ν ρ) :=
  match s.threads[i]? with
  | some ⟨.access write next, _⟩ =>
    some { s with item := write s.item, threads := s.threads.set i ⟨next s.item, true⟩ }
  | some ⟨.other write next, begun⟩ =>
    some { s with rest := write s.rest, threads := s.threads.set i ⟨next s.rest, begun⟩ }
  | _ => none

theorem step_access {s : Pool ν ρ} {i : ℕ} {write : ν → ν} {next : ν → Task ν ρ} {begun : Bool}
    (h : s.threads[i]? = some ⟨.access write next, begun⟩) :
    step s i = some
      { s with item := write s.item, threads := s.threads.set i ⟨next s.item, true⟩ } := by
  unfold step
  rw [h]

theorem step_other {s : Pool ν ρ} {i : ℕ} {write : ρ → ρ} {next : ρ → Task ν ρ} {begun : Bool}
    (h : s.threads[i]? = some ⟨.other write next, begun⟩) :
    step s i = some
      { s with rest := write s.rest, threads := s.threads.set i ⟨next s.rest, begun⟩ } := by
  unfold step
  rw [h]

/-- If the step is an access, no other call is between its first access and its last. -/
def Apart (s : Pool ν ρ) (i : ℕ) : Prop :=
  ∀ write next begun, s.threads[i]? = some ⟨.access write next, begun⟩ →
    ∀ j t, j ≠ i → s.threads[j]? = some t → t.begun = true → t.task.Quiet

theorem apart_other {s : Pool ν ρ} {i : ℕ} {write : ρ → ρ} {next : ρ → Task ν ρ} {begun : Bool}
    (h : s.threads[i]? = some ⟨.other write next, begun⟩) : Apart s i := by
  intro write' next' begun' h'
  rw [h] at h'
  cases h'

theorem apart_left {item : ν} {rest : ρ} {t t' : Thread ν ρ}
    (h : t'.begun = true → t'.task.Quiet) : Apart ⟨item, rest, [t, t']⟩ 0 := by
  rintro - - - - (_ | _ | j) t₁ hj ht hbegun
  · exact absurd rfl hj
  · cases ht
    exact h hbegun
  · cases ht

theorem apart_right {item : ν} {rest : ρ} {t t' : Thread ν ρ}
    (h : t.begun = true → t.task.Quiet) : Apart ⟨item, rest, [t, t']⟩ 1 := by
  rintro - - - - (_ | _ | j) t₁ hj ht hbegun
  · cases ht
    exact h hbegun
  · exact absurd rfl hj
  · cases ht

theorem step_cases {s s' : Pool ν ρ} {i : ℕ} (h : step s i = some s') :
    (∃ write next begun, s.threads[i]? = some ⟨.access write next, begun⟩ ∧
      s' = { s with item := write s.item, threads := s.threads.set i ⟨next s.item, true⟩ }) ∨
    ∃ write next begun, s.threads[i]? = some ⟨.other write next, begun⟩ ∧
      s' = { s with rest := write s.rest, threads := s.threads.set i ⟨next s.rest, begun⟩ } := by
  unfold step at h
  split at h
  · rename_i write next begun hget
    exact .inl ⟨write, next, begun, hget, (Option.some.inj h).symm⟩
  · rename_i write next begun hget
    exact .inr ⟨write, next, begun, hget, (Option.some.inj h).symm⟩
  · cases h

/-! ## Serial runs -/

/-- `started` has the calls that have accessed the item, in order, and `left` what is left of the
script of each call; when the calls that have started run on one after another, the item becomes
what they make of it one after another from the beginning. -/
structure Serialised (script : ℕ → Script ν) (item₀ : ν) (s : Pool ν ρ) (started : List ℕ)
    (left : ℕ → Script ν) : Prop where
  nodup   : started.Nodup
  bounded : ∀ i ∈ started, i < s.threads.length
  follows : ∀ i t, s.threads[i]? = some t →
    t.task.Follows (left i) ∧ (t.begun = true ↔ i ∈ started)
  fresh   : ∀ i, i ∉ started → left i = script i
  rest    : ∀ i, Script.RestOf (script i) (left i)
  single  : ∀ i ∈ started, ∀ j ∈ started, left i ≠ .done → left j ≠ .done → i = j
  item    : serially (started.map left) s.item = serially (started.map script) item₀

section

variable {script : ℕ → Script ν} {item₀ : ν} {s s' : Pool ν ρ} {started : List ℕ}
  {left : ℕ → Script ν} {i : ℕ}

theorem serialised_start {tasks : List (Task ν ρ)} (rest : ρ)
    (hfollows : ∀ i (task : Task ν ρ), tasks[i]? = some task → task.Follows (script i)) :
    Serialised script item₀ (.start tasks item₀ rest) [] script where
  nodup := List.nodup_nil
  bounded _ h := absurd h List.not_mem_nil
  follows i t ht := by
    obtain ⟨task, htask, rfl⟩ : ∃ task, tasks[i]? = some task ∧ (⟨task, false⟩ : Thread ν ρ) = t := by
      simpa [Pool.start] using ht
    exact ⟨hfollows i task htask, iff_of_false nofun List.not_mem_nil⟩
  fresh _ _ := rfl
  rest _ := .whole
  single _ h := absurd h List.not_mem_nil
  item := rfl

/-- A step on the rest is none of the script. -/
theorem Serialised.other (h : Serialised script item₀ s started left) {write : ρ → ρ}
    {next : ρ → Task ν ρ} {begun : Bool} (hget : s.threads[i]? = some ⟨.other write next, begun⟩) :
    Serialised script item₀ { s with
      rest := write s.rest, threads := s.threads.set i ⟨next s.rest, begun⟩ } started left where
  nodup := h.nodup
  bounded j hj := by
    rw [List.length_set]
    exact h.bounded j hj
  follows j t ht := by
    rw [List.getElem?_set] at ht
    split_ifs at ht with hij hlt
    · subst hij
      obtain rfl := Option.some.inj ht
      obtain ⟨hfollows, hbegun⟩ := h.follows i _ hget
      exact ⟨hfollows s.rest, hbegun⟩
    · exact h.follows j t ht
  fresh := h.fresh
  rest := h.rest
  single := h.single
  item := h.item

/-- An access is the next one of the only script that has started and not ended, or of one that
starts when all that have started have ended. -/
theorem Serialised.access [Nonempty ρ] (h : Serialised script item₀ s started left)
    {write : ν → ν} {next : ν → Task ν ρ} {begun : Bool} (happart : Apart s i)
    (hget : s.threads[i]? = some ⟨.access write next, begun⟩) :
    ∃ started' left', Serialised script item₀ { s with
      item := write s.item, threads := s.threads.set i ⟨next s.item, true⟩ } started' left' := by
  obtain ⟨hfollows, hbegun⟩ := h.follows i _ hget
  obtain ⟨next', hleft, hnext⟩ := hfollows
  have hothers : ∀ j ∈ started, j ≠ i → left j = .done := by
    intro j hj hne
    obtain ⟨t, ht⟩ : ∃ t, s.threads[j]? = some t :=
      ⟨_, List.getElem?_eq_getElem (h.bounded j hj)⟩
    obtain ⟨hfollows, hbegun⟩ := h.follows j t ht
    exact hfollows.quiet_iff.mp (happart write next begun hget j t hne ht (hbegun.mpr hj))
  have hothers' : ∀ started' : List ℕ, (∀ j ∈ started', j ≠ i → j ∈ started) →
      ∀ j ∈ started', j ≠ i → Function.update left i (next' s.item) j = .done := by
    intro started' hsub j hj hne
    rw [Function.update_of_ne hne]
    exact hothers j (hsub j hj hne) hne
  -- the call is the last of those that have started
  obtain ⟨started', hnodup, hmem, hkept, hitem⟩ : ∃ started' : List ℕ, started'.Nodup ∧
      (∀ j, j ∈ started' ↔ j = i ∨ j ∈ started) ∧
      (∀ j ∈ started', j ≠ i → j ∈ started) ∧
      (left i).run s.item = serially (started'.map script) item₀ := by
    by_cases hi : i ∈ started
    · refine ⟨started, h.nodup, fun j => ⟨.inr, ?_⟩, fun j hj _ => hj, ?_⟩
      · rintro (rfl | hj)
        · exact hi
        · exact hj
      · rw [← h.item, serially_single h.nodup hi hothers]
    · have hdone : serially (started.map left) s.item = s.item := by
        refine serially_done (fun script hscript => ?_) _
        obtain ⟨j, hj, rfl⟩ := List.mem_map.mp hscript
        exact hothers j hj (by rintro rfl; exact hi hj)
      refine ⟨started ++ [i], ?_, fun j => ?_, fun j hj hne => ?_, ?_⟩
      · rw [List.nodup_append]
        refine ⟨h.nodup, List.nodup_singleton i, ?_⟩
        rintro j hj k hk rfl
        exact hi (List.mem_singleton.mp hk ▸ hj)
      · rw [List.mem_append, List.mem_singleton, or_comm]
      · rcases List.mem_append.mp hj with hj | hj
        · exact hj
        · exact absurd (List.mem_singleton.mp hj) hne
      · rw [List.map_append, serially_append, ← h.item, hdone, h.fresh i hi]
        rfl
  refine ⟨started', Function.update left i (next' s.item), hnodup, fun j hj => ?_,
    fun j t ht => ?_, fun j hj => ?_, fun j => ?_, fun j hj k hk hjleft hkleft => ?_, ?_⟩
  · rw [List.length_set]
    rcases (hmem j).mp hj with rfl | hj
    · exact (List.getElem?_eq_some_iff.mp hget).1
    · exact h.bounded j hj
  · rw [List.getElem?_set] at ht
    split_ifs at ht with hij hlt
    · subst hij
      obtain rfl := Option.some.inj ht
      rw [Function.update_self]
      exact ⟨hnext s.item, iff_of_true rfl ((hmem i).mpr (.inl rfl))⟩
    · rw [Function.update_of_ne (Ne.symm hij), hmem, or_iff_right (Ne.symm hij)]
      exact h.follows j t ht
  · rw [hmem, not_or] at hj
    rw [Function.update_of_ne hj.1]
    exact h.fresh j hj.2
  · by_cases hj : j = i
    · subst hj
      rw [Function.update_self]
      have hrest := h.rest j
      rw [hleft] at hrest
      exact hrest.next s.item
    · rw [Function.update_of_ne hj]
      exact h.rest j
  · have heq : ∀ j ∈ started', Function.update left i (next' s.item) j ≠ .done → j = i := by
      intro j hj hleft
      by_contra hne
      exact hleft (hothers' started' hkept j hj hne)
    rw [heq j hj hjleft, heq k hk hkleft]
  · rw [serially_single hnodup ((hmem i).mpr (.inl rfl)) (hothers' started' hkept),
      Function.update_self, ← hitem, hleft]
    rfl

theorem Serialised.step [Nonempty ρ] (h : Serialised script item₀ s started left)
    (happart : Apart s i) (hstep : step s i = some s') :
    ∃ started' left', Serialised script item₀ s' started' left' := by
  rcases step_cases hstep with ⟨write, next, begun, hget, rfl⟩ | ⟨write, next, begun, hget, rfl⟩
  · exact h.access happart hget
  · exact ⟨started, left, h.other hget⟩

end

/-! ## Runs -/

section

variable {task : κ → Task ν ρ} {script : κ → Script ν} {calls : List κ} {item₀ : ν} {rest₀ : ρ}
  {s : Pool ν ρ}

/-- The script of the `i`-th call. -/
def scriptAt (script : κ → Script ν) (calls : List κ) (i : ℕ) : Script ν :=
  (calls[i]?.map script).getD .done

theorem serially_scriptAt (l : List ℕ) (item : ν) :
    serially (l.map (scriptAt script calls)) item =
      serially ((l.filterMap (calls[·]?)).map script) item := by
  induction l generalizing item with
  | nil => rfl
  | cons i l ih =>
    rw [List.map_cons, serially_cons, ih, scriptAt]
    rcases hcall : calls[i]? with _ | call
    · rw [List.filterMap_cons_none hcall]
      rfl
    · rw [List.filterMap_cons_some hcall]
      rfl

theorem filterMap_range (calls : List κ) :
    (List.range calls.length).filterMap (calls[·]?) = calls := by
  induction calls with
  | nil => rfl
  | cons call calls ih =>
    rw [List.length_cons, List.range_succ_eq_map,
      List.filterMap_cons_some (f := ((call :: calls)[·]?)) (b := call) rfl, List.filterMap_map]
    exact congrArg (call :: ·) ih

/-- Every run in which accesses are apart keeps to the scripts. -/
theorem serialised_run [Nonempty ρ] (hfollows : ∀ call ∈ calls, (task call).Follows (script call))
    (hrun : Interleave.Run step Apart (.start (calls.map task) item₀ rest₀) s) :
    s.threads.length = calls.length ∧
      ∃ started left, Serialised (scriptAt script calls) item₀ s started left := by
  refine hrun.invariant (I := fun s => s.threads.length = calls.length ∧ ∃ started left,
    Serialised (scriptAt script calls) item₀ s started left)
    ⟨?_, [], _, serialised_start rest₀ fun i task' htask => ?_⟩ ?_
  · simp [Pool.start]
  · obtain ⟨call, hcall, rfl⟩ : ∃ call, calls[i]? = some call ∧ task call = task' := by
      simpa using htask
    rw [scriptAt, hcall]
    exact hfollows call (List.mem_of_getElem? hcall)
  · rintro s i s' ⟨hlength, started, left, h⟩ happart hstep
    refine ⟨?_, h.step happart hstep⟩
    rcases step_cases hstep with ⟨write, next, begun, -, rfl⟩ | ⟨write, next, begun, -, rfl⟩
    · rw [List.length_set, hlength]
    · rw [List.length_set, hlength]

/-- Whatever state calls with their accesses apart have come to: if what has begun and then what
has not runs on one after another, the item becomes what some order of the calls makes of it. -/
theorem serially_of_apart [Nonempty ρ]
    (hfollows : ∀ call ∈ calls, (task call).Follows (script call))
    (hrun : Interleave.Run step Apart (.start (calls.map task) item₀ rest₀) s) :
    ∃ (order : List κ) (left : List (Script ν)), order.Perm calls ∧
      serially left s.item = serially (order.map script) item₀ ∧
      (∀ script' ∈ left, ∃ call ∈ calls, Script.RestOf (script call) script') ∧
      (s.Finished → ∀ script' ∈ left, script' = .done) := by
  obtain ⟨hlength, started, left, h⟩ := serialised_run hfollows hrun
  -- the calls that have begun, in the order of their first accesses, then the others as
  -- they stand
  let later := (List.range calls.length).filter (· ∉ started)
  have hlater : ∀ i, i ∈ later ↔ i < calls.length ∧ i ∉ started := by
    intro i
    rw [List.mem_filter, List.mem_range, decide_eq_true_iff]
  have hperm : (started ++ later).Perm (List.range calls.length) := by
    refine (List.perm_ext_iff_of_nodup ?_ List.nodup_range).mpr fun i => ?_
    · refine List.nodup_append.mpr ⟨h.nodup, List.nodup_range.filter _, ?_⟩
      rintro i hi j hj rfl
      exact ((hlater i).mp hj).2 hi
    · have hbounded := h.bounded i
      rw [hlength] at hbounded
      rw [List.mem_append, hlater, List.mem_range]
      tauto
  -- a call that has not begun has its whole script left
  have hmap : later.map left = later.map (scriptAt script calls) :=
    List.map_congr_left fun i hi => h.fresh i ((hlater i).mp hi).2
  refine ⟨(started ++ later).filterMap (calls[·]?), (started ++ later).map left, ?_, ?_, ?_,
    ?_⟩
  · have := hperm.filterMap (calls[·]?)
    rwa [filterMap_range] at this
  -- so what is left and what has been done are the scripts of this order
  · rw [← serially_scriptAt, List.map_append, List.map_append, serially_append, serially_append,
      h.item, hmap]
  · intro script' hscript'
    obtain ⟨i, hi, rfl⟩ := List.mem_map.mp hscript'
    have hget := List.getElem?_eq_getElem (List.mem_range.mp (hperm.subset hi))
    refine ⟨_, List.mem_of_getElem? hget, ?_⟩
    have hrest := h.rest i
    rwa [scriptAt, hget] at hrest
  -- a finished thread is at the end of its task, which follows a script that is done
  · intro hfinished script' hscript'
    obtain ⟨i, hi, rfl⟩ := List.mem_map.mp hscript'
    have hlt := List.mem_range.mp (hperm.subset hi)
    rw [← hlength] at hlt
    have htask := (h.follows i _ (List.getElem?_eq_getElem hlt)).1
    rw [hfinished _ (List.getElem_mem hlt)] at htask
    exact htask

end

end Serial
