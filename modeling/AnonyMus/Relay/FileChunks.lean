import Mathlib.Algebra.Order.Field.Rat
import Mathlib.Data.List.Count
import AnonyMus.Lib.Dict
import AnonyMus.Lib.Interleave
import AnonyMus.Lib.Simulation

/-!
# Relay server — file chunks

`upload_chunk` and `download_chunk` of `transports/relay/server.py` on several workers:
a chunk lies in Redis or, after a Redis command has failed, in the memory of a worker.
Every Redis command and every locked block is one step. A command that fails was not
carried out; a `GET` that raises because the bytes are not UTF-8 is one that fails.

* `Instr`, `exec` — the commands;
* `World`, `act` — the calls that are under way, on one clock;
* `Kept`, `kept_act` — where the copies of an upload can be;
* `Once` — a value is downloaded once and in time, and no re-upload is deleted;
* `once_iff` — so it is exactly when no `DELETE` comes too late.
-/

namespace AnonyMus.Relay.FileChunks

open EStateM (after AllMeet)
open Interleave (Thread stepThread pending)

/-! ## The two stores -/

/-- `ex=86400`, and what is added to `time.time()`. -/
def lifetime : ℚ := 86400

/-- A value with its expiry; `upload` numbers the call that has brought it. -/
structure Chunk (Data : Type) where
  upload    : ℕ
  data      : Data
  expiresAt : ℚ

/-- What a download has returned, and when. -/
structure Served (Data : Type) where
  chunk : Chunk Data
  time  : ℚ

structure Store (Worker Data : Type) where
  /-- The keys `file_chunk:<id>`. -/
  redis           : Dict String (Chunk Data)
  /-- The `relay_file_chunks` of every worker. -/
  relayFileChunks : Dict (Worker × String) (Chunk Data)
  clock           : ℚ
  /-- The values returned from Redis. -/
  fromRedis       : List (Served Data)
  /-- The values returned from memory. -/
  fromMemory      : List (Served Data)
  /-- The uploads that a `DELETE` has removed, each with the one its download had read. -/
  deleted         : List (ℕ × ℕ)

/-- The commands, named after the Redis command or the locked block. -/
inductive Instr (Data : Type)
  -- upload_chunk
  | set (chunkId : String) (upload : ℕ) (data : Data)
  | lockStore (chunkId : String) (upload : ℕ) (data : Data)
  -- download_chunk
  | get (chunkId : String)
  | delete (chunkId : String) (read : Chunk Data)
  | lockPop (chunkId : String)
  -- run_cleanup
  | time
  | lockCleanUp (now : ℚ)

section

variable {Worker Data : Type} [DecidableEq Worker]

/-- A key that has expired is no longer there. -/
def Store.live (s : Store Worker Data) (chunkId : String) : Option (Chunk Data) :=
  (s.redis.get? chunkId).filter fun chunk => s.clock ≤ chunk.expiresAt

/-- What is returned of a chunk that has been taken out of memory. -/
def Store.inTime (s : Store Worker Data) (chunk : Option (Chunk Data)) : List (Served Data) :=
  match chunk with
  | some chunk => if s.clock ≤ chunk.expiresAt then [⟨chunk, s.clock⟩] else []
  | none => []

/-- Run one command on a worker: the new state, and the commands it leads to. -/
def exec (falsy : Data → Bool) (worker : Worker) (fail : Bool) (instr : Instr Data)
    (s : Store Worker Data) : Store Worker Data × List (Instr Data) :=
  match instr with
  | .set chunkId upload data =>
    if fail then (s, [.lockStore chunkId upload data])
    else ({ s with redis := s.redis.insert chunkId ⟨upload, data, s.clock + lifetime⟩ }, [])
  | .lockStore chunkId upload data =>
    ({ s with
        relayFileChunks :=
          s.relayFileChunks.insert (worker, chunkId) ⟨upload, data, s.clock + lifetime⟩ }, [])
  | .get chunkId =>
    if fail then (s, [.lockPop chunkId])
    else match s.live chunkId with
      | some chunk =>
        (s, if falsy chunk.data then [.lockPop chunkId] else [.delete chunkId chunk])
      | none => (s, [.lockPop chunkId])
  | .delete chunkId read =>
    if fail then (s, [.lockPop chunkId])
    else ({ s with
        redis := s.redis.erase chunkId
        fromRedis := s.fromRedis ++ [⟨read, s.clock⟩]
        deleted := s.deleted ++
          ((s.live chunkId).map fun chunk => (read.upload, chunk.upload)).toList }, [])
  | .lockPop chunkId =>
    let chunk := s.relayFileChunks.get? (worker, chunkId)
    ({ s with
        relayFileChunks := s.relayFileChunks.erase (worker, chunkId)
        fromMemory := s.fromMemory ++ s.inTime chunk }, [])
  | .time => (s, [.lockCleanUp s.clock])
  | .lockCleanUp now =>
    ({ s with
        relayFileChunks :=
          s.relayFileChunks.filter fun e => e.1.1 ≠ worker ∨ now ≤ e.2.expiresAt }, [])

/-! ## Calls under way -/

structure World (Worker Data : Type) where
  store   : Store Worker Data
  threads : List (Thread Worker (Instr Data))
  /-- How many uploads there have been. -/
  uploads : ℕ

def World.init : World Worker Data where
  store := ⟨Dict.empty, Dict.empty, 0, [], [], []⟩
  threads := []
  uploads := 0

/-- A call or a clean-up begins on a worker, thread `i` runs its next command, failing or
not, or time passes. -/
inductive Event (Worker Data : Type)
  | upload (worker : Worker) (chunkId : String) (data : Data)
  | download (worker : Worker) (chunkId : String)
  | cleanUp (worker : Worker)
  | run (i : ℕ) (fail : Bool)
  | pass (now : ℚ)

/-- `rClient` tells the workers that have a Redis client. -/
def next (rClient : Worker → Bool) (falsy : Data → Bool) (w : World Worker Data) :
    Event Worker Data → World Worker Data
  | .upload worker chunkId data =>
    let first := if rClient worker then .set chunkId w.uploads data
      else .lockStore chunkId w.uploads data
    { w with threads := w.threads ++ [⟨worker, [first]⟩], uploads := w.uploads + 1 }
  | .download worker chunkId =>
    let first := if rClient worker then .get chunkId else .lockPop chunkId
    { w with threads := w.threads ++ [⟨worker, [first]⟩] }
  | .cleanUp worker => { w with threads := w.threads ++ [⟨worker, [.time]⟩] }
  | .run i fail =>
    match stepThread (exec falsy) i fail w.threads w.store with
    | some (store, threads) => { w with store := store, threads := threads }
    | none => w
  | .pass now => { w with store := { w.store with clock := max w.store.clock now } }

def act (rClient : Worker → Bool) (falsy : Data → Bool) (e : Event Worker Data) :
    EStateM Empty (World Worker Data) Unit :=
  modifyGet fun w => ((), next rClient falsy w e)

/-- The world after the events. -/
def worldAfter (rClient : Worker → Bool) (falsy : Data → Bool) (events : List (Event Worker Data)) :
    World Worker Data :=
  after (act rClient falsy) events World.init

end

/-! ## Where an upload can be -/

/-- The upload that a command is to put somewhere. -/
def Instr.uploading {Data : Type} : Instr Data → List ℕ
  | .set _ upload _ | .lockStore _ upload _ => [upload]
  | _ => []

/-- The upload that the download has read from Redis. -/
def Instr.reading {Data : Type} : Instr Data → List ℕ
  | .delete _ read => [read.upload]
  | _ => []

section

variable {Worker Data : Type}

def Served.upload (served : Served Data) : ℕ := served.chunk.upload

/-- The uploads that are not in Redis yet, in a memory, or have been returned from one. -/
def World.outside (w : World Worker Data) : List ℕ :=
  (pending w.threads).flatMap Instr.uploading ++
    (w.store.relayFileChunks.values.map Chunk.upload ++ w.store.fromMemory.map Served.upload)

/-- The uploads that are or have been in Redis, as far as anybody still knows. -/
def World.inside (w : World Worker Data) : List ℕ :=
  w.store.redis.values.map Chunk.upload ++
    ((pending w.threads).flatMap Instr.reading ++ w.store.fromRedis.map Served.upload)

/-- There is one copy of an upload outside Redis or none, and none once it is in Redis. -/
structure Kept (w : World Worker Data) : Prop where
  once  : w.outside.Nodup
  apart : ∀ u ∈ w.inside, u ∉ w.outside
  known : ∀ u ∈ w.outside ++ w.inside, u < w.uploads

theorem kept_init : Kept (World.init : World Worker Data) :=
  ⟨List.nodup_nil, nofun, nofun⟩

/-- Copies may be lost, and move within Redis. -/
theorem Kept.of_le {w w' : World Worker Data} (h : Kept w)
    (hout : ∀ u, w'.outside.count u ≤ w.outside.count u) (hin : ∀ u ∈ w'.inside, u ∈ w.inside)
    (huploads : w'.uploads = w.uploads) : Kept w' := by
  have hmem : ∀ u ∈ w'.outside, u ∈ w.outside := fun u hu =>
    List.count_pos_iff.mp (Nat.lt_of_lt_of_le (List.count_pos_iff.mpr hu) (hout u))
  constructor
  case once =>
    exact List.nodup_iff_count_le_one.mpr fun u =>
      (hout u).trans (List.nodup_iff_count_le_one.mp h.once u)
  case apart => exact fun u hu hu' => h.apart u (hin u hu) (hmem u hu')
  case known =>
    intro u hu
    rw [huploads]
    refine h.known u (List.mem_append.mpr ?_)
    exact (List.mem_append.mp hu).imp (hmem u) (hin u)

variable {l₁ l₂ : List (Thread Worker (Instr Data))} {loc : Worker} {instr : Instr Data}
  {pre rest : List (Instr Data)} {s s' : Store Worker Data} {n : ℕ}

/-- A command that brings no upload in. -/
theorem Kept.step (h : Kept ⟨s, l₁ ++ ⟨loc, instr :: rest⟩ :: l₂, n⟩)
    (hout : ∀ u, (pre.flatMap Instr.uploading).count u +
        ((s'.relayFileChunks.values.map Chunk.upload).count u +
          (s'.fromMemory.map Served.upload).count u) ≤
      instr.uploading.count u + ((s.relayFileChunks.values.map Chunk.upload).count u +
        (s.fromMemory.map Served.upload).count u))
    (hin : ∀ u, u ∈ s'.redis.values.map Chunk.upload ∨ u ∈ pre.flatMap Instr.reading ∨
        u ∈ s'.fromRedis.map Served.upload →
      u ∈ s.redis.values.map Chunk.upload ∨ u ∈ instr.reading ∨
        u ∈ s.fromRedis.map Served.upload) :
    Kept ⟨s', l₁ ++ ⟨loc, pre ++ rest⟩ :: l₂, n⟩ := by
  refine h.of_le (fun u => ?_) (fun u hu => ?_) rfl
  · have hcarried := Interleave.count_flatMap_pending_step l₁ l₂ loc instr pre rest
      Instr.uploading u
    have := hout u
    simp only [World.outside, List.count_append]
    omega
  · have hmem : ∀ {A B C : List ℕ}, u ∈ A ++ (B ++ C) ↔ u ∈ A ∨ u ∈ B ∨ u ∈ C := by simp
    -- what the rest of the threads have read is as before
    have hothers : ∀ todo, u ∈ (pending (l₁ ++ ⟨loc, todo ++ rest⟩ :: l₂)).flatMap Instr.reading ↔
        u ∈ todo.flatMap Instr.reading ∨
          u ∈ (pending l₁ ++ (rest ++ pending l₂)).flatMap Instr.reading := by
      intro todo
      simp only [Interleave.pending_append, Interleave.pending_cons, List.flatMap_append,
        List.mem_append]
      tauto
    have hinstr : [instr].flatMap Instr.reading = instr.reading := by simp
    have hbefore := hothers [instr]
    rw [hinstr, List.singleton_append] at hbefore
    have := hin u
    unfold World.inside at hu ⊢
    rw [hmem, hothers] at hu
    rw [hmem, hbefore]
    tauto

/-- An upload gets into Redis: no copy of it is left outside. -/
theorem Kept.set {chunkId : String} {upload : ℕ} {data : Data}
    (h : Kept ⟨s, l₁ ++ ⟨loc, .set chunkId upload data :: rest⟩ :: l₂, n⟩) (chunk : Chunk Data)
    (hchunk : chunk.upload = upload) :
    Kept ⟨{ s with redis := s.redis.insert chunkId chunk }, l₁ ++ ⟨loc, rest⟩ :: l₂, n⟩ := by
  -- the copy that the command carried is no longer outside
  have hcount : ∀ u, (World.outside ⟨{ s with redis := s.redis.insert chunkId chunk },
      l₁ ++ ⟨loc, rest⟩ :: l₂, n⟩).count u + [upload].count u =
        (World.outside ⟨s, l₁ ++ ⟨loc, .set chunkId upload data :: rest⟩ :: l₂, n⟩).count u := by
    intro u
    have hcarried := Interleave.count_flatMap_pending_step l₁ l₂ loc (.set chunkId upload data)
      [] rest Instr.uploading u
    simp only [List.nil_append, List.flatMap_nil, List.count_nil, Nat.add_zero] at hcarried
    simp only [World.outside, List.count_append, ← hcarried, Instr.uploading]
    omega
  have hinside : ∀ u, u ∈ World.inside ⟨{ s with redis := s.redis.insert chunkId chunk },
      l₁ ++ ⟨loc, rest⟩ :: l₂, n⟩ →
        u = upload ∨
          u ∈ World.inside ⟨s, l₁ ++ ⟨loc, .set chunkId upload data :: rest⟩ :: l₂, n⟩ := by
    intro u hu
    have hredis : ∀ u ∈ (s.redis.insert chunkId chunk).values.map Chunk.upload,
        u = upload ∨ u ∈ s.redis.values.map Chunk.upload := by
      intro u hu
      rw [← hchunk, ← List.mem_cons, ← List.map_cons]
      exact (Dict.subperm_map (Dict.values_insert_subperm _ _ _) Chunk.upload).subset hu
    unfold World.inside at hu ⊢
    rcases List.mem_append.mp hu with hu | hu
    · exact (hredis u hu).imp_right fun hu => List.mem_append_left _ hu
    · right
      simpa [Instr.reading] using Or.inr hu
  have hle : ∀ u, (World.outside ⟨{ s with redis := s.redis.insert chunkId chunk },
      l₁ ++ ⟨loc, rest⟩ :: l₂, n⟩).count u ≤
        (World.outside ⟨s, l₁ ++ ⟨loc, .set chunkId upload data :: rest⟩ :: l₂, n⟩).count u :=
    fun u => hcount u ▸ Nat.le_add_right ..
  have hinit : upload ∈
      World.outside ⟨s, l₁ ++ ⟨loc, .set chunkId upload data :: rest⟩ :: l₂, n⟩ := by
    rw [← List.count_pos_iff, ← hcount, List.count_singleton_self]
    exact Nat.succ_pos _
  -- there was one copy of the upload, so none is left outside
  have hmem : ∀ u, u ∈ World.outside ⟨{ s with redis := s.redis.insert chunkId chunk },
      l₁ ++ ⟨loc, rest⟩ :: l₂, n⟩ →
        u ≠ upload ∧
          u ∈ World.outside ⟨s, l₁ ++ ⟨loc, .set chunkId upload data :: rest⟩ :: l₂, n⟩ := by
    intro u hu
    have hpos := List.count_pos_iff.mpr hu
    have honce := List.nodup_iff_count_le_one.mp h.once u
    rw [← hcount u] at honce
    constructor
    · rintro rfl
      rw [List.count_singleton_self] at honce
      omega
    · rw [← List.count_pos_iff, ← hcount u]
      omega
  constructor
  case once =>
    refine List.nodup_iff_count_le_one.mpr fun u => ?_
    have honce := List.nodup_iff_count_le_one.mp h.once u
    rw [← hcount u] at honce
    omega
  case apart =>
    intro u hu hout
    obtain ⟨hne, hout⟩ := hmem u hout
    rcases hinside u hu with rfl | hu
    · exact hne rfl
    · exact h.apart u hu hout
  case known =>
    intro u hu
    rcases List.mem_append.mp hu with hu | hu
    · exact h.known u (List.mem_append_left _ (hmem u hu).2)
    · rcases hinside u hu with rfl | hu
      · exact h.known u (List.mem_append_left _ hinit)
      · exact h.known u (List.mem_append_right _ hu)

theorem mem_redis_of_live {chunkId : String} {chunk : Chunk Data}
    (h : s.live chunkId = some chunk) : chunk ∈ s.redis.values :=
  Dict.mem_values_of_get? (Option.filter_eq_some_iff.mp h).1

theorem kept_exec [DecidableEq Worker] {falsy : Data → Bool} {fail : Bool}
    (h : Kept ⟨s, l₁ ++ ⟨loc, instr :: rest⟩ :: l₂, n⟩) :
    Kept ⟨(exec falsy loc fail instr s).1,
      l₁ ++ ⟨loc, (exec falsy loc fail instr s).2 ++ rest⟩ :: l₂, n⟩ := by
  cases instr with
  | set chunkId upload data =>
    cases fail with
    | true => exact h.step (fun u => le_of_eq rfl) (fun u hu => hu)
    | false => exact h.set _ rfl
  | lockStore chunkId upload data =>
    refine h.step (fun u => ?_) (fun u hu => hu)
    have hle := (Dict.subperm_map (Dict.values_insert_subperm s.relayFileChunks (loc, chunkId)
      ⟨upload, data, s.clock + lifetime⟩) Chunk.upload).count_le u
    rw [List.map_cons, ← List.singleton_append, List.count_append] at hle
    dsimp only at hle
    show 0 + (((s.relayFileChunks.insert _ _).values.map Chunk.upload).count u +
        (s.fromMemory.map Served.upload).count u) ≤
      [upload].count u + (_ + (s.fromMemory.map Served.upload).count u)
    omega
  | get chunkId =>
    cases fail with
    | true => exact h.step (fun u => le_of_eq rfl) (fun u hu => hu)
    | false =>
      cases hlive : s.live chunkId with
      | none =>
        simp only [exec, hlive, Bool.false_eq_true, if_false]
        exact h.step (fun u => le_of_eq rfl) (fun u hu => hu)
      | some chunk =>
        simp only [exec, hlive, Bool.false_eq_true, if_false]
        split_ifs
        · exact h.step (fun u => le_of_eq rfl) (fun u hu => hu)
        · -- the value is one that Redis has
          refine h.step (fun u => le_of_eq rfl) (fun u hu => ?_)
          rcases hu with hu | hu | hu
          · exact Or.inl hu
          · obtain rfl : u = chunk.upload := List.mem_singleton.mp hu
            exact Or.inl (List.mem_map_of_mem (mem_redis_of_live hlive))
          · exact Or.inr (Or.inr hu)
  | delete chunkId read =>
    cases fail with
    | true =>
      refine h.step (fun u => le_of_eq rfl) (fun u hu => ?_)
      rcases hu with hu | hu | hu
      · exact Or.inl hu
      · cases hu
      · exact Or.inr (Or.inr hu)
    | false =>
      refine h.step (fun u => le_of_eq rfl) (fun u hu => ?_)
      rcases hu with hu | hu | hu
      · exact Or.inl (((Dict.values_erase_sublist _ _).map _).subset hu)
      · cases hu
      · have hserved : u ∈ (s.fromRedis ++ [(⟨read, s.clock⟩ : Served Data)]).map Served.upload := hu
        rw [List.map_append] at hserved
        exact Or.inr (List.mem_append.mp hserved).symm
  | lockPop chunkId =>
    refine h.step (fun u => ?_) (fun u hu => hu)
    show 0 + (((s.relayFileChunks.erase (loc, chunkId)).values.map Chunk.upload).count u +
        ((s.fromMemory ++ s.inTime (s.relayFileChunks.get? (loc, chunkId))).map
          Served.upload).count u) ≤
      0 + ((s.relayFileChunks.values.map Chunk.upload).count u +
        (s.fromMemory.map Served.upload).count u)
    rw [List.map_append, List.count_append]
    cases hget : s.relayFileChunks.get? (loc, chunkId) with
    | none =>
      rw [Dict.erase_eq_self_iff.mpr hget]
      exact le_of_eq rfl
    | some chunk =>
      have hle := (Dict.subperm_map (Dict.values_erase_subperm hget) Chunk.upload).count_le u
      rw [List.map_cons, ← List.singleton_append, List.count_append] at hle
      -- the chunk that is taken out is returned, unless it has expired
      have hserved : ((s.inTime (some chunk)).map Served.upload).count u ≤
          [chunk.upload].count u := by
        unfold Store.inTime
        dsimp only
        split_ifs
        · exact le_of_eq rfl
        · exact Nat.zero_le _
      omega
  | time => exact h.step (fun u => le_of_eq rfl) (fun u hu => hu)
  | lockCleanUp now =>
    refine h.step (fun u => ?_) (fun u hu => hu)
    have hle := ((Dict.values_filter_sublist s.relayFileChunks fun e =>
      e.1.1 ≠ loc ∨ now ≤ e.2.expiresAt).map Chunk.upload).count_le u
    show 0 + (((s.relayFileChunks.filter _).values.map Chunk.upload).count u +
        (s.fromMemory.map Served.upload).count u) ≤
      0 + (_ + (s.fromMemory.map Served.upload).count u)
    omega

/-- A call that begins brings in no upload but a new one. -/
theorem Kept.spawn {threads : List (Thread Worker (Instr Data))} (h : Kept ⟨s, threads, n⟩)
    (hread : instr.reading = []) :
    (instr.uploading = [] → Kept ⟨s, threads ++ [⟨loc, [instr]⟩], n⟩) ∧
      (instr.uploading = [n] → Kept ⟨s, threads ++ [⟨loc, [instr]⟩], n + 1⟩) := by
  have houtside : ∀ m, World.outside ⟨s, threads ++ [⟨loc, [instr]⟩], m⟩ =
      (pending threads).flatMap Instr.uploading ++ (instr.uploading ++
        (s.relayFileChunks.values.map Chunk.upload ++ s.fromMemory.map Served.upload)) := by
    intro m
    simp [World.outside]
  have hinside : ∀ m, World.inside ⟨s, threads ++ [⟨loc, [instr]⟩], m⟩ =
      World.inside ⟨s, threads, n⟩ := by
    intro m
    simp [World.inside, hread]
  constructor
  · intro hnone
    refine h.of_le (fun u => ?_) (fun u hu => ?_) rfl
    · rw [houtside, hnone, List.nil_append]
      exact le_rfl
    · rwa [hinside] at hu
  · intro hnew
    -- the number is one that has not been in use
    have hperm : (World.outside ⟨s, threads ++ [⟨loc, [instr]⟩], n + 1⟩).Perm
        (n :: World.outside ⟨s, threads, n⟩) := by
      rw [houtside, hnew]
      exact List.perm_middle
    have hfresh : ∀ u ∈ World.outside ⟨s, threads, n⟩ ++ World.inside ⟨s, threads, n⟩, u ≠ n :=
      fun u hu => Nat.ne_of_lt (h.known u hu)
    constructor
    case once =>
      refine hperm.nodup_iff.mpr (List.nodup_cons.mpr ⟨fun hmem => ?_, h.once⟩)
      exact hfresh n (List.mem_append_left _ hmem) rfl
    case apart =>
      intro u hu hout
      rw [hinside] at hu
      rcases List.mem_cons.mp (hperm.mem_iff.mp hout) with rfl | hout
      · exact hfresh u (List.mem_append_right _ hu) rfl
      · exact h.apart u hu hout
    case known =>
      intro u hu
      rw [hinside, List.mem_append, hperm.mem_iff, List.mem_cons] at hu
      rcases hu with (rfl | hu) | hu
      · exact Nat.lt_succ_self u
      · exact Nat.lt_succ_of_lt (h.known u (List.mem_append_left _ hu))
      · exact Nat.lt_succ_of_lt (h.known u (List.mem_append_right _ hu))

variable [DecidableEq Worker] {rClient : Worker → Bool} {falsy : Data → Bool}

/-- Every event keeps the copies apart. -/
theorem kept_next {w : World Worker Data} (h : Kept w) (e : Event Worker Data) :
    Kept (next rClient falsy w e) := by
  cases e with
  | upload worker chunkId data =>
    unfold next
    dsimp only
    split_ifs
    · exact (h.spawn rfl).2 rfl
    · exact (h.spawn rfl).2 rfl
  | download worker chunkId =>
    unfold next
    dsimp only
    split_ifs
    · exact (h.spawn rfl).1 rfl
    · exact (h.spawn rfl).1 rfl
  | cleanUp worker => exact (h.spawn rfl).1 rfl
  | run i fail =>
    unfold next
    dsimp only
    split
    · rename_i store threads hstep
      obtain ⟨l₁, loc, instr, rest, l₂, -, hthreads, rfl, rfl⟩ := Interleave.stepThread_cases hstep
      have hw : Kept ⟨w.store, l₁ ++ ⟨loc, instr :: rest⟩ :: l₂, w.uploads⟩ := hthreads ▸ h
      exact kept_exec hw
    · exact h
  | pass now => exact h.of_le (fun u => le_rfl) (fun u hu => hu) rfl

/-! ## Once and in time -/

/-- What delete-on-download is for: an upload is returned once, before it has expired, and
no `DELETE` removes an upload other than the one that its download has read. -/
structure Once (s : Store Worker Data) : Prop where
  unique    : ((s.fromRedis ++ s.fromMemory).map Served.upload).Nodup
  inTime    : ∀ served ∈ s.fromRedis ++ s.fromMemory, served.time ≤ served.chunk.expiresAt
  untouched : ∀ removed ∈ s.deleted, removed.2 = removed.1

/-- A `DELETE` that is carried out is the first of those whose downloads have read the
upload; the upload has not expired, and no other one has taken its key. -/
def Timely (s : Store Worker Data) (chunkId : String) (read : Chunk Data) : Prop :=
  read.upload ∉ s.fromRedis.map Served.upload ∧ s.clock ≤ read.expiresAt ∧
    ∀ chunk ∈ s.live chunkId, chunk.upload = read.upload

/-- The command, if it is a `DELETE`, is in time. -/
def Instr.Timely (s : Store Worker Data) : Instr Data → Prop
  | .delete chunkId read => FileChunks.Timely s chunkId read
  | _ => True

/-- So is the command that the event carries out. -/
def Event.Timely (e : Event Worker Data) (w : World Worker Data) : Prop :=
  match e with
  | .run i false => ∀ instr ∈ (w.threads[i]?.bind fun t => t.todo.head?), instr.Timely w.store
  | _ => True

omit [DecidableEq Worker] in
/-- One more value is returned, and what a `DELETE` removes with it. -/
theorem once_returned_iff {served : Served Data} {removed : List (ℕ × ℕ)}
    (hserved : (s'.fromRedis ++ s'.fromMemory).Perm (served :: (s.fromRedis ++ s.fromMemory)))
    (hdeleted : s'.deleted = s.deleted ++ removed) :
    Once s' ↔ Once s ∧ served.upload ∉ (s.fromRedis ++ s.fromMemory).map Served.upload ∧
      served.time ≤ served.chunk.expiresAt ∧ ∀ pair ∈ removed, pair.2 = pair.1 := by
  have hunique : ((s'.fromRedis ++ s'.fromMemory).map Served.upload).Nodup ↔
      served.upload ∉ (s.fromRedis ++ s.fromMemory).map Served.upload ∧
        ((s.fromRedis ++ s.fromMemory).map Served.upload).Nodup := by
    rw [(hserved.map Served.upload).nodup_iff, List.map_cons, List.nodup_cons]
  have hinTime : (∀ served ∈ s'.fromRedis ++ s'.fromMemory,
      served.time ≤ served.chunk.expiresAt) ↔ served.time ≤ served.chunk.expiresAt ∧
        ∀ served ∈ s.fromRedis ++ s.fromMemory, served.time ≤ served.chunk.expiresAt := by
    simp only [hserved.mem_iff, List.forall_mem_cons]
  have huntouched : (∀ pair ∈ s'.deleted, pair.2 = pair.1) ↔
      (∀ pair ∈ s.deleted, pair.2 = pair.1) ∧ ∀ pair ∈ removed, pair.2 = pair.1 := by
    rw [hdeleted, List.forall_mem_append]
  constructor
  · rintro ⟨h₁, h₂, h₃⟩
    obtain ⟨hnew, hold₁⟩ := hunique.mp h₁
    obtain ⟨htime, hold₂⟩ := hinTime.mp h₂
    obtain ⟨hold₃, hremoved⟩ := huntouched.mp h₃
    exact ⟨⟨hold₁, hold₂, hold₃⟩, hnew, htime, hremoved⟩
  · rintro ⟨⟨hold₁, hold₂, hold₃⟩, hnew, htime, hremoved⟩
    exact ⟨hunique.mpr ⟨hnew, hold₁⟩, hinTime.mpr ⟨htime, hold₂⟩, huntouched.mpr ⟨hold₃, hremoved⟩⟩

/-- Only a `DELETE` that is carried out can go wrong. -/
theorem once_exec (h : Kept ⟨s, l₁ ++ ⟨loc, instr :: rest⟩ :: l₂, n⟩) (fail : Bool) :
    Once (exec falsy loc fail instr s).1 ↔ Once s ∧ (fail = false → instr.Timely s) := by
  have hsame : ∀ {s' : Store Worker Data}, (exec falsy loc fail instr s).1 = s' →
      s'.fromRedis = s.fromRedis → s'.fromMemory = s.fromMemory → s'.deleted = s.deleted →
        (fail = false → instr.Timely s) →
          (Once (exec falsy loc fail instr s).1 ↔ Once s ∧ (fail = false → instr.Timely s)) := by
    rintro s' rfl hredis hmemory hdeleted htimely
    rw [and_iff_left htimely]
    constructor
    · rintro ⟨hunique, hin, huntouched⟩
      rw [hredis, hmemory] at hunique hin
      exact ⟨hunique, hin, hdeleted ▸ huntouched⟩
    · rintro ⟨hunique, hin, huntouched⟩
      rw [← hredis, ← hmemory] at hunique hin
      exact ⟨hunique, hin, hdeleted ▸ huntouched⟩
  cases instr with
  | set chunkId upload data =>
    cases fail with
    | true => exact hsame rfl rfl rfl rfl fun _ => trivial
    | false => exact hsame rfl rfl rfl rfl fun _ => trivial
  | lockStore chunkId upload data => exact hsame rfl rfl rfl rfl fun _ => trivial
  | get chunkId =>
    have hstore : (exec falsy loc fail (.get chunkId) s).1 = s := by
      unfold exec
      dsimp only
      split_ifs
      · rfl
      · cases s.live chunkId with
        | none => rfl
        | some chunk => rfl
    exact hsame hstore rfl rfl rfl fun _ => trivial
  | delete chunkId read =>
    cases fail with
    | true => exact hsame rfl rfl rfl rfl fun hsent => absurd hsent (by decide)
    | false =>
      -- what has been read from Redis is in no memory
      have hmemory : read.upload ∉ s.fromMemory.map Served.upload := by
        intro hmem
        refine h.apart read.upload ?_ ?_
        · unfold World.inside
          simp [Instr.reading]
        · exact List.mem_append_right _ (List.mem_append_right _ hmem)
      have hserved : (s.fromRedis ++ [(⟨read, s.clock⟩ : Served Data)] ++ s.fromMemory).Perm
          (⟨read, s.clock⟩ :: (s.fromRedis ++ s.fromMemory)) := by
        rw [List.append_assoc]
        exact List.perm_middle
      rw [once_returned_iff (s := s) hserved rfl, List.map_append, List.mem_append,
        or_iff_left (show Served.upload ⟨read, s.clock⟩ ∉ _ from hmemory)]
      refine and_congr_right' ⟨?_, fun htimely => ?_⟩
      · rintro ⟨hfirst, htime, hremoved⟩ -
        refine ⟨hfirst, htime, fun chunk hlive => ?_⟩
        refine hremoved (read.upload, chunk.upload) ?_
        rw [Option.mem_def.mp hlive]
        exact List.mem_singleton_self _
      · obtain ⟨hfirst, htime, hlive⟩ := htimely rfl
        refine ⟨hfirst, htime, fun pair hpair => ?_⟩
        obtain ⟨chunk, hchunk, rfl⟩ := Option.map_eq_some_iff.mp (Option.mem_toList.mp hpair)
        exact hlive chunk hchunk
  | lockPop chunkId =>
    cases hget : s.relayFileChunks.get? (loc, chunkId) with
    | none =>
      refine hsame rfl rfl ?_ rfl fun _ => trivial
      simp [exec, hget, Store.inTime]
    | some chunk =>
      -- a chunk that is still in a memory has not been returned
      have hmem : chunk.upload ∈ s.relayFileChunks.values.map Chunk.upload :=
        List.mem_map_of_mem (Dict.mem_values_of_get? hget)
      have hmemory : chunk.upload ∉ s.fromMemory.map Served.upload := by
        have hnodup := (List.nodup_append.mp h.once).2.1
        exact fun hserved => (List.nodup_append.mp hnodup).2.2 _ hmem _ hserved rfl
      have hredis : chunk.upload ∉ s.fromRedis.map Served.upload := by
        intro hserved
        refine h.apart chunk.upload ?_ ?_
        · exact List.mem_append_right _ (List.mem_append_right _ hserved)
        · exact List.mem_append_right _ (List.mem_append_left _ hmem)
      by_cases htime : s.clock ≤ chunk.expiresAt
      · have hmore : (exec falsy loc fail (.lockPop chunkId) s).1.fromMemory =
            s.fromMemory ++ [⟨chunk, s.clock⟩] := by
          simp [exec, hget, Store.inTime, htime]
        have hserved : ((exec falsy loc fail (.lockPop chunkId) s).1.fromRedis ++
            (exec falsy loc fail (.lockPop chunkId) s).1.fromMemory).Perm
              (⟨chunk, s.clock⟩ :: (s.fromRedis ++ s.fromMemory)) := by
          rw [hmore, ← List.append_assoc]
          exact List.perm_append_singleton ..
        rw [once_returned_iff hserved (List.append_nil _).symm, List.map_append, List.mem_append]
        have hnone := List.forall_mem_nil fun pair : ℕ × ℕ => pair.2 = pair.1
        refine and_congr_right' (iff_of_true ⟨not_or.mpr ⟨hredis, hmemory⟩, htime, hnone⟩ ?_)
        exact fun _ => trivial
      · refine hsame rfl rfl ?_ rfl fun _ => trivial
        simp [exec, hget, Store.inTime, htime]
  | time => exact hsame rfl rfl rfl rfl fun _ => trivial
  | lockCleanUp now => exact hsame rfl rfl rfl rfl fun _ => trivial

/-- One event goes wrong exactly when it carries out a `DELETE` too late. -/
theorem once_next {w : World Worker Data} (h : Kept w) (e : Event Worker Data) :
    Once (next rClient falsy w e).store ↔ Once w.store ∧ e.Timely w := by
  cases e with
  | upload worker chunkId data => exact (and_iff_left trivial).symm
  | download worker chunkId => exact (and_iff_left trivial).symm
  | cleanUp worker => exact (and_iff_left trivial).symm
  | pass now =>
    refine Iff.trans ?_ (and_iff_left trivial).symm
    exact ⟨fun h => ⟨h.unique, h.inTime, h.untouched⟩, fun h => ⟨h.unique, h.inTime, h.untouched⟩⟩
  | run i fail =>
    unfold next
    dsimp only
    split
    · rename_i store threads hstep
      obtain ⟨l₁, loc, instr, rest, l₂, hget, hthreads, rfl, rfl⟩ :=
        Interleave.stepThread_cases hstep
      have hw : Kept ⟨w.store, l₁ ++ ⟨loc, instr :: rest⟩ :: l₂, w.uploads⟩ := hthreads ▸ h
      have htimely : (fail = false → instr.Timely w.store) ↔ (Event.run i fail).Timely w := by
        cases fail with
        | true => exact iff_of_true nofun trivial
        | false => simp [Event.Timely, hget]
      exact (once_exec hw fail).trans (and_congr_right' htimely)
    · rename_i hstep
      -- the thread has nothing to run
      refine (and_iff_left ?_).symm
      cases fail with
      | true => trivial
      | false =>
        intro instr hinstr
        rw [Interleave.head_of_stepThread_eq_none hstep] at hinstr
        cases hinstr

/-- In every run the values are returned once and in time and no re-upload is deleted, as
long as every `DELETE` is in time; the first that is not does one of these. -/
theorem once_iff (rClient : Worker → Bool) (falsy : Data → Bool)
    (events : List (Event Worker Data)) :
    (∀ done todo, events = done ++ todo → Once (worldAfter rClient falsy done).store) ↔
      ∀ done e todo, events = done ++ e :: todo → e.Timely (worldAfter rClient falsy done) := by
  have hrun : ∀ (events : List (Event Worker Data)) (w : World Worker Data), Kept w →
      (Once (after (act rClient falsy) events w).store ↔
        Once w.store ∧ AllMeet (act rClient falsy) Event.Timely events w) := by
    intro events
    induction events with
    | nil => exact fun w _ => (and_iff_left trivial).symm
    | cons e events ih =>
      intro w hw
      refine (ih _ (kept_next hw e)).trans ?_
      rw [EStateM.AllMeet, ← and_assoc]
      exact and_congr_left' (once_next hw e)
  have hinit : Once (World.init : World Worker Data).store :=
    ⟨List.nodup_nil, List.forall_mem_nil _, List.forall_mem_nil _⟩
  refine Iff.trans ?_ (EStateM.allMeet_iff (act rClient falsy))
  constructor
  · intro h
    exact ((hrun events _ kept_init).mp (h events [] (List.append_nil events).symm)).2
  · rintro h done todo rfl
    have hdone := ((EStateM.allMeet_append _).mp h).1
    exact (hrun done _ kept_init).mpr ⟨hinit, hdone⟩

/-- Two downloads that both read the chunk before either deletes it. -/
theorem not_once_overlapping :
    ¬ Once (worldAfter (fun _ => true) (fun _ => false)
      [.upload () "c" (), .run 0 false, .download () "c", .download () "c", .run 1 false,
        .run 2 false, .run 1 false, .run 2 false]).store := by
  intro h
  exact absurd h.unique (by decide +kernel)

end

end AnonyMus.Relay.FileChunks
