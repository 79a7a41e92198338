import AnonyMus.Lib.Files
import AnonyMus.P2p.PairingReplay

/-!
# Restoring a paired database

What `do_POST` does to the files, operation by operation: the database is backed up, the pushed one
is staged, and takes its place. Each operation may fail.

* `restoreFiles`, `doPostWith` — the code, and `Faults`: how its operations end;
* `doPostWith_none` — without faults it is `doPost`;
* `restoreFiles_cases` — the database is kept, or replaced, or overwritten in part;
* `allOrNothing` — the last happens only when the fallback copy breaks off.
-/

namespace AnonyMus.P2p.Pairing

open EStateM Files
open Python (Crypto Library sample sampleLibrary)

/-! ## The file operations -/

/-- The first bytes of a database of SQLite. -/
def sqliteHeader : List UInt8 := "SQLite format 3\x00".toUTF8.toList

/-- How the file operations of a request end. `os.path.exists` does not raise, but may miss a file
that is there. -/
structure Faults where
  missesDatabase : Bool := false
  backup         : Ending := .done
  staged         : Ending := .done
  missesStaged   : Bool := false
  replaceFails   : Bool := false
  fallback       : Ending := .done
  removeFails    : Bool := false

def Faults.none : Faults := {}

section

variable (f : Faults)

/-- The old database is copied, if it is there. -/
def backUp (dbPath : String) : Action UInt8 Unit := do
  if f.missesDatabase || ((← get).get? dbPath).isNone then return
  copy dbPath (dbPath ++ ".bak") f.backup

/-- The staged database is moved over the old one, or else copied. -/
def replaceDatabase (dbPath : String) : Action UInt8 Unit := do
  if f.missesStaged || ((← get).get? (dbPath ++ ".staged")).isNone then return
  tryCatch (move (dbPath ++ ".staged") dbPath f.replaceFails) fun _ => do
    copy (dbPath ++ ".staged") dbPath f.fallback
    tryCatch (remove (dbPath ++ ".staged") f.removeFails) fun _ => return

def restoreFiles (decrypted : List UInt8) (dbPath : String) : Action UInt8 Unit := do
  backUp f dbPath
  write (dbPath ++ ".staged") decrypted f.staged
  replaceDatabase f dbPath

variable {Priv : Type} (C : Crypto Priv) (L : Library) (S : PairingLibrary)

/-- `do_POST`, with the way its file operations end. -/
def doPostWith (r : PairingRequest) (d : Device Priv) : Answer × Device Priv :=
  if r.path = pairingPath then
    let clientIp := clientIpOf r
    if d.rateLimiter.isBlocked clientIp r.arrived then (rateLimited, d)
    else
      match readPairing C L S r.body d with
      | .ok decrypted =>
        match restoreFiles f decrypted d.dbPath d.files with
        | .ok _ files =>
          (accepted, { d with
            files := files
            rateLimiter := d.rateLimiter.recordSuccess clientIp })
        | .error _ files =>
          (Refusal.failed.answer, { d with
            files := files
            rateLimiter := d.rateLimiter.recordFailure clientIp r.finished })
      | .error refusal =>
        (refusal.answer, { d with
          rateLimiter := d.rateLimiter.recordFailure clientIp r.finished })
  else ((404, ""), d)

/-- The database is as it was, or it is the one that the request carries, which begins as `magic`
allows; it is as it was after every answer but 200. -/
structure AllOrNothing (magic : List UInt8 → Prop) (r : PairingRequest) (d : Device Priv) : Prop where
  whole : (doPostWith f C L S r d).2.database = d.database ∨
    ∃ decrypted, readPairing C L S r.body d = .ok decrypted ∧ magic decrypted ∧
      (doPostWith f C L S r d).2.database = some decrypted
  refused : (doPostWith f C L S r d).1.1 ≠ 200 →
    (doPostWith f C L S r d).2.database = d.database

end

/-! ## What becomes of the database -/

theorem ne_append {path suffix : String} (hsuffix : suffix ≠ "") : path ≠ path ++ suffix := by
  intro h
  have hlength := congrArg String.length h
  rw [String.length_append] at hlength
  -- only the empty text adds nothing
  exact hsuffix (String.length_eq_zero_iff.mp (by omega))

section

variable {f : Faults} {decrypted : List UInt8} {dbPath : String} {files : Dict String (List UInt8)}

theorem keeps_backUp : Keeps (fun files => files.get? dbPath) (backUp f dbPath) := by
  apply Keeps.get
  intro files
  split
  · rfl
  · exact keeps_copy (ne_append (by decide)) f.backup files

/-- The staged database is removed, or stays. -/
theorem removeStaged_ok : ∃ files', (tryCatch (remove (dbPath ++ ".staged") f.removeFails)
      (fun _ => pure ⟨⟩) : Action UInt8 Unit) files = .ok ⟨⟩ files' ∧
    files'.get? dbPath = files.get? dbPath := by
  have hother : dbPath ≠ dbPath ++ ".staged" := ne_append (by decide)
  rw [apply_tryCatch]
  unfold remove
  cases f.removeFails with
  | true => exact ⟨files, rfl, rfl⟩
  | false => exact ⟨_, rfl, (Dict.get?_erase _ _ _).trans (if_neg hother)⟩

/-- The staged database takes the place of the old one, or is not seen, or the fallback breaks
off. -/
theorem replaceDatabase_cases (hstaged : files.get? (dbPath ++ ".staged") = some decrypted) :
    (∃ files', replaceDatabase f dbPath files = .ok ⟨⟩ files' ∧
      (files'.get? dbPath = files.get? dbPath ∨ files'.get? dbPath = some decrypted)) ∨
    (∃ files', replaceDatabase f dbPath files = .error ⟨⟩ files' ∧
      (files'.get? dbPath = files.get? dbPath ∨
        f.replaceFails = true ∧ ∃ written, f.fallback = .cut written)) := by
  unfold replaceDatabase
  rw [apply_bind, apply_get]
  dsimp only
  rw [hstaged]
  cases f.missesStaged with
  | true => exact .inl ⟨files, rfl, .inl rfl⟩
  | false =>
    rw [if_neg (by simp), apply_tryCatch, move_eq hstaged]
    cases f.replaceFails with
    | false =>
      rw [if_neg Bool.false_ne_true]
      exact .inl ⟨_, rfl, .inr ((Dict.get?_insert _ _ _ _).trans (if_pos rfl))⟩
    | true =>
      rw [if_pos rfl]
      dsimp only
      rw [apply_bind, copy_eq hstaged]
      cases f.fallback with
      | done =>
        obtain ⟨files', hremove, hkept⟩ := @removeStaged_ok f dbPath (files.insert dbPath decrypted)
        refine .inl ⟨files', hremove, .inr (hkept.trans ?_)⟩
        exact (Dict.get?_insert _ _ _ _).trans (if_pos rfl)
      | refused => exact .inr ⟨files, rfl, .inl rfl⟩
      | cut written => exact .inr ⟨_, rfl, .inr ⟨rfl, written, rfl⟩⟩

/-- Without faults the staged database is moved. -/
theorem replaceDatabase_none : replaceDatabase .none dbPath
      (files.insert (dbPath ++ ".staged") decrypted) = .ok ⟨⟩
        (((files.insert (dbPath ++ ".staged") decrypted).erase (dbPath ++ ".staged")).insert dbPath
          decrypted) := by
  have hstaged : (files.insert (dbPath ++ ".staged") decrypted).get? (dbPath ++ ".staged") =
      some decrypted := (Dict.get?_insert _ _ _ _).trans (if_pos rfl)
  unfold replaceDatabase
  rw [apply_bind, apply_get]
  dsimp only
  rw [hstaged, if_neg (by simp [Faults.none]), apply_tryCatch, move_eq hstaged]
  rfl

/-- What the file operations of a request leave of the database. -/
theorem restoreFiles_cases (f : Faults) (decrypted : List UInt8) (dbPath : String)
    (files : Dict String (List UInt8)) :
    (∃ files', restoreFiles f decrypted dbPath files = .ok ⟨⟩ files' ∧
      (files'.get? dbPath = files.get? dbPath ∨ files'.get? dbPath = some decrypted)) ∨
    (∃ files', restoreFiles f decrypted dbPath files = .error ⟨⟩ files' ∧
      (files'.get? dbPath = files.get? dbPath ∨
        f.replaceFails = true ∧ ∃ written, f.fallback = .cut written)) := by
  have hother : dbPath ≠ dbPath ++ ".staged" := ne_append (by decide)
  have hbackup : (backUp f dbPath files).state.get? dbPath = files.get? dbPath :=
    keeps_backUp files
  unfold restoreFiles
  rw [apply_bind]
  rcases hbacked : backUp f dbPath files with ⟨u, backed⟩ | ⟨e, backed⟩
  · -- the backup does not touch the database
    rw [hbacked] at hbackup
    dsimp only
    rw [apply_bind]
    have hwrite : (write (dbPath ++ ".staged") decrypted f.staged backed).state.get? dbPath =
        backed.get? dbPath := keeps_write hother f.staged backed
    cases hstaged : f.staged with
    | done =>
      -- nor does the staging
      rw [hstaged] at hwrite
      have hkept : (backed.insert (dbPath ++ ".staged") decrypted).get? dbPath =
          files.get? dbPath := Eq.trans hwrite hbackup
      rw [← hkept]
      exact replaceDatabase_cases ((Dict.get?_insert _ _ _ _).trans (if_pos rfl))
    | refused => exact .inr ⟨backed, rfl, .inl hbackup⟩
    | cut written =>
      rw [hstaged] at hwrite
      exact .inr ⟨_, rfl, .inl (Eq.trans hwrite hbackup)⟩
  · rw [hbacked] at hbackup
    exact .inr ⟨backed, rfl, .inl hbackup⟩

end

/-! ## What becomes of a request -/

section

variable {Priv : Type} {C : Crypto Priv} {L : Library} {S : PairingLibrary}

/-- Without faults, the files end as `doPost` has them. -/
theorem doPostWith_none (r : PairingRequest) (d : Device Priv) :
    doPostWith .none C L S r d = doPost C L S r d := by
  have hrestore : ∀ decrypted, restoreFiles .none decrypted d.dbPath d.files =
      .ok ⟨⟩ (restore decrypted d).files := by
    intro decrypted
    unfold restoreFiles restore backUp Device.database
    rw [apply_bind, apply_bind, apply_get]
    dsimp only
    rcases hold : d.files.get? d.dbPath with _ | old
    · exact replaceDatabase_none
    · rw [if_neg (by simp [Faults.none]), copy_eq hold]
      exact replaceDatabase_none
  unfold doPostWith doPost
  simp only [hrestore]
  rfl

/-- What is read from a request has passed the check of its first bytes. -/
theorem isSqlite_of_readPairing {body : Option Json} {d : Device Priv} {decrypted : List UInt8}
    (hread : readPairing C L S body d = .ok decrypted) : isSqlite decrypted = true := by
  unfold readPairing at hread
  split at hread
  · obtain ⟨pin, -, hread⟩ := except_bind_eq_ok_iff.mp hread
    obtain ⟨⟨⟩, -, hread⟩ := except_bind_eq_ok_iff.mp hread
    obtain ⟨_, _, _, _, -, -, -, -, -, hmagic⟩ := openDatabase_eq_ok_iff.mp hread
    exact hmagic
  · cases hread

/-- A request is refused with the database as it was, or has come as far as the files. -/
theorem doPostWith_cases (f : Faults) (r : PairingRequest) (d : Device Priv) :
    ((doPostWith f C L S r d).2.database = d.database) ∨
    ∃ decrypted, readPairing C L S r.body d = .ok decrypted ∧
      ((∃ files', restoreFiles f decrypted d.dbPath d.files = .ok ⟨⟩ files' ∧
        (doPostWith f C L S r d).1 = accepted ∧
        (doPostWith f C L S r d).2.database = files'.get? d.dbPath) ∨
      ∃ files', restoreFiles f decrypted d.dbPath d.files = .error ⟨⟩ files' ∧
        (doPostWith f C L S r d).2.database = files'.get? d.dbPath) := by
  unfold doPostWith
  split_ifs with hpath
  · dsimp only
    split_ifs with hblocked
    · exact .inl rfl
    · rcases hread : readPairing C L S r.body d with refusal | decrypted
      · exact .inl rfl
      · refine .inr ⟨decrypted, rfl, ?_⟩
        dsimp only
        rcases hfiles : restoreFiles f decrypted d.dbPath d.files with ⟨u, files'⟩ | ⟨e, files'⟩
        · exact .inl ⟨files', rfl, rfl, rfl⟩
        · exact .inr ⟨files', rfl, rfl⟩
  · exact .inl rfl

variable (C L S)

/-- **Restoring is all or nothing**, unless the fallback copy breaks off. -/
theorem allOrNothing (f : Faults)
    (hfallback : ¬ (f.replaceFails = true ∧ ∃ written, f.fallback = .cut written))
    (r : PairingRequest) (d : Device Priv) :
    AllOrNothing f C L S
      (fun data => sqliteHeader <+: data ∨ List.replicate 16 0 <+: data) r d := by
  rcases doPostWith_cases (C := C) (L := L) (S := S) f r d with hkept | ⟨decrypted, hread, hfiles⟩
  · exact ⟨.inl hkept, fun _ => hkept⟩
  · have hcases := restoreFiles_cases f decrypted d.dbPath d.files
    rcases hfiles with ⟨files', hok, haccepted, hdatabase⟩ | ⟨files', herror, hdatabase⟩
    · -- every operation that counts has succeeded
      refine ⟨?_, fun hrefused => absurd (congrArg Prod.fst haccepted) hrefused⟩
      rcases hcases with ⟨files'', hok', hleft⟩ | ⟨files'', herror, -⟩
      · obtain ⟨-, rfl⟩ := Result.ok.inj (hok.symm.trans hok')
        rcases hleft with hkept | hreplaced
        · exact .inl (hdatabase.trans hkept)
        · refine .inr ⟨decrypted, hread, ?_, hdatabase.trans hreplaced⟩
          have hmagic := isSqlite_of_readPairing hread
          unfold isSqlite at hmagic
          rw [Bool.and_eq_true, Bool.or_eq_true] at hmagic
          exact hmagic.2.imp List.isPrefixOf_iff_prefix.mp List.isPrefixOf_iff_prefix.mp
      · rw [hok] at herror
        cases herror
    · -- one has failed before the database was touched
      have hkept : (doPostWith f C L S r d).2.database = d.database := by
        rcases hcases with ⟨files'', hok, -⟩ | ⟨files'', herror', hleft⟩
        · rw [herror] at hok
          cases hok
        · obtain ⟨-, rfl⟩ := Result.error.inj (herror.symm.trans herror')
          exact hdatabase.trans (hleft.resolve_right hfallback)
      exact ⟨.inl hkept, fun _ => hkept⟩

end

/-! ## Two requests -/

/-- The database in use cannot be replaced, and is copied over. -/
def inUse : Faults := { replaceFails := true }

theorem allOrNothing_inUse :
    ¬ (inUse.replaceFails = true ∧ ∃ written, inUse.fallback = .cut written) ∧
    AllOrNothing inUse sample sampleLibrary plainPairing
      (fun data => sqliteHeader <+: data ∨ List.replicate 16 0 <+: data) pushedRequest
      (runServer pairedDevice) := by
  have hcopied : ¬ (inUse.replaceFails = true ∧ ∃ written, inUse.fallback = .cut written) := by
    rintro ⟨-, written, ⟨⟩⟩
  exact ⟨hcopied, allOrNothing sample sampleLibrary plainPairing inUse hcopied pushedRequest
    (runServer pairedDevice)⟩

/-- As `pushedRequest`, with sixteen zeros for a database. -/
def zerosRequest : PairingRequest :=
  { pushedRequest with
    body := (sealDatabase sample sampleLibrary plainPairing (givenBody zeroToken.1) 1
      (Bytes.replicate 12 0) (List.replicate 16 0)).toOption.map .obj }

/-- The disk is full after four bytes. -/
def diskFull : Faults := { replaceFails := true, fallback := .cut 4 }

/-- Zeros take the place of a database; and what the fallback copy has begun stays, behind an
answer of 400. -/
theorem not_allOrNothing :
    ¬ AllOrNothing .none sample sampleLibrary plainPairing (sqliteHeader <+: ·) zerosRequest
      (runServer pairedDevice) ∧
    ¬ AllOrNothing diskFull sample sampleLibrary plainPairing (sqliteHeader <+: ·) pushedRequest
      (runServer pairedDevice) := by
  constructor
  · have hzeros : (doPostWith .none sample sampleLibrary plainPairing zerosRequest
        (runServer pairedDevice)).2.database = some (List.replicate 16 0) := by
      decide +kernel
    rintro ⟨hwhole, -⟩
    rw [hzeros] at hwhole
    rcases hwhole with hold | ⟨decrypted, -, hmagic, hdecrypted⟩
    · exact absurd hold (by decide +kernel)
    · obtain rfl := Option.some.inj hdecrypted
      exact absurd hmagic (by decide +kernel)
  · -- the answer is 400, and the database is not the old one
    have hpart : (doPostWith diskFull sample sampleLibrary plainPairing pushedRequest
          (runServer pairedDevice)).1.1 ≠ 200 ∧
        (doPostWith diskFull sample sampleLibrary plainPairing pushedRequest
          (runServer pairedDevice)).2.database ≠ (runServer pairedDevice).database := by
      decide +kernel
    rintro ⟨-, hrefused⟩
    exact hpart.2 (hrefused hpart.1)

end AnonyMus.P2p.Pairing
