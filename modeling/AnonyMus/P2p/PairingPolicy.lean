import Mathlib.Data.List.DropRight
import AnonyMus.Lib.Window
import AnonyMus.P2p.PairingReplay

/-!
# The policy of the pairing limiter

`_PairingRateLimiter` of `transports/p2p/routers/sync.py` states three limits, of which
`do_POST` asks it for one: whether the address is blocked. A success resets them all. Times are
compared as the limiter compares its own, in doubles.

* `Verdict`, `visits` — what becomes of the requests of an address;
* `Enforced` — the limits, over the visits of a run;
* `tries`, `heard` — what the requests bring under the keys of the session, and which of them
  come outside a block;
* `Paced` — these come far enough apart;
* `Tracks`, `tracks_after` — what the limiter has of the visits; the block is enforced;
* `policy_enforced_iff` — the limits are enforced exactly when the address keeps the pace itself.
-/

namespace AnonyMus.P2p.Pairing

open EStateM
open Python (Crypto Library sample sampleLibrary)
open Window (within recent recent_append)
open PairingRateLimiter (shortWindow longWindow cooldown maxFailuresLong)

def PairingRateLimiter.maxFailuresShort : ℕ := 5

/-! ## Visits -/

/-- What becomes of a request; a failure may have got as far as the comparison of tokens. -/
inductive Verdict
  | refused
  | failed (pinChecked : Bool)
  | accepted
deriving DecidableEq

namespace Verdict

def isFailed : Verdict → Bool
  | failed _ => true
  | _ => false

def isPinFailure : Verdict → Bool
  | failed pinChecked => pinChecked
  | _ => false

/-- What the limiter is told. -/
def note (clientIp : String) (now : Double) (limiter : PairingRateLimiter) :
    Verdict → PairingRateLimiter
  | refused => limiter
  | failed _ => limiter.recordFailure clientIp now
  | accepted => limiter.recordSuccess clientIp

end Verdict

structure Visit where
  arrived  : Double
  finished : Double
  verdict  : Verdict
deriving DecidableEq

section

variable {Priv : Type} (C : Crypto Priv) (L : Library) (S : PairingLibrary)

/-- The request gets as far as `compare_digest`, if there is a token. -/
def checksPin (body : Option Json) (d : Device Priv) : Bool :=
  match d.pairingPrivateKey, d.pairingHkdfSalt, body.bind Json.members? with
  | some _, some _, some members => (providedPin members).isOk
  | _, _, _ => false

/-- What becomes of a body that the limiter lets through; it depends on the keys of the session. -/
def outcome (body : Option Json) (d : Device Priv) : Verdict :=
  match readPairing C L S body d with
  | .ok _ => .accepted
  | .error _ => .failed (checksPin body d)

def verdict (r : PairingRequest) (d : Device Priv) : Verdict :=
  if d.rateLimiter.isBlocked (clientIpOf r) r.arrived then .refused else outcome C L S r.body d

/-- The pairing request of an address, with what becomes of it. -/
def visit (judge : PairingRequest → Device Priv → Verdict) (ip : String) (e : PairingEvent Priv)
    (d : Device Priv) : Option Visit :=
  match e with
  | .post r =>
    if r.path = pairingPath ∧ clientIpOf r = ip then
      some ⟨r.arrived, r.finished, judge r d⟩
    else none
  | _ => none

def visits (ip : String) (events : List (PairingEvent Priv)) (d : Device Priv) : List Visit :=
  outputs (PairingEvent.run C L S) (visit (verdict C L S) ip) events d

/-- The session is opened and served, and nobody answers a request. -/
def PairingEvent.serve : PairingEvent Priv → EStateM Empty (Device Priv) Unit
  | .post _ => pure ⟨⟩
  | e => e.run C L S

/-- The requests of an address, as if none was ever refused: what their bodies are under the keys
that `sync_pair` has drawn. -/
def tries (ip : String) (events : List (PairingEvent Priv)) (d : Device Priv) : List Visit :=
  outputs (PairingEvent.serve C L S) (visit (fun r => outcome C L S r.body) ip) events d

def PairingEvent.request? : PairingEvent Priv → Option PairingRequest
  | .post r => some r
  | _ => none

/-- One request after the other, on one clock. -/
structure Timed (events : List (PairingEvent Priv)) : Prop where
  within : ∀ r ∈ events.filterMap PairingEvent.request?, r.arrived ≤ r.finished
  sorted : (events.filterMap PairingEvent.request?).Pairwise fun r r' => r.finished ≤ r'.arrived

end

/-! ## The limits -/

/-- When a visit ended in this way. -/
def endedAt (p : Verdict → Bool) (v : Visit) : Option Double :=
  if p v.verdict then some v.finished else none

/-- When the visits since the last success ended in this way. -/
def tally (p : Verdict → Bool) (trace : List Visit) : List Double :=
  (trace.rtakeWhile fun v => v.verdict ≠ .accepted).filterMap (endedAt p)

/-- `now - t <= window`. -/
def Near (window t now : Double) : Prop := now - t ≤ window

instance (window : Double) : DecidableRel (Near window) := fun t now =>
  inferInstanceAs (Decidable (now - t ≤ window))

/-- One second after the third failure, two after the fourth, and so on. -/
def backoff (failures : ℕ) : Double := OfNat.ofNat (2 ^ (failures - 3))

def InBackoff (failures : List Double) (now : Double) : Prop :=
  3 ≤ failures.length ∧ ∀ f ∈ failures.getLast?, now < f + backoff failures.length

/-- The failure is the last of as many as block an address. -/
def Blocks (before : List Visit) (v : Visit) : Prop :=
  v.verdict.isFailed = true ∧
    maxFailuresLong ≤ recent (Near longWindow) v.finished (tally Verdict.isFailed (before ++ [v]))

/-- The policy: no more checks of the token in a short window than the maximum, unless one
succeeds; none while the address has to back off; and none while it is blocked. -/
structure Enforced (trace : List Visit) : Prop where
  short   : ∀ before mid after, trace = before ++ mid ++ after →
    (∀ v ∈ mid, v.verdict ≠ .accepted) → ∀ w,
      within (Near shortWindow) w (mid.filterMap (endedAt Verdict.isPinFailure)) ≤
        PairingRateLimiter.maxFailuresShort
  backoff : ∀ before v after, trace = before ++ v :: after →
    InBackoff (tally Verdict.isFailed before) v.arrived → v.verdict = .refused
  long    : ∀ before v after, trace = before ++ v :: after → ∀ early v' mid,
    before = early ++ v' :: mid → Blocks early v' →
      v.arrived < v'.finished + cooldown → v.verdict = .refused

/-! ## The pace -/

/-- The last of the failures is one of as many as block an address, and the block runs. -/
def LockedOut (failures : List Double) (now : Double) : Prop :=
  ∃ f ∈ failures.getLast?,
    maxFailuresLong ≤ recent (Near longWindow) f failures ∧ now < f + cooldown

instance (failures : List Double) (now : Double) : Decidable (LockedOut failures now) :=
  inferInstanceAs (Decidable (∃ f ∈ failures.getLast?, _))

/-- The tries that come outside a block. -/
def heard (tries : List Visit) : List Visit :=
  tries.foldl (fun heard v =>
    if LockedOut (tally Verdict.isFailed heard) v.arrived then heard else heard ++ [v]) []

/-- An address that keeps the pace: after three failures or more in a row its next try comes when
the backoff is over, and of six failures of the token with no success in between, the last one
comes when the short window of the first one is over. -/
structure Paced (heard : List Visit) : Prop where
  spaced : ∀ before row v after, heard = before ++ row ++ v :: after →
    (∀ u ∈ row, u.verdict ≠ .accepted) → 3 ≤ row.length →
      ∀ f ∈ row.getLast?, f.finished + backoff row.length ≤ v.arrived
  sparse : ∀ before v mid v' after, heard = before ++ v :: (mid ++ v' :: after) →
    (∀ u ∈ mid, u.verdict ≠ .accepted) →
      v.verdict.isPinFailure = true → v'.verdict.isPinFailure = true →
        PairingRateLimiter.maxFailuresShort ≤ (mid.countP fun u => u.verdict.isPinFailure) + 1 →
          shortWindow < v'.finished - v.finished

/-! ## Visits and the pace -/

section

variable {before mid after row : List Visit} {trace : List Visit} {v : Visit} {p : Verdict → Bool}
  {window t w : Double}

theorem closing_near (window : Double) : Window.Closing (Near window) := by
  intro w w' t t' hw ht hnear
  exact (Double.sub_mono ht hw).trans hnear

theorem near_self (window t : Double) : Near window t t := by
  unfold Near
  rw [Double.sub_self]
  exact Double.zero_le _

theorem backoff_mono : Monotone backoff := by
  intro m n hle
  refine Double.nearest_mono (Nat.mul_le_mul_right _ ?_)
  exact Nat.pow_le_pow_right two_pos (Nat.sub_le_sub_right hle 3)

theorem endedAt_eq_some_iff : endedAt p v = some t ↔ p v.verdict = true ∧ v.finished = t := by
  unfold endedAt
  rw [Option.ite_none_right_eq_some, Option.some.injEq]

theorem verdict_ne {verdict : Verdict} (hp : p verdict = false) (hv : p v.verdict = true) :
    v.verdict ≠ verdict := by
  intro heq
  rw [heq, hp] at hv
  cases hv

theorem tally_append_of_not_accepted (h : ∀ v ∈ mid, v.verdict ≠ .accepted) :
    tally p (before ++ mid) = tally p before ++ mid.filterMap (endedAt p) := by
  induction mid using List.reverseRecOn with
  | nil => simp
  | append_singleton mid v ih =>
    have hmid : ∀ v ∈ mid, v.verdict ≠ .accepted := fun v hv => h v (by simp [hv])
    have hv : v.verdict ≠ .accepted := h v (by simp)
    rw [← List.append_assoc, tally, List.rtakeWhile_concat, if_pos (decide_eq_true hv),
      List.filterMap_append, List.filterMap_append, ← List.append_assoc, ← ih hmid, tally]

theorem tally_append_accepted (hv : v.verdict = .accepted) : tally p (before ++ [v]) = [] := by
  rw [tally, List.rtakeWhile_concat, if_neg (by simp [hv])]
  rfl

/-- The visits that are not refused. -/
def admitted (trace : List Visit) : List Visit := trace.filter fun v => v.verdict ≠ .refused

theorem admitted_append : admitted (before ++ after) = admitted before ++ admitted after :=
  List.filter_append ..

theorem mem_admitted : v ∈ admitted trace ↔ v ∈ trace ∧ v.verdict ≠ .refused := by
  rw [admitted, List.mem_filter, decide_eq_true_iff]

theorem filterMap_admitted (hp : p .refused = false) (trace : List Visit) :
    (admitted trace).filterMap (endedAt p) = trace.filterMap (endedAt p) := by
  rw [admitted, List.filterMap_filter]
  congr 1
  funext v
  by_cases hv : v.verdict = .refused
  · simp [endedAt, hv, hp]
  · simp [hv]

theorem admitted_refused (hv : v.verdict = .refused) :
    admitted (trace ++ [v]) = admitted trace := by
  simp [admitted, hv]

theorem admitted_concat (hv : v.verdict ≠ .refused) :
    admitted (trace ++ [v]) = admitted trace ++ [v] := by
  simp [admitted, hv]

/-- A refusal is not counted. -/
theorem tally_refused (hp : p .refused = false) (hv : v.verdict = .refused) :
    tally p (trace ++ [v]) = tally p trace := by
  rw [tally_append_of_not_accepted (by simp [hv])]
  simp [endedAt, hv, hp]

theorem tally_admitted (hp : p .refused = false) (trace : List Visit) :
    tally p (admitted trace) = tally p trace := by
  induction trace using List.reverseRecOn with
  | nil => rfl
  | append_singleton trace v ih =>
    by_cases hrefused : v.verdict = .refused
    · rw [admitted_refused hrefused, tally_refused hp hrefused, ih]
    rw [admitted_concat hrefused]
    by_cases haccepted : v.verdict = .accepted
    · rw [tally_append_accepted haccepted, tally_append_accepted haccepted]
    · rw [tally_append_of_not_accepted (by simpa using haccepted),
        tally_append_of_not_accepted (by simpa using haccepted), ih]

/-- What is neither refused nor accepted has failed. -/
theorem filterMap_failed (h : ∀ v ∈ row, v.verdict ≠ .refused ∧ v.verdict ≠ .accepted) :
    row.filterMap (endedAt Verdict.isFailed) = row.map Visit.finished := by
  rw [← List.filterMap_eq_map]
  refine List.filterMap_congr fun v hv => ?_
  obtain ⟨hrefused, haccepted⟩ := h v hv
  cases hverdict : v.verdict with
  | refused => exact absurd hverdict hrefused
  | accepted => exact absurd hverdict haccepted
  | failed pinChecked => exact endedAt_eq_some_iff.mpr ⟨by rw [hverdict]; rfl, rfl⟩

/-- The visits of an address, one after the other. -/
structure InTurn (trace : List Visit) : Prop where
  within : ∀ v ∈ trace, v.arrived ≤ v.finished
  sorted : trace.Pairwise fun v v' => v.finished ≤ v'.arrived

theorem InTurn.sorted_filterMap (h : InTurn trace) (hsub : mid.Sublist trace) :
    (mid.filterMap (endedAt p)).Pairwise (· ≤ ·) := by
  have hfinished : trace.Pairwise fun v v' => v.finished ≤ v'.finished :=
    h.sorted.imp_of_mem fun _ hv' hle => hle.trans (h.within _ hv')
  refine List.pairwise_filterMap.mpr ((hfinished.sublist hsub).imp ?_)
  intro v v' hle t ht t' ht'
  rw [← (endedAt_eq_some_iff.mp ht).2, ← (endedAt_eq_some_iff.mp ht').2]
  exact hle

/-- The short limit is kept when the admitted failures are far enough apart. -/
theorem short_iff (h : InTurn trace) {limit : ℕ} (hrefused : p .refused = false)
    (haccepted : p .accepted = false) :
    (∀ before mid after, trace = before ++ mid ++ after → (∀ v ∈ mid, v.verdict ≠ .accepted) →
      ∀ w, within (Near window) w (mid.filterMap (endedAt p)) ≤ limit + 1) ↔
      ∀ before v mid v' after, admitted trace = before ++ v :: (mid ++ v' :: after) →
        (∀ u ∈ mid, u.verdict ≠ .accepted) → p v.verdict = true → p v'.verdict = true →
          limit ≤ mid.countP (fun u => p u.verdict) → ¬ Near window v.finished v'.finished := by
  have hlength : ∀ row : List Visit,
      (row.filterMap (endedAt p)).length = row.countP fun u => p u.verdict := by
    intro row
    rw [List.length_filterMap_eq_countP]
    refine List.countP_congr fun u _ => ?_
    unfold endedAt
    cases p u.verdict <;> simp
  constructor
  · intro hall before v mid v' after hsplit hnot hv hv' hlong
    have hsplit' : admitted trace = before ++ ((v :: mid ++ [v']) ++ after) := by simpa using hsplit
    obtain ⟨early, rest, rfl, -, hrest⟩ := List.filter_eq_append_iff.mp hsplit'
    obtain ⟨row, late, rfl, hrow, -⟩ := List.filter_eq_append_iff.mp hrest
    have hnot' : ∀ u ∈ row, u.verdict ≠ .accepted := by
      intro u hu haccept
      have hmem : u ∈ v :: mid ++ [v'] := by
        rw [← hrow]
        exact List.mem_filter.mpr ⟨hu, by simp [haccept]⟩
      rcases List.mem_append.mp hmem with hmem | hmem
      · rcases List.mem_cons.mp hmem with rfl | hmem
        · exact verdict_ne haccepted hv haccept
        · exact hnot u hmem haccept
      · obtain rfl := List.mem_singleton.mp hmem
        exact verdict_ne haccepted hv' haccept
    have htimes : row.filterMap (endedAt p) =
        [] ++ v.finished :: (mid.filterMap (endedAt p) ++ v'.finished :: []) := by
      rw [← filterMap_admitted hrefused, admitted, hrow, List.filterMap_append, List.filterMap_cons,
        List.filterMap_cons, endedAt_eq_some_iff.mpr ⟨hv, rfl⟩, endedAt_eq_some_iff.mpr ⟨hv', rfl⟩]
      rfl
    have hsub : row.Sublist (early ++ (row ++ late)) :=
      (List.sublist_append_left _ _).trans (List.sublist_append_right _ _)
    have hwithin := hall early row late (List.append_assoc ..).symm hnot'
    rw [Window.within_le_iff_apart (closing_near window) (near_self window)
      (h.sorted_filterMap hsub)] at hwithin
    exact hwithin _ _ _ _ _ htimes (hlong.trans (hlength mid).ge)
  · rintro hall before mid after rfl hnot
    have hsub : mid.Sublist (before ++ mid ++ after) :=
      (List.sublist_append_right _ _).trans (List.sublist_append_left _ _)
    rw [Window.within_le_iff_apart (closing_near window) (near_self window)
      (h.sorted_filterMap (p := p) hsub)]
    intro early x between y late htimes hlong
    -- the visits at these times
    obtain ⟨first, rest, rfl, -, hrest⟩ := List.filterMap_eq_append_iff.mp htimes
    obtain ⟨skipped, v, rest, rfl, -, hv, hmore⟩ := List.filterMap_eq_cons_iff.mp hrest
    obtain ⟨row, rest, rfl, rfl, hlate⟩ := List.filterMap_eq_append_iff.mp hmore
    obtain ⟨skipped', v', last, rfl, hskipped', hv', -⟩ := List.filterMap_eq_cons_iff.mp hlate
    obtain ⟨hpv, rfl⟩ := endedAt_eq_some_iff.mp hv
    obtain ⟨hpv', rfl⟩ := endedAt_eq_some_iff.mp hv'
    refine hall (admitted (before ++ first ++ skipped)) v (admitted (row ++ skipped')) v'
      (admitted (last ++ after)) ?_ ?_ hpv hpv' ?_
    · simp [admitted, verdict_ne hrefused hpv, verdict_ne hrefused hpv']
    · intro u hu
      refine hnot u ?_
      have hmem := (mem_admitted.mp hu).1
      simp only [List.mem_append, List.mem_cons] at hmem ⊢
      tauto
    · rw [← hlength, filterMap_admitted hrefused, List.filterMap_append,
        List.filterMap_eq_nil_iff.mpr hskipped', List.append_nil]
      exact hlong

/-- The backoff is kept when the admitted visits wait for it. -/
theorem backoff_iff :
    (∀ before v after, trace = before ++ v :: after →
      InBackoff (tally Verdict.isFailed before) v.arrived → v.verdict = .refused) ↔
      ∀ before row v after, admitted trace = before ++ row ++ v :: after →
        (∀ u ∈ row, u.verdict ≠ .accepted) → 3 ≤ row.length →
          ∀ f ∈ row.getLast?, f.finished + backoff row.length ≤ v.arrived := by
  have hadmitted : ∀ {row before after : List Visit}, admitted trace = before ++ row ++ after →
      (∀ u ∈ row, u.verdict ≠ .accepted) →
        ∀ u ∈ row, u.verdict ≠ .refused ∧ u.verdict ≠ .accepted := by
    intro row before after hsplit hnot u hu
    have hmem : u ∈ admitted trace := by
      rw [hsplit]
      simp [hu]
    exact ⟨(mem_admitted.mp hmem).2, hnot u hu⟩
  constructor
  · intro hall before row v after hsplit hnot hlong f hf
    have hrow := filterMap_failed (hadmitted hsplit hnot)
    have hv : v.verdict ≠ .refused := by
      have hmem : v ∈ admitted trace := by
        rw [hsplit]
        simp
      exact (mem_admitted.mp hmem).2
    obtain ⟨early, rest, rfl, hearly, hrest⟩ := List.filter_eq_append_iff.mp hsplit
    obtain ⟨skipped, late, rfl, hskipped, -, -⟩ := List.filter_eq_cons_iff.mp hrest
    have htally : tally Verdict.isFailed (early ++ skipped) =
        tally Verdict.isFailed before ++ row.map Visit.finished := by
      rw [← tally_admitted rfl, admitted_append, admitted, admitted, hearly,
        List.filter_eq_nil_iff.mpr hskipped, List.append_nil, tally_append_of_not_accepted hnot,
        hrow]
    have hopen : ¬ InBackoff (tally Verdict.isFailed (early ++ skipped)) v.arrived := fun hback =>
      hv (hall (early ++ skipped) v late (List.append_assoc ..).symm hback)
    have hlast : (tally Verdict.isFailed (early ++ skipped)).getLast? = some f.finished := by
      rw [htally, List.getLast?_append, List.getLast?_map, hf]
      rfl
    have hlength : row.length ≤ (tally Verdict.isFailed (early ++ skipped)).length := by
      rw [htally, List.length_append, List.length_map]
      exact Nat.le_add_left _ _
    by_contra hearlier
    refine hopen ⟨hlong.trans hlength, fun g hg => ?_⟩
    rw [Option.mem_def, hlast] at hg
    obtain rfl := Option.some.inj hg
    exact (not_le.mp hearlier).trans_le (Double.add_le_add_left (backoff_mono hlength) _)
  · rintro hall before v after rfl ⟨hlong, hlast⟩
    by_contra hv
    -- the admitted visits since the last success
    obtain ⟨early, hearly⟩ := List.rtakeWhile_suffix (fun v : Visit => v.verdict ≠ .accepted)
      (admitted before)
    rw [← tally_admitted rfl, tally] at hlong hlast
    generalize hrow : (admitted before).rtakeWhile (fun v => v.verdict ≠ .accepted) = row
      at hearly hlong hlast
    have hnot : ∀ u ∈ row, u.verdict ≠ .accepted := by
      intro u hu
      rw [← hrow] at hu
      have hpos := List.mem_rtakeWhile_imp hu
      exact of_decide_eq_true hpos
    have hsplit : admitted (before ++ v :: after) = early ++ row ++ v :: admitted after := by
      rw [hearly]
      simp [admitted, hv]
    rw [filterMap_failed (hadmitted hsplit hnot), List.length_map] at hlong hlast
    have hsome : row.getLast?.isSome := by
      rw [List.getLast?_isSome, ← List.length_pos_iff]
      omega
    obtain ⟨f, hf⟩ := Option.isSome_iff_exists.mp hsome
    refine absurd (hlast f.finished ?_) (not_lt.mpr (hall early row v _ hsplit hnot hlong f hf))
    rw [List.getLast?_map, hf]
    rfl

end

/-! ## What the limiter has of the visits -/

/-- Of an address the limiter has as many failures as still count in the long window, and it is
blocked as long as the last of its failures locks it out. -/
structure Tracks (ip : String) (trace : List Visit) (limiter : PairingRateLimiter) : Prop where
  sorted : ((limiter.long.get? ip).getD []).Pairwise (· ≤ ·)
  known  : ∀ t ∈ (limiter.long.get? ip).getD [], ∃ v ∈ trace, v.finished = t
  counts : ∀ later, (∀ v ∈ trace, v.finished ≤ later) →
    recent (Near longWindow) later ((limiter.long.get? ip).getD []) =
      recent (Near longWindow) later (tally Verdict.isFailed trace)
  blocks : ∀ now, (∀ v ∈ trace, v.finished ≤ now) →
    (limiter.isBlocked ip now = true ↔ LockedOut (tally Verdict.isFailed trace) now)

section

variable {ip : String} {trace : List Visit} {v : Visit} {limiter limiter' : PairingRateLimiter}

theorem isBlocked_of_none {now : Double} (h : limiter.blockedUntil.get? ip = none) :
    ¬ limiter.isBlocked ip now = true := by
  simp [PairingRateLimiter.isBlocked, h, Double.zero_le]

theorem not_lockedOut_nil {now : Double} : ¬ LockedOut [] now := by
  rintro ⟨f, ⟨⟩, -⟩

theorem tracks_empty : Tracks ip [] .empty where
  sorted := List.Pairwise.nil
  known _ h := nomatch h
  counts _ _ := rfl
  blocks _ _ := iff_of_false (isBlocked_of_none rfl) not_lockedOut_nil

theorem Tracks.congr (h : Tracks ip trace limiter)
    (hlong : limiter'.long.get? ip = limiter.long.get? ip)
    (hblocked : limiter'.blockedUntil.get? ip = limiter.blockedUntil.get? ip) :
    Tracks ip trace limiter' := by
  obtain ⟨hsorted, hknown, hcounts, hblocks⟩ := h
  rw [← hlong] at hsorted hknown
  simp only [← hlong] at hcounts
  simp only [PairingRateLimiter.isBlocked, ← hblocked] at hblocks
  exact ⟨hsorted, hknown, hcounts, hblocks⟩

/-- The queue after a failure. -/
theorem get?_long_recordFailure (ip : String) (now : Double) (limiter : PairingRateLimiter)
    (hsorted : ((limiter.long.get? ip).getD [] ++ [now]).Pairwise (· ≤ ·)) :
    ((limiter.recordFailure ip now).long.get? ip).getD [] =
      ((limiter.long.get? ip).getD [] ++ [now]).filter fun t => Near longWindow t now := by
  unfold PairingRateLimiter.recordFailure PairingRateLimiter.prune
  dsimp only
  rw [Dict.get?_insert, if_pos rfl, Option.getD_some,
    ← Window.dropWhile_eq_filter (closing_near longWindow) hsorted]
  congr 1
  funext t
  exact decide_eq_decide.mpr not_le.symm

/-- The end of the block after a failure. -/
theorem get?_blockedUntil_recordFailure (ip : String) (now : Double)
    (limiter : PairingRateLimiter) :
    (limiter.recordFailure ip now).blockedUntil.get? ip =
      if maxFailuresLong ≤ (((limiter.recordFailure ip now).long.get? ip).getD []).length then
        some (now + cooldown)
      else limiter.blockedUntil.get? ip := by
  unfold PairingRateLimiter.recordFailure
  dsimp only
  rw [Dict.get?_insert, if_pos rfl, Option.getD_some]
  split_ifs
  · rw [Dict.get?_insert, if_pos rfl]
  · rfl

/-- A visit begins after those before it. -/
theorem InTurn.finished_le (hturn : InTurn (trace ++ [v])) {v' : Visit} (hv' : v' ∈ trace) :
    v'.finished ≤ v.arrived :=
  (List.pairwise_append.mp hturn.sorted).2.2 v' hv' v (by simp)

/-- A visit that is refused leaves everything as it is. -/
theorem Tracks.refused (h : Tracks ip trace limiter) (hv : v.verdict = .refused) :
    Tracks ip (trace ++ [v]) limiter := by
  have hbefore : ∀ {later}, (∀ v' ∈ trace ++ [v], v'.finished ≤ later) →
      ∀ v' ∈ trace, v'.finished ≤ later := fun hall v' hv' => hall v' (List.mem_append_left _ hv')
  refine ⟨h.sorted, fun t ht => ?_, fun later hall => ?_, fun now hall => ?_⟩
  · obtain ⟨v', hv', ht⟩ := h.known t ht
    exact ⟨v', List.mem_append_left _ hv', ht⟩
  · rw [tally_refused rfl hv]
    exact h.counts later (hbefore hall)
  · rw [tally_refused rfl hv]
    exact h.blocks now (hbefore hall)

/-- A failure comes last in the queue, and sets a block when it fills the queue. -/
theorem Tracks.failed (h : Tracks ip trace limiter) (hturn : InTurn (trace ++ [v]))
    (hopen : ¬ limiter.isBlocked ip v.arrived = true) {pinChecked : Bool}
    (hv : v.verdict = .failed pinChecked) :
    Tracks ip (trace ++ [v]) (limiter.recordFailure ip v.finished) := by
  have hle : v.arrived ≤ v.finished := hturn.within v (by simp)
  have hsorted : ((limiter.long.get? ip).getD [] ++ [v.finished]).Pairwise (· ≤ ·) := by
    refine List.pairwise_append.mpr ⟨h.sorted, List.pairwise_singleton _ _, ?_⟩
    rintro t ht _ hlast
    obtain ⟨v', hv', rfl⟩ := h.known t ht
    rw [List.mem_singleton.mp hlast]
    exact (hturn.finished_le hv').trans hle
  have hlong := get?_long_recordFailure ip v.finished limiter hsorted
  have htally : tally Verdict.isFailed (trace ++ [v]) =
      tally Verdict.isFailed trace ++ [v.finished] := by
    rw [tally_append_of_not_accepted (by simp [hv])]
    simp [endedAt, hv, Verdict.isFailed]
  have hrecent : ∀ later, v.finished ≤ later →
      recent (Near longWindow) later
          (((limiter.recordFailure ip v.finished).long.get? ip).getD []) =
        recent (Near longWindow) later (tally Verdict.isFailed (trace ++ [v])) := by
    intro later hlater
    rw [hlong, Window.recent_filter (closing_near longWindow) hlater, htally, recent_append,
      recent_append,
      h.counts later fun v' hv' => (hturn.finished_le hv').trans (hle.trans hlater)]
  -- all that is left in the queue counts
  have hlength : (((limiter.recordFailure ip v.finished).long.get? ip).getD []).length =
      recent (Near longWindow) v.finished (tally Verdict.isFailed (trace ++ [v])) := by
    rw [← hrecent _ le_rfl, hlong, Window.recent_filter (closing_near longWindow) le_rfl,
      ← List.countP_eq_length_filter]
    rfl
  refine ⟨?_, fun t ht => ?_, fun later hall => hrecent later (hall v (by simp)),
    fun now hall => ?_⟩
  · rw [hlong]
    exact hsorted.sublist List.filter_sublist
  · rw [hlong] at ht
    rcases List.mem_append.mp (List.mem_filter.mp ht).1 with ht | ht
    · obtain ⟨v', hv', ht⟩ := h.known t ht
      exact ⟨v', List.mem_append_left _ hv', ht⟩
    · exact ⟨v, by simp, (List.mem_singleton.mp ht).symm⟩
  · have hlast : (tally Verdict.isFailed (trace ++ [v])).getLast? = some v.finished := by
      rw [htally, List.getLast?_concat]
    unfold PairingRateLimiter.isBlocked LockedOut
    rw [get?_blockedUntil_recordFailure, hlength, decide_eq_true_iff, hlast]
    split_ifs with hfull
    · simp [hfull]
    · -- an old block has ended
      have hended : ¬ now < (limiter.blockedUntil.get? ip).getD 0 := fun hlt =>
        hopen (decide_eq_true ((hle.trans (hall v (by simp))).trans_lt hlt))
      refine iff_of_false hended ?_
      rintro ⟨f, ⟨⟩, hfilled, -⟩
      exact hfull hfilled

/-- A success empties the queue, and the tally with it. -/
theorem Tracks.accepted (hv : v.verdict = .accepted) :
    Tracks ip (trace ++ [v]) (limiter.recordSuccess ip) := by
  have hlong : ((limiter.recordSuccess ip).long.get? ip).getD [] = [] := by
    simp [PairingRateLimiter.recordSuccess, Dict.get?_erase]
  refine ⟨?_, fun t ht => ?_, fun later hall => ?_, fun now hall => ?_⟩
  · rw [hlong]
    exact List.Pairwise.nil
  · rw [hlong] at ht
    cases ht
  · rw [hlong, tally_append_accepted hv]
  · rw [tally_append_accepted hv, PairingRateLimiter.isBlocked_recordSuccess]
    exact iff_of_false Bool.false_ne_true not_lockedOut_nil

/-- One visit more, which is refused if and only if the address is blocked. -/
theorem Tracks.visit (h : Tracks ip trace limiter) (hturn : InTurn (trace ++ [v]))
    (hrefused : v.verdict = .refused ↔ limiter.isBlocked ip v.arrived = true) :
    Tracks ip (trace ++ [v]) (v.verdict.note ip v.finished limiter) := by
  cases hv : v.verdict with
  | refused => exact h.refused hv
  | failed pinChecked => exact h.failed hturn (hrefused.not.mp (by simp [hv])) hv
  | accepted => exact Tracks.accepted hv

end

/-! ## Runs -/

section

variable {Priv : Type} {C : Crypto Priv} {L : Library} {S : PairingLibrary} {ip : String}
  {events : List (PairingEvent Priv)} {d : Device Priv} {r : PairingRequest}

theorem outcome_ne_refused (body : Option Json) (d : Device Priv) :
    outcome C L S body d ≠ .refused := by
  unfold outcome
  cases readPairing C L S body d with
  | ok decrypted => nofun
  | error refusal => nofun

theorem verdict_eq_refused_iff :
    verdict C L S r d = .refused ↔ d.rateLimiter.isBlocked (clientIpOf r) r.arrived = true := by
  unfold verdict
  split_ifs with hblocked
  · exact iff_of_true rfl hblocked
  · exact iff_of_false (outcome_ne_refused _ _) hblocked

/-- The limiter is told of the verdict, and the answer 429 is the one of a refusal. -/
theorem doPost_verdict (hpath : r.path = pairingPath) :
    (doPost C L S r d).2.rateLimiter =
        (verdict C L S r d).note (clientIpOf r) r.finished d.rateLimiter ∧
      ((doPost C L S r d).1 = rateLimited ↔ verdict C L S r d = .refused) := by
  have haccepted : accepted ≠ rateLimited := by decide
  have hanswer : ∀ refusal : Refusal, refusal.answer ≠ rateLimited := by
    intro refusal
    cases refusal with
    | wrongPin => decide
    | failed => decide
  unfold doPost verdict outcome
  rw [if_pos hpath]
  dsimp only
  split_ifs
  · exact ⟨rfl, iff_of_true rfl rfl⟩
  · cases readPairing C L S r.body d with
    | ok decrypted => exact ⟨rfl, iff_of_false haccepted nofun⟩
    | error refusal => exact ⟨rfl, iff_of_false (hanswer refusal) nofun⟩

/-- Nobody else hears of it. -/
theorem get?_note_other {other : String} (hne : ip ≠ other) (verdict : Verdict) (now : Double)
    (limiter : PairingRateLimiter) :
    (verdict.note other now limiter).long.get? ip = limiter.long.get? ip ∧
      (verdict.note other now limiter).blockedUntil.get? ip = limiter.blockedUntil.get? ip := by
  cases verdict with
  | refused => exact ⟨rfl, rfl⟩
  | failed pinChecked =>
    refine ⟨(Dict.get?_insert ..).trans (if_neg hne), ?_⟩
    unfold Verdict.note PairingRateLimiter.recordFailure
    dsimp only
    split_ifs
    · exact (Dict.get?_insert ..).trans (if_neg hne)
    · rfl
  | accepted =>
    exact ⟨(Dict.get?_erase ..).trans (if_neg hne), (Dict.get?_erase ..).trans (if_neg hne)⟩

theorem rateLimiter_syncPair (username : Option String) (ip : String) (generated : Priv)
    (token : Bytes 32) (salt : Bytes 16) (d : Device Priv) :
    (syncPair C username ip generated token salt d).state.rateLimiter = d.rateLimiter := by
  unfold syncPair
  rw [apply_bind, apply_get]
  dsimp only
  rw [apply_bind, apply_ofExcept]
  cases verifyAuth username d with
  | error failure => rfl
  | ok _ =>
    dsimp only
    cases d.session? with
    | none => rfl
    | some session => rfl

theorem Timed.append {done todo : List (PairingEvent Priv)} (h : Timed (done ++ todo)) :
    Timed done := by
  obtain ⟨hwithin, hsorted⟩ := h
  rw [List.filterMap_append] at hwithin hsorted
  exact ⟨fun r hr => hwithin r (List.mem_append_left _ hr), (List.pairwise_append.mp hsorted).1⟩

variable (C L S) in
/-- The visits are at the times of their requests. -/
theorem visits_sublist (ip : String) (events : List (PairingEvent Priv)) (d : Device Priv) :
    ((visits C L S ip events d).map fun v => (v.arrived, v.finished)).Sublist
      ((events.filterMap PairingEvent.request?).map fun r => (r.arrived, r.finished)) := by
  induction events generalizing d with
  | nil => exact List.Sublist.refl _
  | cons e events ih =>
    have hcons : visits C L S ip (e :: events) d =
        (visit (verdict C L S) ip e d).toList ++
          visits C L S ip events (PairingEvent.step C L S e d) := rfl
    rw [hcons, List.map_append]
    cases e with
    | post r =>
      show List.Sublist _ ((r.arrived, r.finished) :: (events.filterMap _).map _)
      unfold visit
      dsimp only
      split_ifs
      · exact (ih _).cons_cons _
      · exact (ih _).cons _
    | pair | runServer => exact ih _

theorem Timed.inTurn (h : Timed events) : InTurn (visits C L S ip events d) := by
  have hsub := visits_sublist C L S ip events d
  constructor
  · intro v hv
    obtain ⟨r, hr, htimes⟩ := List.mem_map.mp (hsub.subset (List.mem_map_of_mem hv))
    obtain ⟨harrived, hfinished⟩ := Prod.mk.inj htimes
    rw [← harrived, ← hfinished]
    exact h.within r hr
  · have hsorted := (List.pairwise_map.mpr h.sorted :
      ((events.filterMap PairingEvent.request?).map fun r => (r.arrived, r.finished)).Pairwise
        fun a b => a.2 ≤ b.1)
    exact List.pairwise_map.mp (hsorted.sublist hsub)

theorem visits_concat (e : PairingEvent Priv) : visits C L S ip (events ++ [e]) d =
    visits C L S ip events d ++
      (visit (verdict C L S) ip e (after (PairingEvent.run C L S) events d)).toList := by
  unfold visits
  rw [outputs_append, outputs, outputs, List.append_nil]

/-- The limiter tracks the visits of every address. -/
theorem tracks_after (htimed : Timed events) (hd : d.rateLimiter = .empty) (ip : String) :
    Tracks ip (visits C L S ip events d) (after (PairingEvent.run C L S) events d).rateLimiter := by
  induction events using List.reverseRecOn with
  | nil =>
    rw [after_nil, hd]
    exact tracks_empty
  | append_singleton events e ih =>
    have htracks := ih htimed.append
    have hturn : InTurn (visits C L S ip (events ++ [e]) d) := htimed.inTurn
    rw [visits_concat] at hturn ⊢
    rw [after_append]
    generalize after (PairingEvent.run C L S) events d = d' at htracks hturn ⊢
    -- only a post for a pairing from this address counts as a visit
    show Tracks ip _ (PairingEvent.step C L S e d').rateLimiter
    cases e with
    | pair username ip' generated token salt =>
      show Tracks ip (visits C L S ip events d ++ [])
        (syncPair C username ip' generated token salt d').state.rateLimiter
      rw [rateLimiter_syncPair, List.append_nil]
      exact htracks
    | runServer =>
      show Tracks ip (visits C L S ip events d ++ []) d'.rateLimiter
      rw [List.append_nil]
      exact htracks
    | post r =>
      by_cases hip : r.path = pairingPath ∧ clientIpOf r = ip
      · obtain ⟨hpath, rfl⟩ := hip
        have hvisit : visit (verdict C L S) (clientIpOf r) (.post r) d' =
            some ⟨r.arrived, r.finished, verdict C L S r d'⟩ := if_pos ⟨hpath, rfl⟩
        rw [hvisit, Option.toList_some] at hturn ⊢
        show Tracks (clientIpOf r) _ (doPost C L S r d').2.rateLimiter
        rw [(doPost_verdict hpath).1]
        exact htracks.visit hturn verdict_eq_refused_iff
      · have hvisit : visit (verdict C L S) ip (.post r) d' = none := if_neg hip
        rw [hvisit, Option.toList_none, List.append_nil]
        show Tracks ip _ (doPost C L S r d').2.rateLimiter
        by_cases hpath : r.path = pairingPath
        · -- an attempt of another address leaves the entry of this one
          have hne : ip ≠ clientIpOf r := fun heq => hip ⟨hpath, heq.symm⟩
          rw [(doPost_verdict hpath).1]
          exact htracks.congr (get?_note_other hne _ _ _).1 (get?_note_other hne _ _ _).2
        · have hsame : (doPost C L S r d').2 = d' := by
            rw [doPost, if_neg hpath]
          rw [hsame]
          exact htracks

theorem visit_eq_some_iff {judge : PairingRequest → Device Priv → Verdict} {e : PairingEvent Priv}
    {v : Visit} : visit judge ip e d = some v ↔
      ∃ r, e = .post r ∧ r.path = pairingPath ∧ clientIpOf r = ip ∧
        v = ⟨r.arrived, r.finished, judge r d⟩ := by
  cases e with
  | post r =>
    unfold visit
    dsimp only
    rw [Option.ite_none_right_eq_some, Option.some.injEq]
    constructor
    · rintro ⟨⟨hpath, hip⟩, rfl⟩
      exact ⟨r, rfl, hpath, hip, rfl⟩
    · rintro ⟨r', hr, hpath, hip, rfl⟩
      obtain rfl := PairingEvent.post.inj hr
      exact ⟨⟨hpath, hip⟩, rfl⟩
  | pair | runServer => exact iff_of_false nofun (by rintro ⟨r, ⟨⟩, -⟩)

/-- A visit is refused when the failures before it lock the address out. -/
theorem refused_visits (htimed : Timed events) (hd : d.rateLimiter = .empty) (ip : String) :
    ∀ before v after, visits C L S ip events d = before ++ v :: after →
      (v.verdict = .refused ↔ LockedOut (tally Verdict.isFailed before) v.arrived) := by
  refine (forall_outputs_iff (P := fun before v =>
    v.verdict = .refused ↔ LockedOut (tally Verdict.isFailed before) v.arrived)).mpr ?_
  intro done e todo hsplit v hv
  rw [hsplit, List.append_cons] at htimed
  have htimed := htimed.append
  have hturn : InTurn (visits C L S ip (done ++ [e]) d) := htimed.inTurn
  rw [visits_concat, Option.mem_def.mp hv, Option.toList_some] at hturn
  obtain ⟨r, rfl, -, rfl, rfl⟩ := visit_eq_some_iff.mp hv
  rw [verdict_eq_refused_iff]
  exact (tracks_after htimed.append hd _).blocks r.arrived fun v => hturn.finished_le

/-- Once an address has failed as often as it may, it is refused until the cooldown ends. -/
theorem long_of_refused {trace : List Visit}
    (hrefused : ∀ before v after, trace = before ++ v :: after →
      (v.verdict = .refused ↔ LockedOut (tally Verdict.isFailed before) v.arrived))
    {early mid after : List Visit} {v : Visit} (hsplit : trace = early ++ v :: (mid ++ after))
    (hblocks : Blocks early v) (hmid : ∀ u ∈ mid, u.arrived < v.finished + cooldown) :
    ∀ u ∈ mid, u.verdict = .refused := by
  have hfailed : v.verdict ≠ .accepted := by
    intro haccepted
    rw [Blocks, haccepted] at hblocks
    exact absurd hblocks.1 (by decide)
  induction mid using List.reverseRecOn generalizing after with
  | nil => nofun
  | append_singleton mid u ih =>
    have hsplit' : trace = early ++ v :: (mid ++ u :: after) := by simpa using hsplit
    have hall := ih hsplit' fun u hu => hmid u (by simp [hu])
    have htally : tally Verdict.isFailed (early ++ v :: mid) =
        tally Verdict.isFailed early ++ [v.finished] := by
      rw [tally_append_of_not_accepted, List.filterMap_cons,
        endedAt_eq_some_iff.mpr ⟨hblocks.1, rfl⟩, List.filterMap_eq_nil_iff.mpr]
      · intro u hu
        simp [endedAt, hall u hu, Verdict.isFailed]
      · rintro u (_ | ⟨_, hu⟩)
        · exact hfailed
        · simp [hall u hu]
    intro u' hu'
    rcases List.mem_append.mp hu' with hu' | hu'
    · exact hall u' hu'
    · rw [List.mem_singleton.mp hu']
      refine (hrefused (early ++ v :: mid) u after (by simp [hsplit])).mpr ?_
      rw [htally]
      refine ⟨v.finished, by simp, ?_, hmid u (by simp)⟩
      have hcount := hblocks.2
      rwa [tally_append_of_not_accepted (by simpa using hfailed), List.filterMap_cons,
        endedAt_eq_some_iff.mpr ⟨hblocks.1, rfl⟩] at hcount

/-! ## What the requests bring -/

/-- Two devices with one session, and their own files and limiters. -/
def SameSession (d d' : Device Priv) : Prop :=
  ∃ files rateLimiter, d' = { d with files := files, rateLimiter := rateLimiter }

theorem sameSession_syncPair {d' : Device Priv} (h : SameSession d d') (username : Option String)
    (ip : String) (generated : Priv) (token : Bytes 32) (salt : Bytes 16) :
    SameSession (syncPair C username ip generated token salt d).state
      (syncPair C username ip generated token salt d').state := by
  obtain ⟨files, rateLimiter, rfl⟩ := h
  have hauth : verifyAuth username { d with files := files, rateLimiter := rateLimiter } =
      verifyAuth username d := rfl
  have hsession : Device.session? { d with files := files, rateLimiter := rateLimiter } =
      d.session? := rfl
  unfold syncPair
  simp only [apply_bind, apply_get, apply_ofExcept, hauth, hsession]
  cases verifyAuth username d with
  | error failure => exact ⟨files, rateLimiter, rfl⟩
  | ok _ =>
    cases d.session? with
    | none => exact ⟨files, rateLimiter, rfl⟩
    | some session => exact ⟨files, rateLimiter, rfl⟩

/-- Requests leave the session as it is. -/
theorem sameSession_after (events : List (PairingEvent Priv)) (d : Device Priv) :
    SameSession (after (PairingEvent.serve C L S) events d)
      (after (PairingEvent.run C L S) events d) := by
  induction events using List.reverseRecOn with
  | nil => exact ⟨d.files, d.rateLimiter, rfl⟩
  | append_singleton events e ih =>
    rw [after_append, after_append]
    generalize after (PairingEvent.serve C L S) events d = d₁ at ih ⊢
    generalize after (PairingEvent.run C L S) events d = d₂ at ih ⊢
    cases e with
    | pair username ip generated token salt => exact sameSession_syncPair ih ..
    | runServer =>
      obtain ⟨files, rateLimiter, rfl⟩ := ih
      exact ⟨files, rateLimiter, rfl⟩
    | post r =>
      obtain ⟨files, rateLimiter, rfl⟩ := ih
      show SameSession d₁ (doPost C L S r _).2
      rcases doPost_cases (C := C) (L := L) (S := S) r
          { d₁ with files := files, rateLimiter := rateLimiter } with
        ⟨decrypted, -, -, -, hpost⟩ | ⟨answer, limiter, -, hpost, -⟩
      · rw [hpost]
        exact ⟨_, _, rfl⟩
      · rw [hpost]
        exact ⟨_, _, rfl⟩

theorem heard_concat (tries : List Visit) (v : Visit) :
    heard (tries ++ [v]) =
      if LockedOut (tally Verdict.isFailed (heard tries)) v.arrived then heard tries
      else heard tries ++ [v] := List.foldl_concat ..

/-- The tries outside a block are those that get past the limiter. -/
theorem heard_tries (htimed : Timed events) (hd : d.rateLimiter = .empty) (ip : String) :
    heard (tries C L S ip events d) = admitted (visits C L S ip events d) := by
  induction events using List.reverseRecOn with
  | nil => rfl
  | append_singleton events e ih =>
    have htries : tries C L S ip (events ++ [e]) d = tries C L S ip events d ++
        (visit (fun r => outcome C L S r.body) ip e
          (after (PairingEvent.serve C L S) events d)).toList := by
      unfold tries
      rw [outputs_append, outputs, outputs, List.append_nil]
    have hrefused := refused_visits (C := C) (L := L) (S := S) htimed hd ip
    obtain ⟨files, rateLimiter, hsame⟩ := sameSession_after (C := C) (L := L) (S := S) events d
    rw [htries]
    rw [visits_concat] at hrefused ⊢
    generalize after (PairingEvent.serve C L S) events d = d₁ at hsame ⊢
    generalize after (PairingEvent.run C L S) events d = d₂ at hsame hrefused ⊢
    cases hvisit : visit (verdict C L S) ip e d₂ with
    | none =>
      have hnone : visit (fun r => outcome C L S r.body) ip e d₁ = none := by
        cases e with
        | post r => exact if_neg fun hip => by simp [visit, hip] at hvisit
        | pair | runServer => rfl
      rw [hnone, Option.toList_none, List.append_nil, List.append_nil]
      exact ih htimed.append
    | some v =>
      obtain ⟨r, rfl, hpath, rfl, rfl⟩ := visit_eq_some_iff.mp hvisit
      have htried : visit (fun r => outcome C L S r.body) (clientIpOf r) (.post r) d₁ =
          some ⟨r.arrived, r.finished, outcome C L S r.body d₂⟩ := by
        rw [hsame]
        exact if_pos ⟨hpath, rfl⟩
      rw [hvisit, Option.toList_some] at hrefused
      rw [htried, Option.toList_some, Option.toList_some, heard_concat, ih htimed.append,
        tally_admitted rfl]
      have hrefused := hrefused _ _ [] rfl
      split_ifs with hlocked
      · exact (admitted_refused (hrefused.mpr hlocked)).symm
      · have hopen : verdict C L S r d₂ = outcome C L S r.body d₂ :=
          if_neg (verdict_eq_refused_iff.not.mp (hrefused.not.mpr hlocked))
        rw [hopen]
        exact (admitted_concat (outcome_ne_refused _ _)).symm

/-- The policy is enforced in a run exactly when the address keeps the pace with what it tries
outside a block. -/
theorem policy_enforced_iff (C : Crypto Priv) (L : Library) (S : PairingLibrary) (ip : String)
    (htimed : Timed events) (hd : d.rateLimiter = .empty) :
    Enforced (visits C L S ip events d) ↔ Paced (heard (tries C L S ip events d)) := by
  have hturn : InTurn (visits C L S ip events d) := htimed.inTurn
  have hshort := @short_iff _ Verdict.isPinFailure shortWindow hturn 4 rfl rfl
  rw [heard_tries htimed hd ip]
  constructor
  · intro h
    refine ⟨backoff_iff.mp h.backoff, ?_⟩
    intro before v mid v' after hsplit hmid hv hv' hlong
    exact not_le.mp (hshort.mp h.short before v mid v' after hsplit hmid hv hv'
      (Nat.le_of_succ_le_succ hlong))
  · intro h
    refine ⟨hshort.mpr ?_, backoff_iff.mpr h.spaced, ?_⟩
    · intro before v mid v' after hsplit hmid hv hv' hlong
      exact not_le.mpr (h.sparse before v mid v' after hsplit hmid hv hv' (Nat.succ_le_succ hlong))
    · rintro before v after hsplit early v' mid rfl hblocks harrived
      have hsplit' : visits C L S ip events d = early ++ v' :: ((mid ++ [v]) ++ after) := by
        simpa using hsplit
      refine long_of_refused (refused_visits htimed hd ip) hsplit' hblocks ?_ v (by simp)
      -- what comes in between comes earlier
      intro u hu
      rcases List.mem_append.mp hu with hu | hu
      · have hsorted := hturn.sorted
        rw [hsplit, List.pairwise_append] at hsorted
        have hle : u.finished ≤ v.arrived := hsorted.2.2 u (by simp [hu]) v List.mem_cons_self
        have hmem : u ∈ visits C L S ip events d := by
          rw [hsplit]
          simp [hu]
        exact ((hturn.within u hmem).trans hle).trans_lt harrived
      · rw [List.mem_singleton.mp hu]
        exact harrived

end

/-- A request with a wrong token. -/
def wrongGuess (t : Double) : PairingRequest where
  path         := pairingPath
  peer         := "8.8.4.4"
  forwardedFor := ""
  body         := some (.obj [("pin", .str "123456")])
  arrived      := t
  finished     := t

theorem policy_enforced_wrongGuess :
    Enforced (visits sample sampleLibrary plainPairing "8.8.4.4" [.post (wrongGuess 0),
        .post (wrongGuess 60)] (runServer pairedDevice)) ↔
      Paced (heard (tries sample sampleLibrary plainPairing "8.8.4.4" [.post (wrongGuess 0),
        .post (wrongGuess 60)] (runServer pairedDevice))) :=
  policy_enforced_iff sample sampleLibrary plainPairing "8.8.4.4"
    ⟨by decide +kernel, by decide +kernel⟩ rfl

/-- Six wrong tokens in six seconds. -/
def sixGuesses : List (PairingEvent UInt8) := [0, 1, 2, 3, 4, 5].map fun t => .post (wrongGuess t)

theorem policy_not_enforced_wrongGuesses :
    Timed sixGuesses ∧ (runServer pairedDevice).rateLimiter = .empty ∧
      ¬ Enforced (visits sample sampleLibrary plainPairing "8.8.4.4" sixGuesses
        (runServer pairedDevice)) := by
  refine ⟨⟨by decide +kernel, by decide +kernel⟩, rfl, fun h => ?_⟩
  have hwithin := h.short [] (visits sample sampleLibrary plainPairing "8.8.4.4" sixGuesses
    (runServer pairedDevice)) [] (List.append_nil _).symm (by decide +kernel) 0
  exact absurd hwithin (by decide +kernel)

end AnonyMus.P2p.Pairing
