import Mathlib.Data.List.Sort
import Mathlib.Tactic.Common

/-!
# Keyset paging

Rows in descending order of a key, read in pages: the next page is the first
`limit` rows whose key is below the key of the last row read. Rows of one key
stand in any order, and in another one for the next page.

* `IsPage`, `Walk` — one page, and pages until one is empty;
* `Walk.descending` — a walk never goes up, and reads no row twice;
* `Walk.perm_iff` — it reads every row exactly when no page ends between two
  rows of one key.
-/

namespace Keyset

variable {α κ : Type} [LinearOrder κ] (key : α → κ)

/-! ## Pages -/

def Descending (rows : List α) : Prop := rows.Pairwise fun r r' => key r' ≤ key r

/-- The rows below the bound. -/
def under (bound : Option κ) (rows : List α) : List α :=
  rows.filter fun r => bound.all fun k => key r < k

/-- The first rows of a descending arrangement, `limit` of them if there are as many. -/
def IsPage (limit : ℕ) (rows page : List α) : Prop :=
  ∃ rest, (page ++ rest).Perm rows ∧ Descending key (page ++ rest) ∧
    page.length = min limit rows.length

/-- The rows read from a bound on, page by page until one is empty. -/
inductive Walk (limit : ℕ) (rows : List α) : Option κ → List α → Prop
  | last {bound} (hpage : IsPage key limit (under key bound rows) []) : Walk limit rows bound []
  | next {bound page oldest out} (hpage : IsPage key limit (under key bound rows) page)
      (holdest : page.getLast? = some oldest) (hout : Walk limit rows (some (key oldest)) out) :
      Walk limit rows bound (page ++ out)

/-- No page of `limit` keys ends between two equal ones. -/
def Separated (limit : ℕ) (keys : List κ) : Prop :=
  ∀ k, 0 < k → ∀ t, ¬ (keys[k * limit - 1]? = some t ∧ keys[k * limit]? = some t)

variable {key} {limit : ℕ} {rows page rest out : List α} {bound : Option κ} {oldest : α}

theorem mem_under {r : α} : r ∈ under key bound rows ↔ r ∈ rows ∧ ∀ k ∈ bound, key r < k := by
  unfold under
  rw [List.mem_filter]
  rcases bound with _ | k <;> simp

theorem under_none : under key none rows = rows := List.filter_eq_self.mpr fun _ _ => rfl

/-- The last row of a descending page is the lowest. -/
theorem le_of_getLast? (hdesc : Descending key page) (holdest : page.getLast? = some oldest)
    {r : α} (hr : r ∈ page) : key oldest ≤ key r := by
  obtain ⟨init, rfl⟩ := List.getLast?_eq_some_iff.mp holdest
  rcases List.mem_append.mp hr with hinit | hlast
  · exact (List.pairwise_append.mp hdesc).2.2 r hinit oldest (List.mem_singleton_self _)
  · rw [List.mem_singleton.mp hlast]

namespace IsPage

theorem of_perm {rows' : List α} (h : IsPage key limit rows page) (hperm : rows.Perm rows') :
    IsPage key limit rows' page := by
  obtain ⟨rest, hrest, hdesc, hlen⟩ := h
  exact ⟨rest, hrest.trans hperm, hdesc, by rw [hlen, hperm.length_eq]⟩

/-- The head of a descending arrangement is a page. -/
theorem take {sorted : List α} (hdesc : Descending key sorted) (hperm : sorted.Perm rows) :
    IsPage key limit rows (sorted.take limit) := by
  refine ⟨sorted.drop limit, ?_, ?_, ?_⟩
  · rwa [List.take_append_drop]
  · rwa [List.take_append_drop]
  · rw [List.length_take, hperm.length_eq]

theorem mem (h : IsPage key limit rows page) {r : α} (hr : r ∈ page) : r ∈ rows := by
  obtain ⟨rest, hrest, -⟩ := h
  exact hrest.subset (List.mem_append_left _ hr)

/-- A page that may be long enough has all the rows. -/
theorem perm (h : IsPage key limit rows page) (hlimit : rows.length ≤ limit) : page.Perm rows := by
  obtain ⟨rest, hrest, -, hlen⟩ := h
  have hlength := hrest.length_eq
  rw [List.length_append, hlen, min_eq_right hlimit] at hlength
  rwa [List.eq_nil_of_length_eq_zero (by omega : rest.length = 0), List.append_nil] at hrest

theorem descending (h : IsPage key limit rows page) : Descending key page := by
  obtain ⟨rest, -, hdesc, -⟩ := h
  exact (List.pairwise_append.mp hdesc).1

end IsPage

/-- A lower bound makes the higher one idle. -/
theorem under_under {k : κ} (hlt : ∀ k' ∈ bound, k < k') :
    under key (some k) (under key bound rows) = under key (some k) rows := by
  unfold under
  rw [List.filter_filter]
  refine List.filter_congr fun r _ => ?_
  rcases bound with _ | k'
  · exact Bool.and_true _
  · have hk : k < k' := hlt k' rfl
    rw [Option.all_some, Option.all_some, Bool.eq_iff_iff, Bool.and_eq_true, decide_eq_true_iff,
      decide_eq_true_iff]
    exact ⟨And.left, fun h => ⟨h, h.trans hk⟩⟩

theorem IsPage.oldest_lt (hpage : IsPage key limit (under key bound rows) page)
    (holdest : page.getLast? = some oldest) : ∀ k ∈ bound, key oldest < k :=
  (mem_under.mp (hpage.mem (List.mem_of_getLast? holdest))).2

/-- Below the last row of a page there are fewer rows. -/
theorem length_under_lt (hpage : IsPage key limit (under key bound rows) page)
    (holdest : page.getLast? = some oldest) :
    (under key (some (key oldest)) rows).length < (under key bound rows).length := by
  rw [← under_under (hpage.oldest_lt holdest)]
  -- the last row of the page is not below itself
  refine List.length_filter_lt_length_iff_exists.mpr
    ⟨oldest, hpage.mem (List.mem_of_getLast? holdest), ?_⟩
  simp

/-- Below the last row of a page stand rows that follow the page. -/
theorem under_perm (hperm : (page ++ rest).Perm (under key bound rows))
    (hdesc : Descending key (page ++ rest)) (holdest : page.getLast? = some oldest) :
    (under key (some (key oldest)) rows).Perm (under key (some (key oldest)) rest) := by
  have hmem : oldest ∈ under key bound rows :=
    hperm.subset (List.mem_append_left _ (List.mem_of_getLast? holdest))
  have hpage : under key (some (key oldest)) page = [] := by
    refine List.filter_eq_nil_iff.mpr fun r hr => ?_
    have hle := le_of_getLast? (List.pairwise_append.mp hdesc).1 holdest hr
    simpa using hle
  have hfiltered := (hperm.filter fun r => (some (key oldest)).all fun k => key r < k).symm
  rw [List.filter_append] at hfiltered
  change (under key (some (key oldest)) (under key bound rows)).Perm
    (under key (some (key oldest)) page ++ under key (some (key oldest)) rest) at hfiltered
  rwa [under_under (mem_under.mp hmem).2, hpage] at hfiltered

/-! ## Ends of pages -/

omit [LinearOrder κ] in
/-- The end of the first page, and the ends of the others. -/
theorem separated_append {keys keys' : List κ} (hlen : keys.length = limit) (hlimit : 0 < limit) :
    Separated limit (keys ++ keys') ↔
      (∀ t, ¬ (keys.getLast? = some t ∧ keys'.head? = some t)) ∧ Separated limit keys' := by
  have hfirst : (keys ++ keys')[1 * limit - 1]? = keys.getLast? := by
    rw [List.getLast?_eq_getElem?, List.getElem?_append_left (by omega), hlen, Nat.one_mul]
  have hhead : (keys ++ keys')[1 * limit]? = keys'.head? := by
    rw [List.getElem?_append_right (by omega), hlen, Nat.one_mul, Nat.sub_self,
      List.head?_eq_getElem?]
  have hshift : ∀ i, (keys ++ keys')[limit + i]? = keys'[i]? := by
    intro i
    rw [List.getElem?_append_right (by omega), hlen, Nat.add_sub_cancel_left]
  have hlater : ∀ k, 0 < k → (keys ++ keys')[(k + 1) * limit - 1]? = keys'[k * limit - 1]? ∧
      (keys ++ keys')[(k + 1) * limit]? = keys'[k * limit]? := by
    intro k hk
    have hpos : 0 < k * limit := Nat.mul_pos hk hlimit
    rw [← hshift, ← hshift, Nat.succ_mul]
    exact ⟨by congr 1; omega, by congr 1; omega⟩
  constructor
  · intro hsep
    refine ⟨fun t => ?_, fun k hk t => ?_⟩
    · rw [← hfirst, ← hhead]
      exact hsep 1 Nat.one_pos t
    · rw [← (hlater k hk).1, ← (hlater k hk).2]
      exact hsep (k + 1) k.succ_pos t
  · rintro ⟨hend, hsep⟩ k hk t
    rcases k with _ | _ | k
    · exact absurd hk (Nat.lt_irrefl 0)
    · rw [hfirst, hhead]
      exact hend t
    · rw [(hlater (k + 1) k.succ_pos).1, (hlater (k + 1) k.succ_pos).2]
      exact hsep (k + 1) k.succ_pos t

omit [LinearOrder κ] in
theorem separated_of_length_le {keys : List κ} (hlen : keys.length ≤ limit) :
    Separated limit keys := by
  rintro k hk t ⟨-, hnext⟩
  have hle : limit ≤ k * limit := Nat.le_mul_of_pos_left limit hk
  rw [List.getElem?_eq_none (by omega)] at hnext
  cases hnext

/-! ## Walks -/

/-- A walk never goes up, and reads each row at most once. -/
theorem Walk.descending (h : Walk key limit rows bound out) :
    Descending key out ∧ out.Subperm (under key bound rows) := by
  induction h with
  | last => exact ⟨List.Pairwise.nil, List.nil_subperm⟩
  | next hpage holdest _ ih =>
    obtain ⟨hout, hsub⟩ := ih
    constructor
    · refine List.pairwise_append.mpr ⟨hpage.descending, hout, fun r hr r' hr' => ?_⟩
      -- what comes later is below the last row of the page
      have hlt := (mem_under.mp (hsub.subset hr')).2 _ rfl
      exact hlt.le.trans (le_of_getLast? hpage.descending holdest hr)
    · obtain ⟨rest, hperm, hdesc, -⟩ := hpage
      have hrest := hsub.trans (under_perm hperm hdesc holdest).subperm
      exact ((List.subperm_append_left _).mpr
        (hrest.trans List.filter_sublist.subperm)).trans hperm.subperm

/-- A walk reads every row exactly when no page ends between two rows of one key. -/
theorem Walk.perm_iff (h : Walk key limit rows bound out) (hlimit : 0 < limit) {keys : List κ}
    (hkeys : keys.Perm ((under key bound rows).map key)) (hsorted : keys.Pairwise (· ≥ ·)) :
    out.Perm (under key bound rows) ↔ Separated limit keys := by
  induction h generalizing keys with
  | @last bound hpage =>
    obtain ⟨_, -, -, hlen⟩ := hpage
    rw [List.length_nil] at hlen
    have hnil : under key bound rows = [] := List.eq_nil_of_length_eq_zero (by omega)
    rw [hnil] at hkeys ⊢
    rw [List.perm_nil.mp hkeys]
    exact ⟨fun _ => separated_of_length_le (Nat.zero_le _), fun _ => List.Perm.refl _⟩
  | @next bound page oldest out hpage holdest hout ih =>
    obtain ⟨rest, hperm, hdesc, hlen⟩ := hpage
    have hunder := under_perm hperm hdesc holdest
    have hlength := hperm.length_eq
    rw [List.length_append] at hlength
    obtain rfl : keys = page.map key ++ rest.map key := by
      rw [← List.map_append]
      refine List.Perm.eq_of_pairwise (fun a b _ _ (h : a ≥ b) (h' : b ≥ a) => le_antisymm h' h)
        hsorted (List.pairwise_map.mpr hdesc) ?_
      exact hkeys.trans (hperm.map key).symm
    rw [← hperm.congr_right, List.perm_append_left_iff]
    rcases rest with _ | ⟨r, rest⟩
    · -- this page is the last that is not empty
      have hnil : out.Subperm [] := hout.descending.2.trans hunder.subperm
      rw [List.subperm_nil.mp hnil]
      refine ⟨fun _ => separated_of_length_le ?_, fun _ => List.Perm.refl _⟩
      rw [List.map_nil, List.append_nil, List.length_map]
      omega
    rw [List.length_cons] at hlength
    rw [separated_append (by rw [List.length_map]; omega) hlimit, List.getLast?_map, holdest,
      List.map_cons, List.head?_cons]
    obtain ⟨-, hrest, hcross⟩ := List.pairwise_append.mp hdesc
    have hle : key r ≤ key oldest :=
      hcross oldest (List.mem_of_getLast? holdest) r List.mem_cons_self
    rcases hle.lt_or_eq with hlt | heq
    · -- the rows that follow are all below the page
      have hall : under key (some (key oldest)) (r :: rest) = r :: rest := by
        refine List.filter_eq_self.mpr fun r' hr' => ?_
        have hr'le : key r' ≤ key r := by
          rcases List.mem_cons.mp hr' with rfl | hmem
          · exact le_rfl
          · exact (List.pairwise_cons.mp hrest).1 r' hmem
        simpa using hr'le.trans_lt hlt
      rw [hall] at hunder
      rw [← hunder.congr_right, ih (hunder.map key).symm (List.pairwise_map.mpr hrest),
        List.map_cons, and_iff_right]
      rintro t ⟨hold, hnew⟩
      exact hlt.ne ((Option.some.inj hnew).trans (Option.some.inj hold).symm)
    · -- the first row that follows is skipped
      constructor
      · intro hcomplete
        have hshort : (under key (some (key oldest)) (r :: rest)).length < (r :: rest).length := by
          refine List.length_filter_lt_length_iff_exists.mpr ⟨r, List.mem_cons_self, ?_⟩
          simp [heq]
        have hsize := (hout.descending.2.trans hunder.subperm).length_le
        rw [hcomplete.length_eq] at hsize
        omega
      · rintro ⟨hend, -⟩
        exact absurd ⟨rfl, congrArg some heq⟩ (hend _)

end Keyset
