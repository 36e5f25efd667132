import CppProj.MachineIntegers
import CppProj.Recharge

/-!
# The coin table of `countoff.cpp`

The double loop of `findMinRecharge` and `findAllValidRecharges`, over `int` values and a
vector: an addition that overflows and an access outside of the vector are faults.  The
table of `CppProj.Recharge` is what the loop computes, and it holds the least numbers of
coins.

`INT_MAX - 1` marks an amount that cannot be made up.  It is also the number of coins for
the amount `INT_MAX - 1` when all the coins are ones.
-/

namespace CppProj.CoinTable

open MachineIntegers RepeatedSums Recharge

abbrev Vector := List ℤ

/-- `INT_MAX - 1` -/
def sentinel : ℤ := 2 ^ 31 - 2

def read (dp : Vector) (index : ℤ) : Option ℤ :=
  if 0 ≤ index then dp[index.toNat]? else none

def write (dp : Vector) (index value : ℤ) : Option Vector :=
  if 0 ≤ index ∧ index < dp.length then some (dp.set index.toNat value) else none

def newTable (maxAmount : ℤ) : Option Vector := do
  let size ← int (maxAmount + 1)
  if size < 0 then none
  else write (List.replicate size.toNat sentinel) 0 0

/-- `if (dp[i - coin] != INT_MAX - 1) dp[i] = min(dp[i], dp[i - coin] + 1);` -/
def update (dp : Vector) (coin i : ℤ) : Option Vector := do
  let index ← int (i - coin)
  let below ← read dp index
  if below ≠ sentinel then do
    let here ← read dp i
    let sum ← int (below + 1)
    write dp i (if sum < here then sum else here)
  else some dp

/-- `for (int i = coin; i <= maxAmount; i++)`, from `i` on. -/
def updateLoop (maxAmount coin i : ℤ) (dp : Vector) : Option Vector :=
  if i ≤ maxAmount then
    match update dp coin i with
    | some next => if FitsInt (i + 1) then updateLoop maxAmount coin (i + 1) next else none
    | none => none
  else some dp
termination_by (maxAmount + 1 - i).toNat

def coinsLoop (maxAmount : ℤ) : List ℤ → Vector → Option Vector
  | [], dp => some dp
  | coin :: denominations, dp => do
      let dp ← updateLoop maxAmount coin coin dp
      coinsLoop maxAmount denominations dp

/-- The vector after the double loop. -/
def table (maxAmount : ℤ) (denominations : List ℤ) : Option Vector := do
  let dp ← newTable maxAmount
  coinsLoop maxAmount denominations dp

/-! ## Least numbers of coins -/

/-- What the table has for an amount that so many coins can make up. -/
def Entry (numbers : Set ℕ) (value : ℕ) : Prop :=
  IsLeast numbers value ∨ numbers = ∅ ∧ value = unreachable

/-- The entry with one more kind of coin, from the entry without it and the entry for the
amount one coin below. -/
theorem Entry.relax {numbers others : Set ℕ} {here below : ℕ} (hhere : Entry numbers here)
    (hbelow : Entry others below) (hsmall : ∀ number ∈ others, number < unreachable) :
    Entry (numbers ∪ (· + 1) '' others)
      (if below ≠ unreachable then min here (below + 1) else here) := by
  rcases hbelow with hleast | ⟨rfl, rfl⟩
  · have hlt := hsmall below hleast.1
    have hnext : IsLeast ((· + 1) '' others) (below + 1) :=
      Monotone.map_isLeast (fun _ _ => Nat.succ_le_succ) hleast
    rw [if_pos hlt.ne]
    left
    rcases hhere with hhere | ⟨rfl, rfl⟩
    · exact hhere.union hnext
    · rw [Set.empty_union, min_eq_right hlt]
      exact hnext
  · rw [Set.image_empty, Set.union_empty, if_neg (not_not_intro rfl)]
    exact hhere

/-- `position` is reached by the inner loop for `coin`: up to there the table has the
numbers with that coin, and from there on those with the coins before it. -/
structure LeastUpTo (dp : List ℕ) (maxAmount coin position : ℕ) (before : Set ℕ) : Prop where
  length : dp.length = maxAmount + 1
  withCoin : ∀ amount ≤ maxAmount, amount < position →
    Entry (counts (insert coin before) amount) (dp.getD amount 0)
  withoutCoin : ∀ amount ≤ maxAmount, position ≤ amount →
    Entry (counts before amount) (dp.getD amount 0)

structure Least (dp : List ℕ) (maxAmount : ℕ) (coins : Set ℕ) : Prop where
  length : dp.length = maxAmount + 1
  entry : ∀ amount ≤ maxAmount, Entry (counts coins amount) (dp.getD amount 0)

theorem initialTable_least (maxAmount : ℕ) : Least (initialTable maxAmount) maxAmount ∅ := by
  constructor
  case length => simp [initialTable]
  case entry =>
    intro amount hle
    by_cases hamount : amount = 0
    · subst hamount
      left
      have hzero : (initialTable maxAmount).getD 0 0 = 0 := by
        simp [initialTable, List.replicate_succ]
      rw [hzero]
      exact ⟨mem_counts_empty_iff.mpr ⟨rfl, rfl⟩, fun count _ => Nat.zero_le count⟩
    · right
      constructor
      · rw [Set.eq_empty_iff_forall_notMem]
        exact fun count hcount => hamount (mem_counts_empty_iff.mp hcount).2
      · rw [initialTable, getD_set_of_ne (Ne.symm hamount)]
        simp [List.getD_eq_getElem?_getD, Nat.lt_succ_of_le hle]

namespace LeastUpTo

variable {dp : List ℕ} {maxAmount coin position : ℕ} {before : Set ℕ}

theorem number_lt (hpositive : ∀ other ∈ before, 0 < other) {amount : ℕ}
    (hlimit : amount < unreachable) :
    ∀ number ∈ counts before amount, number < unreachable := by
  intro number hnumber
  exact lt_of_le_of_lt (le_of_mem_counts hpositive hnumber) hlimit

/-- A pass of the inner loop. -/
theorem relax (htable : LeastUpTo dp maxAmount coin position before)
    (hpositive : ∀ other ∈ insert coin before, 0 < other) (hle : coin ≤ position)
    (hposition : position ≤ maxAmount) (hlimit : maxAmount ≤ unreachable) :
    LeastUpTo (relax dp coin position) maxAmount coin (position + 1) before := by
  have hcoin := hpositive coin (Set.mem_insert coin before)
  have hlt : position < dp.length := by
    rw [htable.length]
    omega
  have hentry := (htable.withoutCoin position hposition (le_refl _)).relax
    (htable.withCoin (position - coin) (by omega) (by omega))
    (number_lt hpositive (by omega))
  rw [← counts_insert_of_le hle] at hentry
  have hself : (Recharge.relax dp coin position).getD position 0 =
      if dp.getD (position - coin) 0 ≠ unreachable then
        min (dp.getD position 0) (dp.getD (position - coin) 0 + 1)
      else dp.getD position 0 := by
    unfold Recharge.relax
    split_ifs
    · exact getD_set_self hlt _
    · rfl
  have hother : ∀ amount, position ≠ amount →
      (Recharge.relax dp coin position).getD amount 0 = dp.getD amount 0 := by
    intro amount hne
    unfold Recharge.relax
    split_ifs
    · exact getD_set_of_ne hne _
    · rfl
  constructor
  case length =>
    unfold Recharge.relax
    split_ifs
    · rw [List.length_set, htable.length]
    · exact htable.length
  case withCoin =>
    intro amount hamount hbefore
    by_cases heq : position = amount
    · rw [← heq, hself]
      exact hentry
    · rw [hother amount heq]
      exact htable.withCoin amount hamount (by omega)
  case withoutCoin =>
    intro amount hamount hafter
    rw [hother amount (by omega)]
    exact htable.withoutCoin amount hamount (by omega)

end LeastUpTo

/-- Before its first pass the loop for a coin has changed nothing, and nothing below the
coin uses it. -/
theorem Least.start {dp : List ℕ} {maxAmount : ℕ} {coins : Set ℕ}
    (htable : Least dp maxAmount coins) (coin : ℕ) :
    LeastUpTo dp maxAmount coin coin coins := by
  constructor
  case length => exact htable.length
  case withCoin =>
    intro amount hamount hbelow
    rw [counts_insert_of_lt hbelow]
    exact htable.entry amount hamount
  case withoutCoin => exact fun amount hamount _ => htable.entry amount hamount

/-! ## The loop over the vector -/

def cells (dp : List ℕ) : Vector := dp.map Nat.cast

theorem read_cells {dp : List ℕ} {index : ℕ} (hlt : index < dp.length) :
    read (cells dp) index = some (dp.getD index 0 : ℤ) := by
  rw [read, if_pos (Int.natCast_nonneg index), Int.toNat_natCast, cells, List.getElem?_map,
    List.getD_eq_getElem?_getD, List.getElem?_eq_getElem hlt]
  rfl

theorem write_cells {dp : List ℕ} {index : ℕ} (hlt : index < dp.length) (value : ℕ) :
    write (cells dp) index value = some (cells (dp.set index value)) := by
  rw [write, if_pos (by simp [cells, hlt]), Int.toNat_natCast, cells, cells, List.map_set]

theorem cast_unreachable : (unreachable : ℤ) = sentinel := rfl

theorem newTable_eq {maxAmount : ℕ} (hlimit : maxAmount ≤ unreachable) :
    newTable maxAmount = some (cells (initialTable maxAmount)) := by
  have hfits : FitsInt (maxAmount + 1) := by
    simp only [FitsInt, unreachable] at *
    omega
  have hsize : ((maxAmount : ℤ) + 1).toNat = maxAmount + 1 := by omega
  have hcells : List.replicate (maxAmount + 1) sentinel =
      cells (List.replicate (maxAmount + 1) unreachable) := by
    rw [cells, List.map_replicate, cast_unreachable]
  have hpositive : 0 < (List.replicate (maxAmount + 1) unreachable).length := by
    rw [List.length_replicate]
    omega
  have hwrite := write_cells hpositive 0
  rw [newTable, int_of_fits hfits]
  simp only [Option.bind_eq_bind, Option.bind_some, hsize, hcells]
  rw [if_neg (by omega)]
  exact hwrite

theorem update_cells {dp : List ℕ} {maxAmount coin position : ℕ} {before : Set ℕ}
    (htable : LeastUpTo dp maxAmount coin position before)
    (hpositive : ∀ other ∈ insert coin before, 0 < other) (hle : coin ≤ position)
    (hposition : position ≤ maxAmount) (hlimit : maxAmount ≤ unreachable) :
    update (cells dp) coin position = some (cells (relax dp coin position)) := by
  have hcoin := hpositive coin (Set.mem_insert coin before)
  have hlength := htable.length
  have hindex : (position : ℤ) - coin = ((position - coin : ℕ) : ℤ) := by omega
  have hfits : FitsInt ((position - coin : ℕ) : ℤ) := by
    simp only [FitsInt, unreachable] at *
    omega
  have hentry := htable.withCoin (position - coin) (by omega) (by omega)
  rw [update, hindex, int_of_fits hfits]
  simp only [Option.bind_eq_bind, Option.bind_some]
  rw [read_cells (by omega), read_cells (by omega), Option.bind_some, ← cast_unreachable]
  unfold relax
  by_cases hreached : dp.getD (position - coin) 0 ≠ unreachable
  · have hbelow : dp.getD (position - coin) 0 ≤ position - coin := by
      rcases hentry with hleast | ⟨-, hvalue⟩
      · exact le_of_mem_counts hpositive hleast.1
      · exact absurd hvalue hreached
    have hsum : FitsInt ((dp.getD (position - coin) 0 : ℤ) + 1) := by
      simp only [FitsInt, unreachable] at *
      omega
    have hlt : position < dp.length := by omega
    have hwrite := write_cells hlt (min (dp.getD position 0) (dp.getD (position - coin) 0 + 1))
    have hmin : (if (dp.getD (position - coin) 0 : ℤ) + 1 < dp.getD position 0 then
        (dp.getD (position - coin) 0 : ℤ) + 1 else dp.getD position 0) =
          (min (dp.getD position 0) (dp.getD (position - coin) 0 + 1) : ℕ) := by
      split_ifs
      · omega
      · omega
    rw [if_pos (by exact_mod_cast hreached), if_pos hreached, Option.bind_some, int_of_fits hsum,
      Option.bind_some, hmin]
    exact hwrite
  · rw [if_neg (by exact_mod_cast hreached), if_neg hreached]

theorem updateLoop_cells {maxAmount coin : ℕ} {before : Set ℕ}
    (hpositive : ∀ other ∈ insert coin before, 0 < other) (hlimit : maxAmount ≤ unreachable)
    (passes : ℕ) : ∀ (position : ℕ) (dp : List ℕ), passes = maxAmount + 1 - position →
      coin ≤ position → LeastUpTo dp maxAmount coin position before →
      updateLoop maxAmount coin position (cells dp) =
          some (cells (coinLoop coin passes position dp)) ∧
        Least (coinLoop coin passes position dp) maxAmount (insert coin before) := by
  induction passes with
  | zero =>
      intro position dp hpasses hle htable
      have hend : ¬ (position : ℤ) ≤ maxAmount := by omega
      rw [updateLoop, if_neg hend]
      exact ⟨rfl, htable.length, fun amount hamount => htable.withCoin amount hamount (by omega)⟩
  | succ passes ih =>
      intro position dp hpasses hle htable
      have hposition : (position : ℤ) ≤ maxAmount := by omega
      have hfits : FitsInt (position + 1) := by
        simp only [FitsInt, unreachable] at *
        omega
      have hnext := htable.relax hpositive hle (by omega) hlimit
      obtain ⟨hrun, hleast⟩ := ih (position + 1) _ (by omega) (by omega) hnext
      rw [updateLoop, if_pos hposition,
        update_cells htable hpositive hle (by omega) hlimit]
      refine ⟨?_, hleast⟩
      dsimp only
      rw [if_pos hfits]
      exact_mod_cast hrun

theorem coinsLoop_cells {maxAmount : ℕ} (hlimit : maxAmount ≤ unreachable)
    {denominations : List ℕ} (hpositive : ∀ coin ∈ denominations, 0 < coin) :
    ∀ (coins : Set ℕ) (dp : List ℕ), (∀ coin ∈ coins, 0 < coin) → Least dp maxAmount coins →
      ∃ final, coinsLoop maxAmount (denominations.map Nat.cast) (cells dp) = some (cells final) ∧
        final = denominations.foldl
          (fun dp coin => coinLoop coin (maxAmount + 1 - coin) coin dp) dp ∧
        Least final maxAmount ({coin | coin ∈ denominations} ∪ coins) := by
  induction denominations with
  | nil =>
      intro coins dp _ htable
      exact ⟨dp, rfl, rfl, by simpa using htable⟩
  | cons coin rest ih =>
      intro coins dp hcoins htable
      have hinsert : ∀ other ∈ insert coin coins, 0 < other := by
        intro other hother
        rcases Set.mem_insert_iff.mp hother with rfl | hmem
        · exact hpositive other List.mem_cons_self
        · exact hcoins other hmem
      obtain ⟨hrun, hleast⟩ := updateLoop_cells hinsert hlimit _ coin dp rfl (le_refl _)
        (htable.start coin)
      obtain ⟨final, hrest, hfold, hfinal⟩ :=
        ih (fun other hother => hpositive other (List.mem_cons_of_mem coin hother)) _ _ hinsert
          hleast
      refine ⟨final, ?_, hfold, ?_⟩
      · rw [List.map_cons, coinsLoop, hrun]
        exact hrest
      · have hunion : {other | other ∈ coin :: rest} ∪ coins =
            {other | other ∈ rest} ∪ insert coin coins := by
          ext other
          simp only [List.mem_cons, Set.mem_union, Set.mem_ofPred_eq, Set.mem_insert_iff]
          tauto
        rw [hunion]
        exact hfinal

/-- The loop runs without a fault, to the table of `CppProj.Recharge`, which has the least
numbers of coins. -/
theorem table_eq_fillTable {denominations : List ℕ}
    (hpositive : ∀ coin ∈ denominations, 0 < coin) {maxAmount : ℕ}
    (hlimit : maxAmount ≤ unreachable) :
    table maxAmount (denominations.map Nat.cast) =
        some (cells (fillTable maxAmount denominations)) ∧
      Least (fillTable maxAmount denominations) maxAmount {coin | coin ∈ denominations} := by
  obtain ⟨final, hrun, rfl, hleast⟩ := coinsLoop_cells hlimit hpositive ∅ _
    (fun _ hmem => absurd hmem (Set.notMem_empty _)) (initialTable_least maxAmount)
  rw [table, newTable_eq hlimit]
  refine ⟨hrun, ?_⟩
  rwa [Set.union_empty] at hleast

theorem getElem?_cells {dp : List ℕ} {index : ℕ} (hlt : index < dp.length) :
    (cells dp)[index]? = some (dp.getD index 0 : ℤ) := by
  rw [cells, List.getElem?_map, List.getD_eq_getElem?_getD, List.getElem?_eq_getElem hlt]
  rfl

theorem mem_sums_iff (denominations : List ℕ) (amount : ℕ) :
    amount ∈ sums denominations ↔
      (counts {coin | coin ∈ denominations} amount).Nonempty :=
  counts_nonempty_iff.symm

/-- Up to `INT_MAX - 1` the loop runs without a fault.  A sum of denominations gets its
least number of coins and any other amount the sentinel, which tells the two apart below
`INT_MAX - 1`. -/
theorem coinTable_correct (denominations : List ℕ) (hpositive : ∀ coin ∈ denominations, 0 < coin)
    (maxAmount : ℕ) (hlimit : (maxAmount : ℤ) ≤ sentinel) :
    ∃ dp : Vector, table maxAmount (denominations.map Nat.cast) = some dp ∧
      dp.length = maxAmount + 1 ∧
      ∀ i : ℕ, i ≤ maxAmount →
        (i ∈ sums denominations → ∃ count : ℕ, dp[i]? = some (count : ℤ) ∧
          IsLeast (counts {coin | coin ∈ denominations} i) count) ∧
        (i ∉ sums denominations → dp[i]? = some sentinel) ∧
        ((i : ℤ) < sentinel → (dp[i]? = some sentinel ↔ i ∉ sums denominations)) := by
  rw [← cast_unreachable] at hlimit
  obtain ⟨hrun, hleast⟩ := table_eq_fillTable hpositive (Int.ofNat_le.mp hlimit)
  refine ⟨_, hrun, by rw [cells, List.length_map, hleast.length], ?_⟩
  intro i hi
  have hindex : i < (fillTable maxAmount denominations).length := by
    rw [hleast.length]
    omega
  have hcell := getElem?_cells hindex
  have hsums := mem_sums_iff denominations i
  rcases hleast.entry i hi with hcount | ⟨hnone, hvalue⟩
  · have hsum : i ∈ sums denominations := hsums.mpr ⟨_, hcount.1⟩
    have hle := le_of_mem_counts hpositive hcount.1
    refine ⟨fun _ => ⟨_, hcell, hcount⟩, fun hnot => absurd hsum hnot, fun hlt => ?_⟩
    refine iff_of_false ?_ (not_not_intro hsum)
    rw [hcell]
    intro heq
    have := Option.some.inj heq
    omega
  · have hsum : i ∉ sums denominations := by
      rw [hsums, hnone]
      exact Set.not_nonempty_empty
    have hmarked : (cells (fillTable maxAmount denominations))[i]? = some sentinel := by
      rw [hcell, hvalue, cast_unreachable]
    exact ⟨fun hmem => absurd hmem hsum, fun _ => hmarked, fun _ => iff_of_true hmarked hsum⟩

theorem coinTable_of_two_and_five :
    ∃ dp : Vector, table 11 [2, 5] = some dp ∧ dp.length = 12 ∧
      ∃ count : ℕ, dp[11]? = some (count : ℤ) ∧
        IsLeast (counts {coin | coin ∈ [2, 5]} 11) count := by
  have htwo : 2 ∈ sums [2, 5] := AddSubmonoid.subset_closure List.mem_cons_self
  have hfive : 5 ∈ sums [2, 5] :=
    AddSubmonoid.subset_closure (List.mem_cons_of_mem 2 List.mem_cons_self)
  have hsum : 11 ∈ sums [2, 5] := add_mem (add_mem (add_mem htwo htwo) htwo) hfive
  obtain ⟨dp, hrun, hlength, hentries⟩ := coinTable_correct [2, 5] (by decide) 11 (by decide)
  exact ⟨dp, hrun, hlength, (hentries 11 (by decide)).1 hsum⟩

theorem counts_ones (amount : ℕ) : counts {coin | coin ∈ [1]} amount = {amount} := by
  have hcoins : {coin | coin ∈ [1]} = ({1} : Set ℕ) := by
    ext coin
    simp
  rw [hcoins, counts_singleton_one]

theorem table_of_ones :
    ∃ dp : Vector, table sentinel [1] = some dp ∧ dp[unreachable]? = some sentinel := by
  have hone : ∀ coin ∈ [1], 0 < coin := by decide
  obtain ⟨hrun, hleast⟩ := table_eq_fillTable hone (le_refl unreachable)
  refine ⟨_, hrun, ?_⟩
  have hvalue : (fillTable unreachable [1]).getD unreachable 0 = unreachable := by
    rcases hleast.entry unreachable (le_refl _) with hcount | ⟨-, hvalue⟩
    · have hmem := hcount.1
      rw [counts_ones] at hmem
      exact Set.mem_singleton_iff.mp hmem
    · exact hvalue
  rw [getElem?_cells (by rw [hleast.length]; exact Nat.lt_succ_self unreachable), hvalue,
    cast_unreachable]

/-- With coins of one the amount `INT_MAX - 1` is a sum, and its number of coins is the
sentinel.  One more is too much for an `int`. -/
theorem number_eq_sentinel :
    (∃ dp : Vector, table sentinel [1] = some dp ∧
      ¬ (dp[unreachable]? = some sentinel ↔ unreachable ∉ sums [1])) ∧
    table (sentinel + 1) [1] = none := by
  obtain ⟨dp, hrun, hmarked⟩ := table_of_ones
  have hsum : unreachable ∈ sums [1] := by
    rw [mem_sums_iff, counts_ones]
    exact Set.singleton_nonempty unreachable
  refine ⟨⟨dp, hrun, ?_⟩, by decide⟩
  intro hiff
  exact hiff.mp hmarked hsum

end CppProj.CoinTable
