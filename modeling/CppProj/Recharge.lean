import CppProj.RepeatedSums
import Mathlib.Order.Bounds.Basic

/-!
# The recharge searches of `countoff.cpp`

Both functions tabulate which amounts are sums of denominations, up to a limit,
and look for the amounts that make the balance a multiple of the monthly
consumption.  `findMinRecharge` takes twenty times the greatest denomination as
its limit, `findAllValidRecharges` takes 4000.
-/

namespace CppProj.Recharge

/-- `INT_MAX - 1`, for an amount that cannot be made up. -/
def unreachable : ℕ := 2 ^ 31 - 2

def initialTable (maxAmount : ℕ) : List ℕ :=
  (List.replicate (maxAmount + 1) unreachable).set 0 0

/-- The body of the inner loop. -/
def relax (dp : List ℕ) (coin i : ℕ) : List ℕ :=
  if dp.getD (i - coin) 0 ≠ unreachable then
    dp.set i (min (dp.getD i 0) (dp.getD (i - coin) 0 + 1))
  else dp

/-- The inner loop, from `i` on for so many passes. -/
def coinLoop (coin : ℕ) : ℕ → ℕ → List ℕ → List ℕ
  | 0, _, dp => dp
  | passes + 1, i, dp => coinLoop coin passes (i + 1) (relax dp coin i)

def fillTable (maxAmount : ℕ) (denominations : List ℕ) : List ℕ :=
  denominations.foldl (fun dp coin => coinLoop coin (maxAmount + 1 - coin) coin dp)
    (initialTable maxAmount)

def requiredRemainder (currentBalance monthlyConsumption : ℕ) : ℕ :=
  (monthlyConsumption - currentBalance % monthlyConsumption) % monthlyConsumption

/-- The test that both searches make on an amount. -/
def isValid (currentBalance monthlyConsumption : ℕ) (dp : List ℕ) (amount : ℕ) : Bool :=
  dp.getD amount 0 != unreachable &&
    amount % monthlyConsumption == requiredRemainder currentBalance monthlyConsumption

/-- The limit of the first search.  The greatest element of an empty list is not
defined. -/
def maxAmount (denominations : List ℕ) (hne : denominations ≠ []) : ℕ :=
  denominations.max hne * 20

def findMinRecharge (currentBalance monthlyConsumption : ℕ) (denominations : List ℕ)
    (hne : denominations ≠ []) : ℤ :=
  let limit := maxAmount denominations hne
  let dp := fillTable limit denominations
  match (List.range (limit + 1)).find? (isValid currentBalance monthlyConsumption dp) with
  | some amount => amount
  | none => -1

def allAmountsLimit : ℕ := 4000

def findAllValidRecharges (currentBalance monthlyConsumption : ℕ) (denominations : List ℕ) :
    List ℕ :=
  let dp := fillTable allAmountsLimit denominations
  (List.range (allAmountsLimit + 1)).filter (isValid currentBalance monthlyConsumption dp)

/-! ## What the table holds -/

/-- The sums of denominations, with repetition. -/
def sums (denominations : List ℕ) : AddSubmonoid ℕ :=
  AddSubmonoid.closure {coin | coin ∈ denominations}

/-- `position` is reached by the inner loop for `coin`: up to there the table takes
the coin into account, and from there on only the coins before it. -/
structure TabulatesUpTo (dp : List ℕ) (maxAmount coin position : ℕ) (before : Set ℕ) : Prop where
  length : dp.length = maxAmount + 1
  small : ∀ amount ≤ maxAmount, dp.getD amount 0 ≠ unreachable → dp.getD amount 0 ≤ amount
  withCoin : ∀ amount ≤ maxAmount, amount < position →
    (dp.getD amount 0 ≠ unreachable ↔ amount ∈ AddSubmonoid.closure (insert coin before))
  withoutCoin : ∀ amount ≤ maxAmount, position ≤ amount →
    (dp.getD amount 0 ≠ unreachable ↔ amount ∈ AddSubmonoid.closure before)

structure Tabulates (dp : List ℕ) (maxAmount : ℕ) (coins : Set ℕ) : Prop where
  length : dp.length = maxAmount + 1
  small : ∀ amount ≤ maxAmount, dp.getD amount 0 ≠ unreachable → dp.getD amount 0 ≤ amount
  reached : ∀ amount ≤ maxAmount,
    (dp.getD amount 0 ≠ unreachable ↔ amount ∈ AddSubmonoid.closure coins)

theorem getD_set_self {dp : List ℕ} {i : ℕ} (hlt : i < dp.length) (value : ℕ) :
    (dp.set i value).getD i 0 = value := by
  simp [List.getD_eq_getElem?_getD, hlt]

theorem getD_set_of_ne {dp : List ℕ} {i other : ℕ} (hne : i ≠ other) (value : ℕ) :
    (dp.set i value).getD other 0 = dp.getD other 0 := by
  simp [List.getD_eq_getElem?_getD, List.getElem?_set_ne hne]

theorem initialTable_tabulates (maxAmount : ℕ) :
    Tabulates (initialTable maxAmount) maxAmount ∅ := by
  have hzero : (initialTable maxAmount).getD 0 0 = 0 := by
    simp [initialTable, List.replicate_succ]
  have hrest : ∀ amount ≤ maxAmount, amount ≠ 0 →
      (initialTable maxAmount).getD amount 0 = unreachable := by
    intro amount hle hne
    rw [initialTable, getD_set_of_ne hne.symm]
    simp [List.getD_eq_getElem?_getD, Nat.lt_succ_of_le hle]
  constructor
  · simp [initialTable]
  · intro amount hle hreached
    by_cases hamount : amount = 0
    · subst hamount
      rw [hzero]
    · exact (hreached (hrest amount hle hamount)).elim
  · intro amount hle
    rw [RepeatedSums.mem_closure_empty_iff]
    by_cases hamount : amount = 0
    · subst hamount
      rw [hzero]
      decide
    · rw [hrest amount hle hamount]
      simp [hamount]

namespace TabulatesUpTo

variable {dp : List ℕ} {maxAmount coin position : ℕ} {before : Set ℕ}

/-- A pass of the inner loop: the amount is reached as before, or from the amount
one coin below, for which the coin has been taken into account. -/
theorem relax (htable : TabulatesUpTo dp maxAmount coin position before) (hcoin : 0 < coin)
    (hle : coin ≤ position) (hposition : position ≤ maxAmount)
    (hlimit : maxAmount < unreachable) :
    TabulatesUpTo (relax dp coin position) maxAmount coin (position + 1) before := by
  have hbelow := htable.withCoin (position - coin) (by omega) (by omega)
  have hsum : position ∈ AddSubmonoid.closure (insert coin before) ↔
      position ∈ AddSubmonoid.closure before ∨
        coin ≤ position ∧ position - coin ∈ AddSubmonoid.closure (insert coin before) :=
    RepeatedSums.mem_closure_insert_nat_iff
  unfold Recharge.relax
  by_cases hreached : dp.getD (position - coin) 0 ≠ unreachable
  · have hlt : position < dp.length := by
      rw [htable.length]
      omega
    have hsmall := htable.small (position - coin) (by omega) hreached
    have hvalue : min (dp.getD position 0) (dp.getD (position - coin) 0 + 1) ≤ position :=
      le_trans (min_le_right _ _) (by omega)
    rw [if_pos hreached]
    constructor
    · rw [List.length_set]
      exact htable.length
    · intro amount hamount
      by_cases heq : position = amount
      · subst heq
        rw [getD_set_self hlt]
        exact fun _ => hvalue
      · rw [getD_set_of_ne heq]
        exact htable.small amount hamount
    · intro amount hamount hbefore
      by_cases heq : position = amount
      · subst heq
        rw [getD_set_self hlt]
        constructor
        · exact fun _ => hsum.mpr (Or.inr ⟨hle, hbelow.mp hreached⟩)
        · intro _ hsame
          omega
      · rw [getD_set_of_ne heq]
        exact htable.withCoin amount hamount (by omega)
    · intro amount hamount hafter
      rw [getD_set_of_ne (by omega)]
      exact htable.withoutCoin amount hamount (by omega)
  · rw [if_neg hreached]
    constructor
    · exact htable.length
    · exact htable.small
    · intro amount hamount hbefore
      by_cases heq : amount = position
      · subst heq
        rw [htable.withoutCoin amount hamount (le_refl _), hsum]
        constructor
        · exact Or.inl
        · intro hcases
          exact hcases.resolve_right fun hcoin' => hreached (hbelow.mpr hcoin'.2)
      · exact htable.withCoin amount hamount (by omega)
    · intro amount hamount hafter
      exact htable.withoutCoin amount hamount (by omega)

theorem coinLoop {passes : ℕ} (htable : TabulatesUpTo dp maxAmount coin position before)
    (hcoin : 0 < coin) (hle : coin ≤ position) (hpasses : position + passes = maxAmount + 1)
    (hlimit : maxAmount < unreachable) :
    TabulatesUpTo (coinLoop coin passes position dp) maxAmount coin (maxAmount + 1) before := by
  induction passes generalizing dp position with
  | zero =>
      have hend : position = maxAmount + 1 := hpasses
      rw [← hend]
      exact htable
  | succ passes ih =>
      have hnext := htable.relax hcoin hle (by omega) hlimit
      exact ih hnext (by omega) (by omega)

end TabulatesUpTo

namespace Tabulates

variable {dp : List ℕ} {maxAmount : ℕ} {coins : Set ℕ}

theorem start (htable : Tabulates dp maxAmount coins) (coin : ℕ) :
    TabulatesUpTo dp maxAmount coin coin coins := by
  constructor
  · exact htable.length
  · exact htable.small
  · intro amount hamount hbelow
    rw [htable.reached amount hamount, RepeatedSums.mem_closure_insert_nat_iff]
    constructor
    · exact Or.inl
    · intro hcases
      exact hcases.resolve_right fun hcoin => absurd hcoin.1 (by omega)
  · intro amount hamount _
    exact htable.reached amount hamount

theorem addCoin (htable : Tabulates dp maxAmount coins) {coin : ℕ} (hcoin : 0 < coin)
    (hlimit : maxAmount < unreachable) :
    Tabulates (coinLoop coin (maxAmount + 1 - coin) coin dp) maxAmount (insert coin coins) := by
  by_cases hle : coin ≤ maxAmount
  · have hend := (htable.start coin).coinLoop hcoin (le_refl _)
      (by omega : coin + (maxAmount + 1 - coin) = maxAmount + 1) hlimit
    exact ⟨hend.length, hend.small, fun amount hamount =>
      hend.withCoin amount hamount (by omega)⟩
  · have hpasses : maxAmount + 1 - coin = 0 := by omega
    have hstart := htable.start coin
    rw [hpasses]
    exact ⟨hstart.length, hstart.small, fun amount hamount =>
      hstart.withCoin amount hamount (by omega)⟩

theorem addCoins (htable : Tabulates dp maxAmount coins) {denominations : List ℕ}
    (hpositive : ∀ coin ∈ denominations, 0 < coin) (hlimit : maxAmount < unreachable) :
    Tabulates
      (denominations.foldl (fun dp coin => Recharge.coinLoop coin (maxAmount + 1 - coin) coin dp)
        dp) maxAmount ({coin | coin ∈ denominations} ∪ coins) := by
  induction denominations generalizing dp coins with
  | nil => simpa using htable
  | cons coin rest ih =>
      have hnext := htable.addCoin (hpositive coin (by simp)) hlimit
      have hrest := ih hnext fun other hmem => hpositive other (List.mem_cons_of_mem coin hmem)
      have hcoins : {other | other ∈ coin :: rest} ∪ coins =
          {other | other ∈ rest} ∪ insert coin coins := by
        ext other
        simp only [List.mem_cons, Set.mem_union, Set.mem_ofPred_eq, Set.mem_insert_iff]
        tauto
      rw [hcoins]
      exact hrest

end Tabulates

theorem fillTable_tabulates {denominations : List ℕ} (hpositive : ∀ coin ∈ denominations, 0 < coin)
    {limit : ℕ} (hlimit : limit < unreachable) :
    Tabulates (fillTable limit denominations) limit {coin | coin ∈ denominations} := by
  have htable := (initialTable_tabulates limit).addCoins hpositive hlimit
  rwa [Set.union_empty] at htable

/-! ## What the searches find -/

/-- The amount is a sum of denominations that leaves nothing over. -/
def Solves (currentBalance monthlyConsumption : ℕ) (denominations : List ℕ) (amount : ℕ) : Prop :=
  amount ∈ sums denominations ∧ (currentBalance + amount) % monthlyConsumption = 0

theorem mod_eq_requiredRemainder_iff {monthlyConsumption : ℕ} (hpositive : 0 < monthlyConsumption)
    (currentBalance amount : ℕ) :
    amount % monthlyConsumption = requiredRemainder currentBalance monthlyConsumption ↔
      (currentBalance + amount) % monthlyConsumption = 0 := by
  rw [requiredRemainder, Nat.add_mod]
  have hbalance := Nat.mod_lt currentBalance hpositive
  have hamount := Nat.mod_lt amount hpositive
  generalize currentBalance % monthlyConsumption = balance at hbalance ⊢
  generalize amount % monthlyConsumption = rest at hamount ⊢
  by_cases hzero : balance = 0
  · subst hzero
    rw [Nat.sub_zero, Nat.mod_self, Nat.zero_add, Nat.mod_eq_of_lt hamount]
  · rw [Nat.mod_eq_of_lt (by omega : monthlyConsumption - balance < monthlyConsumption)]
    by_cases hle : balance + rest < monthlyConsumption
    · rw [Nat.mod_eq_of_lt hle]
      omega
    · rw [Nat.mod_eq_sub_mod (by omega), Nat.mod_eq_of_lt (by omega)]
      omega

theorem isValid_iff {dp denominations : List ℕ} {limit : ℕ}
    (htable : Tabulates dp limit {coin | coin ∈ denominations}) {monthlyConsumption : ℕ}
    (hpositive : 0 < monthlyConsumption) (currentBalance : ℕ) {amount : ℕ} (hle : amount ≤ limit) :
    isValid currentBalance monthlyConsumption dp amount = true ↔
      Solves currentBalance monthlyConsumption denominations amount := by
  rw [isValid, Bool.and_eq_true, bne_iff_ne, beq_iff_eq,
    mod_eq_requiredRemainder_iff hpositive, htable.reached amount hle]
  rfl

theorem find_least {valid : ℕ → Bool} {limit : ℕ} {solutions : Set ℕ}
    (hvalid : ∀ amount ≤ limit, valid amount = true ↔ amount ∈ solutions) :
    (∃ amount ≤ limit, IsLeast solutions amount ∧
      (List.range (limit + 1)).find? valid = some amount) ∨
    ((∀ amount ≤ limit, amount ∉ solutions) ∧ (List.range (limit + 1)).find? valid = none) := by
  cases hfind : (List.range (limit + 1)).find? valid with
  | none =>
      right
      refine ⟨?_, rfl⟩
      intro amount hle hmem
      have hnone := List.find?_range_eq_none.mp hfind amount (by omega)
      rw [(hvalid amount hle).mpr hmem] at hnone
      cases hnone
  | some amount =>
      left
      obtain ⟨hamount, hrange, hearlier⟩ := List.find?_range_eq_some.mp hfind
      have hle : amount ≤ limit := by
        have hlt := List.mem_range.mp hrange
        omega
      refine ⟨amount, hle, ⟨(hvalid amount hle).mp hamount, ?_⟩, rfl⟩
      intro other hother
      by_contra hlt
      have hbefore := hearlier other (by omega)
      rw [(hvalid other (by omega)).mpr hother] at hbefore
      cases hbefore

section

variable (currentBalance : ℕ) {monthlyConsumption : ℕ} {denominations : List ℕ}

/-- The products by twenty that fit an `int` stay below the sentinel. -/
theorem maxAmount_lt_unreachable (hne : denominations ≠ [])
    (hfits : maxAmount denominations hne < 2 ^ 31) :
    maxAmount denominations hne < unreachable := by
  rw [maxAmount, unreachable] at *
  omega

theorem findMinRecharge_cases (hconsumption : 0 < monthlyConsumption)
    (hpositive : ∀ coin ∈ denominations, 0 < coin) (hne : denominations ≠ [])
    (hfits : maxAmount denominations hne < 2 ^ 31) :
    (∃ amount ≤ maxAmount denominations hne,
      IsLeast {amount | Solves currentBalance monthlyConsumption denominations amount} amount ∧
      findMinRecharge currentBalance monthlyConsumption denominations hne = amount) ∨
    ((∀ amount ≤ maxAmount denominations hne,
      ¬ Solves currentBalance monthlyConsumption denominations amount) ∧
      findMinRecharge currentBalance monthlyConsumption denominations hne = -1) := by
  have htable := fillTable_tabulates hpositive (maxAmount_lt_unreachable hne hfits)
  have hvalid : ∀ amount ≤ maxAmount denominations hne,
      isValid currentBalance monthlyConsumption
          (fillTable (maxAmount denominations hne) denominations) amount = true ↔
        amount ∈ {amount | Solves currentBalance monthlyConsumption denominations amount} :=
    fun amount hle => isValid_iff htable hconsumption currentBalance hle
  rcases find_least hvalid with ⟨amount, hle, hleast, hfind⟩ | ⟨hnone, hfind⟩
  · exact Or.inl ⟨amount, hle, hleast, by simp only [findMinRecharge, hfind]⟩
  · exact Or.inr ⟨hnone, by simp only [findMinRecharge, hfind]⟩

theorem findAllValidRecharges_cases (hconsumption : 0 < monthlyConsumption)
    (hpositive : ∀ coin ∈ denominations, 0 < coin) :
    (∃ amount ≤ allAmountsLimit,
      IsLeast {amount | Solves currentBalance monthlyConsumption denominations amount} amount ∧
      (findAllValidRecharges currentBalance monthlyConsumption denominations).head? =
        some amount) ∨
    ((∀ amount ≤ allAmountsLimit,
      ¬ Solves currentBalance monthlyConsumption denominations amount) ∧
      findAllValidRecharges currentBalance monthlyConsumption denominations = []) := by
  have htable := fillTable_tabulates hpositive (by decide : allAmountsLimit < unreachable)
  have hvalid : ∀ amount ≤ allAmountsLimit,
      isValid currentBalance monthlyConsumption
          (fillTable allAmountsLimit denominations) amount = true ↔
        amount ∈ {amount | Solves currentBalance monthlyConsumption denominations amount} :=
    fun amount hle => isValid_iff htable hconsumption currentBalance hle
  have hhead : (findAllValidRecharges currentBalance monthlyConsumption denominations).head? =
      (List.range (allAmountsLimit + 1)).find? (isValid currentBalance monthlyConsumption
        (fillTable allAmountsLimit denominations)) := List.head?_filter
  rcases find_least hvalid with ⟨amount, hle, hleast, hfind⟩ | ⟨hnone, hfind⟩
  · exact Or.inl ⟨amount, hle, hleast, hhead.trans hfind⟩
  · exact Or.inr ⟨hnone, List.head?_eq_none_iff.mp (hhead.trans hfind)⟩

end

/-- The documented result: the least valid amount, or `-1` where there is none. -/
structure MeetsContract (currentBalance monthlyConsumption : ℕ) (denominations : List ℕ)
    (result : ℤ) : Prop where
  least : ∀ amount : ℕ,
    IsLeast {amount | Solves currentBalance monthlyConsumption denominations amount} amount →
      result = amount
  impossible : result = -1 ↔
    ¬ ∃ amount, Solves currentBalance monthlyConsumption denominations amount

theorem findMinRecharge_meetsContract_iff (currentBalance : ℕ) {monthlyConsumption : ℕ}
    {denominations : List ℕ} (hconsumption : 0 < monthlyConsumption)
    (hpositive : ∀ coin ∈ denominations, 0 < coin) (hne : denominations ≠ [])
    (hfits : maxAmount denominations hne < 2 ^ 31) :
    MeetsContract currentBalance monthlyConsumption denominations
        (findMinRecharge currentBalance monthlyConsumption denominations hne) ↔
      ((∃ amount, Solves currentBalance monthlyConsumption denominations amount) →
        ∃ amount ≤ maxAmount denominations hne,
          Solves currentBalance monthlyConsumption denominations amount) := by
  rcases findMinRecharge_cases currentBalance hconsumption hpositive hne hfits
    with ⟨amount, hle, hleast, hresult⟩ | ⟨hnone, hresult⟩
  · rw [hresult]
    constructor
    · intro _ _
      exact ⟨amount, hle, hleast.1⟩
    · intro _
      constructor
      · intro other hother
        rw [hleast.unique hother]
      · constructor
        · intro hnegative
          omega
        · intro himpossible
          exact (himpossible ⟨amount, hleast.1⟩).elim
  · rw [hresult]
    constructor
    · intro hcontract hexists
      exact (hcontract.impossible.mp rfl hexists).elim
    · intro hwithin
      have himpossible :
          ¬ ∃ amount, Solves currentBalance monthlyConsumption denominations amount := by
        intro hexists
        obtain ⟨amount, hle, hsolves⟩ := hwithin hexists
        exact hnone amount hle hsolves
      constructor
      · intro other hother
        exact (himpossible ⟨other, hother.1⟩).elim
      · exact ⟨fun _ => himpossible, fun _ => rfl⟩

theorem sums_of_mem {denominations : List ℕ} {coin : ℕ} (hmem : coin ∈ denominations)
    (times : ℕ) : times * coin ∈ sums denominations := by
  have hcoin : coin ∈ sums denominations := AddSubmonoid.subset_closure hmem
  rw [← smul_eq_mul]
  exact nsmul_mem hcoin times

theorem solves_main : Solves 2 19 [20, 50, 100, 200] 340 :=
  ⟨sums_of_mem (by simp : 20 ∈ [20, 50, 100, 200]) 17, rfl⟩

theorem findMinRecharge_main :
    MeetsContract 2 19 [20, 50, 100, 200]
      (findMinRecharge 2 19 [20, 50, 100, 200] (by simp)) :=
  (findMinRecharge_meetsContract_iff 2 (by decide) (by decide) (by simp) (by decide)).mpr
    fun _ => ⟨340, by decide, solves_main⟩

theorem isLeast_oneYuan : IsLeast {amount | Solves 1 50 [1] amount} 49 := by
  constructor
  · exact ⟨sums_of_mem (by simp : 1 ∈ [1]) 49, rfl⟩
  · rintro amount ⟨_, hmod⟩
    omega

/-- With one denomination of 1 the first search gives up at 20, and 49 is right. -/
theorem findMinRecharge_oneYuan :
    findMinRecharge 1 50 [1] (by simp) = -1 ∧
      ¬ MeetsContract 1 50 [1] (findMinRecharge 1 50 [1] (by simp)) := by
  have hresult : findMinRecharge 1 50 [1] (by simp) = -1 := by decide
  refine ⟨hresult, ?_⟩
  intro hcontract
  exact hcontract.impossible.mp hresult ⟨49, isLeast_oneYuan.1⟩

/-! ## The two searches -/

structure SearchesAgree (currentBalance monthlyConsumption : ℕ) (denominations : List ℕ)
    (hne : denominations ≠ []) : Prop where
  head : ∀ amount,
    (findAllValidRecharges currentBalance monthlyConsumption denominations).head? = some amount →
      findMinRecharge currentBalance monthlyConsumption denominations hne = amount
  empty : findMinRecharge currentBalance monthlyConsumption denominations hne = -1 ↔
    findAllValidRecharges currentBalance monthlyConsumption denominations = []

/-- The searches agree exactly when a valid amount within the wider of the two
limits implies one within the narrower. -/
theorem searchesAgree_iff (currentBalance : ℕ) {monthlyConsumption : ℕ} {denominations : List ℕ}
    (hconsumption : 0 < monthlyConsumption) (hpositive : ∀ coin ∈ denominations, 0 < coin)
    (hne : denominations ≠ []) (hfits : maxAmount denominations hne < 2 ^ 31) :
    SearchesAgree currentBalance monthlyConsumption denominations hne ↔
      ((∃ amount ≤ max (maxAmount denominations hne) allAmountsLimit,
          Solves currentBalance monthlyConsumption denominations amount) →
        ∃ amount ≤ min (maxAmount denominations hne) allAmountsLimit,
          Solves currentBalance monthlyConsumption denominations amount) := by
  rcases findMinRecharge_cases currentBalance hconsumption hpositive hne hfits
    with ⟨amount, hle, hleast, hmin⟩ | ⟨hnone, hmin⟩
  · rcases findAllValidRecharges_cases currentBalance hconsumption hpositive
      with ⟨other, hother, hotherLeast, hhead⟩ | ⟨hallNone, hall⟩
    · have hsame : other = amount := hotherLeast.unique hleast
      subst hsame
      constructor
      · intro _ _
        exact ⟨other, le_min hle hother, hleast.1⟩
      · intro _
        constructor
        · intro first hfirst
          rw [hhead, Option.some.injEq] at hfirst
          rw [hmin, hfirst]
        · rw [hmin]
          constructor
          · intro hnegative
            omega
          · intro hempty
            rw [hempty] at hhead
            cases hhead
    · constructor
      · intro hagree
        have hnegative := hagree.empty.mpr hall
        rw [hmin] at hnegative
        omega
      · intro hwithin
        obtain ⟨least, hlimit, hsolves⟩ :=
          hwithin ⟨amount, le_trans hle (le_max_left _ _), hleast.1⟩
        exact (hallNone least (le_trans hlimit (min_le_right _ _)) hsolves).elim
  · rcases findAllValidRecharges_cases currentBalance hconsumption hpositive
      with ⟨other, hother, hotherLeast, hhead⟩ | ⟨hallNone, hall⟩
    · constructor
      · intro hagree
        rw [hagree.empty.mp hmin] at hhead
        cases hhead
      · intro hwithin
        obtain ⟨least, hlimit, hsolves⟩ :=
          hwithin ⟨other, le_trans hother (le_max_right _ _), hotherLeast.1⟩
        exact (hnone least (le_trans hlimit (min_le_left _ _)) hsolves).elim
    · constructor
      · rintro _ ⟨amount, hlimit, hsolves⟩
        rcases le_max_iff.mp hlimit with hle | hle
        · exact (hnone amount hle hsolves).elim
        · exact (hallNone amount hle hsolves).elim
      · intro _
        constructor
        · intro first hfirst
          rw [hall] at hfirst
          cases hfirst
        · exact ⟨fun _ => hall, fun _ => hmin⟩

theorem searchesAgree_main : SearchesAgree 2 19 [20, 50, 100, 200] (by simp) :=
  (searchesAgree_iff 2 (by decide) (by decide) (by simp) (by decide)).mpr
    fun _ => ⟨340, by decide, solves_main⟩

/-- The second search goes on to 49, where the first has given up. -/
theorem searches_oneYuan :
    findMinRecharge 1 50 [1] (by simp) = -1 ∧
      (findAllValidRecharges 1 50 [1]).head? = some 49 ∧
      ¬ SearchesAgree 1 50 [1] (by simp) := by
  have hmin : findMinRecharge 1 50 [1] (by simp) = -1 := by decide
  have hhead : (findAllValidRecharges 1 50 [1]).head? = some 49 := by
    rcases findAllValidRecharges_cases 1 (by decide : 0 < 50)
        (by decide : ∀ coin ∈ [1], 0 < coin) with ⟨amount, _, hleast, hhead⟩ | ⟨hnone, _⟩
    · rw [hhead, hleast.unique isLeast_oneYuan]
    · exact (hnone 49 (by decide) isLeast_oneYuan.1).elim
  refine ⟨hmin, hhead, ?_⟩
  intro hagree
  have hequal := hagree.head 49 hhead
  rw [hmin] at hequal
  cases hequal

end CppProj.Recharge
