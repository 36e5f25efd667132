import Mathlib.Algebra.Order.Ring.Rat
import Mathlib.Tactic.Linarith
import Mathlib.Tactic.Ring

/-!
# The two BrassPlus hierarchies of chapter 13

`brass.cpp` of `13_7` derives `BrassPlus` from the concrete `Brass`, `acctabc.cpp` of
`13_11` derives it from the abstract `AcctABC`.  Amounts are exact.  What a member
function prints is returned with the account.
-/

namespace CppProj.BrassAccounts

inductive Printed where
  | text (line : String)
  | money (amount : ℚ)
  deriving DecidableEq

inductive Call where
  | deposit (amt : ℚ)
  | withdraw (amt : ℚ)
  deriving DecidableEq

def Call.amount : Call → ℚ
  | .deposit amt => amt
  | .withdraw amt => amt

/-! ## An account with an overdraft -/

structure Funds where
  own : ℚ
  owed : ℚ
  deriving DecidableEq

structure Terms where
  maxLoan : ℚ
  rate : ℚ
  deriving DecidableEq

/-- What a request does to the funds of such an account: a negative amount is refused,
a withdrawal beyond the own funds is lent at interest, up to the credit limit. -/
def Funds.request (terms : Terms) (funds : Funds) : Call → Funds
  | .deposit amt =>
      if amt < 0 then funds else { funds with own := funds.own + amt }
  | .withdraw amt =>
      if amt < 0 then funds
      else if amt ≤ funds.own then { funds with own := funds.own - amt }
      else if amt ≤ funds.own + terms.maxLoan - funds.owed then
        ⟨0, funds.owed + (amt - funds.own) * (1 + terms.rate)⟩
      else funds

theorem Funds.request_own_nonneg {terms : Terms} {funds : Funds} (hown : 0 ≤ funds.own)
    (call : Call) : 0 ≤ (funds.request terms call).own := by
  cases call with
  | deposit amt =>
      simp only [Funds.request]
      split
      · exact hown
      · simp only
        linarith
  | withdraw amt =>
      simp only [Funds.request]
      split
      · exact hown
      · split
        · simp only
          linarith
        · split
          · exact le_rfl
          · exact hown

theorem Funds.request_of_negative {terms : Terms} {funds : Funds} {call : Call}
    (hneg : call.amount < 0) : funds.request terms call = funds := by
  cases call with
  | deposit amt => exact if_pos hneg
  | withdraw amt => exact if_pos hneg

def requestHistory (terms : Terms) (funds : Funds) : List Call → List Funds
  | [] => [funds]
  | call :: calls => funds :: requestHistory terms (funds.request terms call) calls

/-! ## Accounts under a list of calls -/

section Histories

variable {Account : Type} (perform : Account → Call → Account × List Printed)

/-- The funds before the calls and after each of them. -/
def fundsHistory (funds : Account → Funds) (account : Account) : List Call → List Funds
  | [] => [funds account]
  | call :: calls => funds account :: fundsHistory funds (perform account call).1 calls

/-- Each call with a negative amount leaves the account as it is. -/
def IgnoresNegatives (account : Account) : List Call → Prop
  | [] => True
  | call :: calls =>
      (call.amount < 0 → (perform account call).1 = account) ∧
        IgnoresNegatives (perform account call).1 calls

end Histories

/-! ## `13_7` -/

namespace Section7

structure Brass where
  balance : ℚ
  deriving DecidableEq

structure BrassPlus extends Brass where
  maxLoan : ℚ
  rate : ℚ
  owesBank : ℚ
  deriving DecidableEq

def Brass.deposit (account : Brass) (amt : ℚ) : Brass × List Printed :=
  if amt < 0 then
    (account, [.text "Negative deposit not allowed; ", .text "deposit is cancelled.\n"])
  else
    ({ account with balance := account.balance + amt }, [])

def Brass.withdraw (account : Brass) (amt : ℚ) : Brass × List Printed :=
  if amt < 0 then
    (account, [.text "Withdraw amount must be positive; ", .text "withdraw canceled.\n"])
  else if amt ≤ account.balance then
    ({ account with balance := account.balance - amt }, [])
  else
    (account, [.text "Withdraw amout of $", .money amt,
      .text " exceeds your balance.\n", .text "Withdraw canceled.\n"])

namespace BrassPlus

def new (bal ml r : ℚ) : BrassPlus :=
  { balance := bal, maxLoan := ml, owesBank := 0, rate := r }

def deposit (account : BrassPlus) (amt : ℚ) : BrassPlus × List Printed :=
  let result := account.toBrass.deposit amt
  ({ account with toBrass := result.1 }, result.2)

def withdraw (account : BrassPlus) (amt : ℚ) : BrassPlus × List Printed :=
  let bal := account.balance
  if amt ≤ bal then
    let result := account.toBrass.withdraw amt
    ({ account with toBrass := result.1 }, result.2)
  else if amt ≤ bal + account.maxLoan - account.owesBank then
    let advance := amt - bal
    let indebted := { account with owesBank := account.owesBank + advance * (1 + account.rate) }
    let deposited := indebted.deposit advance
    let result := deposited.1.toBrass.withdraw amt
    ({ deposited.1 with toBrass := result.1 },
      [.text "Bank advance: $", .money advance, .text "\n",
        .text "Finace charge: $", .money (advance * account.rate), .text "\n"]
        ++ deposited.2 ++ result.2)
  else
    (account, [.text "Credit linit exceed. Transaction cancelled.\n"])

def perform (account : BrassPlus) : Call → BrassPlus × List Printed
  | .deposit amt => account.deposit amt
  | .withdraw amt => account.withdraw amt

def funds (account : BrassPlus) : Funds := ⟨account.balance, account.owesBank⟩

def terms (account : BrassPlus) : Terms := ⟨account.maxLoan, account.rate⟩

end BrassPlus

end Section7

/-! ## `13_11` -/

namespace Section11

structure AcctABC where
  balance : ℚ
  deriving DecidableEq

structure Brass extends AcctABC
  deriving DecidableEq

structure BrassPlus extends AcctABC where
  maxLoan : ℚ
  rate : ℚ
  owesBank : ℚ
  deriving DecidableEq

def AcctABC.deposit (account : AcctABC) (amt : ℚ) : AcctABC × List Printed :=
  if amt < 0 then
    (account, [.text "Negative deposit not allowed;", .text "deposit is cancelled.\n"])
  else
    ({ account with balance := account.balance + amt }, [])

/-- The pure virtual function has a body, which checks nothing. -/
def AcctABC.withdraw (account : AcctABC) (amt : ℚ) : AcctABC :=
  { account with balance := account.balance - amt }

def Brass.withdraw (account : Brass) (amt : ℚ) : Brass × List Printed :=
  if amt < 0 then
    (account, [.text "Withdrawal amount must be positive; ", .text "withdrawal canceled.\n"])
  else if amt ≤ account.balance then
    ({ account with toAcctABC := account.toAcctABC.withdraw amt }, [])
  else
    (account, [.text "Withdrawal amount of $", .money amt,
      .text " exceeds your balance.\n", .text "Withdrawal canceled.\n"])

namespace BrassPlus

def new (bal ml r : ℚ) : BrassPlus :=
  { balance := bal, maxLoan := ml, owesBank := 0, rate := r }

def deposit (account : BrassPlus) (amt : ℚ) : BrassPlus × List Printed :=
  let result := account.toAcctABC.deposit amt
  ({ account with toAcctABC := result.1 }, result.2)

def withdraw (account : BrassPlus) (amt : ℚ) : BrassPlus × List Printed :=
  let bal := account.balance
  if amt ≤ bal then
    -- `Brass::Withdraw` asks for the sign before it compares; this test alone lets a
    -- negative amount through
    ({ account with toAcctABC := account.toAcctABC.withdraw amt }, [])
  else if amt ≤ bal + account.maxLoan - account.owesBank then
    let advance := amt - bal
    let indebted := { account with owesBank := account.owesBank + advance * (1 + account.rate) }
    let deposited := indebted.deposit advance
    ({ deposited.1 with toAcctABC := deposited.1.toAcctABC.withdraw amt },
      [.text "Bank advance: $", .money advance, .text "\n",
        .text "Finance charge: $", .money (advance * account.rate), .text "\n"]
        ++ deposited.2)
  else
    (account, [.text "Credit limit exceeded. Transaction cancelled.\n"])

def perform (account : BrassPlus) : Call → BrassPlus × List Printed
  | .deposit amt => account.deposit amt
  | .withdraw amt => account.withdraw amt

def funds (account : BrassPlus) : Funds := ⟨account.balance, account.owesBank⟩

def terms (account : BrassPlus) : Terms := ⟨account.maxLoan, account.rate⟩

end BrassPlus

end Section11

theorem brass_withdraw_agrees {account : Section7.Brass} {other : Section11.Brass}
    (hbalance : account.balance = other.balance) (amt : ℚ) :
    (account.withdraw amt).1.balance = (other.withdraw amt).1.balance := by
  unfold Section7.Brass.withdraw Section11.Brass.withdraw
  rw [← hbalance]
  split
  · exact hbalance
  · split
    · simp [Section11.AcctABC.withdraw, hbalance]
    · exact hbalance

/-! ## Each call of `13_7` -/

namespace Section7.BrassPlus

theorem deposit_of_nonneg (account : BrassPlus) {amt : ℚ} (hamt : 0 ≤ amt) :
    (account.deposit amt).1 = { account with balance := account.balance + amt } := by
  simp [deposit, Brass.deposit, not_lt.mpr hamt]

theorem perform_of_negative {account : BrassPlus} (hbalance : 0 ≤ account.balance)
    {call : Call} (hneg : call.amount < 0) : (account.perform call).1 = account := by
  cases call with
  | deposit amt =>
      have hamt : amt < 0 := hneg
      simp [perform, deposit, Brass.deposit, hamt]
  | withdraw amt =>
      have hamt : amt < 0 := hneg
      have hle : amt ≤ account.balance := by linarith
      simp [perform, withdraw, Brass.withdraw, hle, hamt]

theorem perform_terms (account : BrassPlus) (call : Call) :
    (account.perform call).1.terms = account.terms := by
  cases call with
  | deposit amt => rfl
  | withdraw amt =>
      simp only [perform, withdraw]
      split
      · rfl
      · split
        · rfl
        · rfl

theorem withdraw_funds_of_nonneg {account : BrassPlus} {amt : ℚ} (hamt : 0 ≤ amt) :
    (account.withdraw amt).1.funds = account.funds.request account.terms (.withdraw amt) := by
  have hnot : ¬ amt < 0 := not_lt.mpr hamt
  by_cases hle : amt ≤ account.balance
  · simp [withdraw, Brass.withdraw, Funds.request, funds, hnot, hle]
  by_cases hlimit : amt ≤ account.balance + account.maxLoan - account.owesBank
  · have hadvance : 0 ≤ amt - account.balance := by linarith
    -- the advance raises the balance to the amount, so the base class lets it pass
    have hraised : account.balance + (amt - account.balance) = amt := by ring
    simp [withdraw, deposit_of_nonneg _ hadvance, Brass.withdraw, Funds.request, funds, terms,
      hnot, hle, hlimit, hraised]
  · simp [withdraw, Funds.request, funds, terms, hnot, hle, hlimit]

theorem perform_funds {account : BrassPlus} (hbalance : 0 ≤ account.balance) (call : Call) :
    (account.perform call).1.funds = account.funds.request account.terms call := by
  by_cases hneg : call.amount < 0
  · rw [perform_of_negative hbalance hneg, Funds.request_of_negative hneg]
  · cases call with
    | deposit amt =>
        have hnot : ¬ amt < 0 := hneg
        have hamt : 0 ≤ amt := not_lt.mp hnot
        simp [perform, deposit_of_nonneg account hamt, Funds.request, funds, hnot]
    | withdraw amt => exact withdraw_funds_of_nonneg (not_lt.mp hneg)

theorem perform_balance_nonneg {account : BrassPlus} (hbalance : 0 ≤ account.balance)
    (call : Call) : 0 ≤ (account.perform call).1.balance := by
  have hown : 0 ≤ account.funds.own := hbalance
  have hfunds := perform_funds hbalance call
  show 0 ≤ (account.perform call).1.funds.own
  rw [hfunds]
  exact Funds.request_own_nonneg hown call

theorem fundsHistory_eq (account : BrassPlus) (hbalance : 0 ≤ account.balance)
    (calls : List Call) :
    fundsHistory perform funds account calls =
      requestHistory account.terms account.funds calls := by
  induction calls generalizing account with
  | nil => rfl
  | cons call calls ih =>
      have hrest := ih (account.perform call).1 (perform_balance_nonneg hbalance call)
      rw [perform_terms, perform_funds hbalance] at hrest
      exact congrArg (account.funds :: ·) hrest

theorem ignoresNegatives {account : BrassPlus} (hbalance : 0 ≤ account.balance)
    (calls : List Call) : IgnoresNegatives perform account calls := by
  induction calls generalizing account with
  | nil => trivial
  | cons call calls ih =>
      exact ⟨perform_of_negative hbalance, ih (perform_balance_nonneg hbalance call)⟩

end Section7.BrassPlus

/-! ## Each call of `13_11` -/

def Call.WithdrawsNonneg : Call → Prop
  | .deposit _ => True
  | .withdraw amt => 0 ≤ amt

namespace Section11.BrassPlus

theorem deposit_of_nonneg (account : BrassPlus) {amt : ℚ} (hamt : 0 ≤ amt) :
    (account.deposit amt).1 = { account with balance := account.balance + amt } := by
  simp [deposit, AcctABC.deposit, not_lt.mpr hamt]

theorem deposit_of_negative (account : BrassPlus) {amt : ℚ} (hamt : amt < 0) :
    (account.deposit amt).1 = account := by
  simp [deposit, AcctABC.deposit, hamt]

theorem perform_terms (account : BrassPlus) (call : Call) :
    (account.perform call).1.terms = account.terms := by
  cases call with
  | deposit amt => rfl
  | withdraw amt =>
      simp only [perform, withdraw]
      split
      · rfl
      · split
        · rfl
        · rfl

theorem withdraw_funds_of_nonneg {account : BrassPlus} {amt : ℚ} (hamt : 0 ≤ amt) :
    (account.withdraw amt).1.funds = account.funds.request account.terms (.withdraw amt) := by
  have hnot : ¬ amt < 0 := not_lt.mpr hamt
  by_cases hle : amt ≤ account.balance
  · simp [withdraw, AcctABC.withdraw, Funds.request, funds, hnot, hle]
  by_cases hlimit : amt ≤ account.balance + account.maxLoan - account.owesBank
  · have hadvance : 0 ≤ amt - account.balance := by linarith
    simp [withdraw, deposit_of_nonneg _ hadvance, AcctABC.withdraw, Funds.request, funds, terms,
      hnot, hle, hlimit]
  · simp [withdraw, Funds.request, funds, terms, hnot, hle, hlimit]

theorem perform_funds {account : BrassPlus} {call : Call} (hcall : call.WithdrawsNonneg) :
    (account.perform call).1.funds = account.funds.request account.terms call := by
  cases call with
  | withdraw amt => exact withdraw_funds_of_nonneg hcall
  | deposit amt =>
      by_cases hneg : amt < 0
      · simp [perform, deposit_of_negative account hneg, Funds.request, hneg]
      · simp [perform, deposit_of_nonneg account (not_lt.mp hneg), Funds.request, funds, hneg]

theorem perform_balance_nonneg {account : BrassPlus} (hbalance : 0 ≤ account.balance)
    {call : Call} (hcall : call.WithdrawsNonneg) : 0 ≤ (account.perform call).1.balance := by
  have hown : 0 ≤ account.funds.own := hbalance
  show 0 ≤ (account.perform call).1.funds.own
  rw [perform_funds hcall]
  exact Funds.request_own_nonneg hown call

theorem fundsHistory_eq (account : BrassPlus) {calls : List Call}
    (hcalls : ∀ call ∈ calls, call.WithdrawsNonneg) :
    fundsHistory perform funds account calls =
      requestHistory account.terms account.funds calls := by
  induction calls generalizing account with
  | nil => rfl
  | cons call calls ih =>
      obtain ⟨hcall, hrest⟩ := List.forall_mem_cons.mp hcalls
      have hhistory := ih (account.perform call).1 hrest
      rw [perform_terms, perform_funds hcall] at hhistory
      exact congrArg (account.funds :: ·) hhistory

/-- A negative withdrawal raises the balance of an account that is not overdrawn. -/
theorem withdraw_balance_of_negative {account : BrassPlus} (hbalance : 0 ≤ account.balance)
    {amt : ℚ} (hamt : amt < 0) : account.balance < (account.withdraw amt).1.balance := by
  have hle : amt ≤ account.balance := by linarith
  have hafter : (account.withdraw amt).1.balance = account.balance - amt := by
    simp [withdraw, AcctABC.withdraw, hle]
  rw [hafter]
  linarith

theorem perform_of_negative_iff {account : BrassPlus} (hbalance : 0 ≤ account.balance)
    (call : Call) :
    (call.amount < 0 → (account.perform call).1 = account) ↔ call.WithdrawsNonneg := by
  cases call with
  | deposit amt =>
      exact ⟨fun _ => trivial, fun _ hneg => deposit_of_negative account hneg⟩
  | withdraw amt =>
      constructor
      · intro hkeeps
        by_contra hneg
        have hamt : amt < 0 := not_le.mp hneg
        have hraised := withdraw_balance_of_negative hbalance hamt
        have hsame : (account.withdraw amt).1 = account := hkeeps hamt
        rw [hsame] at hraised
        exact lt_irrefl _ hraised
      · intro hamt hneg
        exact (not_lt.mpr hamt hneg).elim

theorem ignoresNegatives_iff {account : BrassPlus} (hbalance : 0 ≤ account.balance)
    (calls : List Call) :
    IgnoresNegatives perform account calls ↔ ∀ call ∈ calls, call.WithdrawsNonneg := by
  induction calls generalizing account with
  | nil => simp [IgnoresNegatives]
  | cons call calls ih =>
      rw [IgnoresNegatives, perform_of_negative_iff hbalance, List.forall_mem_cons]
      constructor
      · rintro ⟨hcall, hrest⟩
        exact ⟨hcall, (ih (perform_balance_nonneg hbalance hcall)).mp hrest⟩
      · rintro ⟨hcall, hrest⟩
        exact ⟨hcall, (ih (perform_balance_nonneg hbalance hcall)).mpr hrest⟩

end Section11.BrassPlus

/-! ## The two hierarchies side by side -/

/-- The two accounts opened with the same figures show the same balances and debts, and
neither takes notice of a negative amount. -/
structure HierarchiesAgree (bal ml r : ℚ) (calls : List Call) : Prop where
  sameFunds :
    fundsHistory Section7.BrassPlus.perform Section7.BrassPlus.funds
        (Section7.BrassPlus.new bal ml r) calls =
      fundsHistory Section11.BrassPlus.perform Section11.BrassPlus.funds
        (Section11.BrassPlus.new bal ml r) calls
  ignored7 :
    IgnoresNegatives Section7.BrassPlus.perform (Section7.BrassPlus.new bal ml r) calls
  ignored11 :
    IgnoresNegatives Section11.BrassPlus.perform (Section11.BrassPlus.new bal ml r) calls

/-- The hierarchies agree on exactly the call sequences without a negative withdrawal. -/
theorem hierarchies_agree_iff {bal : ℚ} (hbal : 0 ≤ bal) (ml r : ℚ) (calls : List Call) :
    HierarchiesAgree bal ml r calls ↔ ∀ call ∈ calls, call.WithdrawsNonneg := by
  have hbalance7 : 0 ≤ (Section7.BrassPlus.new bal ml r).balance := hbal
  have hbalance11 : 0 ≤ (Section11.BrassPlus.new bal ml r).balance := hbal
  constructor
  · intro hagree
    exact (Section11.BrassPlus.ignoresNegatives_iff hbalance11 calls).mp hagree.ignored11
  · intro hcalls
    have hold := Section7.BrassPlus.fundsHistory_eq (Section7.BrassPlus.new bal ml r) hbal calls
    have hnew := Section11.BrassPlus.fundsHistory_eq (Section11.BrassPlus.new bal ml r) hcalls
    exact {
      sameFunds := hold.trans hnew.symm
      ignored7 := Section7.BrassPlus.ignoresNegatives hbalance7 calls
      ignored11 := (Section11.BrassPlus.ignoresNegatives_iff hbalance11 calls).mpr hcalls }

/-- Own funds, overdraft and paying in, as the test programs of both chapters do it. -/
theorem hierarchies_agree_overdraft :
    HierarchiesAgree 3000 500 (1 / 10) [.withdraw 3400, .deposit 1000, .withdraw 800] :=
  (hierarchies_agree_iff (by norm_num) 500 (1 / 10) _).mpr
    (by simp only [List.mem_cons, List.not_mem_nil, or_false, forall_eq_or_imp, forall_eq,
          Call.WithdrawsNonneg]
        norm_num)

/-- Withdrawing -50 from an empty account leaves 50 on the one of `13_11`. -/
theorem not_agree_negative_withdrawal :
    (Section11.BrassPlus.new 0 0 0).withdraw (-50) =
        ({ balance := 50, maxLoan := 0, rate := 0, owesBank := 0 }, []) ∧
      ((Section7.BrassPlus.new 0 0 0).withdraw (-50)).1 = Section7.BrassPlus.new 0 0 0 ∧
      ¬ HierarchiesAgree 0 0 0 [.withdraw (-50)] := by
  have hraised : (Section11.BrassPlus.new 0 0 0).withdraw (-50) =
      ({ balance := 50, maxLoan := 0, rate := 0, owesBank := 0 }, []) := by
    simp [Section11.BrassPlus.withdraw, Section11.BrassPlus.new, Section11.AcctABC.withdraw]
  have hnonneg : 0 ≤ (Section7.BrassPlus.new 0 0 0).balance := le_rfl
  have hneg : (Call.withdraw (-50)).amount < 0 := by
    norm_num [Call.amount]
  refine ⟨hraised, Section7.BrassPlus.perform_of_negative hnonneg hneg, ?_⟩
  intro hagree
  have hkept : ((Section11.BrassPlus.new 0 0 0).withdraw (-50)).1 = _ :=
    hagree.ignored11.1 hneg
  rw [hraised] at hkept
  have hbalance : (50 : ℚ) = 0 := congrArg (fun account => account.balance) hkept
  norm_num at hbalance

end CppProj.BrassAccounts
