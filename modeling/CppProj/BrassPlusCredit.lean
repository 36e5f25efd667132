import CppProj.BrassAccounts
import Mathlib.Tactic.FieldSimp

/-!
# The credit of a `BrassPlus` of `13_7`

The code compares a withdrawal with what is left of the loan and nowhere bounds
the debt with its interest; the bound follows over all calls from that test.
-/

namespace CppProj.BrassPlusCredit

open CppProj.BrassAccounts CppProj.BrassAccounts.Section7

/-! ## Funds -/

/-- No overdrawn balance, and a debt of at most the whole loan with its interest. -/
structure WithinCredit (terms : Terms) (funds : Funds) : Prop where
  own_nonneg : 0 ≤ funds.own
  owed_nonneg : 0 ≤ funds.owed
  owed_le : funds.owed ≤ terms.maxLoan * (1 + terms.rate)

/-- The balance less the principal of the debt. -/
def worth (terms : Terms) (funds : Funds) : ℚ := funds.own - funds.owed / (1 + terms.rate)

theorem WithinCredit.advance {terms : Terms} {funds : Funds} (hwithin : WithinCredit terms funds)
    (hrate : 0 ≤ terms.rate) {amt : ℚ} (hmore : funds.own < amt)
    (hlimit : amt ≤ funds.own + terms.maxLoan - funds.owed) :
    WithinCredit terms ⟨0, funds.owed + (amt - funds.own) * (1 + terms.rate)⟩ where
  own_nonneg := le_rfl
  owed_nonneg := by
    have hcharge : 0 ≤ (amt - funds.own) * (1 + terms.rate) :=
      mul_nonneg (by linarith) (by linarith)
    have howed := hwithin.owed_nonneg
    simp only
    linarith
  owed_le := by
    have hadvance : amt - funds.own ≤ terms.maxLoan - funds.owed := by linarith
    have hcharge : (amt - funds.own) * (1 + terms.rate) ≤
        (terms.maxLoan - funds.owed) * (1 + terms.rate) :=
      mul_le_mul_of_nonneg_right hadvance (by linarith)
    -- interest on the old debt is what the limit test leaves in hand
    have hinterest : 0 ≤ funds.owed * terms.rate := mul_nonneg hwithin.owed_nonneg hrate
    calc
      funds.owed + (amt - funds.own) * (1 + terms.rate) ≤
          funds.owed + (terms.maxLoan - funds.owed) * (1 + terms.rate) := by
        linarith
      _ = terms.maxLoan * (1 + terms.rate) - funds.owed * terms.rate := by
        ring
      _ ≤ terms.maxLoan * (1 + terms.rate) := by
        linarith

theorem owed_deposit (terms : Terms) (funds : Funds) (amt : ℚ) :
    (funds.request terms (.deposit amt)).owed = funds.owed := by
  simp only [Funds.request]
  split
  · rfl
  · rfl

theorem WithinCredit.request {terms : Terms} {funds : Funds} (hwithin : WithinCredit terms funds)
    (hrate : 0 ≤ terms.rate) (call : Call) : WithinCredit terms (funds.request terms call) := by
  have hown : 0 ≤ (funds.request terms call).own :=
    Funds.request_own_nonneg hwithin.own_nonneg call
  cases call with
  | deposit amt =>
      refine ⟨hown, ?_, ?_⟩
      · rw [owed_deposit]
        exact hwithin.owed_nonneg
      · rw [owed_deposit]
        exact hwithin.owed_le
  | withdraw amt =>
      by_cases hneg : amt < 0
      · have hignored : funds.request terms (.withdraw amt) = funds :=
          Funds.request_of_negative hneg
        rw [hignored]
        exact hwithin
      by_cases hle : amt ≤ funds.own
      · refine ⟨hown, ?_, ?_⟩
        · simpa [Funds.request, hneg, hle] using hwithin.owed_nonneg
        · simpa [Funds.request, hneg, hle] using hwithin.owed_le
      by_cases hlimit : amt ≤ funds.own + terms.maxLoan - funds.owed
      · have hadvanced := hwithin.advance hrate (not_le.mp hle) hlimit
        simpa [Funds.request, hneg, hle, hlimit] using hadvanced
      · simpa [Funds.request, hneg, hle, hlimit] using hwithin

theorem worth_request {terms : Terms} {funds : Funds} (hrate : 0 ≤ terms.rate)
    {amt : ℚ} (hamt : 0 ≤ amt)
    (hgranted : amt ≤ funds.own ∨ amt ≤ funds.own + terms.maxLoan - funds.owed) :
    worth terms (funds.request terms (.withdraw amt)) = worth terms funds - amt := by
  have hnot : ¬ amt < 0 := not_lt.mpr hamt
  by_cases hle : amt ≤ funds.own
  · simp only [Funds.request, if_neg hnot, if_pos hle, worth]
    ring
  · have hlimit := hgranted.resolve_left hle
    have hpositive : 1 + terms.rate ≠ 0 := by linarith
    simp only [Funds.request, if_neg hnot, if_neg hle, if_pos hlimit, worth]
    field_simp
    ring

/-! ## Accounts -/

/-- The account after the calls. -/
def afterCalls (account : BrassPlus) (calls : List Call) : BrassPlus :=
  calls.foldl (fun current call => (current.perform call).1) account

/-- What the member functions print when they leave the account as it is. -/
def cancellations : List Printed :=
  [.text "deposit is cancelled.\n", .text "withdraw canceled.\n", .text "Withdraw canceled.\n",
    .text "Credit linit exceed. Transaction cancelled.\n"]

/-- Nothing that was printed tells of a cancellation. -/
def Succeeds (result : BrassPlus × List Printed) : Prop :=
  ∀ line ∈ result.2, line ∉ cancellations

theorem granted_of_succeeds {account : BrassPlus} {amt : ℚ}
    (hsucceeds : Succeeds (account.withdraw amt)) :
    amt ≤ account.balance ∨ amt ≤ account.balance + account.maxLoan - account.owesBank := by
  by_contra hrefused
  obtain ⟨hmore, hbeyond⟩ := not_or.mp hrefused
  simp [BrassPlus.withdraw, hmore, hbeyond, Succeeds, cancellations] at hsucceeds

theorem succeeds_of_granted {account : BrassPlus} {amt : ℚ} (hamt : 0 ≤ amt)
    (hgranted : amt ≤ account.balance ∨
      amt ≤ account.balance + account.maxLoan - account.owesBank) :
    Succeeds (account.withdraw amt) := by
  have hnot : ¬ amt < 0 := not_lt.mpr hamt
  by_cases hle : amt ≤ account.balance
  · simp [BrassPlus.withdraw, Brass.withdraw, hle, hnot, Succeeds]
  · have hlimit := hgranted.resolve_left hle
    have hadvance : ¬ amt - account.balance < 0 := by linarith
    have hraised : account.balance + (amt - account.balance) = amt := by ring
    simp [BrassPlus.withdraw, BrassPlus.deposit, Brass.deposit, Brass.withdraw, hle, hlimit, hnot,
      hadvance, hraised, Succeeds, cancellations]

theorem afterCalls_within {terms : Terms} (hrate : 0 ≤ terms.rate) (calls : List Call) :
    ∀ account : BrassPlus, account.terms = terms → WithinCredit terms account.funds →
      (afterCalls account calls).terms = terms ∧
        WithinCredit terms (afterCalls account calls).funds := by
  induction calls with
  | nil => exact fun account hterms hwithin => ⟨hterms, hwithin⟩
  | cons call calls ih =>
      intro account hterms hwithin
      have hsame : (account.perform call).1.terms = terms :=
        (BrassPlus.perform_terms account call).trans hterms
      have hnext : WithinCredit terms (account.perform call).1.funds := by
        rw [BrassPlus.perform_funds hwithin.own_nonneg call, hterms]
        exact hwithin.request hrate call
      exact ih (account.perform call).1 hsame hnext

/-- An account in good credit, from which a withdrawal takes what it says. -/
structure GoodCredit (account : BrassPlus) : Prop where
  balance_nonneg : 0 ≤ account.balance
  owesBank_nonneg : 0 ≤ account.owesBank
  owesBank_le : account.owesBank ≤ account.maxLoan * (1 + account.rate)
  succeeds_iff : ∀ amt, 0 ≤ amt → (Succeeds (account.withdraw amt) ↔
    amt ≤ account.balance ∨ amt ≤ account.balance + account.maxLoan - account.owesBank)
  withdrawn : ∀ amt, 0 ≤ amt → Succeeds (account.withdraw amt) →
    (account.withdraw amt).1.balance - (account.withdraw amt).1.owesBank / (1 + account.rate) =
      account.balance - account.owesBank / (1 + account.rate) - amt

theorem goodCredit_of_within {account : BrassPlus} (hrate : 0 ≤ account.rate)
    (hwithin : WithinCredit account.terms account.funds) : GoodCredit account where
  balance_nonneg := hwithin.own_nonneg
  owesBank_nonneg := hwithin.owed_nonneg
  owesBank_le := hwithin.owed_le
  succeeds_iff _ hamt := ⟨granted_of_succeeds, succeeds_of_granted hamt⟩
  withdrawn amt hamt hsucceeds := by
    have hworth : worth account.terms (account.funds.request account.terms (.withdraw amt)) =
        worth account.terms account.funds - amt :=
      worth_request hrate hamt (granted_of_succeeds hsucceeds)
    rw [← BrassPlus.withdraw_funds_of_nonneg hamt] at hworth
    exact hworth

/-- Deposits and withdrawals of any amounts keep an account in good credit. -/
theorem credit_invariant {bal ml r : ℚ} (hbal : 0 ≤ bal) (hml : 0 ≤ ml) (hr : 0 ≤ r)
    (calls : List Call) : GoodCredit (afterCalls (BrassPlus.new bal ml r) calls) := by
  have hopened : WithinCredit ⟨ml, r⟩ (BrassPlus.new bal ml r).funds :=
    ⟨hbal, le_rfl, mul_nonneg hml (by linarith)⟩
  obtain ⟨hterms, hwithin⟩ :=
    afterCalls_within hr calls (BrassPlus.new bal ml r) rfl hopened
  rw [← hterms] at hwithin
  have hrate : 0 ≤ (afterCalls (BrassPlus.new bal ml r) calls).terms.rate := by
    rw [hterms]
    exact hr
  exact goodCredit_of_within hrate hwithin

theorem credit_invariant_overdraft :
    GoodCredit (afterCalls (BrassPlus.new 3000 500 (1 / 10))
      [.withdraw 3400, .deposit (-5), .withdraw 80]) :=
  credit_invariant (by norm_num) (by norm_num) (by norm_num) _

end CppProj.BrassPlusCredit
