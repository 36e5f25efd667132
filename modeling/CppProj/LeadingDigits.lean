import Mathlib.Data.Nat.Digits.Lemmas
import Mathlib.Tactic.Common

/-!
# The first digits of a number

Two copies of `left(num, ct)` count the decimal digits of `num` in one loop and
divide the unwanted ones away in a second, with `ct` reused as its counter.
They differ in one comparison.  Numbers are `unsigned long` of 64 bits,
counters `unsigned` of 32 bits.
-/

namespace CppProj.LeadingDigits

/-! ## The two loops -/

theorem toNat_div_ten_lt {n : UInt64} (hmore : n / 10 ≠ 0) : (n / 10).toNat < n.toNat := by
  have hdiv : (n / 10).toNat = n.toNat / 10 := UInt64.toNat_div n 10
  have hpositive : (n / 10).toNat ≠ 0 := by
    intro hzero
    exact hmore (UInt64.toNat_inj.mp hzero)
  omega

theorem toNat_pred {ct : UInt32} (hct : ct ≠ 0) : (ct - 1).toNat = ct.toNat - 1 := by
  have hpositive : ct.toNat ≠ 0 := by
    intro hzero
    exact hct (UInt32.toNat_inj.mp hzero)
  have hone : (1 : UInt32) ≤ ct := by
    rw [UInt32.le_iff_toNat_le]
    show 1 ≤ ct.toNat
    omega
  exact UInt32.toNat_sub_of_le ct 1 hone

/-- `while (n /= 10) digits++;` -/
def countDigits (n : UInt64) (digits : UInt32) : UInt32 :=
  if n / 10 ≠ 0 then countDigits (n / 10) (digits + 1) else digits
termination_by n.toNat
decreasing_by exact toNat_div_ten_lt ‹_›

/-- `while (ct--) num /= 10;` -/
def removeDigits (num : UInt64) (ct : UInt32) : UInt64 :=
  if ct ≠ 0 then removeDigits (num / 10) (ct - 1) else num
termination_by ct.toNat
decreasing_by
  rename_i hct
  have hpred := toNat_pred hct
  have hpositive : ct.toNat ≠ 0 := fun hzero => hct (UInt32.toNat_inj.mp hzero)
  omega

/-- `left` of `primer_plus/chap8/8_3`. -/
def Chapter8.left (num : UInt64) (ct : UInt32) : UInt64 :=
  if ct = 0 ∨ num = 0 then 0
  else
    let digits := countDigits num 1
    if digits > ct then removeDigits num (digits - ct) else num

/-- `left` of `other/testcode`. -/
def Testcode.left (num : UInt64) (ct : UInt32) : UInt64 :=
  if ct = 0 ∨ num = 0 then 0
  else
    let digits := countDigits num 1
    if digits < ct then removeDigits num (digits - ct) else num

/-! ## What the loops compute -/

theorem countDigits_toNat (n : UInt64) (digits : UInt32)
    (hfits : digits.toNat + Nat.log 10 n.toNat < 2 ^ 32) :
    (countDigits n digits).toNat = digits.toNat + Nat.log 10 n.toNat := by
  induction n, digits using countDigits.induct with
  | case1 n digits hmore ih =>
      have hdiv : (n / 10).toNat = n.toNat / 10 := UInt64.toNat_div n 10
      have hlarge : 10 ≤ n.toNat := by
        have hsmaller := toNat_div_ten_lt hmore
        by_contra hsmall
        have hzero : (n / 10).toNat = 0 := by omega
        exact hmore (UInt64.toNat_inj.mp hzero)
      have hlog : Nat.log 10 n.toNat = Nat.log 10 (n.toNat / 10) + 1 :=
        Nat.log_of_one_lt_of_le (by norm_num) hlarge
      have hnext : (digits + 1).toNat = digits.toNat + 1 := by
        rw [UInt32.toNat_add]
        exact Nat.mod_eq_of_lt (by show digits.toNat + 1 < 2 ^ 32; omega)
      rw [countDigits, if_pos hmore, ih (by rw [hnext, hdiv]; omega), hnext, hdiv]
      omega
  | case2 n digits hlast =>
      have hdiv : (n / 10).toNat = n.toNat / 10 := UInt64.toNat_div n 10
      have hzero : n / 10 = 0 := not_not.mp hlast
      have hsmall : n.toNat < 10 := by
        have hquotient : (n / 10).toNat = 0 := congrArg UInt64.toNat hzero
        omega
      rw [countDigits, if_neg hlast, Nat.log_of_lt hsmall, Nat.add_zero]

theorem removeDigits_toNat (num : UInt64) (ct : UInt32) :
    (removeDigits num ct).toNat = num.toNat / 10 ^ ct.toNat := by
  induction num, ct using removeDigits.induct with
  | case1 num ct hct ih =>
      have hdiv : (num / 10).toNat = num.toNat / 10 := UInt64.toNat_div num 10
      have hpred := toNat_pred hct
      have hpositive : ct.toNat ≠ 0 := fun hzero => hct (UInt32.toNat_inj.mp hzero)
      have hsucc : ct.toNat = ct.toNat - 1 + 1 := by omega
      rw [removeDigits, if_pos hct, ih, hpred, hdiv, Nat.div_div_eq_div_mul, ← Nat.pow_succ',
        Nat.succ_eq_add_one, ← hsucc]
  | case2 num ct hzero =>
      have hct : ct.toNat = 0 := congrArg UInt32.toNat (not_not.mp hzero)
      rw [removeDigits, if_neg hzero, hct, Nat.pow_zero, Nat.div_one]

/-- The decimal digits of a number; zero has none. -/
def digitCount (num : UInt64) : ℕ := (Nat.digits 10 num.toNat).length

theorem toNat_ne_zero {num : UInt64} (hnum : num ≠ 0) : num.toNat ≠ 0 :=
  fun hzero => hnum (UInt64.toNat_inj.mp hzero)

theorem digitCount_eq_log {num : UInt64} (hnum : num ≠ 0) :
    digitCount num = Nat.log 10 num.toNat + 1 :=
  Nat.length_digits 10 num.toNat (by norm_num) (toNat_ne_zero hnum)

theorem digitCount_le_twenty (num : UInt64) : digitCount num ≤ 20 := by
  have hbound : num.toNat < 10 ^ 20 := lt_trans num.toNat_lt (by norm_num)
  exact (Nat.digits_length_le_iff (by norm_num) num.toNat).mpr hbound

/-- Neither counter wraps: `digits` ends as the number of digits. -/
theorem digits_toNat {num : UInt64} (hnum : num ≠ 0) :
    (countDigits num 1).toNat = digitCount num := by
  have hlog := digitCount_eq_log hnum
  have htwenty := digitCount_le_twenty num
  have hone : (1 : UInt32).toNat = 1 := rfl
  rw [countDigits_toNat num 1 (by omega), hlog, hone]
  omega

theorem digitCount_pos {num : UInt64} (hnum : num ≠ 0) : 0 < digitCount num := by
  rw [digitCount_eq_log hnum]
  omega

/-! ## The first digits -/

/-- `r` is the number formed by the first `ct` decimal digits of `num`. -/
def FirstDigits (num ct r : ℕ) : Prop :=
  let dropped := (Nat.digits 10 num).length - ct
  10 ^ (ct - 1) ≤ r ∧ r < 10 ^ ct ∧ r * 10 ^ dropped ≤ num ∧ num < (r + 1) * 10 ^ dropped

theorem firstDigits_iff {num ct : ℕ} (hct : 0 < ct) (hlonger : ct < (Nat.digits 10 num).length)
    (r : ℕ) :
    FirstDigits num ct r ↔ r = num / 10 ^ ((Nat.digits 10 num).length - ct) := by
  have hpositive : 0 < 10 ^ ((Nat.digits 10 num).length - ct) := Nat.pow_pos (by norm_num)
  constructor
  · rintro ⟨_, _, hlower, hupper⟩
    exact (Nat.div_eq_of_lt_le hlower hupper).symm
  · rintro rfl
    have hupper : num < 10 ^ ct * 10 ^ ((Nat.digits 10 num).length - ct) := by
      rw [← Nat.pow_add]
      exact (Nat.digits_length_le_iff (by norm_num) num).mp (by omega)
    have hlower : 10 ^ (ct - 1) * 10 ^ ((Nat.digits 10 num).length - ct) ≤ num := by
      rw [← Nat.pow_add]
      exact (Nat.lt_digits_length_iff (by norm_num) num).mp (by omega)
    refine ⟨?_, ?_, ?_, ?_⟩
    · exact (Nat.le_div_iff_mul_le hpositive).mpr hlower
    · exact (Nat.div_lt_iff_lt_mul hpositive).mpr hupper
    · exact Nat.div_mul_le_self num _
    · exact (Nat.div_lt_iff_lt_mul hpositive).mp (Nat.lt_succ_self _)

namespace Chapter8

theorem left_of_zero {num : UInt64} {ct : UInt32} (hzero : ct = 0 ∨ num = 0) :
    left num ct = 0 :=
  if_pos hzero

theorem left_of_le {num : UInt64} {ct : UInt32} (hshort : digitCount num ≤ ct.toNat) :
    left num ct = num := by
  by_cases hnum : num = 0
  · rw [left_of_zero (Or.inr hnum), hnum]
  · have hcount := digits_toNat hnum
    have hpositive := digitCount_pos hnum
    have hct : ct ≠ 0 := by
      rintro rfl
      exact absurd hshort (Nat.not_le.mpr hpositive)
    have hnot : ¬ countDigits num 1 > ct := by
      rw [gt_iff_lt, UInt32.lt_iff_toNat_lt, hcount]
      exact Nat.not_lt.mpr hshort
    rw [left, if_neg (by simp [hct, hnum])]
    exact if_neg hnot

/-- The subtraction `digits - ct` of the branch that divides does not wrap. -/
theorem digits_sub_toNat {num : UInt64} {ct : UInt32} (hnum : num ≠ 0)
    (hmore : countDigits num 1 > ct) :
    (countDigits num 1 - ct).toNat = digitCount num - ct.toNat := by
  have hle : ct ≤ countDigits num 1 := UInt32.le_of_lt hmore
  rw [UInt32.toNat_sub_of_le _ _ hle, digits_toNat hnum]

theorem left_of_lt {num : UInt64} {ct : UInt32} (hct : ct ≠ 0)
    (hlong : ct.toNat < digitCount num) :
    (left num ct).toNat = num.toNat / 10 ^ (digitCount num - ct.toNat) := by
  have hnum : num ≠ 0 := by
    rintro rfl
    exact absurd hlong (Nat.not_lt_zero _)
  have hmore : countDigits num 1 > ct := by
    rw [gt_iff_lt, UInt32.lt_iff_toNat_lt, digits_toNat hnum]
    exact hlong
  have hbranch : left num ct = removeDigits num (countDigits num 1 - ct) := by
    rw [left, if_neg (by simp [hct, hnum])]
    exact if_pos hmore
  rw [hbranch, removeDigits_toNat, digits_sub_toNat hnum hmore]

/-- What `left` returns, and that its unsigned arithmetic is exact on the way. -/
structure ReturnsFirstDigits (num : UInt64) (ct : UInt32) : Prop where
  nothing : ct = 0 → left num ct = 0
  whole : digitCount num ≤ ct.toNat → left num ct = num
  first : ct ≠ 0 → ct.toNat < digitCount num →
    ∀ r, FirstDigits num.toNat ct.toNat r ↔ r = (left num ct).toNat
  counted : num ≠ 0 → (countDigits num 1).toNat = digitCount num
  subtracted : num ≠ 0 → countDigits num 1 > ct →
    (countDigits num 1 - ct).toNat = digitCount num - ct.toNat

theorem left_returnsFirstDigits (num : UInt64) (ct : UInt32) : ReturnsFirstDigits num ct where
  nothing hct := left_of_zero (Or.inl hct)
  whole := left_of_le
  first hct hlong r := by
    have hpositive : 0 < ct.toNat := Nat.pos_of_ne_zero fun hzero =>
      hct (UInt32.toNat_inj.mp hzero)
    rw [left_of_lt hct hlong]
    exact firstDigits_iff hpositive hlong r
  counted := digits_toNat
  subtracted := digits_sub_toNat

end Chapter8

/-! ## The other copy -/

namespace Testcode

theorem left_of_zero {num : UInt64} {ct : UInt32} (hzero : ct = 0 ∨ num = 0) :
    left num ct = 0 :=
  if_pos hzero

theorem left_of_le {num : UInt64} {ct : UInt32} (hct : ct ≠ 0) (hlong : ct.toNat ≤ digitCount num) :
    left num ct = num := by
  by_cases hnum : num = 0
  · rw [left_of_zero (Or.inr hnum), hnum]
  · have hnot : ¬ countDigits num 1 < ct := by
      rw [UInt32.lt_iff_toNat_lt, digits_toNat hnum]
      exact Nat.not_lt.mpr hlong
    rw [left, if_neg (by simp [hct, hnum])]
    exact if_neg hnot

/-- The difference has wrapped to a count above the number of digits, so nothing is left. -/
theorem left_of_lt {num : UInt64} {ct : UInt32} (hshort : digitCount num < ct.toNat) :
    left num ct = 0 := by
  by_cases hzero : ct = 0 ∨ num = 0
  · exact left_of_zero hzero
  · obtain ⟨hct, hnum⟩ := not_or.mp hzero
    have hcount := digits_toNat hnum
    have hless : countDigits num 1 < ct := by
      rw [UInt32.lt_iff_toNat_lt, hcount]
      exact hshort
    have hwrapped : (countDigits num 1 - ct).toNat = 2 ^ 32 - ct.toNat + digitCount num := by
      have hbound := ct.toNat_lt
      rw [UInt32.toNat_sub, hcount]
      exact Nat.mod_eq_of_lt (by omega)
    have hsmall : num.toNat < 10 ^ (2 ^ 32 - ct.toNat + digitCount num) := by
      exact (Nat.digits_length_le_iff (by norm_num) num.toNat).mp (Nat.le_add_left _ _)
    have hbranch : left num ct = removeDigits num (countDigits num 1 - ct) := by
      rw [left, if_neg hzero]
      exact if_pos hless
    apply UInt64.toNat_inj.mp
    rw [hbranch, removeDigits_toNat, hwrapped, Nat.div_eq_of_lt hsmall]
    rfl

end Testcode

/-- The copies agree on exactly the numbers with `ct` digits, and where both return at once. -/
theorem copies_agree_iff (num : UInt64) (ct : UInt32) :
    Testcode.left num ct = Chapter8.left num ct ↔
      ct = 0 ∨ num = 0 ∨ digitCount num = ct.toNat := by
  by_cases hzero : ct = 0 ∨ num = 0
  · rw [Testcode.left_of_zero hzero, Chapter8.left_of_zero hzero]
    simp only [true_iff]
    tauto
  · obtain ⟨hct, hnum⟩ := not_or.mp hzero
    simp only [hct, hnum, false_or]
    rcases Nat.lt_trichotomy (digitCount num) ct.toNat with hshort | hequal | hlong
    · rw [Testcode.left_of_lt hshort, Chapter8.left_of_le (le_of_lt hshort)]
      exact iff_of_false (Ne.symm hnum) (Nat.ne_of_lt hshort)
    · rw [Testcode.left_of_le hct (le_of_eq hequal.symm), Chapter8.left_of_le (le_of_eq hequal)]
      exact iff_of_true rfl hequal
    · have hless : num.toNat / 10 ^ (digitCount num - ct.toNat) < num.toNat :=
        Nat.div_lt_self (Nat.pos_of_ne_zero (toNat_ne_zero hnum))
          (Nat.one_lt_pow (by omega) (by norm_num))
      rw [← Chapter8.left_of_lt hct hlong] at hless
      rw [Testcode.left_of_le hct (le_of_lt hlong)]
      refine iff_of_false ?_ (Nat.ne_of_gt hlong)
      intro hsame
      rw [← hsame] at hless
      exact Nat.lt_irrefl _ hless

/-- The first digit of 12 is 1; the test program's copy returns 12. -/
theorem copies_differ_twelve :
    Testcode.left 12 1 = 12 ∧ Chapter8.left 12 1 = 1 ∧
      ¬ ∀ num ct, Testcode.left num ct = Chapter8.left num ct := by
  have hwhole : Testcode.left 12 1 = 12 := by
    simp [Testcode.left, countDigits]
  have hfirst : Chapter8.left 12 1 = 1 := by
    simp [Chapter8.left, countDigits, removeDigits]
  refine ⟨hwhole, hfirst, ?_⟩
  intro hagree
  have hsame := hagree 12 1
  rw [hwhole, hfirst] at hsame
  exact absurd hsame (by decide)

end CppProj.LeadingDigits
