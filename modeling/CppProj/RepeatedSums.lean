import Mathlib.Algebra.Group.Submonoid.BigOperators
import Mathlib.Algebra.Group.Submonoid.Membership

/-!
# Sums with repetition

The sums of elements of a set, each taken as often as one likes, are the
additive submonoid generated by the set.  A new generator adds the sums that
are one generator more than another sum, which is how such sums are tabulated
generator by generator.  The same recursion gives the numbers of terms that a sum can be
made of.
-/

universe u

namespace RepeatedSums

variable {M : Type u} [AddCommMonoid M]

theorem mem_closure_insert_iff {generator amount : M} {generators : Set M} :
    amount ∈ AddSubmonoid.closure (insert generator generators) ↔
      amount ∈ AddSubmonoid.closure generators ∨
        ∃ rest ∈ AddSubmonoid.closure (insert generator generators),
          generator + rest = amount := by
  have hgenerator : generator ∈ AddSubmonoid.closure (insert generator generators) :=
    AddSubmonoid.subset_closure (Set.mem_insert generator generators)
  have hmono : AddSubmonoid.closure generators ≤
      AddSubmonoid.closure (insert generator generators) :=
    AddSubmonoid.closure_mono (Set.subset_insert generator generators)
  constructor
  · intro hmem
    rw [Set.insert_eq, AddSubmonoid.closure_union, AddSubmonoid.mem_sup] at hmem
    obtain ⟨multiple, hmultiple, other, hother, rfl⟩ := hmem
    obtain ⟨times, rfl⟩ := AddSubmonoid.mem_closure_singleton.mp hmultiple
    cases times with
    | zero => exact Or.inl (by simpa using hother)
    | succ times =>
        refine Or.inr ⟨times • generator + other, ?_, ?_⟩
        · exact add_mem (nsmul_mem hgenerator times) (hmono hother)
        · rw [succ_nsmul, ← add_assoc, add_comm generator]
  · intro hcases
    rcases hcases with hold | ⟨rest, hrest, rfl⟩
    · exact hmono hold
    · exact add_mem hgenerator hrest

theorem mem_closure_empty_iff {amount : M} :
    amount ∈ AddSubmonoid.closure (∅ : Set M) ↔ amount = 0 := by
  rw [AddSubmonoid.closure_empty, AddSubmonoid.mem_bot]

/-- The amounts in the natural numbers that the new generator reaches are found one
generator below. -/
theorem mem_closure_insert_nat_iff {generator amount : ℕ} {generators : Set ℕ} :
    amount ∈ AddSubmonoid.closure (insert generator generators) ↔
      amount ∈ AddSubmonoid.closure generators ∨
        generator ≤ amount ∧
          amount - generator ∈ AddSubmonoid.closure (insert generator generators) := by
  rw [mem_closure_insert_iff]
  apply or_congr_right
  constructor
  · rintro ⟨rest, hrest, rfl⟩
    exact ⟨Nat.le_add_right generator rest, by rwa [Nat.add_sub_cancel_left]⟩
  · rintro ⟨hle, hrest⟩
    exact ⟨amount - generator, hrest, Nat.add_sub_cancel' hle⟩

/-! ## Numbers of terms -/

/-- The numbers of terms with which an amount is a sum of generators. -/
def counts (generators : Set M) (amount : M) : Set ℕ :=
  {count | ∃ terms : Multiset M, (∀ term ∈ terms, term ∈ generators) ∧
    terms.card = count ∧ terms.sum = amount}

theorem mem_counts_empty_iff {amount : M} {count : ℕ} :
    count ∈ counts ∅ amount ↔ count = 0 ∧ amount = 0 := by
  constructor
  · rintro ⟨terms, hterms, rfl, rfl⟩
    have hnone := Multiset.eq_zero_of_forall_notMem hterms
    subst hnone
    exact ⟨Multiset.card_zero, Multiset.sum_zero⟩
  · rintro ⟨rfl, rfl⟩
    exact ⟨0, fun _ hterm => absurd hterm (Multiset.notMem_zero _), rfl, rfl⟩

theorem counts_nonempty_iff {generators : Set M} {amount : M} :
    (counts generators amount).Nonempty ↔ amount ∈ AddSubmonoid.closure generators := by
  constructor
  · rintro ⟨count, terms, hterms, -, rfl⟩
    exact multiset_sum_mem _ fun term hterm =>
      AddSubmonoid.subset_closure (hterms term hterm)
  · intro hmem
    obtain ⟨terms, hterms, hsum⟩ := AddSubmonoid.exists_multiset_of_mem_closure hmem
    exact ⟨terms.card, terms, hterms, rfl, hsum⟩

/-- Either the new generator is not used, or there is a sum with one term less. -/
theorem mem_counts_insert_iff {generator amount : M} {generators : Set M} {count : ℕ} :
    count ∈ counts (insert generator generators) amount ↔
      count ∈ counts generators amount ∨
        ∃ rest fewer, generator + rest = amount ∧ fewer + 1 = count ∧
          fewer ∈ counts (insert generator generators) rest := by
  constructor
  · rintro ⟨terms, hterms, rfl, rfl⟩
    by_cases hused : generator ∈ terms
    · obtain ⟨others, rfl⟩ := Multiset.exists_cons_of_mem hused
      refine Or.inr ⟨others.sum, others.card, (Multiset.sum_cons ..).symm,
        (Multiset.card_cons ..).symm, others, ?_, rfl, rfl⟩
      exact fun term hterm => hterms term (Multiset.mem_cons_of_mem hterm)
    · refine Or.inl ⟨terms, ?_, rfl, rfl⟩
      intro term hterm
      refine (hterms term hterm).resolve_left ?_
      rintro rfl
      exact hused hterm
  · rintro (⟨terms, hterms, hcard, hsum⟩ | ⟨_, _, rfl, rfl, terms, hterms, rfl, rfl⟩)
    · exact ⟨terms, fun term hterm => Or.inr (hterms term hterm), hcard, hsum⟩
    · refine ⟨generator ::ₘ terms, ?_, Multiset.card_cons .., Multiset.sum_cons ..⟩
      intro term hterm
      rcases Multiset.mem_cons.mp hterm with rfl | hmem
      · exact Or.inl rfl
      · exact hterms term hmem

section NaturalNumbers

variable {generator amount : ℕ} {generators : Set ℕ}

theorem counts_insert_of_lt (hlt : amount < generator) :
    counts (insert generator generators) amount = counts generators amount := by
  ext count
  rw [mem_counts_insert_iff]
  refine or_iff_left ?_
  rintro ⟨rest, fewer, hsum, -⟩
  omega

theorem counts_insert_of_le (hle : generator ≤ amount) :
    counts (insert generator generators) amount =
      counts generators amount ∪
        (· + 1) '' counts (insert generator generators) (amount - generator) := by
  ext count
  rw [mem_counts_insert_iff, Set.mem_union, Set.mem_image]
  refine or_congr_right ?_
  constructor
  · rintro ⟨rest, fewer, hsum, rfl, hfewer⟩
    obtain rfl : rest = amount - generator := by omega
    exact ⟨fewer, hfewer, rfl⟩
  · rintro ⟨fewer, hfewer, rfl⟩
    exact ⟨amount - generator, fewer, by omega, rfl, hfewer⟩

/-- A sum of positive terms has not more terms than its amount. -/
theorem le_of_mem_counts (hpositive : ∀ term ∈ generators, 0 < term) {count : ℕ}
    (hcount : count ∈ counts generators amount) : count ≤ amount := by
  obtain ⟨terms, hterms, rfl, rfl⟩ := hcount
  induction terms using Multiset.induction_on with
  | empty => exact Nat.zero_le _
  | cons term others ih =>
      have hterm := hpositive term (hterms term (Multiset.mem_cons_self term others))
      have hothers := ih fun other hother => hterms other (Multiset.mem_cons_of_mem hother)
      rw [Multiset.card_cons, Multiset.sum_cons]
      omega

theorem counts_singleton_one (amount : ℕ) : counts {1} amount = {amount} := by
  ext count
  constructor
  · rintro ⟨terms, hterms, rfl, rfl⟩
    rw [Multiset.eq_replicate_card.mpr hterms]
    simp
  · rintro rfl
    exact ⟨Multiset.replicate count 1, fun term hterm => Multiset.eq_of_mem_replicate hterm,
      by simp, by simp⟩

end NaturalNumbers

end RepeatedSums
