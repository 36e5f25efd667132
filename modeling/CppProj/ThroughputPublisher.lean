import Mathlib.Algebra.Ring.Nat
import Mathlib.Data.List.Basic
import Mathlib.Tactic.Common

/-!
# The batches of `test` in the throughput test

A batch sends `demand` samples and stamps each with the next sequence number.
A sample is sent in one of three ways; when no loan is granted the loop tries
the same sample again.
-/

namespace CppProj.ThroughputPublisher

/-- Dynamic types, loans, or the data of the publisher. -/
inductive Mode where
  | dynamicTypes
  | dataLoans
  | plain
  deriving DecidableEq

/-- What the calls of `loan_sample` and of `write` return, in their order. -/
structure DataWriter where
  loanSample : ℕ → Bool
  write : ℕ → Bool

/-- The counters of `test`, the values stamped so far, and the calls made to the writer. -/
structure Test where
  samples : UInt32
  seqnum : UInt32
  stamped : List UInt32
  loans : ℕ
  writes : ℕ
  discarded : ℕ
  deriving DecidableEq

namespace Test

def start : Test :=
  { samples := 0, seqnum := 0, stamped := [], loans := 0, writes := 0, discarded := 0 }

/-- `... = ++seqnum`, then `write`. -/
def stampAndWrite (test : Test) : Test :=
  { test with
    seqnum := test.seqnum + 1
    stamped := test.stamped ++ [test.seqnum + 1]
    writes := test.writes + 1 }

end Test

section Batches

variable (mode : Mode) (writer : DataWriter) (demand : UInt32)

/-- An iteration of the loop over a batch, with the increment of `sample` at its end. -/
def iteration (test : Test) (sample : UInt32) : Test × UInt32 :=
  match mode with
  | .dynamicTypes => (test.stampAndWrite, sample + 1)
  | .dataLoans =>
      if writer.loanSample test.loans then
        let written := { test with loans := test.loans + 1 }.stampAndWrite
        if writer.write test.writes then (written, sample + 1)
        else ({ written with discarded := written.discarded + 1 }, sample + 1)
      else
        -- `--sample; continue;` goes on to `sample++`
        ({ test with loans := test.loans + 1 }, sample - 1 + 1)
  | .plain => (test.stampAndWrite, sample + 1)

/-- The loop over a batch; `none` when it needs more iterations. -/
def batch (fuel : ℕ) (test : Test) (sample : UInt32) : Option Test :=
  if sample < demand then
    match fuel with
    | 0 => none
    | fuel + 1 =>
        let after := iteration mode writer test sample
        batch fuel after.1 after.2
  else some test

/-- The state at the end of so many batches. -/
def batches (fuel : ℕ) : ℕ → Option Test
  | 0 => some Test.start
  | count + 1 => do
      let before ← batches fuel count
      let sent ← batch mode writer demand fuel before 0
      some { sent with samples := sent.samples + demand }

end Batches

/-- However often a loan is refused, it is granted later. -/
def GrantsLoans (writer : DataWriter) : Prop :=
  ∀ call, ∃ wait, writer.loanSample (call + wait) = true

/-! ## One sample -/

/-- A sample was sent under the next number. -/
structure Sent (test after : Test) : Prop where
  samples : after.samples = test.samples
  seqnum : after.seqnum = test.seqnum + 1
  stamped : after.stamped = test.stamped ++ [test.seqnum + 1]

variable {mode : Mode} {writer : DataWriter} {demand : UInt32}

theorem iteration_cases (mode : Mode) (writer : DataWriter) (test : Test) (sample : UInt32) :
    (writer.loanSample test.loans = false ∧
      iteration mode writer test sample = ({ test with loans := test.loans + 1 }, sample)) ∨
    ∃ after, Sent test after ∧ iteration mode writer test sample = (after, sample + 1) := by
  cases mode with
  | dynamicTypes => exact Or.inr ⟨test.stampAndWrite, ⟨rfl, rfl, rfl⟩, rfl⟩
  | plain => exact Or.inr ⟨test.stampAndWrite, ⟨rfl, rfl, rfl⟩, rfl⟩
  | dataLoans =>
      by_cases hloan : writer.loanSample test.loans
      · right
        by_cases hwrite : writer.write test.writes
        · refine ⟨{ test with loans := test.loans + 1 }.stampAndWrite, ⟨rfl, rfl, rfl⟩, ?_⟩
          simp [iteration, hloan, hwrite]
        · refine ⟨{ { test with loans := test.loans + 1 }.stampAndWrite with
              discarded := test.discarded + 1 }, ⟨rfl, rfl, rfl⟩, ?_⟩
          simp [iteration, hloan, hwrite, Test.stampAndWrite]
      · left
        have hretry : sample - 1 + 1 = sample := UInt32.sub_add_cancel sample 1
        refine ⟨Bool.eq_false_iff.mpr hloan, ?_⟩
        simp [iteration, hloan, hretry]

theorem batch_succ {test : Test} {sample : UInt32} (hmore : sample < demand) (fuel : ℕ) :
    batch mode writer demand (fuel + 1) test sample =
      batch mode writer demand fuel (iteration mode writer test sample).1
        (iteration mode writer test sample).2 := by
  rw [batch, if_pos hmore]

theorem batch_done {test : Test} {sample : UInt32} (hdone : ¬ sample < demand) (fuel : ℕ) :
    batch mode writer demand fuel test sample = some test := by
  unfold batch
  exact if_neg hdone

/-- The iterations up to the next grant send one sample. -/
theorem batch_sends (mode : Mode) (wait : ℕ) : ∀ (test : Test) (sample : UInt32),
    writer.loanSample (test.loans + wait) = true → sample < demand →
    ∃ iterations after, Sent test after ∧ ∀ fuel,
      batch mode writer demand (fuel + iterations) test sample =
        batch mode writer demand fuel after (sample + 1) := by
  induction wait with
  | zero =>
      intro test sample hgrant hmore
      rcases iteration_cases mode writer test sample with ⟨hrefused, _⟩ | ⟨after, hsent, hnext⟩
      · rw [Nat.add_zero] at hgrant
        exact absurd hgrant (by rw [hrefused]; decide)
      · refine ⟨1, after, hsent, ?_⟩
        intro fuel
        rw [batch_succ hmore, hnext]
  | succ wait ih =>
      intro test sample hgrant hmore
      rcases iteration_cases mode writer test sample with ⟨_, hretry⟩ | ⟨after, hsent, hnext⟩
      · have hlater : writer.loanSample ({ test with loans := test.loans + 1 }.loans + wait) =
            true := by
          rw [← hgrant]
          congr 1
          simp only
          omega
        obtain ⟨iterations, after, hsent, hrest⟩ :=
          ih { test with loans := test.loans + 1 } sample hlater hmore
        refine ⟨iterations + 1, after, ⟨hsent.samples, hsent.seqnum, hsent.stamped⟩, ?_⟩
        intro fuel
        rw [← Nat.add_assoc, batch_succ hmore, hretry, hrest]
      · refine ⟨1, after, hsent, ?_⟩
        intro fuel
        rw [batch_succ hmore, hnext]

/-! ## One batch -/

/-- The numbers after `seqnum`, so many of them. -/
def numbersAfter (seqnum : UInt32) (count : ℕ) : List UInt32 :=
  (List.range count).map fun k => seqnum + UInt32.ofNat (k + 1)

theorem length_numbersAfter (seqnum : UInt32) (count : ℕ) :
    (numbersAfter seqnum count).length = count := by
  simp [numbersAfter]

theorem ofNat_succ (k : ℕ) : UInt32.ofNat (k + 1) = UInt32.ofNat k + 1 :=
  UInt32.ofNat_add k 1

theorem numbersAfter_add (seqnum : UInt32) (count more : ℕ) :
    numbersAfter seqnum (count + more) =
      numbersAfter seqnum count ++ numbersAfter (seqnum + UInt32.ofNat count) more := by
  rw [numbersAfter, numbersAfter, numbersAfter, List.range_add, List.map_append, List.map_map]
  congr 1
  apply List.map_congr_left
  intro k _
  rw [Function.comp_apply, Nat.add_assoc, UInt32.ofNat_add, UInt32.add_assoc]

theorem numbersAfter_succ (seqnum : UInt32) (count : ℕ) :
    numbersAfter seqnum (count + 1) = [seqnum + 1] ++ numbersAfter (seqnum + 1) count := by
  rw [Nat.add_comm, numbersAfter_add]
  rfl

/-- Every sample of the batch was sent once, under the next number each. -/
structure SentAll (test after : Test) (count : ℕ) : Prop where
  samples : after.samples = test.samples
  seqnum : after.seqnum = test.seqnum + UInt32.ofNat count
  stamped : after.stamped = test.stamped ++ numbersAfter test.seqnum count

theorem SentAll.cons {test first after : Test} {count : ℕ} (hfirst : Sent test first)
    (hrest : SentAll first after count) : SentAll test after (count + 1) where
  samples := hrest.samples.trans hfirst.samples
  seqnum := by
    rw [hrest.seqnum, hfirst.seqnum, ofNat_succ, UInt32.add_assoc,
      UInt32.add_comm 1 (UInt32.ofNat count)]
  stamped := by
    rw [hrest.stamped, hfirst.stamped, hfirst.seqnum, numbersAfter_succ, List.append_assoc]

theorem toNat_succ_of_lt {sample : UInt32} (hmore : sample < demand) :
    (sample + 1).toNat = sample.toNat + 1 := by
  have hlt : sample.toNat < demand.toNat := UInt32.lt_iff_toNat_lt.mp hmore
  have hbound := demand.toNat_lt
  rw [UInt32.toNat_add]
  exact Nat.mod_eq_of_lt (by show sample.toNat + 1 < 2 ^ 32; omega)

theorem batch_ends (mode : Mode) (hgrants : GrantsLoans writer) (demand : UInt32) (count : ℕ) :
    ∀ (test : Test) (sample : UInt32), demand.toNat = sample.toNat + count →
    ∃ iterations after, SentAll test after count ∧ ∀ fuel,
      batch mode writer demand (fuel + iterations) test sample = some after := by
  induction count with
  | zero =>
      intro test sample hleft
      have hdone : ¬ sample < demand := by
        rw [UInt32.lt_iff_toNat_lt]
        omega
      refine ⟨0, test, ⟨rfl, (UInt32.add_zero _).symm, (List.append_nil _).symm⟩, ?_⟩
      exact batch_done hdone
  | succ count ih =>
      intro test sample hleft
      have hmore : sample < demand := by
        rw [UInt32.lt_iff_toNat_lt]
        omega
      obtain ⟨wait, hgrant⟩ := hgrants test.loans
      obtain ⟨first, next, hsent, hnext⟩ := batch_sends mode wait test sample hgrant hmore
      obtain ⟨iterations, after, hall, hrest⟩ := ih next (sample + 1) (by
        rw [toNat_succ_of_lt hmore]
        omega)
      refine ⟨iterations + first, after, SentAll.cons hsent hall, ?_⟩
      intro fuel
      rw [← Nat.add_assoc, hnext, hrest]

/-! ## All batches -/

theorem batches_end (mode : Mode) (writer : DataWriter) (demand : UInt32)
    (hgrants : GrantsLoans writer) (count : ℕ) :
    ∃ bound after, (∀ fuel ≥ bound, batches mode writer demand fuel count = some after) ∧
      after.samples = UInt32.ofNat (count * demand.toNat) ∧
      after.seqnum = UInt32.ofNat (count * demand.toNat) ∧
      after.stamped = numbersAfter 0 (count * demand.toNat) := by
  induction count with
  | zero =>
      rw [Nat.zero_mul]
      exact ⟨0, Test.start, fun _ _ => rfl, rfl, rfl, rfl⟩
  | succ count ih =>
      obtain ⟨bound, before, hbefore, hsamples, hseqnum, hstamped⟩ := ih
      obtain ⟨iterations, sent, hall, hsent⟩ :=
        batch_ends mode hgrants demand demand.toNat before 0 (Nat.zero_add _).symm
      refine ⟨max bound iterations, { sent with samples := sent.samples + demand }, ?_, ?_, ?_, ?_⟩
      · intro fuel hfuel
        have hbatch := hsent (fuel - iterations)
        have hmore : bound ≤ fuel := Nat.le_trans (Nat.le_max_left bound iterations) hfuel
        rw [Nat.sub_add_cancel (Nat.le_trans (Nat.le_max_right bound iterations) hfuel)] at hbatch
        simp [batches, hbefore fuel hmore, hbatch]
      · rw [Nat.succ_mul, UInt32.ofNat_add, UInt32.ofNat_toNat, ← hsamples, ← hall.samples]
      · rw [Nat.succ_mul, UInt32.ofNat_add, ← hseqnum]
        exact hall.seqnum
      · rw [Nat.succ_mul, numbersAfter_add, ← hstamped, UInt32.zero_add, ← hseqnum]
        exact hall.stamped

theorem getElem?_numbersAfter_zero {count k : ℕ} (hk : k < count) :
    (numbersAfter 0 count)[k]? = some (UInt32.ofNat (k + 1)) := by
  simp [numbersAfter, hk]

/-- The counters agree, and the values stamped are 1, 2, 3, … counted modulo 2 ^ 32: none is
left out, and one comes again only 2 ^ 32 samples later. -/
structure Accounted (demand : UInt32) (count : ℕ) (test : Test) : Prop where
  counted : test.seqnum = test.samples
  total : test.samples.toNat = count * demand.toNat % 2 ^ 32
  stamped_length : test.stamped.length = count * demand.toNat
  stamped_value : ∀ k value, test.stamped[k]? = some value → value.toNat = (k + 1) % 2 ^ 32
  stamped_apart : ∀ k other value, k < other → test.stamped[k]? = some value →
    test.stamped[other]? = some value → 2 ^ 32 ≤ other - k

theorem accounted_of_numbersAfter {count : ℕ} {test : Test}
    (hsamples : test.samples = UInt32.ofNat (count * demand.toNat))
    (hseqnum : test.seqnum = UInt32.ofNat (count * demand.toNat))
    (hstamped : test.stamped = numbersAfter 0 (count * demand.toNat)) :
    Accounted demand count test := by
  have hlength : test.stamped.length = count * demand.toNat := by
    rw [hstamped, length_numbersAfter]
  have hvalue : ∀ k value, test.stamped[k]? = some value → value.toNat = (k + 1) % 2 ^ 32 := by
    intro k value hk
    have hlt := (List.getElem?_eq_some_iff.mp hk).1
    rw [hlength] at hlt
    rw [hstamped, getElem?_numbersAfter_zero hlt, Option.some.injEq] at hk
    rw [← hk]
    exact UInt32.toNat_ofNat'
  refine ⟨hseqnum.trans hsamples.symm, ?_, hlength, hvalue, ?_⟩
  · rw [hsamples]
    exact UInt32.toNat_ofNat'
  · intro k other value hlt hk hother
    have hfirst := hvalue k value hk
    have hagain := hvalue other value hother
    omega

/-- Every batch comes to its end, and there the numbers are accounted for. -/
theorem batches_accounted (mode : Mode) {writer : DataWriter} (hgrants : GrantsLoans writer)
    (demand : UInt32) (count : ℕ) :
    ∃ bound after, (∀ fuel ≥ bound, batches mode writer demand fuel count = some after) ∧
      Accounted demand count after := by
  obtain ⟨bound, after, hend, hsamples, hseqnum, hstamped⟩ :=
    batches_end mode writer demand hgrants count
  exact ⟨bound, after, hend, accounted_of_numbersAfter hsamples hseqnum hstamped⟩

/-- Every second loan is refused, and every write fails. -/
theorem batches_accounted_refusals :
    ∃ bound after,
      (∀ fuel ≥ bound, batches .dataLoans ⟨fun call => call % 2 = 1, fun _ => false⟩ 3 fuel 2 =
        some after) ∧ Accounted 3 2 after := by
  have hgrants : GrantsLoans ⟨fun call => call % 2 = 1, fun _ => false⟩ := by
    intro call
    refine ⟨(call + 1) % 2, ?_⟩
    simp only [decide_eq_true_eq]
    omega
  exact batches_accounted .dataLoans hgrants 3 2

/-- In two batches of 2 ^ 32 - 1 samples the number 1 is stamped twice. -/
theorem stamped_again :
    ∃ bound after,
      (∀ fuel ≥ bound, batches .plain ⟨fun _ => true, fun _ => true⟩ 4294967295 fuel 2 =
        some after) ∧
      after.stamped[0]? = some 1 ∧ after.stamped[2 ^ 32]? = some 1 ∧ ¬ after.stamped.Nodup := by
  have hgrants : GrantsLoans ⟨fun _ => true, fun _ => true⟩ := fun _ => ⟨0, rfl⟩
  obtain ⟨bound, after, hend, _, _, hstamped⟩ :=
    batches_end .plain ⟨fun _ => true, fun _ => true⟩ 4294967295 hgrants 2
  have hfirst : after.stamped[0]? = some 1 := by
    rw [hstamped]
    exact getElem?_numbersAfter_zero (by decide)
  have hagain : after.stamped[2 ^ 32]? = some 1 := by
    rw [hstamped]
    exact getElem?_numbersAfter_zero (by decide)
  refine ⟨bound, after, hend, hfirst, hagain, ?_⟩
  intro hnodup
  have hlt : 2 ^ 32 < after.stamped.length := (List.getElem?_eq_some_iff.mp hagain).1
  have hsame := (List.getElem?_inj hlt hnodup).mp (hagain.trans hfirst.symm)
  exact absurd hsame (by decide)

end CppProj.ThroughputPublisher
