import Mathlib.Data.Finset.Card
import Mathlib.Data.Finset.Dedup
import Mathlib.Order.Interval.Finset.Nat

/-!
# The listener of `throughput_sub.cpp`

`on_data_available` takes samples until the reader has none.  The sequence
number of a sample is read from the dynamic or the static data, whichever the
subscriber uses.
-/

namespace CppProj.ThroughputSubscriber

/-- A sample that `take_next_sample` gives. -/
structure Sample where
  validData : Bool
  seqNum : UInt32
  deriving DecidableEq

structure DataReaderListener where
  lastSeqNum : UInt32
  lostSamples : UInt32
  receivedSamples : UInt64
  matched : ℤ
  enable : Bool
  deriving DecidableEq

namespace DataReaderListener

def reset (listener : DataReaderListener) : DataReaderListener :=
  { listener with
    lastSeqNum := 0
    lostSamples := 0
    receivedSamples := 0
    matched := 0
    enable := true }

/-- An iteration of the loop of `on_data_available`. -/
def take (listener : DataReaderListener) (sample : Sample) : DataReaderListener :=
  if sample.validData then
    { listener with
      lostSamples :=
        if listener.lastSeqNum + 1 < sample.seqNum then
          listener.lostSamples + (sample.seqNum - listener.lastSeqNum - 1)
        else listener.lostSamples
      lastSeqNum := sample.seqNum
      receivedSamples := listener.receivedSamples + 1 }
  else listener

/-- A call that finds these samples. -/
def onDataAvailable (listener : DataReaderListener) (samples : List Sample) :
    DataReaderListener :=
  if !listener.enable then listener else samples.foldl take listener

end DataReaderListener

/-- The sequence numbers of the valid samples. -/
def delivered (samples : List Sample) : List ℕ :=
  (samples.filter Sample.validData).map fun sample => sample.seqNum.toNat

/-- The numbers from 1 to the last that were not delivered. -/
def neverDelivered (samples : List Sample) (last : ℕ) : Finset ℕ :=
  (Finset.Icc 1 last).filter fun number => number ∉ delivered samples

/-- The numbers are strictly increasing, from at least 1, and below the largest of the type. -/
structure Ordered (samples : List Sample) : Prop where
  increasing : (delivered samples).Pairwise (· < ·)
  positive : ∀ number ∈ delivered samples, 1 ≤ number
  bounded : ∀ number ∈ delivered samples, number < 2 ^ 32 - 1

/-- The numbers of the listener after these samples. -/
structure Accounted (samples : List Sample) (listener : DataReaderListener) : Prop where
  identity : listener.lostSamples.toNat + listener.receivedSamples.toNat =
    listener.lastSeqNum.toNat
  lost : listener.lostSamples.toNat = (neverDelivered samples listener.lastSeqNum.toNat).card

/-- What carries the account from one sample to the next. -/
structure Invariant (samples : List Sample) (listener : DataReaderListener) : Prop where
  received : listener.receivedSamples.toNat = (delivered samples).length
  identity : listener.lostSamples.toNat + (delivered samples).length = listener.lastSeqNum.toNat
  upToLast : ∀ number ∈ delivered samples, number ≤ listener.lastSeqNum.toNat
  last : listener.lastSeqNum.toNat = 0 ∨ listener.lastSeqNum.toNat ∈ delivered samples

theorem delivered_append (before after : List Sample) :
    delivered (before ++ after) = delivered before ++ delivered after := by
  rw [delivered, List.filter_append, List.map_append]
  rfl

theorem Ordered.of_append {before after : List Sample} (hordered : Ordered (before ++ after)) :
    Ordered before := by
  obtain ⟨hincreasing, hpositive, hbounded⟩ := hordered
  rw [delivered_append] at hincreasing hpositive hbounded
  refine ⟨(List.pairwise_append.mp hincreasing).1, ?_, ?_⟩
  · exact fun number hmem => hpositive number (List.mem_append_left _ hmem)
  · exact fun number hmem => hbounded number (List.mem_append_left _ hmem)

theorem Invariant.accounted {samples : List Sample} {listener : DataReaderListener}
    (hinv : Invariant samples listener) (hordered : Ordered samples) :
    Accounted samples listener := by
  refine ⟨by rw [hinv.received]; exact hinv.identity, ?_⟩
  have hnodup : (delivered samples).Nodup := hordered.increasing.imp (fun h => h.ne)
  have hsubset : (delivered samples).toFinset ⊆ Finset.Icc 1 listener.lastSeqNum.toNat := by
    intro number hmem
    have hnumber := List.mem_toFinset.mp hmem
    exact Finset.mem_Icc.mpr ⟨hordered.positive number hnumber, hinv.upToLast number hnumber⟩
  have hrest : neverDelivered samples listener.lastSeqNum.toNat =
      Finset.Icc 1 listener.lastSeqNum.toNat \ (delivered samples).toFinset := by
    ext number
    simp [neverDelivered]
  rw [hrest, Finset.card_sdiff_of_subset hsubset, Nat.card_Icc,
    List.toFinset_card_of_nodup hnodup]
  have hidentity := hinv.identity
  omega

theorem Invariant.reset (listener : DataReaderListener) : Invariant [] listener.reset where
  received := rfl
  identity := rfl
  upToLast := fun _ hmem => absurd hmem List.not_mem_nil
  last := .inl rfl

/-- On these numbers the guard and the gap are those of the naturals. -/
theorem gap_toNat {lost last seqNum : UInt32} {count : ℕ}
    (hsum : lost.toNat + count = last.toNat) (hlt : last.toNat < seqNum.toNat)
    (hbound : seqNum.toNat < 2 ^ 32 - 1) :
    (if last + 1 < seqNum then lost + (seqNum - last - 1) else lost).toNat + (count + 1) =
      seqNum.toNat := by
  have hnext : (last + 1).toNat = last.toNat + 1 := by
    rw [UInt32.toNat_add, UInt32.toNat_one, Nat.mod_eq_of_lt (by omega)]
  split
  next hguard =>
    have hgap : (seqNum - last - 1).toNat = seqNum.toNat - last.toNat - 1 := by
      rw [UInt32.toNat_sub_of_le, UInt32.toNat_sub_of_le, UInt32.toNat_one]
      · exact UInt32.le_iff_toNat_le.mpr hlt.le
      · rw [UInt32.le_iff_toNat_le, UInt32.toNat_sub_of_le _ _
          (UInt32.le_iff_toNat_le.mpr hlt.le), UInt32.toNat_one]
        omega
    rw [UInt32.toNat_add, hgap, Nat.mod_eq_of_lt (by omega)]
    omega
  next hguard =>
    have hle : seqNum.toNat ≤ last.toNat + 1 := by
      rw [UInt32.lt_iff_toNat_lt, hnext] at hguard
      omega
    omega

theorem Ordered.lt_next {before : List Sample} {sample : Sample}
    (hordered : Ordered (before ++ [sample])) (hvalid : sample.validData = true) :
    ∀ number ∈ delivered before, number < sample.seqNum.toNat := by
  intro number hmem
  have hincreasing := hordered.increasing
  rw [delivered_append] at hincreasing
  refine (List.pairwise_append.mp hincreasing).2.2 number hmem _ ?_
  simp [delivered, hvalid]

theorem Invariant.take {before : List Sample} {listener : DataReaderListener} {sample : Sample}
    (hordered : Ordered (before ++ [sample])) (hinv : Invariant before listener) :
    Invariant (before ++ [sample]) (listener.take sample) := by
  cases hvalid : sample.validData with
  | false =>
      have hsame : delivered (before ++ [sample]) = delivered before := by
        simp [delivered, hvalid]
      have htake : listener.take sample = listener := by
        simp [DataReaderListener.take, hvalid]
      obtain ⟨hreceived, hidentity, hupTo, hlast⟩ := hinv
      rw [htake]
      exact ⟨hsame ▸ hreceived, hsame ▸ hidentity, hsame ▸ hupTo, hsame ▸ hlast⟩
  | true =>
      have hone : delivered (before ++ [sample]) = delivered before ++ [sample.seqNum.toNat] := by
        simp [delivered, hvalid]
      have hmem : sample.seqNum.toNat ∈ delivered (before ++ [sample]) := by
        simp [hone]
      have hbound := hordered.bounded _ hmem
      have hpositive := hordered.positive _ hmem
      have hnext := hordered.lt_next hvalid
      have hlt : listener.lastSeqNum.toNat < sample.seqNum.toNat := by
        rcases hinv.last with hzero | hlast
        · omega
        · exact hnext _ hlast
      have hgap := gap_toNat hinv.identity hlt hbound
      have hlength : (delivered (before ++ [sample])).length = (delivered before).length + 1 := by
        simp [hone]
      rw [DataReaderListener.take, if_pos hvalid]
      refine ⟨?_, ?_, ?_, .inr hmem⟩
      · -- the count is at most the last number, so it does not wrap
        have hidentity := hinv.identity
        rw [UInt64.toNat_add, UInt64.toNat_one, hinv.received, hlength,
          Nat.mod_eq_of_lt (by omega)]
      · rw [hlength]
        exact hgap
      · intro number hnumber
        rw [hone, List.mem_append, List.mem_singleton] at hnumber
        rcases hnumber with hnumber | rfl
        · exact (hnext number hnumber).le
        · exact le_rfl

theorem DataReaderListener.enable_foldl_take (listener : DataReaderListener)
    (samples : List Sample) : (samples.foldl take listener).enable = listener.enable := by
  induction samples generalizing listener with
  | nil => rfl
  | cons sample rest ih =>
      rw [List.foldl_cons, ih]
      unfold take
      split <;> rfl

theorem Invariant.foldl_take {before : List Sample} {listener : DataReaderListener}
    {samples : List Sample} (hordered : Ordered (before ++ samples))
    (hinv : Invariant before listener) :
    Invariant (before ++ samples) (samples.foldl DataReaderListener.take listener) := by
  induction samples generalizing before listener with
  | nil => simpa using hinv
  | cons sample rest ih =>
      rw [List.append_cons] at hordered ⊢
      exact ih hordered (hinv.take hordered.of_append)

/-- The calls carry the account, and none of them disables the listener. -/
theorem Invariant.foldl_onDataAvailable {before : List Sample} {listener : DataReaderListener}
    {batches : List (List Sample)} (hordered : Ordered (before ++ batches.flatten))
    (henable : listener.enable = true) (hinv : Invariant before listener) :
    Invariant (before ++ batches.flatten)
      (batches.foldl DataReaderListener.onDataAvailable listener) ∧
      (batches.foldl DataReaderListener.onDataAvailable listener).enable = true := by
  induction batches generalizing before listener with
  | nil => simpa using ⟨hinv, henable⟩
  | cons batch rest ih =>
      have hcall : listener.onDataAvailable batch =
          batch.foldl DataReaderListener.take listener := by
        simp [DataReaderListener.onDataAvailable, henable]
      rw [List.flatten_cons, ← List.append_assoc] at hordered ⊢
      rw [List.foldl_cons, hcall]
      refine ih hordered ?_ (hinv.foldl_take hordered.of_append)
      rw [DataReaderListener.enable_foldl_take]
      exact henable

/-- After every sample the losses are the numbers that were never delivered: the calls
found these batches, and the last call has taken the samples of `batch` so far. -/
theorem accounted_afterEverySample (listener : DataReaderListener)
    (batches : List (List Sample)) (batch : List Sample)
    (hordered : Ordered (batches.flatten ++ batch)) :
    Accounted (batches.flatten ++ batch)
      (batch.foldl DataReaderListener.take
        (batches.foldl DataReaderListener.onDataAvailable listener.reset)) := by
  have hstart := Invariant.reset listener
  have hcalls := hstart.foldl_onDataAvailable hordered.of_append rfl
  exact (hcalls.1.foldl_take hordered).accounted hordered

/-- Two calls, an invalid sample between them, and two samples lost. -/
theorem accounted_afterEverySample_twoCalls :
    Accounted [⟨true, 1⟩, ⟨false, 0⟩, ⟨true, 4⟩, ⟨true, 5⟩]
      ⟨5, 2, 3, 0, true⟩ :=
  accounted_afterEverySample ⟨9, 9, 9, 1, false⟩ [[⟨true, 1⟩, ⟨false, 0⟩]] [⟨true, 4⟩, ⟨true, 5⟩]
    ⟨by decide, by decide, by decide⟩

end CppProj.ThroughputSubscriber
