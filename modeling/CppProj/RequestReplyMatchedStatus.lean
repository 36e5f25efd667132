import Mathlib.Data.List.AList
import Mathlib.Tactic.Common

/-!
# Which remote endpoints are matched

`app_utils.hpp` keeps, for every remote participant, a `std::bitset<2>` that
says which of its two endpoints is matched.  The two classes of the source
differ only in the names of the two positions.  `is_fully_unmatched` returns
the opposite of its name: `false` for a participant without a matched
endpoint.
-/

namespace CppProj.RequestReply

abbrev GuidPrefix := BitVec 96

/-- `std::bitset<2>`. -/
structure Bitset2 where
  bit0 : Bool
  bit1 : Bool
  deriving DecidableEq

namespace Bitset2

def zero : Bitset2 := ⟨false, false⟩

def set (bits : Bitset2) (position : Fin 2) (status : Bool) : Bitset2 :=
  match position with
  | 0 => { bits with bit0 := status }
  | 1 => { bits with bit1 := status }

def all (bits : Bitset2) : Bool := bits.bit0 && bits.bit1
def any (bits : Bitset2) : Bool := bits.bit0 || bits.bit1
def none (bits : Bitset2) : Bool := !bits.any

theorem all_eq_true_iff {bits : Bitset2} : bits.all = true ↔ bits = ⟨true, true⟩ := by
  cases bits
  simp [all]

def test (bits : Bitset2) (position : Fin 2) : Bool :=
  match position with
  | 0 => bits.bit0
  | 1 => bits.bit1

theorem test_set (bits : Bitset2) (position other : Fin 2) (status : Bool) :
    (bits.set position status).test other =
      if other = position then status else bits.test other := by
  match position, other with
  | 0, 0 | 0, 1 | 1, 0 | 1, 1 => rfl

theorem all_eq_true_iff_test {bits : Bitset2} :
    bits.all = true ↔ bits.test 0 = true ∧ bits.test 1 = true := by
  simp [all, test]

theorem any_eq_false_iff_test {bits : Bitset2} :
    bits.any = false ↔ ∀ position, bits.test position = false := by
  simp [any, test, Fin.forall_fin_two]

end Bitset2

/-- The map `matched_status_` of both classes. -/
abbrev MatchedStatus := AList (fun _ : GuidPrefix => Bitset2)

namespace MatchedStatus

def setEndpoint (matched : MatchedStatus) (position : Fin 2)
    (guidPrefix : GuidPrefix) (status : Bool) : MatchedStatus :=
  matched.insert guidPrefix
    (((matched.lookup guidPrefix).getD Bitset2.zero).set position status)

def isMatched (matched : MatchedStatus) (guidPrefix : GuidPrefix) : Bool :=
  match matched.lookup guidPrefix with
  | some bits => bits.all
  | none => false

theorem lookup_setEndpoint_self (matched : MatchedStatus) (position : Fin 2)
    (guidPrefix : GuidPrefix) (status : Bool) :
    (matched.setEndpoint position guidPrefix status).lookup guidPrefix =
      some (((matched.lookup guidPrefix).getD Bitset2.zero).set position status) :=
  AList.lookup_insert matched

theorem lookup_setEndpoint_of_ne {matched : MatchedStatus}
    {guidPrefix other : GuidPrefix} (hne : other ≠ guidPrefix) (position : Fin 2)
    (status : Bool) :
    (matched.setEndpoint position guidPrefix status).lookup other =
      matched.lookup other :=
  AList.lookup_insert_ne hne

theorem isMatched_eq_true_iff {matched : MatchedStatus} {guidPrefix : GuidPrefix} :
    matched.isMatched guidPrefix = true ↔
      matched.lookup guidPrefix = some ⟨true, true⟩ := by
  unfold isMatched
  cases hlookup : matched.lookup guidPrefix with
  | none => simp
  | some bits => simp [Bitset2.all_eq_true_iff]

/-- The bit of an endpoint; a participant without an entry has none set. -/
def hasEndpoint (matched : MatchedStatus) (guidPrefix : GuidPrefix) (position : Fin 2) : Bool :=
  ((matched.lookup guidPrefix).getD Bitset2.zero).test position

theorem hasEndpoint_empty (guidPrefix : GuidPrefix) (position : Fin 2) :
    hasEndpoint ∅ guidPrefix position = false := by
  match position with
  | 0 | 1 => rfl

theorem hasEndpoint_setEndpoint (matched : MatchedStatus) (position other : Fin 2)
    (guidPrefix otherPrefix : GuidPrefix) (status : Bool) :
    (matched.setEndpoint position guidPrefix status).hasEndpoint otherPrefix other =
      if (otherPrefix, other) = (guidPrefix, position) then status
      else matched.hasEndpoint otherPrefix other := by
  unfold hasEndpoint
  by_cases hsame : otherPrefix = guidPrefix
  · subst hsame
    rw [lookup_setEndpoint_self, Option.getD_some, Bitset2.test_set]
    simp
  · rw [lookup_setEndpoint_of_ne hsame, if_neg]
    exact fun heq => hsame (Prod.mk.inj heq).1

theorem isMatched_eq_true_iff_hasEndpoint {matched : MatchedStatus} {guidPrefix : GuidPrefix} :
    matched.isMatched guidPrefix = true ↔
      matched.hasEndpoint guidPrefix 0 = true ∧ matched.hasEndpoint guidPrefix 1 = true := by
  unfold isMatched hasEndpoint
  cases matched.lookup guidPrefix with
  | none => simp [Bitset2.test, Bitset2.zero]
  | some bits => exact Bitset2.all_eq_true_iff_test

end MatchedStatus

namespace RemoteServerMatchedStatus

def matchRequestReader (matched : MatchedStatus) (guidPrefix : GuidPrefix)
    (status : Bool) : MatchedStatus :=
  matched.setEndpoint 0 guidPrefix status

def matchReplyWriter (matched : MatchedStatus) (guidPrefix : GuidPrefix)
    (status : Bool) : MatchedStatus :=
  matched.setEndpoint 1 guidPrefix status

def isAnyServerMatched (matched : MatchedStatus) : Bool :=
  matched.entries.any fun status => status.2.all

end RemoteServerMatchedStatus

namespace RemoteClientMatchedStatus

/-- The position of a client's request writer in its two bits. -/
def requestWriter : Fin 2 := 0

/-- The position of its reply reader. -/
def replyReader : Fin 2 := 1

def matchRequestWriter (matched : MatchedStatus) (guidPrefix : GuidPrefix)
    (status : Bool) : MatchedStatus :=
  matched.setEndpoint 0 guidPrefix status

def matchReplyReader (matched : MatchedStatus) (guidPrefix : GuidPrefix)
    (status : Bool) : MatchedStatus :=
  matched.setEndpoint 1 guidPrefix status

/-- `is_fully_unmatched`, with the value the source returns. -/
def isFullyUnmatched (matched : MatchedStatus) (guidPrefix : GuidPrefix) : Bool :=
  match matched.lookup guidPrefix with
  | some bits => !bits.none
  | none => false

def noClientMatched (matched : MatchedStatus) : Bool :=
  !matched.entries.any fun status => status.2.any

theorem noClientMatched_eq_true_iff {matched : MatchedStatus} :
    noClientMatched matched = true ↔
      ∀ guidPrefix position, matched.hasEndpoint guidPrefix position = false := by
  have hentries : noClientMatched matched = true ↔
      ∀ status ∈ matched.entries, status.2.any = false := by
    simp [noClientMatched]
  rw [hentries]
  constructor
  · intro hnone guidPrefix position
    unfold MatchedStatus.hasEndpoint
    cases hlookup : matched.lookup guidPrefix with
    | none =>
        match position with
        | 0 | 1 => rfl
    | some bits =>
        have hmem := AList.mem_lookup_iff.mp hlookup
        exact Bitset2.any_eq_false_iff_test.mp (hnone _ hmem) position
  · rintro hnone ⟨guidPrefix, bits⟩ hmem
    have hlookup : matched.lookup guidPrefix = some bits := AList.mem_lookup_iff.mpr hmem
    refine Bitset2.any_eq_false_iff_test.mpr fun position => ?_
    simpa [MatchedStatus.hasEndpoint, hlookup] using hnone guidPrefix position

/-- No endpoint of the participant is matched, or it has no entry. -/
def Gone (matched : MatchedStatus) (guidPrefix : GuidPrefix) : Prop :=
  ∀ bits, matched.lookup guidPrefix = some bits → bits = Bitset2.zero

theorem isFullyUnmatched_eq_false_iff {matched : MatchedStatus}
    {guidPrefix : GuidPrefix} :
    isFullyUnmatched matched guidPrefix = false ↔ Gone matched guidPrefix := by
  unfold isFullyUnmatched Gone
  cases hlookup : matched.lookup guidPrefix with
  | none => simp
  | some bits =>
      obtain ⟨bit0, bit1⟩ := bits
      cases bit0 <;> cases bit1 <;>
        simp [Bitset2.none, Bitset2.any, Bitset2.zero]

theorem isFullyUnmatched_of_isMatched {matched : MatchedStatus}
    {guidPrefix : GuidPrefix} (hmatched : matched.isMatched guidPrefix = true) :
    isFullyUnmatched matched guidPrefix = true := by
  have hlookup := MatchedStatus.isMatched_eq_true_iff.mp hmatched
  simp [isFullyUnmatched, hlookup, Bitset2.none, Bitset2.any]

end RemoteClientMatchedStatus

end CppProj.RequestReply
