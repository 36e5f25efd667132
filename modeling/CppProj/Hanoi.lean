import CppProj.TransitionSystem
import Mathlib.Algebra.Ring.Nat
import Mathlib.Logic.Function.Basic

/-!
# The tower puzzle of `hannutower.cpp`

`hanoi` prints its moves one by one.  A position gives the disks of each peg,
the top one first; a disk is its size.
-/

namespace CppProj.Hanoi

/-! ## The program -/

/-- A line `A->B` of the output. -/
structure Move where
  source : Char
  target : Char
  deriving DecidableEq

/-- The moves that are printed.  From zero the recursion never comes to an end. -/
def hanoi : ℕ → Char → Char → Char → Option (List Move)
  | 0, _, _, _ => none
  | 1, A, _, C => some [⟨A, C⟩]
  | n + 2, A, B, C => do
      let before ← hanoi (n + 1) A C B
      let after ← hanoi (n + 1) B A C
      some (before ++ ⟨A, C⟩ :: after)

/-! ## The puzzle -/

abbrev Position := Char → List ℕ

/-- Take the top disk of a peg to another, which is empty or has a larger disk on top. -/
def Position.move (position : Position) (move : Move) : Option Position :=
  match position move.source with
  | [] => none
  | disk :: rest =>
      let lifted := Function.update position move.source rest
      if ∀ top ∈ (lifted move.target).head?, disk < top then
        some (Function.update lifted move.target (disk :: lifted move.target))
      else none

def puzzle (start : Position) : TransitionSystem Position Move where
  initial := start
  step := Position.move

/-- The peg carries the given disks, all smaller than the other disks of the position. -/
structure SmallestOnTop (position : Position) (peg : Char) (small below : List ℕ) : Prop where
  carried : position peg = small ++ below
  ordered : small.Pairwise (· < ·)
  belowLarger : ∀ disk ∈ small, ∀ other ∈ below, disk < other
  elsewhereLarger : ∀ peg' ≠ peg, ∀ disk ∈ small, ∀ other ∈ position peg', disk < other

/-- The position with the disks moved from the first peg to the second. -/
def Position.transfer (position : Position) (A C : Char) (small below : List ℕ) : Position :=
  Function.update (Function.update position A below) C (small ++ position C)

variable {position start : Position} {A B C : Char} {small below : List ℕ} {disk : ℕ}

theorem Position.transfer_source (hAC : A ≠ C) :
    position.transfer A C small below A = below := by
  simp [transfer, hAC]

theorem Position.transfer_target : position.transfer A C small below C = small ++ position C := by
  simp [transfer]

theorem Position.transfer_other {peg : Char} (hA : peg ≠ A) (hC : peg ≠ C) :
    position.transfer A C small below peg = position peg := by
  simp [transfer, hA, hC]

theorem Position.move_of_larger (hAC : A ≠ C) (hcarried : position A = disk :: below)
    (hlarger : ∀ other ∈ position C, disk < other) :
    position.move ⟨A, C⟩ = some (position.transfer A C [disk] below) := by
  have htarget : Function.update position A below C = position C :=
    Function.update_of_ne hAC.symm below position
  have hlegal : ∀ top ∈ (position C).head?, disk < top :=
    fun top hhead => hlarger top (List.mem_of_mem_head? hhead)
  simp only [Position.move, hcarried, htarget]
  exact if_pos hlegal

/-! ## The recursion -/

/-- Without its largest disk the tower is a tower of smallest disks again. -/
theorem SmallestOnTop.front (htop : SmallestOnTop position A (small ++ [disk]) below) :
    SmallestOnTop position A small (disk :: below) where
  carried := by rw [htop.carried, List.append_assoc, List.singleton_append]
  ordered := (List.pairwise_append.mp htop.ordered).1
  belowLarger d hd other hother := by
    cases List.mem_cons.mp hother with
    | inl hdisk =>
        exact hdisk ▸ (List.pairwise_append.mp htop.ordered).2.2 d hd disk
          (List.mem_singleton_self disk)
    | inr hbelow => exact htop.belowLarger d (List.mem_append_left _ hd) other hbelow
  elsewhereLarger peg hpeg d hd other hother :=
    htop.elsewhereLarger peg hpeg d (List.mem_append_left _ hd) other hother

theorem SmallestOnTop.largest (htop : SmallestOnTop position A (small ++ [disk]) below)
    {peg : Char} (hpeg : peg ≠ A) {other : ℕ} (hother : other ∈ position peg) : disk < other :=
  htop.elsewhereLarger peg hpeg disk (List.mem_append_right _ (List.mem_singleton_self disk))
    other hother

/-- After the largest disk has moved, the others are ready on the auxiliary peg. -/
theorem SmallestOnTop.onAuxiliary (htop : SmallestOnTop position A (small ++ [disk]) below)
    (hAB : A ≠ B) (hAC : A ≠ C) (hBC : B ≠ C) :
    SmallestOnTop ((position.transfer A B small (disk :: below)).transfer A C [disk] below)
      B small (position B) where
  carried := by
    rw [Position.transfer_other hAB.symm hBC, Position.transfer_target]
  ordered := htop.front.ordered
  belowLarger := htop.front.elsewhereLarger B hAB.symm
  elsewhereLarger peg hpeg d hd other hother := by
    have hbelow := htop.front.belowLarger d hd
    by_cases hpegA : peg = A
    · subst hpegA
      rw [Position.transfer_source hAC] at hother
      exact hbelow other (List.mem_cons_of_mem disk hother)
    by_cases hpegC : peg = C
    · subst hpegC
      rw [Position.transfer_target, Position.transfer_other hpegA hpeg] at hother
      cases List.mem_cons.mp hother with
      | inl hdisk => exact hdisk ▸ hbelow disk List.mem_cons_self
      | inr hrest => exact htop.front.elsewhereLarger peg hpegA d hd other hrest
    · rw [Position.transfer_other hpegA hpegC, Position.transfer_other hpegA hpeg] at hother
      exact htop.front.elsewhereLarger peg hpegA d hd other hother

theorem Position.transfer_three (hAB : A ≠ B) (hAC : A ≠ C) (hBC : B ≠ C) :
    ((position.transfer A B small (disk :: below)).transfer A C [disk] below).transfer
        B C small (position B) = position.transfer A C (small ++ [disk]) below := by
  funext peg
  by_cases hB : peg = B
  · subst hB
    rw [transfer_source hBC, transfer_other hAB.symm hBC]
  by_cases hC : peg = C
  · subst hC
    rw [transfer_target, transfer_target, transfer_other hAC.symm hBC.symm, transfer_target,
      List.append_assoc]
  by_cases hA : peg = A
  · subst hA
    rw [transfer_other hAB hAC, transfer_source hAC, transfer_source hAC]
  · rw [transfer_other hB hC, transfer_other hA hC, transfer_other hA hB, transfer_other hA hC]

theorem two_pow_moves (n : ℕ) : 2 ^ (n + 1) - 1 + (2 ^ (n + 1) - 1 + 1) = 2 ^ (n + 2) - 1 := by
  have hpositive : 0 < 2 ^ (n + 1) := Nat.two_pow_pos (n + 1)
  have hdouble : 2 ^ (n + 2) = 2 ^ (n + 1) * 2 := pow_succ 2 (n + 1)
  omega

theorem hanoi_run (n : ℕ) : ∀ {A B C : Char} {position : Position} {small below : List ℕ},
    A ≠ B → A ≠ C → B ≠ C → small.length = n + 1 → SmallestOnTop position A small below →
    ∃ moves, hanoi (n + 1) A B C = some moves ∧ moves.length = 2 ^ (n + 1) - 1 ∧
      (puzzle start).run position moves = some (position.transfer A C small below) := by
  induction n with
  | zero =>
      intro A B C position small below _ hAC _ hlength htop
      obtain ⟨disk, rfl⟩ := List.length_eq_one_iff.mp hlength
      have hmove := Position.move_of_larger hAC htop.carried
        (htop.elsewhereLarger C hAC.symm disk (List.mem_singleton_self disk))
      refine ⟨[⟨A, C⟩], rfl, rfl, ?_⟩
      exact TransitionSystem.run_cons_eq_some.mpr ⟨_, hmove, rfl⟩
  | succ n ih =>
      intro A B C position small below hAB hAC hBC hlength htop
      have hsome : small ≠ [] := List.ne_nil_of_length_eq_add_one hlength
      obtain ⟨front, disk, rfl⟩ := (List.eq_nil_or_concat' small).resolve_left hsome
      have hfront : front.length = n + 1 := by simpa using hlength
      obtain ⟨before, hbefore, hcountBefore, hrunBefore⟩ :=
        ih hAC hAB hBC.symm hfront htop.front
      obtain ⟨after, hafter, hcountAfter, hrunAfter⟩ :=
        ih hAB.symm hBC hAC hfront (htop.onAuxiliary hAB hAC hBC)
      have hlargest : (position.transfer A B front (disk :: below)).move ⟨A, C⟩ =
          some ((position.transfer A B front (disk :: below)).transfer A C [disk] below) := by
        apply Position.move_of_larger hAC (Position.transfer_source hAB)
        intro other hother
        rw [Position.transfer_other hAC.symm hBC.symm] at hother
        exact htop.largest hAC.symm hother
      refine ⟨before ++ ⟨A, C⟩ :: after, ?_, ?_, ?_⟩
      · simp [hanoi, hbefore, hafter]
      · rw [List.length_append, List.length_cons, hcountBefore, hcountAfter]
        exact two_pow_moves n
      · rw [TransitionSystem.run_append_eq_some]
        refine ⟨_, hrunBefore, ?_⟩
        rw [TransitionSystem.run_cons_eq_some]
        refine ⟨_, hlargest, ?_⟩
        rw [hrunAfter, Position.transfer_three hAB hAC hBC]

/-- Every move is legal, the tower arrives on the third peg, and all else stays. -/
theorem hanoi_solves {n : ℕ} (hn : 1 ≤ n) {A B C : Char} (hAB : A ≠ B) (hAC : A ≠ C)
    (hBC : B ≠ C) {position : Position} {small below : List ℕ} (hlength : small.length = n)
    (htop : SmallestOnTop position A small below) :
    ∃ moves, hanoi n A B C = some moves ∧ moves.length = 2 ^ n - 1 ∧
      (puzzle position).run position moves = some (position.transfer A C small below) := by
  obtain ⟨m, rfl⟩ := Nat.exists_eq_add_of_le' hn
  exact hanoi_run m hAB hAC hBC hlength htop

def twoOnThree : Position := fun peg =>
  if peg = 'A' then [1, 2, 5] else if peg = 'B' then [4] else if peg = 'C' then [3, 6] else []

theorem twoOnThree_smallestOnTop : SmallestOnTop twoOnThree 'A' [1, 2] [5] where
  carried := rfl
  ordered := by decide
  belowLarger := by decide
  elsewhereLarger peg hpeg := by
    have hdisks : twoOnThree peg ∈ [[4], [3, 6], []] := by
      simp only [twoOnThree, if_neg hpeg]
      split
      · decide
      · split
        · decide
        · decide
    have hlarger : ∀ disks ∈ [[4], [3, 6], []], ∀ disk ∈ [1, 2], ∀ other ∈ disks, disk < other := by
      decide
    exact hlarger _ hdisks

theorem hanoi_solves_two :
    ∃ moves, hanoi 2 'A' 'B' 'C' = some moves ∧ moves.length = 3 ∧
      (puzzle twoOnThree).run twoOnThree moves =
        some (twoOnThree.transfer 'A' 'C' [1, 2] [5]) :=
  hanoi_solves (by decide) (by decide) (by decide) (by decide) rfl twoOnThree_smallestOnTop

end CppProj.Hanoi
