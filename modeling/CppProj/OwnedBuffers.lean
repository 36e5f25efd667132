import CppProj.ListUpdate
import Mathlib.Data.List.Basic
import Mathlib.Logic.Function.Basic
import Mathlib.Tactic.Common

/-!
# Buffers on a heap and their owners

A buffer is an array allocated with `new[]`.  A cell holds `none` until it is written.
Addresses are positions in the heap, a buffer that has been released leaves its position
empty, and a pointer is an address or null.

The second part is about ownership: of a number of owners with one pointer each, no two
hold the same buffer, and every live buffer is held.  The rules say how acquiring, releasing
and handing over keep that.
-/

universe u v

namespace OwnedBuffers

open ListUpdate

/-- Undefined accesses, and the refusal of `new` to make an array of negative length. -/
inductive Fault where
  | nullDereference
  | useAfterFree
  | doubleFree
  | outOfBounds
  | indeterminate
  | overflow
  | badArrayNewLength
  deriving DecidableEq

variable {α : Type u}

abbrev Cells (α : Type u) := List (Option α)

abbrev Heap (α : Type u) := List (Option (Cells α))

@[simp] theorem ok_bind {β γ : Type v} (result : β) (next : β → Except Fault γ) :
    (Except.ok result >>= next) = next result := rfl

theorem bind_eq_ok_iff {β γ : Type v} {first : Except Fault β} {next : β → Except Fault γ}
    {result : γ} :
    (first >>= next) = .ok result ↔ ∃ value, first = .ok value ∧ next value = .ok result := by
  cases first with
  | ok value => simp
  | error fault =>
      refine iff_of_false (fun heq => by cases heq) ?_
      rintro ⟨value, heq, -⟩
      cases heq

/-- One of the places that are left in a buffer. -/
theorem replicate_sub_eq_cons {used size : ℕ} (hroom : used < size) (cell : α) :
    List.replicate (size - used) cell = cell :: List.replicate (size - (used + 1)) cell := by
  have hleft : size - used = size - (used + 1) + 1 := by omega
  rw [hleft, List.replicate_succ]

namespace Heap

def lookup (heap : Heap α) (address : ℕ) : Option (Cells α) := heap[address]?.join

def Live (heap : Heap α) (address : ℕ) : Prop := heap.lookup address ≠ none

def fresh (heap : Heap α) : ℕ := heap.length

def allocate (heap : Heap α) (cells : ℕ) : Heap α :=
  heap ++ [some (List.replicate cells none)]

/-- `delete[]` does nothing with a null pointer. -/
def release (heap : Heap α) : Option ℕ → Except Fault (Heap α)
  | none => .ok heap
  | some address =>
      match heap.lookup address with
      | none => .error .doubleFree
      | some _ => .ok (heap.set address none)

def store (heap : Heap α) (address : ℕ) (cells : Cells α) : Heap α :=
  heap.set address (some cells)

def buffer (heap : Heap α) : Option ℕ → Except Fault (Cells α)
  | none => .error .nullDereference
  | some address =>
      match heap.lookup address with
      | none => .error .useAfterFree
      | some cells => .ok cells

def read (heap : Heap α) (pointer : Option ℕ) (index : ℕ) : Except Fault (Option α) := do
  let cells ← heap.buffer pointer
  match cells[index]? with
  | none => .error .outOfBounds
  | some cell => .ok cell

def write (heap : Heap α) (address index : ℕ) (cell : Option α) : Except Fault (Heap α) := do
  let cells ← heap.buffer (some address)
  if index < cells.length then .ok (heap.store address (cells.set index cell))
  else .error .outOfBounds

variable {heap : Heap α} {address other : ℕ} {cells : Cells α}

theorem lookup_fresh (heap : Heap α) : heap.lookup heap.fresh = none := by
  simp [lookup, fresh]

theorem ne_fresh_of_lookup (hlookup : heap.lookup address = some cells) :
    address ≠ heap.fresh := by
  rintro rfl
  rw [lookup_fresh] at hlookup
  cases hlookup

theorem lookup_allocate_fresh (heap : Heap α) (count : ℕ) :
    (heap.allocate count).lookup heap.fresh = some (List.replicate count none) := by
  simp [lookup, allocate, fresh]

theorem lookup_allocate_of_ne (hne : address ≠ heap.fresh) (count : ℕ) :
    (heap.allocate count).lookup address = heap.lookup address := by
  unfold lookup allocate
  rcases Nat.lt_or_gt_of_ne hne with hlt | hgt
  · rw [List.getElem?_append_left hlt]
  · unfold fresh at hgt
    rw [List.getElem?_eq_none (by simp; omega), List.getElem?_eq_none (by omega)]

theorem lt_length_of_live (hlive : heap.Live address) : address < heap.length := by
  by_contra hge
  exact hlive (by simp [lookup, List.getElem?_eq_none (Nat.not_lt.mp hge)])

theorem lookup_store_self (hlive : heap.Live address) (cells : Cells α) :
    (heap.store address cells).lookup address = some cells := by
  simp [lookup, store, lt_length_of_live hlive]

theorem lookup_store_of_ne (hne : address ≠ other) (cells : Cells α) :
    (heap.store address cells).lookup other = heap.lookup other := by
  rw [lookup, store, ListUpdate.getElem?_set_of_ne hne]
  rfl

theorem lookup_set_none_self (heap : Heap α) (address : ℕ) :
    (lookup (heap.set address none) address) = none := by
  rw [lookup, List.getElem?_set]
  split
  · split
    · rfl
    · rfl
  · rename_i hne
    exact (hne rfl).elim

theorem lookup_set_none_of_ne (hne : address ≠ other) :
    lookup (heap.set address none) other = heap.lookup other := by
  rw [lookup, ListUpdate.getElem?_set_of_ne hne]
  rfl

theorem store_of_lookup (hlookup : heap.lookup address = some cells) :
    heap.store address cells = heap := by
  have hlive : heap.Live address := by
    rw [Live, hlookup]
    exact Option.some_ne_none _
  have hlt := lt_length_of_live hlive
  have hget : heap[address] = some cells := by
    simpa [lookup, List.getElem?_eq_getElem hlt] using hlookup
  rw [store, ← hget]
  exact List.set_getElem_self hlt

theorem store_store (heap : Heap α) (address : ℕ) (first second : Cells α) :
    (heap.store address first).store address second = heap.store address second :=
  List.set_set ..

theorem live_of_lookup (hlookup : heap.lookup address = some cells) : heap.Live address := by
  rw [Live, hlookup]
  exact Option.some_ne_none _

theorem live_store_iff (hlive : heap.Live address) (cells : Cells α) :
    (heap.store address cells).Live other ↔ heap.Live other := by
  by_cases heq : address = other
  · subst heq
    simp [Live, lookup_store_self hlive]
    exact hlive
  · simp [Live, lookup_store_of_ne heq]

theorem live_set_none_iff :
    Live (heap.set address none) other ↔ heap.Live other ∧ other ≠ address := by
  by_cases heq : address = other
  · subst heq
    simp [Live, lookup_set_none_self]
  · simp [Live, lookup_set_none_of_ne heq, Ne.symm heq]

theorem release_of_lookup (hlookup : heap.lookup address = some cells) :
    heap.release (some address) = .ok (heap.set address none) := by
  simp [release, hlookup]

theorem read_of_lookup (hlookup : heap.lookup address = some cells) {index : ℕ}
    {cell : Option α} (hcell : cells[index]? = some cell) :
    heap.read (some address) index = .ok cell := by
  simp [read, buffer, hlookup, hcell]

theorem write_of_lookup (hlookup : heap.lookup address = some cells) {index : ℕ}
    (hindex : index < cells.length) (cell : Option α) :
    heap.write address index cell = .ok (heap.store address (cells.set index cell)) := by
  simp [write, buffer, hlookup, hindex]

end Heap

/-! ## A heap with a new buffer -/

/-- The second heap has one more buffer than the first, with these cells. -/
structure NewBuffer (heap next : Heap α) (cells : Cells α) : Prop where
  lookup_new : next.lookup heap.fresh = some cells
  lookup_other : ∀ address, address ≠ heap.fresh → next.lookup address = heap.lookup address

namespace NewBuffer

variable {heap next : Heap α} {cells : Cells α}

theorem live_iff (hnew : NewBuffer heap next cells) (address : ℕ) :
    next.Live address ↔ heap.Live address ∨ address = heap.fresh := by
  by_cases heq : address = heap.fresh
  · subst heq
    simp [Heap.Live, hnew.lookup_new]
  · simp [Heap.Live, hnew.lookup_other address heq, heq]

theorem allocate (heap : Heap α) (count : ℕ) :
    NewBuffer heap (heap.allocate count) (List.replicate count none) :=
  ⟨heap.lookup_allocate_fresh count, fun _ hne => Heap.lookup_allocate_of_ne hne count⟩

theorem store (hnew : NewBuffer heap next cells) (others : Cells α) :
    NewBuffer heap (next.store heap.fresh others) others :=
  ⟨Heap.lookup_store_self (Heap.live_of_lookup hnew.lookup_new) others,
    fun address hne => (Heap.lookup_store_of_ne (Ne.symm hne) others).trans
      (hnew.lookup_other address hne)⟩

end NewBuffer

/-! ## Loops over buffers -/

section Loops

/-- `for (i = ..; ..; i++) dst[i] = src[i - shift]`, with so many passes left. -/
def copyLoop (src : Option ℕ) (dst shift : ℕ) : ℕ → ℕ → Heap α → Except Fault (Heap α)
  | 0, _, heap => .ok heap
  | passes + 1, i, heap => do
      let cell ← heap.read src (i - shift)
      let heap ← heap.write dst i cell
      copyLoop src dst shift passes (i + 1) heap

/-- `for (i = ..; ..; i++) dst[i] = value`, with so many passes left. -/
def fillLoop (dst : ℕ) (value : α) : ℕ → ℕ → Heap α → Except Fault (Heap α)
  | 0, _, heap => .ok heap
  | passes + 1, i, heap => do
      let heap ← heap.write dst i (some value)
      fillLoop dst value passes (i + 1) heap

def writeAll (dst : ℕ) : List α → ℕ → Heap α → Except Fault (Heap α)
  | [], _, heap => .ok heap
  | value :: rest, i, heap => do
      let heap ← heap.write dst i (some value)
      writeAll dst rest (i + 1) heap

/-- The cells from `start` on can be read. -/
def Reads (heap : Heap α) (src : Option ℕ) (start : ℕ) (piece : Cells α) : Prop :=
  ∀ index cell, piece[index]? = some cell → heap.read src (start + index) = .ok cell

variable {heap : Heap α} {src : Option ℕ} {dst : ℕ}

theorem Reads.nil (heap : Heap α) (src : Option ℕ) (start : ℕ) : Reads heap src start [] := by
  intro index cell hcell
  cases hcell

theorem Reads.of_lookup {address : ℕ} {cells : Cells α}
    (hlookup : heap.lookup address = some cells) : Reads heap (some address) 0 cells := by
  intro index cell hcell
  rw [Nat.zero_add]
  exact Heap.read_of_lookup hlookup hcell

theorem Reads.tail {start : ℕ} {cell : Option α} {piece : Cells α}
    (hreads : Reads heap src start (cell :: piece)) : Reads heap src (start + 1) piece := by
  intro index other hcell
  rw [Nat.add_assoc, Nat.add_comm 1 index]
  exact hreads (index + 1) other hcell

theorem Reads.left {start : ℕ} {piece rest : Cells α}
    (hreads : Reads heap src start (piece ++ rest)) : Reads heap src start piece := by
  intro index cell hcell
  have hlt := (List.getElem?_eq_some_iff.mp hcell).1
  exact hreads index cell (by rw [List.getElem?_append_left hlt]; exact hcell)

/-- What happens to other buffers does not matter to the reader. -/
theorem Reads.congr {start : ℕ} {piece : Cells α} (hreads : Reads heap src start piece)
    {next : Heap α} (hkept : ∀ address, src = some address →
      next.lookup address = heap.lookup address) : Reads next src start piece := by
  intro index cell hcell
  have hread := hreads index cell hcell
  cases src with
  | none => exact hread
  | some address =>
      simp only [Heap.read, Heap.buffer] at hread ⊢
      rw [hkept address rfl]
      exact hread

theorem write_next {front rest : Cells α} {old : Option α}
    (hdst : heap.lookup dst = some (front ++ old :: rest)) (cell : Option α) :
    heap.write dst front.length cell = .ok (heap.store dst (front ++ cell :: rest)) := by
  have hindex : front.length < (front ++ old :: rest).length := by
    simp
  rw [Heap.write_of_lookup hdst hindex]
  simp [List.set_append_right]

theorem copyLoop_spec (piece : Cells α) : ∀ (front old rest : Cells α) (shift : ℕ)
    (heap : Heap α), heap.lookup dst = some (front ++ (old ++ rest)) →
      old.length = piece.length → (shift ≤ front.length) → src ≠ some dst →
      Reads heap src (front.length - shift) piece →
      copyLoop src dst shift piece.length front.length heap =
        .ok (heap.store dst (front ++ (piece ++ rest))) := by
  induction piece with
  | nil =>
      intro front old rest shift heap hdst hold _ _ _
      have hnone : old = [] := List.length_eq_zero_iff.mp hold
      subst hnone
      rw [Heap.store_of_lookup hdst]
      rfl
  | cons cell piece ih =>
      intro front old rest shift heap hdst hold hshift hne hreads
      obtain ⟨first, others, rfl⟩ := List.exists_cons_of_length_eq_add_one hold
      have hread : heap.read src (front.length - shift) = .ok cell := hreads 0 cell rfl
      have hlive : heap.Live dst := Heap.live_of_lookup hdst
      have hnext : (heap.store dst (front ++ cell :: (others ++ rest))).lookup dst =
          some ((front ++ [cell]) ++ (others ++ rest)) := by
        rw [Heap.lookup_store_self hlive, List.append_assoc]
        rfl
      have hlength : (front ++ [cell]).length = front.length + 1 := by
        simp
      have hlater : Reads (heap.store dst (front ++ cell :: (others ++ rest))) src
          ((front ++ [cell]).length - shift) piece := by
        rw [hlength, Nat.sub_add_comm hshift]
        refine hreads.tail.congr ?_
        rintro address rfl
        exact Heap.lookup_store_of_ne (fun h => hne (by rw [h])) _
      have hrest := ih (front ++ [cell]) others rest shift _ hnext
        (Nat.succ.inj hold) (by rw [hlength]; omega) hne hlater
      rw [hlength] at hrest
      rw [List.length_cons, copyLoop, hread, ok_bind, List.cons_append] at *
      rw [write_next hdst, ok_bind, hrest, Heap.store_store]
      simp

theorem fillLoop_spec (value : α) (passes : ℕ) : ∀ (front old rest : Cells α) (heap : Heap α),
    heap.lookup dst = some (front ++ (old ++ rest)) → old.length = passes →
      fillLoop dst value passes front.length heap =
        .ok (heap.store dst (front ++ (List.replicate passes (some value) ++ rest))) := by
  induction passes with
  | zero =>
      intro front old rest heap hdst hold
      have hnone : old = [] := List.length_eq_zero_iff.mp hold
      subst hnone
      rw [List.replicate_zero, Heap.store_of_lookup hdst]
      rfl
  | succ passes ih =>
      intro front old rest heap hdst hold
      obtain ⟨first, others, rfl⟩ := List.exists_cons_of_length_eq_add_one hold
      have hlive : heap.Live dst := Heap.live_of_lookup hdst
      have hnext : (heap.store dst (front ++ some value :: (others ++ rest))).lookup dst =
          some ((front ++ [some value]) ++ (others ++ rest)) := by
        rw [Heap.lookup_store_self hlive, List.append_assoc]
        rfl
      have hlength : (front ++ [some value]).length = front.length + 1 := by
        simp
      have hrest := ih (front ++ [some value]) others rest _ hnext (Nat.succ.inj hold)
      rw [hlength] at hrest
      rw [List.cons_append] at hdst
      rw [fillLoop, write_next hdst, ok_bind, hrest, Heap.store_store, List.replicate_succ]
      simp

theorem writeAll_spec (values : List α) : ∀ (front old rest : Cells α) (heap : Heap α),
    heap.lookup dst = some (front ++ (old ++ rest)) → old.length = values.length →
      writeAll dst values front.length heap =
        .ok (heap.store dst (front ++ (values.map some ++ rest))) := by
  induction values with
  | nil =>
      intro front old rest heap hdst hold
      have hnone : old = [] := List.length_eq_zero_iff.mp hold
      subst hnone
      rw [List.map_nil, Heap.store_of_lookup hdst]
      rfl
  | cons value values ih =>
      intro front old rest heap hdst hold
      obtain ⟨first, others, rfl⟩ := List.exists_cons_of_length_eq_add_one hold
      have hlive : heap.Live dst := Heap.live_of_lookup hdst
      have hnext : (heap.store dst (front ++ some value :: (others ++ rest))).lookup dst =
          some ((front ++ [some value]) ++ (others ++ rest)) := by
        rw [Heap.lookup_store_self hlive, List.append_assoc]
        rfl
      have hlength : (front ++ [some value]).length = front.length + 1 := by
        simp
      have hrest := ih (front ++ [some value]) others rest _ hnext (Nat.succ.inj hold)
      rw [hlength] at hrest
      rw [List.cons_append] at hdst
      rw [writeAll, write_next hdst, ok_bind, hrest, Heap.store_store, List.map_cons]
      simp

theorem writeAll_too_long (values : List α) : ∀ (index : ℕ) (heap : Heap α) (cells : Cells α),
    heap.lookup dst = some cells → cells.length < index + values.length → values ≠ [] →
      writeAll dst values index heap = .error .outOfBounds := by
  induction values with
  | nil => exact fun _ _ _ _ _ hne => (hne rfl).elim
  | cons value values ih =>
      intro index heap cells hdst hlong _
      rw [List.length_cons] at hlong
      by_cases hindex : index < cells.length
      · have hlive : heap.Live dst := Heap.live_of_lookup hdst
        have hrest := ih (index + 1) (heap.store dst (cells.set index (some value))) _
          (Heap.lookup_store_self hlive _) (by rw [List.length_set]; omega)
          (by rintro rfl; rw [List.length_nil] at hlong; omega)
        rw [writeAll, Heap.write_of_lookup hdst hindex, ok_bind, hrest]
      · have hwrite : heap.write dst index (some value) = .error .outOfBounds := by
          simp [Heap.write, Heap.buffer, hdst, hindex]
        rw [writeAll, hwrite]
        rfl

end Loops

/-! ## Owners -/

/-- No two owners hold the same address, and the addresses held are the live ones. -/
structure SoleOwnership {Owner Address : Type*} (points : Owner → Option Address)
    (live : Address → Prop) : Prop where
  unique : ∀ first second address, points first = some address →
    points second = some address → first = second
  held_iff : ∀ address, live address ↔ ∃ owner, points owner = some address

namespace SoleOwnership

variable {Owner Address : Type*} {points : Owner → Option Address} {live : Address → Prop}

theorem live_of_points (hown : SoleOwnership points live) {owner : Owner} {address : Address}
    (hpoints : points owner = some address) : live address :=
  (hown.held_iff address).mpr ⟨owner, hpoints⟩

theorem not_live (hown : SoleOwnership points live) (hnone : ∀ owner, points owner = none)
    (address : Address) : ¬ live address := by
  intro hlive
  obtain ⟨owner, hpoints⟩ := (hown.held_iff address).mp hlive
  rw [hnone owner] at hpoints
  cases hpoints

theorem congr (hown : SoleOwnership points live) {other : Owner → Option Address}
    {still : Address → Prop} (hpoints : ∀ owner, other owner = points owner)
    (hlive : ∀ address, still address ↔ live address) : SoleOwnership other still := by
  obtain rfl : other = points := funext hpoints
  exact ⟨hown.unique, fun address => (hlive address).trans (hown.held_iff address)⟩

variable [DecidableEq Owner]

theorem acquire (hown : SoleOwnership points live) {owner : Owner} {address : Address}
    (hnone : points owner = none) (hnew : ¬ live address) :
    SoleOwnership (Function.update points owner (some address))
      (fun other => live other ∨ other = address) := by
  have hfree : ∀ holder, points holder ≠ some address :=
    fun holder hholder => hnew (hown.live_of_points hholder)
  constructor
  · intro first second held hfirst hsecond
    by_cases hone : first = owner
    · subst hone
      rw [Function.update_self] at hfirst
      cases hfirst
      by_contra hne
      rw [Function.update_of_ne (Ne.symm hne)] at hsecond
      exact hfree _ hsecond
    · rw [Function.update_of_ne hone] at hfirst
      by_cases htwo : second = owner
      · subst htwo
        rw [Function.update_self] at hsecond
        cases hsecond
        exact (hfree _ hfirst).elim
      · rw [Function.update_of_ne htwo] at hsecond
        exact hown.unique _ _ _ hfirst hsecond
  · intro other
    constructor
    · rintro (hlive | rfl)
      · obtain ⟨holder, hholder⟩ := (hown.held_iff other).mp hlive
        refine ⟨holder, ?_⟩
        rw [Function.update_of_ne]
        · exact hholder
        · rintro rfl
          rw [hnone] at hholder
          cases hholder
      · exact ⟨owner, Function.update_self ..⟩
    · rintro ⟨holder, hholder⟩
      by_cases heq : holder = owner
      · subst heq
        rw [Function.update_self] at hholder
        cases hholder
        exact Or.inr rfl
      · rw [Function.update_of_ne heq] at hholder
        exact Or.inl (hown.live_of_points hholder)

theorem release (hown : SoleOwnership points live) {owner : Owner} {address : Address}
    (hpoints : points owner = some address) :
    SoleOwnership (Function.update points owner none)
      (fun other => live other ∧ other ≠ address) := by
  constructor
  · intro first second held hfirst hsecond
    have hone : first ≠ owner := by
      rintro rfl
      rw [Function.update_self] at hfirst
      cases hfirst
    have htwo : second ≠ owner := by
      rintro rfl
      rw [Function.update_self] at hsecond
      cases hsecond
    rw [Function.update_of_ne hone] at hfirst
    rw [Function.update_of_ne htwo] at hsecond
    exact hown.unique _ _ _ hfirst hsecond
  · intro other
    constructor
    · rintro ⟨hlive, hne⟩
      obtain ⟨holder, hholder⟩ := (hown.held_iff other).mp hlive
      refine ⟨holder, ?_⟩
      rw [Function.update_of_ne]
      · exact hholder
      · rintro rfl
        rw [hpoints] at hholder
        cases hholder
        exact hne rfl
    · rintro ⟨holder, hholder⟩
      have hne : holder ≠ owner := by
        rintro rfl
        rw [Function.update_self] at hholder
        cases hholder
      rw [Function.update_of_ne hne] at hholder
      refine ⟨hown.live_of_points hholder, ?_⟩
      rintro rfl
      exact hne (hown.unique _ _ _ hholder hpoints)

theorem transfer (hown : SoleOwnership points live) {target source : Owner}
    (hnone : points target = none) (hne : target ≠ source) :
    SoleOwnership
      (Function.update (Function.update points target (points source)) source none) live := by
  have hafter : ∀ holder address,
      Function.update (Function.update points target (points source)) source none holder =
          some address ↔
        holder ≠ source ∧ (holder = target ∧ points source = some address ∨
          holder ≠ target ∧ points holder = some address) := by
    intro holder address
    by_cases hsource : holder = source
    · subst hsource
      simp
    · rw [Function.update_of_ne hsource]
      by_cases htarget : holder = target
      · subst htarget
        simp [hsource]
      · simp [hsource, htarget]
  constructor
  · intro first second address hfirst hsecond
    obtain ⟨hone, hfirstHeld⟩ := (hafter first address).mp hfirst
    obtain ⟨htwo, hsecondHeld⟩ := (hafter second address).mp hsecond
    rcases hfirstHeld with ⟨hfirstIs, hmoved⟩ | ⟨_, hkept⟩
    · rcases hsecondHeld with ⟨hsecondIs, _⟩ | ⟨_, hkept⟩
      · exact hfirstIs.trans hsecondIs.symm
      · exact (htwo (hown.unique _ _ _ hkept hmoved)).elim
    · rcases hsecondHeld with ⟨_, hmoved⟩ | ⟨_, hother⟩
      · exact (hone (hown.unique _ _ _ hkept hmoved)).elim
      · exact hown.unique _ _ _ hkept hother
  · intro address
    rw [hown.held_iff]
    constructor
    · rintro ⟨holder, hholder⟩
      by_cases hsource : holder = source
      · subst hsource
        exact ⟨target, (hafter _ _).mpr ⟨hne, Or.inl ⟨rfl, hholder⟩⟩⟩
      · refine ⟨holder, (hafter _ _).mpr ⟨hsource, Or.inr ⟨?_, hholder⟩⟩⟩
        rintro rfl
        rw [hnone] at hholder
        cases hholder
    · rintro ⟨holder, hholder⟩
      obtain ⟨_, ⟨_, hfound⟩ | ⟨_, hfound⟩⟩ := (hafter _ _).mp hholder
      · exact ⟨source, hfound⟩
      · exact ⟨holder, hfound⟩

end SoleOwnership

/-! ## Owners kept in a list -/

section Slots

variable {β : Type u} {γ : Type v} {items : List (Option β)} {index : ℕ}

theorem points_set (pointer : β → Option γ) (hlt : index < items.length) (item : Option β) :
    (fun owner => (slot (items.set index item) owner).bind pointer) =
      Function.update (fun owner => (slot items owner).bind pointer) index
        (item.bind pointer) := by
  funext owner
  by_cases heq : owner = index
  · subst heq
    rw [slot_set_self hlt, Function.update_self]
  · rw [slot_set_of_ne (Ne.symm heq), Function.update_of_ne heq]

end Slots

/-! ## Objects with a buffer each -/

section Objects

variable {Object Value : Type*} (address : Object → ℕ)
  (Describes : Cells α → Object → Value → Prop)

/-- No object and no value, or an object whose buffer has the cells for the value. -/
inductive Agrees (heap : Heap α) : Option Object → Option Value → Prop where
  | vacant : Agrees heap none none
  | live {object : Object} {value : Value} {cells : Cells α}
      (hlookup : heap.lookup (address object) = some cells)
      (hdescribes : Describes cells object value) : Agrees heap (some object) (some value)

/-- The live objects own the live buffers one to one, and each agrees with its value. -/
structure Represents (objects : List (Option Object)) (values : List (Option Value))
    (heap : Heap α) : Prop where
  length : values.length = objects.length
  ownership : SoleOwnership (fun index => (slot objects index).bind (some ∘ address)) heap.Live
  agrees : ∀ index, Agrees address Describes heap (slot objects index) (slot values index)

variable {address Describes} {objects : List (Option Object)} {values : List (Option Value)}
  {heap next : Heap α} {index : ℕ} {object : Object} {value : Value} {cells : Cells α}

theorem Agrees.congr {item : Option Object} {entry : Option Value}
    (hagrees : Agrees address Describes heap item entry)
    (hkept : ∀ object, item = some object → next.lookup (address object) =
      heap.lookup (address object)) : Agrees address Describes next item entry := by
  cases hagrees with
  | vacant => exact .vacant
  | live hlookup hdescribes => exact .live ((hkept _ rfl).trans hlookup) hdescribes

namespace Represents

theorem nil : Represents address Describes [] [] ([] : Heap α) where
  length := rfl
  ownership := by
    constructor
    · intro first second held hfirst
      cases hfirst
    · intro held
      constructor
      · exact fun hlive => (hlive rfl).elim
      · rintro ⟨owner, howner⟩
        cases howner
  agrees _ := .vacant

theorem vacant (hrep : Represents address Describes objects values heap)
    (hnone : slot objects index = none) : slot values index = none := by
  have hagrees := hrep.agrees index
  rw [hnone] at hagrees
  generalize slot values index = entry at hagrees ⊢
  cases hagrees
  rfl

theorem described (hrep : Represents address Describes objects values heap)
    (hobject : slot objects index = some object) :
    ∃ value cells, slot values index = some value ∧
      heap.lookup (address object) = some cells ∧ Describes cells object value := by
  have hagrees := hrep.agrees index
  rw [hobject] at hagrees
  generalize slot values index = entry at hagrees ⊢
  cases hagrees with
  | live hlookup hdescribes => exact ⟨_, _, rfl, hlookup, hdescribes⟩

theorem address_ne (hrep : Represents address Describes objects values heap) {other : ℕ}
    {holder : Object} (hobject : slot objects index = some object)
    (hother : slot objects other = some holder) (hne : other ≠ index) :
    address object ≠ address holder := by
  intro hsame
  exact hne (hrep.ownership.unique other index (address object) (by rw [hother, hsame]; rfl)
    (by rw [hobject]; rfl))

/-- One entry may change where the buffers of the others are kept. -/
theorem set (hrep : Represents address Describes objects values heap)
    (hlt : index < objects.length) {item : Option Object} {entry : Option Value}
    (hownership : SoleOwnership (Function.update
      (fun index => (slot objects index).bind (some ∘ address)) index
        (item.bind (some ∘ address))) next.Live)
    (hothers : ∀ other holder, other ≠ index → slot objects other = some holder →
      next.lookup (address holder) = heap.lookup (address holder))
    (hitem : Agrees address Describes next item entry) :
    Represents address Describes (objects.set index item) (values.set index entry) next where
  length := by simp [hrep.length]
  ownership := by
    rw [points_set (some ∘ address) hlt]
    exact hownership
  agrees other := by
    by_cases heq : other = index
    · subst heq
      rw [slot_set_self hlt, slot_set_self (hrep.length ▸ hlt)]
      exact hitem
    · rw [slot_set_of_ne (Ne.symm heq), slot_set_of_ne (Ne.symm heq)]
      exact (hrep.agrees other).congr fun holder hholder => hothers other holder heq hholder

theorem append_none (hrep : Represents address Describes objects values heap) :
    Represents address Describes (objects ++ [none]) (values ++ [none]) heap where
  length := by simp [hrep.length]
  ownership := by
    refine hrep.ownership.congr ?_ (fun _ => Iff.rfl)
    intro owner
    rw [slot_append_none]
  agrees other := by
    rw [slot_append_none, slot_append_none]
    exact hrep.agrees other

theorem put_new (hrep : Represents address Describes objects values heap)
    (hlt : index < objects.length) (hnone : slot objects index = none)
    (hnew : NewBuffer heap next cells) (haddress : address object = heap.fresh)
    (hdescribes : Describes cells object value) :
    Represents address Describes (objects.set index (some object)) (values.set index (some value))
      next := by
  refine hrep.set hlt ?_ ?_ (.live (haddress ▸ hnew.lookup_new) hdescribes)
  · have hpoints : (slot objects index).bind (some ∘ address) = none := by
      rw [hnone]
      rfl
    rw [Option.bind_some, Function.comp_apply, haddress]
    exact (hrep.ownership.acquire hpoints fun hlive => hlive heap.lookup_fresh).congr
      (fun _ => rfl) hnew.live_iff
  · intro other holder _ hholder
    obtain ⟨_, _, _, hlookup, _⟩ := hrep.described hholder
    exact hnew.lookup_other _ (Heap.ne_fresh_of_lookup hlookup)

theorem add_new (hrep : Represents address Describes objects values heap)
    (hnew : NewBuffer heap next cells) (haddress : address object = heap.fresh)
    (hdescribes : Describes cells object value) :
    Represents address Describes (objects ++ [some object]) (values ++ [some value]) next := by
  rw [append_eq_set objects, append_eq_set values, hrep.length]
  exact hrep.append_none.put_new (by simp) (by simp [slot]) hnew haddress hdescribes

theorem release (hrep : Represents address Describes objects values heap)
    (hobject : slot objects index = some object) :
    ∃ released, heap.release (some (address object)) = .ok released ∧
      Represents address Describes (objects.set index none) (values.set index none) released := by
  have hlt := lt_length_of_slot hobject
  obtain ⟨_, _, _, hlookup, _⟩ := hrep.described hobject
  refine ⟨heap.set (address object) none, Heap.release_of_lookup hlookup, ?_⟩
  refine hrep.set hlt ?_ ?_ .vacant
  · have hpoints : (slot objects index).bind (some ∘ address) = some (address object) := by
      rw [hobject]
      rfl
    exact (hrep.ownership.release hpoints).congr (fun _ => rfl)
      (fun _ => Heap.live_set_none_iff)
  · intro other holder hne hholder
    exact Heap.lookup_set_none_of_ne (hrep.address_ne hobject hholder hne)

/-- An object whose cells change keeps its buffer, and the others keep theirs. -/
theorem store (hrep : Represents address Describes objects values heap)
    (hobject : slot objects index = some object) {after : Object}
    (haddress : address after = address object) (hdescribes : Describes cells after value) :
    Represents address Describes (objects.set index (some after)) (values.set index (some value))
      (heap.store (address object) cells) := by
  have hlt := lt_length_of_slot hobject
  obtain ⟨_, _, _, hlookup, _⟩ := hrep.described hobject
  have hlive := Heap.live_of_lookup hlookup
  have hstored : (heap.store (address object) cells).lookup (address after) = some cells := by
    rw [haddress]
    exact Heap.lookup_store_self hlive cells
  refine hrep.set hlt ?_ ?_ (.live hstored hdescribes)
  · refine hrep.ownership.congr ?_ (fun held => Heap.live_store_iff hlive cells)
    intro owner
    by_cases heq : owner = index
    · subst heq
      rw [Function.update_self, hobject, Option.bind_some, Option.bind_some,
        Function.comp_apply, Function.comp_apply, haddress]
    · rw [Function.update_of_ne heq]
  · intro other holder hne hholder
    exact Heap.lookup_store_of_ne (hrep.address_ne hobject hholder hne) cells

end Represents

end Objects

end OwnedBuffers
