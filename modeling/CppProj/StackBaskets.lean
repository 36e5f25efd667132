import CppProj.StackTemplate

/-!
# The baskets of `stkoptr1.cpp`

`main` pushes the items of one basket on a stack and pops them into another, as
`rand()` decides.  It looks at neither result of `push` and `pop`.
-/

namespace CppProj.StackBaskets

open OwnedBuffers CppProj.StackTemplate

def num : ℕ := 10

def inBasket : List String :=
  [" 1: Hank Gilgamesh", " 2: Kiki Ishtar", " 3: Betty Rocker", " 4: Ian Flagranti",
    " 5: Wolfgang Kibble", " 6: Portia Koop", " 7: Joy Almondo", " 8: Xaverie Paprika",
    " 9: Juan Moore", " 10: Misha Mache"]

/-- The variables of `main`, and how often `rand()` was called. -/
structure Main where
  heap : Heap String
  st : Stack
  out : List (Option String)
  processed : ℕ
  nextin : ℕ
  randoms : ℕ
  deriving DecidableEq

namespace Main

def start (stacksize : ℕ) : Main :=
  let result := Stack.construct [] stacksize
  { heap := result.1
    st := result.2
    out := List.replicate num none
    processed := 0
    nextin := 0
    randoms := 0 }

/-- `st.push(in[nextin++])`. -/
def pushNext (main : Main) : Except Fault Main :=
  match inBasket[main.nextin]? with
  | none => .error .outOfBounds
  | some item => do
      let result ← main.st.push main.heap item
      .ok { main with heap := result.1, st := result.2.1, nextin := main.nextin + 1 }

/-- `st.pop(out[processed++])`; nothing is stored when the stack has no item. -/
def popNext (main : Main) : Except Fault Main :=
  if main.processed < main.out.length then do
    let result ← main.st.pop main.heap
    match result.2 with
    | some item =>
        .ok { main with
          st := result.1
          out := main.out.set main.processed (some item)
          processed := main.processed + 1 }
    | none => .ok { main with st := result.1, processed := main.processed + 1 }
  else .error .outOfBounds

/-- The body of the loop, with whether each `rand() % 2` is true. -/
def iteration (rand : ℕ → Bool) (main : Main) : Except Fault Main :=
  if main.st.isempty then main.pushNext
  else if main.st.isfull then main.popNext
  else if rand main.randoms && main.nextin < num then
    { main with randoms := main.randoms + 1 }.pushNext
  else { main with randoms := main.randoms + 1 }.popNext

end Main

/-- The state after so many iterations; it stays where the loop has ended. -/
def after (stacksize : ℕ) (rand : ℕ → Bool) : ℕ → Except Fault Main
  | 0 => .ok (.start stacksize)
  | n + 1 => do
      let main ← after stacksize rand n
      if main.processed < num then main.iteration rand else .ok main

/-- No access is out of bounds, no item is lost on the way, and the loop ends with all of
them in the other basket. -/
structure SafeAndComplete (stacksize : ℕ) (rand : ℕ → Bool) : Prop where
  conserved : ∀ n, ∃ main, after stacksize rand n = .ok main ∧
    main.processed + main.st.top = main.nextin ∧ main.nextin ≤ num
  ends : ∃ n main, ∃ items : List String, after stacksize rand n = .ok main ∧
    ¬ main.processed < num ∧ main.out = items.map some ∧ items.Perm inBasket

/-! ## What an iteration keeps -/

/-- The items taken so far are in the other basket or on the stack. -/
structure Balanced (main : Main) (outs : List String) (bounded : BoundedStack String) : Prop where
  described : ∃ cells, main.heap.lookup main.st.items = some cells ∧
    Describes cells main.st bounded
  room : 0 < bounded.capacity
  processed : main.processed = outs.length
  conserved : main.processed + bounded.items.length = main.nextin
  nextin : main.nextin ≤ num
  out : main.out = outs.map some ++ List.replicate (num - main.processed) none
  items : (outs ++ bounded.items).Perm (inBasket.take main.nextin)

variable {main : Main} {outs : List String} {bounded : BoundedStack String}

theorem start_balanced {stacksize : ℕ} (hroom : 1 ≤ stacksize) :
    Balanced (.start stacksize) [] (.empty stacksize) where
  described := ⟨_, Heap.lookup_allocate_fresh [] stacksize, construct_describes stacksize _⟩
  room := hroom
  processed := rfl
  conserved := rfl
  nextin := Nat.zero_le num
  out := rfl
  items := List.Perm.refl []

theorem Balanced.pushNext (hbalanced : Balanced main outs bounded) (hnextin : main.nextin < num)
    (hfits : bounded.items.length < bounded.capacity) :
    ∃ next item, main.pushNext = .ok next ∧ Balanced next outs (bounded.push item).1 ∧
      next.nextin = main.nextin + 1 ∧ next.processed = main.processed := by
  obtain ⟨cells, hlookup, hdescribes⟩ := hbalanced.described
  obtain ⟨item, hitem⟩ : ∃ item, inBasket[main.nextin]? = some item :=
    ⟨_, List.getElem?_eq_getElem hnextin⟩
  obtain ⟨st, stored, hpush, haddress, hstored⟩ := push_spec hlookup hdescribes item
  have hpushed : (bounded.push item).1.items = item :: bounded.items := by
    rw [BoundedStack.push, dif_pos hfits]
  refine ⟨{ main with
    heap := main.heap.store main.st.items stored, st := st, nextin := main.nextin + 1 },
    item, ?_, ?_, rfl, rfl⟩
  · rw [Main.pushNext, hitem]
    simp only
    rw [hpush]
    rfl
  · constructor
    · refine ⟨stored, ?_, hstored⟩
      simp only
      rw [haddress]
      exact Heap.lookup_store_self (Heap.live_of_lookup hlookup) stored
    · rw [BoundedStack.push, dif_pos hfits]
      exact hbalanced.room
    · exact hbalanced.processed
    · rw [hpushed, List.length_cons]
      have hconserved := hbalanced.conserved
      simp only
      omega
    · exact hnextin
    · exact hbalanced.out
    · rw [hpushed]
      simp only
      rw [List.take_add_one, hitem]
      exact List.perm_middle.trans ((hbalanced.items.cons _).trans
        (List.perm_append_singleton _ _).symm)

theorem Balanced.popNext (hbalanced : Balanced main outs bounded) {item : String}
    {rest : List String} (hitems : bounded.items = item :: rest) :
    ∃ next, main.popNext = .ok next ∧ Balanced next (outs ++ [item]) bounded.pop.1 ∧
      next.nextin = main.nextin ∧ next.processed = main.processed + 1 := by
  obtain ⟨cells, hlookup, hdescribes⟩ := hbalanced.described
  obtain ⟨hcapacity, hrest, hpopped⟩ := BoundedStack.pop_cons hitems
  obtain ⟨st, hpop, haddress, hst⟩ := pop_spec hlookup hdescribes
  have hconserved := hbalanced.conserved
  have hnextin := hbalanced.nextin
  have hprocessed := hbalanced.processed
  rw [hitems, List.length_cons] at hconserved
  have hlength : main.out.length = num := by
    rw [hbalanced.out, List.length_append, List.length_map, List.length_replicate]
    omega
  refine ⟨{ main with
    st := st
    out := main.out.set main.processed (some item)
    processed := main.processed + 1 }, ?_, ?_, rfl, rfl⟩
  · rw [Main.popNext, if_pos (by omega), hpop, hpopped]
    rfl
  · constructor
    · refine ⟨cells, ?_, hst⟩
      simp only
      rw [haddress]
      exact hlookup
    · rw [hcapacity]
      exact hbalanced.room
    · simp [hprocessed]
    · rw [hrest]
      simp only
      omega
    · exact hnextin
    · have hfree : num - main.processed = num - (main.processed + 1) + 1 := by omega
      simp only
      rw [hbalanced.out, hfree, List.replicate_succ, hprocessed,
        List.set_append_right _ _ (by simp)]
      simp
    · have hperm := hbalanced.items
      rw [hitems] at hperm
      rw [hrest, List.append_assoc]
      exact hperm

theorem Balanced.iteration (hbalanced : Balanced main outs bounded) (rand : ℕ → Bool)
    (hmore : main.processed < num) :
    ∃ next outs' bounded', main.iteration rand = .ok next ∧ Balanced next outs' bounded' ∧
      next.nextin + next.processed = main.nextin + main.processed + 1 := by
  obtain ⟨cells, hlookup, hdescribes⟩ := hbalanced.described
  have hconserved := hbalanced.conserved
  have hcounted : Balanced { main with randoms := main.randoms + 1 } outs bounded :=
    ⟨hbalanced.described, hbalanced.room, hbalanced.processed, hconserved, hbalanced.nextin,
      hbalanced.out, hbalanced.items⟩
  cases hitems : bounded.items with
  | nil =>
      rw [hitems, List.length_nil] at hconserved
      have hempty : main.st.isempty = true := by
        simp [Stack.isempty, hdescribes.top, hitems]
      have hfits : bounded.items.length < bounded.capacity := by
        rw [hitems]
        exact hbalanced.room
      obtain ⟨next, item, hpush, hnext, hin, hout⟩ := hbalanced.pushNext (by omega) hfits
      refine ⟨next, outs, _, ?_, hnext, by omega⟩
      rw [Main.iteration, if_pos hempty, hpush]
  | cons item rest =>
      have hnotEmpty : ¬ main.st.isempty = true := by
        simp [Stack.isempty, hdescribes.top, hitems]
      by_cases hfull : main.st.isfull = true
      · obtain ⟨next, hpop, hnext, hin, hout⟩ := hbalanced.popNext hitems
        refine ⟨next, _, _, ?_, hnext, by omega⟩
        rw [Main.iteration, if_neg hnotEmpty, if_pos hfull, hpop]
      · by_cases hpush : (rand main.randoms && decide (main.nextin < num)) = true
        · have hmoreIn : main.nextin < num := by
            simp only [Bool.and_eq_true, decide_eq_true_eq] at hpush
            exact hpush.2
          have hfits : bounded.items.length < bounded.capacity := by
            have hbounded := bounded.bounded
            have hne : bounded.items.length ≠ bounded.capacity := by
              simpa [Stack.isfull, hdescribes.top, hdescribes.size] using hfull
            omega
          obtain ⟨next, pushed, hdone, hnext, hin, hout⟩ := hcounted.pushNext hmoreIn hfits
          refine ⟨next, outs, _, ?_, hnext, ?_⟩
          · rw [Main.iteration, if_neg hnotEmpty, if_neg hfull, if_pos hpush, hdone]
          · simp only at hin hout
            omega
        · obtain ⟨next, hdone, hnext, hin, hout⟩ := hcounted.popNext hitems
          refine ⟨next, _, _, ?_, hnext, ?_⟩
          · rw [Main.iteration, if_neg hnotEmpty, if_neg hfull, if_neg hpush, hdone]
          · simp only at hin hout
            omega

/-! ## The loop -/

theorem after_balanced {stacksize : ℕ} (hroom : 1 ≤ stacksize) (rand : ℕ → Bool) (n : ℕ) :
    ∃ main outs bounded, after stacksize rand n = .ok main ∧ Balanced main outs bounded ∧
      (main.processed < num → main.nextin + main.processed = n) := by
  induction n with
  | zero => exact ⟨.start stacksize, [], .empty stacksize, rfl, start_balanced hroom, fun _ => rfl⟩
  | succ n ih =>
      obtain ⟨main, outs, bounded, hafter, hbalanced, hcount⟩ := ih
      by_cases hmore : main.processed < num
      · obtain ⟨next, outs', bounded', hnext, hstill, hprogress⟩ :=
          hbalanced.iteration rand hmore
        refine ⟨next, outs', bounded', ?_, hstill, ?_⟩
        · rw [after, hafter, ok_bind, if_pos hmore, hnext]
        · intro _
          rw [hprogress, hcount hmore]
      · refine ⟨main, outs, bounded, ?_, hbalanced, fun hless => absurd hless hmore⟩
        rw [after, hafter, ok_bind, if_neg hmore]

theorem safeAndComplete_of_room {stacksize : ℕ} (hroom : 1 ≤ stacksize) (rand : ℕ → Bool) :
    SafeAndComplete stacksize rand where
  conserved n := by
    obtain ⟨main, outs, bounded, hafter, hbalanced, _⟩ := after_balanced hroom rand n
    obtain ⟨cells, _, hdescribes⟩ := hbalanced.described
    refine ⟨main, hafter, ?_, hbalanced.nextin⟩
    rw [hdescribes.top]
    exact hbalanced.conserved
  ends := by
    -- each iteration takes one item in or one out, so twenty are enough
    obtain ⟨main, outs, bounded, hafter, hbalanced, hcount⟩ :=
      after_balanced hroom rand (2 * num)
    have hconserved := hbalanced.conserved
    have hnextin := hbalanced.nextin
    have hdone : ¬ main.processed < num := by
      intro hmore
      have hprogress := hcount hmore
      omega
    have hall : main.nextin = inBasket.length := by
      have hlength : inBasket.length = num := rfl
      omega
    have hempty : bounded.items = [] := by
      apply List.eq_nil_of_length_eq_zero
      omega
    have hitems := hbalanced.items
    rw [hempty, List.append_nil, hall, List.take_length] at hitems
    refine ⟨2 * num, main, outs, hafter, hdone, ?_, hitems⟩
    have hfree : num - main.processed = 0 := by omega
    rw [hbalanced.out, hfree, List.replicate_zero, List.append_nil]

/-- On a stack without room the first item is taken from the basket and lost. -/
theorem not_conserved_without_room (rand : ℕ → Bool) :
    ∃ main, after 0 rand 1 = .ok main ∧ main.processed + main.st.top ≠ main.nextin :=
  ⟨{ Main.start 0 with nextin := 1 }, rfl, by decide⟩

/-- The loop is in order exactly for the stacks with room for an item. -/
theorem safeAndComplete_iff (stacksize : ℕ) (rand : ℕ → Bool) :
    SafeAndComplete stacksize rand ↔ 1 ≤ stacksize := by
  constructor
  · intro hsafe
    by_contra hnone
    obtain rfl : stacksize = 0 := by omega
    obtain ⟨main, hafter, hlost⟩ := not_conserved_without_room rand
    obtain ⟨other, hother, hconserved, _⟩ := hsafe.conserved 1
    rw [hafter] at hother
    cases hother
    exact hlost hconserved
  · exact fun hroom => safeAndComplete_of_room hroom rand

/-- Ten pushes into nothing, and the eleventh reads behind the basket. -/
theorem out_of_bounds_without_room :
    after 0 (fun _ => true) 11 = .error .outOfBounds ∧ ¬ SafeAndComplete 0 fun _ => true := by
  have hfault : after 0 (fun _ => true) 11 = .error .outOfBounds := rfl
  refine ⟨hfault, ?_⟩
  intro hsafe
  obtain ⟨main, hmain, _⟩ := hsafe.conserved 11
  rw [hfault] at hmain
  cases hmain

end CppProj.StackBaskets
