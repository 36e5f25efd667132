import CppProj.TransitionSystem

/-!
# The object structure of `visitor.cpp`

An iterator is a position in the vector, as it is where iterators are pointers: `erase`
moves the later elements down by one and leaves the iterator where it is.  Erasing at the
end and incrementing the end iterator are faults.
-/

namespace CppProj.ObjectStructure

inductive ElementType where
  | CCElementA
  | CCElementB
  deriving DecidableEq

/-- A pointer to an element, with the class of the object it points to. -/
structure Element where
  address : ℕ
  dynamicType : ElementType
  deriving DecidableEq

structure Visitor (Output : Type) where
  visitCCElementA : Element → Output
  visitCCElementB : Element → Output

def CCvisitor1 : Visitor String where
  visitCCElementA _ := "CCvisitor1 visit CCElementA"
  visitCCElementB _ := "CCvisitor1 visit CCElementB"

def CCvisitor2 : Visitor String where
  visitCCElementA _ := "CCvisitor2 visit CCElementA"
  visitCCElementB _ := "CCvisitor2 visit CCElementB"

/-- The virtual function `Accept` of the two element classes. -/
def Element.accept {Output : Type} (pelement : Element) (visitor : Visitor Output) : Output :=
  match pelement.dynamicType with
  | .CCElementA => visitor.visitCCElementA pelement
  | .CCElementB => visitor.visitCCElementB pelement

inductive IteratorFault where
  | eraseAtEnd
  | incrementAtEnd
  deriving DecidableEq

def eraseAt (elements : List Element) (it : ℕ) : Except IteratorFault (List Element) :=
  if it < elements.length then .ok (elements.eraseIdx it) else .error .eraseAtEnd

def increment (elements : List Element) (it : ℕ) : Except IteratorFault ℕ :=
  if it < elements.length then .ok (it + 1) else .error .incrementAtEnd

theorem eraseAt_length {elements left : List Element} {it : ℕ}
    (herase : eraseAt elements it = .ok left) : left.length < elements.length := by
  unfold eraseAt at herase
  split at herase
  · rename_i hlt
    cases herase
    rw [List.length_eraseIdx_of_lt hlt]
    omega
  · cases herase

def attach (elements : List Element) (pelement : Element) : List Element :=
  elements ++ [pelement]

/-- The loop of `detach`, which erases under its own iterator. -/
def detachLoop (elements : List Element) (it : ℕ) : Except IteratorFault (List Element) :=
  if it = elements.length then .ok elements
  else
    match _herase : eraseAt elements it with
    | .error fault => .error fault
    | .ok left =>
        match increment left it with
        | .error fault => .error fault
        | .ok next => detachLoop left next
termination_by elements.length
decreasing_by exact eraseAt_length _herase

/-- The argument is used by the search that is commented out, and by nothing else. -/
def detach (elements : List Element) (_pelement : Element) :
    Except IteratorFault (List Element) :=
  detachLoop elements 0

def acceptLoop {Output : Type} (visitor : Visitor Output) (elements : List Element) (it : ℕ) :
    List Output :=
  if h : it < elements.length then
    elements[it].accept visitor :: acceptLoop visitor elements (it + 1)
  else []
termination_by elements.length - it

def accept {Output : Type} (elements : List Element) (visitor : Visitor Output) : List Output :=
  acceptLoop visitor elements 0

/-! ## What the two loops do -/

theorem acceptLoop_eq {Output : Type} (visitor : Visitor Output) (before rest : List Element) :
    acceptLoop visitor (before ++ rest) before.length =
      rest.map fun pelement => pelement.accept visitor := by
  induction rest generalizing before with
  | nil =>
      rw [acceptLoop]
      simp
  | cons pelement rest ih =>
      rw [acceptLoop]
      have hrest := ih (before ++ [pelement])
      simp only [List.append_assoc, List.singleton_append, List.length_append,
        List.length_singleton] at hrest
      simp [hrest]

theorem accept_eq {Output : Type} (elements : List Element) (visitor : Visitor Output) :
    accept elements visitor = elements.map fun pelement => pelement.accept visitor :=
  acceptLoop_eq visitor [] elements

/-- A visitor that hands back what it visits tells two contents apart. -/
theorem eq_of_accept_eq {elements others : List Element}
    (hsame : ∀ (Output : Type) (visitor : Visitor Output),
      accept elements visitor = others.map fun pelement => pelement.accept visitor) :
    elements = others := by
  have hid : (fun pelement : Element => pelement.accept ⟨id, id⟩) = id := by
    funext pelement
    cases h : pelement.dynamicType with
    | CCElementA => simp [Element.accept, h]
    | CCElementB => simp [Element.accept, h]
  have hvisited := hsame Element ⟨id, id⟩
  rw [accept_eq, hid, List.map_id, List.map_id] at hvisited
  exact hvisited

/-- The elements at the positions 1, 3, 5 and so on. -/
def everySecond : List Element → List Element
  | _ :: second :: rest => second :: everySecond rest
  | _ => []

theorem everySecond_length : ∀ elements : List Element,
    (everySecond elements).length = elements.length / 2
  | [] => rfl
  | [_] => by simp [everySecond]
  | _ :: _ :: rest => by
      simp only [everySecond, List.length_cons, everySecond_length rest]
      omega

theorem detachLoop_end (kept : List Element) :
    detachLoop kept kept.length = .ok kept := by
  rw [detachLoop, if_pos rfl]

theorem detachLoop_last (kept : List Element) (last : Element) :
    detachLoop (kept ++ [last]) kept.length = .error .incrementAtEnd := by
  have herase : eraseAt (kept ++ [last]) kept.length = .ok kept := by
    simp [eraseAt, List.eraseIdx_append_of_length_le]
  have hincrement : increment kept kept.length = .error .incrementAtEnd := by
    simp [increment]
  rw [detachLoop, if_neg (by simp)]
  split
  · simp_all
  · rename_i left hleft
    rw [herase] at hleft
    cases hleft
    rw [hincrement]

theorem detachLoop_pair (kept : List Element) (first second : Element) (rest : List Element) :
    detachLoop (kept ++ first :: second :: rest) kept.length =
      detachLoop (kept ++ second :: rest) (kept.length + 1) := by
  have herase : eraseAt (kept ++ first :: second :: rest) kept.length =
      .ok (kept ++ second :: rest) := by
    simp [eraseAt, List.eraseIdx_append_of_length_le]
  have hincrement : increment (kept ++ second :: rest) kept.length =
      .ok (kept.length + 1) := by
    simp [increment]
  rw [detachLoop, if_neg (by simp)]
  split
  · simp_all
  · rename_i left hleft
    rw [herase] at hleft
    cases hleft
    rw [hincrement]

/-- The loop skips the element that moves into the place of the erased one, and steps
over the end when the last element is the erased one. -/
theorem detachLoop_eq : ∀ kept rest : List Element,
    detachLoop (kept ++ rest) kept.length =
      if rest.length % 2 = 0 then .ok (kept ++ everySecond rest) else .error .incrementAtEnd
  | kept, [] => by
      simp [detachLoop_end, everySecond]
  | kept, [last] => by
      simp [detachLoop_last]
  | kept, first :: second :: rest => by
      have hrest := detachLoop_eq (kept ++ [second]) rest
      simp only [List.append_assoc, List.singleton_append, List.length_append,
        List.length_singleton] at hrest
      have hparity : (first :: second :: rest).length % 2 = rest.length % 2 :=
        Nat.add_mod_right rest.length 2
      rw [detachLoop_pair, hrest, hparity]
      rfl

theorem detach_eq (elements : List Element) (pelement : Element) :
    detach elements pelement =
      if elements.length % 2 = 0 then .ok (everySecond elements)
      else .error .incrementAtEnd :=
  detachLoop_eq [] elements

/-- The vectors from which the loop removes the first occurrence of the element. -/
def DetachesFirst (elements : List Element) (pelement : Element) : Prop :=
  elements = [] ∨ elements.length = 2 ∧ elements.head? = some pelement

instance (elements : List Element) (pelement : Element) :
    Decidable (DetachesFirst elements pelement) :=
  inferInstanceAs (Decidable (_ ∨ _))

theorem detach_eq_erase_iff (elements : List Element) (pelement : Element) :
    detach elements pelement = .ok (elements.erase pelement) ↔
      DetachesFirst elements pelement := by
  rw [detach_eq]
  constructor
  · intro hdetach
    split at hdetach
    · have hleft : everySecond elements = elements.erase pelement := Except.ok.inj hdetach
      have hlength : elements.length / 2 = (elements.erase pelement).length := by
        rw [← hleft, everySecond_length]
      rw [List.length_erase] at hlength
      match elements, hleft with
      | [], _ => exact .inl rfl
      | [first], _ => simp_all
      | [first, second], hleft =>
          right
          by_cases hfirst : first = pelement
          · simp [hfirst]
          · have herase : [second] = first :: [second].erase pelement := by
              simpa [everySecond, List.erase_cons_tail, hfirst] using hleft
            obtain ⟨hsame, hnone⟩ := List.cons_eq_cons.mp herase
            rw [List.erase_cons_tail (by simpa [hsame] using hfirst)] at hnone
            cases hnone
      | _ :: _ :: _ :: _, _ =>
          simp only [List.length_cons] at hlength
          split at hlength
          · omega
          · omega
    · cases hdetach
  · rintro (hempty | ⟨hlength, hhead⟩)
    · subst hempty
      rfl
    · obtain ⟨first, second, helements⟩ := List.length_eq_two.mp hlength
      subst helements
      simp only [List.head?_cons, Option.some.injEq] at hhead
      subst hhead
      simp [everySecond]

/-! ## Sequences of calls -/

inductive Action where
  | attach (pelement : Element)
  | detach (pelement : Element)
  deriving DecidableEq

/-- The vector as the code has it, beside the elements that are attached according to
the calls so far. -/
structure State where
  elements : List Element
  attached : List Element
  fault : Option IteratorFault
  deriving DecidableEq

def step (state : State) : Action → Option State
  | .attach pelement =>
      some { state with
        elements := attach state.elements pelement
        attached := state.attached ++ [pelement] }
  | .detach pelement =>
      let attached := state.attached.erase pelement
      match detach state.elements pelement with
      | .ok elements => some { state with elements := elements, attached := attached }
      | .error fault => some { state with attached := attached, fault := some fault }

def visitorProgram : TransitionSystem State Action where
  initial := ⟨[], [], none⟩
  step := step

/-- No iterator has been misused, and every visitor is led to the attached elements in
their order. -/
def Tracks (state : State) : Prop :=
  state.fault = none ∧ ∀ (Output : Type) (visitor : Visitor Output),
    accept state.elements visitor =
      state.attached.map fun pelement => pelement.accept visitor

def DetachMeets (state : State) : Action → Prop
  | .attach _ => True
  | .detach pelement => DetachesFirst state.elements pelement

instance : ∀ state action, Decidable (DetachMeets state action)
  | _, .attach _ => isTrue trivial
  | state, .detach pelement => inferInstanceAs (Decidable (DetachesFirst state.elements pelement))

theorem tracks_iff (state : State) :
    Tracks state ↔ state.fault = none ∧ state.elements = state.attached := by
  constructor
  · rintro ⟨hfault, hvisits⟩
    exact ⟨hfault, eq_of_accept_eq hvisits⟩
  · rintro ⟨hfault, hsame⟩
    refine ⟨hfault, ?_⟩
    intro Output visitor
    rw [accept_eq, hsame]

theorem step_tracks_iff {state next : State} {action : Action} (htracks : Tracks state)
    (hstep : visitorProgram.step state action = some next) :
    Tracks next ↔ DetachMeets state action := by
  obtain ⟨hfault, hsame⟩ := (tracks_iff state).mp htracks
  rw [tracks_iff]
  cases action with
  | attach pelement =>
      cases hstep
      simp [DetachMeets, hfault, hsame, attach]
  | detach pelement =>
      simp only [DetachMeets]
      rw [← detach_eq_erase_iff]
      simp only [visitorProgram, step] at hstep
      split at hstep
      · rename_i elements hdetach
        cases hstep
        rw [hdetach, Except.ok.injEq, hsame]
        simp [hfault]
      · rename_i fault hdetach
        cases hstep
        rw [hdetach]
        simp

theorem run_exists (state : State) (actions : List Action) :
    ∃ final, visitorProgram.run state actions = some final := by
  induction actions generalizing state with
  | nil => exact ⟨state, rfl⟩
  | cons action actions ih =>
      have hnext : ∃ next, visitorProgram.step state action = some next := by
        cases action with
        | attach pelement => exact ⟨_, rfl⟩
        | detach pelement =>
            simp only [visitorProgram, step]
            split
            · exact ⟨_, rfl⟩
            · exact ⟨_, rfl⟩
      obtain ⟨next, hstep⟩ := hnext
      obtain ⟨final, hrest⟩ := ih next
      exact ⟨final, TransitionSystem.run_cons_eq_some.mpr ⟨next, hstep, hrest⟩⟩

/-- The structure tracks its elements through a sequence of calls exactly when each
`detach` finds no element at all, or two of which it is given the first. -/
theorem tracks_iff_detachesFirst (actions : List Action) :
    visitorProgram.Always Tracks visitorProgram.initial actions ↔
      visitorProgram.StepsMeet DetachMeets visitorProgram.initial actions := by
  have hstart : Tracks visitorProgram.initial :=
    (tracks_iff _).mpr ⟨rfl, rfl⟩
  obtain ⟨final, hrun⟩ := run_exists visitorProgram.initial actions
  refine TransitionSystem.always_iff_stepsMeet Tracks Tracks ?_ ?_ ?_ hstart hrun
  · exact fun _ htracks => htracks
  · intro state action next htracks hmeets hstep
    exact (step_tracks_iff htracks hstep).mpr hmeets
  · intro state action next htracks hviolated hstep hnext
    exact hviolated ((step_tracks_iff htracks hstep).mp hnext)

/-- Three elements and a `detach` of one that is not there: the loop erases two of them
and runs past the end. -/
theorem not_tracks_detach_absent :
    ¬ visitorProgram.Always Tracks visitorProgram.initial
        [.attach ⟨0, .CCElementA⟩, .attach ⟨1, .CCElementB⟩, .attach ⟨2, .CCElementA⟩,
          .detach ⟨3, .CCElementB⟩] := by
  intro halways
  have hthree := halways.2 _ rfl
  have hlast := (hthree.2 _ rfl).2 _ rfl
  obtain ⟨hfault, _⟩ := (hlast.2 _ (by simp [visitorProgram, step, detach_eq, attach]; rfl))
  cases hfault

end CppProj.ObjectStructure
