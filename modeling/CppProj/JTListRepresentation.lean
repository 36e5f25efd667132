import CppProj.JTList

/-!
# The representation of `JTList`

`Append` and `Remove` keep the nodes linked, distinct and undeleted, whatever
the memory of `m_lCount` held.  The count is off by that initial value, and the
tail of a list that `Remove` has emptied is the deleted node.
-/

namespace CppProj.JTList

open SinglyLinked (Fault Segment dereference)

/-- What holds of the list after every operation.  Nothing is said of `pTail`
while there is no node. -/
structure ListInvariant (garbage : BitVec 64) (list : JTList) (contents : List (ℕ × ℤ)) :
    Prop where
  chain : Segment list.heap list.pHead contents none
  distinct : (contents.map Prod.fst).Nodup
  deleted : ∀ address, address ∉ contents.map Prod.fst → list.heap address = none
  tail : contents ≠ [] → list.pTail = contents.getLast?.map Prod.fst
  count : list.lCount = garbage + BitVec.ofNat 64 contents.length

theorem Operation.change_length_le (operation : Operation) (contents : List (ℕ × ℤ)) :
    (operation.change contents).length ≤ contents.length + 1 := by
  cases operation with
  | append value address => simp [Operation.change]
  | remove pNode =>
      have hle := List.length_eraseP_le (p := fun node : ℕ × ℤ => decide (node.1 = pNode))
        (l := contents)
      exact Nat.le_succ_of_le hle

theorem new_listInvariant (garbage : BitVec 64) : ListInvariant garbage (new garbage) [] := by
  constructor <;> simp [new]

theorem assignNext_of_node {heap : SinglyLinked.Heap ℕ ℤ} {address : ℕ}
    {node : SinglyLinked.Node ℕ ℤ} (hnode : heap address = some node) (target : Option ℕ) :
    assignNext heap (some address) target =
      .ok (Function.update heap address (some ⟨node.value, target⟩)) := by
  rw [assignNext, SinglyLinked.dereference_some hnode]
  rfl

theorem append_of_empty {list : JTList} (hhead : list.pHead = none) (value : ℤ) (address : ℕ) :
    list.append value address = .ok
      { heap := Function.update list.heap address (some ⟨value, none⟩)
        pHead := some address
        pTail := some address
        lCount := list.lCount + 1 } := by
  simp [JTList.append, hhead]

/-- The new node is linked behind the tail, an allocated node. -/
theorem append_of_tail {list : JTList} (hhead : list.pHead ≠ none) {last : ℕ}
    (htail : list.pTail = some last) {value : ℤ} {address : ℕ} {node : SinglyLinked.Node ℕ ℤ}
    (hlast : Function.update list.heap address (some ⟨value, none⟩) last = some node) :
    list.append value address = .ok
      { heap := Function.update (Function.update list.heap address (some ⟨value, none⟩)) last
          (some ⟨node.value, some address⟩)
        pHead := list.pHead
        pTail := some address
        lCount := list.lCount + 1 } := by
  rw [JTList.append, if_neg hhead, htail, assignNext_of_node hlast]
  rfl

theorem remove_head {list : JTList} {pNode : ℕ} (hhead : list.pHead = some pNode)
    (htail : list.pTail ≠ none) {node : SinglyLinked.Node ℕ ℤ}
    (hnode : list.heap pNode = some node) (fuel : ℕ) :
    list.remove fuel pNode = .ok
      { heap := Function.update list.heap pNode none
        pHead := node.next
        pTail := list.pTail
        lCount := list.lCount - 1 } := by
  rw [JTList.remove, if_neg (by simp [hhead, htail]), if_pos hhead.symm, hhead,
    SinglyLinked.dereference_some hnode]
  rfl

theorem remove_inner {list : JTList} {previous pNode : ℕ} (hhead : list.pHead ≠ none)
    (htail : list.pTail ≠ none) (hne : some pNode ≠ list.pHead) {fuel : ℕ}
    (hfound : removeLoop list.heap pNode fuel none list.pHead = .ok (some previous))
    {node previousNode : SinglyLinked.Node ℕ ℤ} (hnode : list.heap pNode = some node)
    (hprevious : list.heap previous = some previousNode) :
    list.remove fuel pNode = .ok
      { heap := Function.update
          (Function.update list.heap previous (some ⟨previousNode.value, node.next⟩)) pNode none
        pHead := list.pHead
        pTail := if node.next = none then some previous else list.pTail
        lCount := list.lCount - 1 } := by
  rw [JTList.remove, if_neg (by simp [hhead, htail]), if_neg hne, hfound, SinglyLinked.ok_bind,
    SinglyLinked.dereference_some hnode, SinglyLinked.ok_bind, assignNext_of_node hprevious]
  rfl

theorem count_pred (garbage : BitVec 64) (length : ℕ) :
    garbage + BitVec.ofNat 64 (length + 1) - 1 = garbage + BitVec.ofNat 64 length := by
  rw [BitVec.ofNat_add, ← BitVec.add_assoc]
  exact BitVec.add_sub_cancel ..

namespace ListInvariant

variable {garbage : BitVec 64} {list : JTList} {contents : List (ℕ × ℤ)}

theorem pHead_eq_none_iff (hinv : ListInvariant garbage list contents) :
    list.pHead = none ↔ contents = [] :=
  hinv.chain.start_eq_none_iff

theorem pTail_eq {before : List (ℕ × ℤ)} {last : ℕ} {value : ℤ}
    (hinv : ListInvariant garbage list (before ++ [(last, value)])) : list.pTail = some last := by
  rw [hinv.tail (by simp)]
  simp

theorem last_node {before : List (ℕ × ℤ)} {last : ℕ} {value : ℤ}
    (hinv : ListInvariant garbage list (before ++ [(last, value)])) :
    list.heap last = some ⟨value, none⟩ := by
  obtain ⟨_, _, hlast⟩ := Segment.append_iff.mp hinv.chain
  exact (Segment.singleton_iff.mp hlast).2

theorem append (hinv : ListInvariant garbage list contents) {address : ℕ}
    (hfresh : address ∉ contents.map Prod.fst) (value : ℤ) :
    ∃ next, list.append value address = .ok next ∧
      ListInvariant garbage next (contents ++ [(address, value)]) ∧ next.pTail ≠ none := by
  have hdistinct : ((contents ++ [(address, value)]).map Prod.fst).Nodup := by
    rw [List.map_append, List.map_singleton]
    exact hinv.distinct.append (List.nodup_singleton _) (by simpa using hfresh)
  have hcount : list.lCount + 1 =
      garbage + BitVec.ofNat 64 (contents ++ [(address, value)]).length := by
    rw [hinv.count, List.length_append, List.length_singleton, BitVec.ofNat_add]
    exact BitVec.add_assoc ..
  have hdeleted : ∀ other, other ∉ (contents ++ [(address, value)]).map Prod.fst →
      other ≠ address ∧ list.heap other = none := by
    intro other hother
    rw [List.map_append, List.map_singleton, List.mem_append, List.mem_singleton, not_or] at hother
    exact ⟨hother.2, hinv.deleted other hother.1⟩
  rcases List.eq_nil_or_concat' contents with rfl | ⟨before, ⟨last, lastValue⟩, rfl⟩
  · have hhead : list.pHead = none := hinv.pHead_eq_none_iff.mpr rfl
    refine ⟨_, append_of_empty hhead value address, ?_, by simp⟩
    constructor
    · rw [List.nil_append, Segment.singleton_iff]
      exact ⟨rfl, Function.update_self ..⟩
    · exact hdistinct
    · intro other hother
      obtain ⟨hne, hnone⟩ := hdeleted other hother
      simp only [Function.update_of_ne hne]
      exact hnone
    · intro _
      simp
    · exact hcount
  · have hhead : list.pHead ≠ none := by
      rw [ne_eq, hinv.pHead_eq_none_iff]
      simp
    have hne : last ≠ address := by
      rintro rfl
      simp at hfresh
    have hallocated := hinv.chain.update_of_notMem hfresh (some ⟨value, none⟩)
    have hlast : Function.update list.heap address (some ⟨value, none⟩) last =
        some ⟨lastValue, none⟩ := by
      rw [Function.update_of_ne hne]
      exact hinv.last_node
    refine ⟨_, append_of_tail hhead hinv.pTail_eq hlast, ?_, by simp⟩
    constructor
    · rw [Segment.append_iff]
      refine ⟨some address, hallocated.relink hinv.distinct (some address), ?_⟩
      rw [Segment.singleton_iff]
      refine ⟨rfl, ?_⟩
      simp only [Function.update_of_ne hne.symm, Function.update_self]
    · exact hdistinct
    · intro other hother
      obtain ⟨hother', hnone⟩ := hdeleted other hother
      have hlastNe : other ≠ last := by
        rintro rfl
        simp at hother
      simp only [Function.update_of_ne hlastNe, Function.update_of_ne hother']
      exact hnone
    · intro _
      simp
    · exact hcount

theorem pTail_ne_none (hinv : ListInvariant garbage list contents) (hne : contents ≠ []) :
    list.pTail ≠ none := by
  rw [hinv.tail hne]
  simpa using hne

/-- The head is removed: its successor is the new head, and `pTail` stays. -/
theorem removeHead {pNode : ℕ} {value : ℤ} {after : List (ℕ × ℤ)}
    (hinv : ListInvariant garbage list ((pNode, value) :: after)) :
    ∃ next, (∀ fuel, list.remove fuel pNode = .ok next) ∧ ListInvariant garbage next after ∧
      next.pTail ≠ none := by
  obtain ⟨hhead, next, hnode, hafter⟩ := Segment.cons_iff.mp hinv.chain
  have htail := hinv.pTail_ne_none (by simp)
  have hdistinct := hinv.distinct
  rw [List.map_cons, List.nodup_cons] at hdistinct
  refine ⟨_, remove_head hhead htail hnode, ?_, htail⟩
  constructor
  · exact hafter.update_of_notMem hdistinct.1 none
  · exact hdistinct.2
  · intro other hother
    by_cases heq : other = pNode
    · simp [heq]
    · simp only [Function.update_of_ne heq]
      apply hinv.deleted
      rw [List.map_cons, List.mem_cons, not_or]
      exact ⟨heq, hother⟩
  · intro hne
    have hlast := hinv.tail (by simp)
    rwa [List.getLast?_cons_of_ne_nil hne] at hlast
  · simp only [hinv.count, List.length_cons]
    exact count_pred garbage after.length

/-- An inner node or the last is removed: the node before it takes over its
successor, and becomes the tail when there is none. -/
theorem removeInner {before after : List (ℕ × ℤ)} {previous pNode : ℕ} {previousValue value : ℤ}
    (hinv : ListInvariant garbage list
      ((before ++ [(previous, previousValue)]) ++ (pNode, value) :: after)) :
    ∃ next, (∀ fuel, before.length < fuel → list.remove fuel pNode = .ok next) ∧
      ListInvariant garbage next ((before ++ [(previous, previousValue)]) ++ after) ∧
      next.pTail ≠ none := by
  obtain ⟨middle, hbefore, hrest⟩ := Segment.append_iff.mp hinv.chain
  obtain ⟨rfl, next, hnode, hafter⟩ := Segment.cons_iff.mp hrest
  have hdistinct := hinv.distinct
  rw [List.map_append, List.map_cons, List.nodup_middle, ← List.map_append,
    List.nodup_cons] at hdistinct
  obtain ⟨hfresh, hkept⟩ := hdistinct
  have hdisjoint := hkept
  rw [List.map_append, List.nodup_append] at hdisjoint
  rw [List.map_append, List.mem_append, not_or] at hfresh
  have hpreviousAfter : previous ∉ after.map Prod.fst := by
    intro hmem
    exact hdisjoint.2.2 previous (by simp) previous hmem rfl
  have hne : previous ≠ pNode := by
    rintro rfl
    simp at hfresh
  obtain ⟨_, _, hlast⟩ := Segment.append_iff.mp hbefore
  have hprevious := (Segment.singleton_iff.mp hlast).2
  have hhead : list.pHead ≠ none := by
    rw [ne_eq, hinv.pHead_eq_none_iff]
    simp
  have hheadNe : some pNode ≠ list.pHead := by
    intro heq
    cases before with
    | nil =>
        have hstart := (Segment.singleton_iff.mp hbefore).1
        rw [← heq, Option.some.injEq] at hstart
        exact hne hstart.symm
    | cons first others =>
        have hstart := (Segment.cons_iff.mp hbefore).1
        rw [← heq, Option.some.injEq] at hstart
        simp [hstart] at hfresh
  have htail := hinv.pTail_ne_none (by simp)
  refine ⟨_, fun fuel hfuel => remove_inner hhead htail hheadNe
    (removeLoop_of_segment hbefore hfresh.1 hfuel none) hnode hprevious, ?_, ?_⟩
  · constructor
    · rw [Segment.append_iff]
      refine ⟨next, ?_, ?_⟩
      · exact (hbefore.relink hdisjoint.1 next).update_of_notMem hfresh.1 none
      · exact (hafter.update_of_notMem hpreviousAfter _).update_of_notMem hfresh.2 none
    · exact hkept
    · intro other hother
      by_cases heq : other = pNode
      · simp [heq]
      · have hotherPrevious : other ≠ previous := by
          rintro rfl
          simp at hother
        simp only [Function.update_of_ne heq, Function.update_of_ne hotherPrevious]
        apply hinv.deleted
        simp only [List.map_append, List.map_cons, List.mem_append, List.mem_cons, not_or]
          at hother ⊢
        exact ⟨hother.1, heq, hother.2⟩
    · intro _
      by_cases hafterNil : after = []
      · subst hafterNil
        simp [Segment.nil_iff.mp hafter]
      · have hnext : next ≠ none := fun h => hafterNil (hafter.start_eq_none_iff.mp h)
        have hwas := hinv.tail (by simp)
        rw [List.getLast?_append_of_ne_nil _ (by simp),
          List.getLast?_cons_of_ne_nil hafterNil] at hwas
        simp only [if_neg hnext]
        rw [hwas, List.getLast?_append_of_ne_nil _ hafterNil]
    · simp only [hinv.count, List.length_append, List.length_cons, ← Nat.add_assoc]
      exact count_pred garbage _
  · by_cases hnext : next = none
    · simp [hnext]
    · simpa [hnext] using htail

theorem remove (hinv : ListInvariant garbage list contents) {pNode : ℕ}
    (hmem : pNode ∈ contents.map Prod.fst) :
    ∃ next, (∀ fuel, contents.length ≤ fuel → list.remove fuel pNode = .ok next) ∧
      ListInvariant garbage next ((Operation.remove pNode).change contents) ∧
      next.pTail ≠ none := by
  obtain ⟨node, hnode, rfl⟩ := List.mem_map.mp hmem
  obtain ⟨found, before, after, _, hfound, rfl, hchange⟩ :=
    List.exists_of_eraseP (p := fun other => decide (other.1 = node.1)) hnode (by simp)
  have hfirst : found.1 = node.1 := by simpa using hfound
  rw [Operation.change, hchange, ← hfirst]
  rcases List.eq_nil_or_concat' before with rfl | ⟨others, ⟨previous, value⟩, rfl⟩
  · obtain ⟨next, hremove, hnext⟩ := hinv.removeHead
    exact ⟨next, fun fuel _ => hremove fuel, hnext⟩
  · obtain ⟨next, hremove, hnext⟩ := hinv.removeInner
    refine ⟨next, ?_, hnext⟩
    intro fuel hfuel
    apply hremove
    rw [List.length_append, List.length_append, List.length_singleton, List.length_cons] at hfuel
    omega

theorem apply (hinv : ListInvariant garbage list contents) {operation : Operation}
    (hadmissible : operation.Admissible contents) :
    ∃ next, (∀ fuel, contents.length ≤ fuel → operation.apply fuel list = .ok next) ∧
      ListInvariant garbage next (operation.change contents) ∧ next.pTail ≠ none := by
  cases operation with
  | append value address =>
      obtain ⟨next, happend, hnext⟩ := hinv.append hadmissible value
      exact ⟨next, fun _ _ => happend, hnext⟩
  | remove pNode => exact hinv.remove hadmissible

/-- Once an operation has been carried out, `pTail` is not null any more. -/
theorem run (hinv : ListInvariant garbage list contents) {operations : List Operation}
    (hadmissible : AllAdmissible contents operations) :
    ∃ final, (∀ fuel, contents.length + operations.length ≤ fuel →
        run fuel list operations = .ok final) ∧
      ListInvariant garbage final (contentsAfter contents operations) ∧
      (operations ≠ [] → final.pTail ≠ none) := by
  induction operations generalizing list contents with
  | nil => exact ⟨list, fun _ _ => rfl, hinv, fun hne => (hne rfl).elim⟩
  | cons operation rest ih =>
      obtain ⟨next, happly, hnext, htail⟩ := hinv.apply hadmissible.1
      obtain ⟨final, hrun, hfinal, hfinalTail⟩ := ih hnext hadmissible.2
      refine ⟨final, ?_, hfinal, ?_⟩
      · intro fuel hfuel
        rw [List.length_cons] at hfuel
        have hchange := operation.change_length_le contents
        rw [JTList.run, happly fuel (by omega)]
        exact hrun fuel (by omega)
      · intro _
        cases rest with
        | nil =>
            have hsame := hrun (contents.length + 1 + (operation.change contents).length) (by simp)
            cases hsame
            exact htail
        | cons second others => exact hfinalTail (by simp)

end ListInvariant

/-! ## When the representation is right -/

/-- The list holds the sequence of nodes, and `Get` finds each of them. -/
structure Represents (list : JTList) (contents : List (ℕ × ℤ)) : Prop where
  count : list.lCount.toInt = contents.length
  tail : list.pTail = contents.getLast?.map Prod.fst
  chain : Segment list.heap list.pHead contents none
  get : ∀ index fuel, contents.length < fuel →
    list.get fuel index =
      .ok (if index < 0 then none else contents[index.toNat]?.map Prod.fst)

/-- What is left in the list after all operations is counted from zero, has a
tail and fits the positions of `Get`. -/
def KeepsRepresentation (garbage : BitVec 64) (operations : List Operation) : Prop :=
  garbage = 0 ∧ (operations = [] ∨ contentsAfter [] operations ≠ []) ∧
    (contentsAfter [] operations).length < 2 ^ 31

namespace ListInvariant

variable {garbage : BitVec 64} {list : JTList} {contents : List (ℕ × ℤ)}

theorem count_toInt (hinv : ListInvariant 0 list contents) (hshort : contents.length < 2 ^ 31) :
    list.lCount.toInt = contents.length := by
  rw [hinv.count, BitVec.ofNat_eq_ofNat, BitVec.zero_add, BitVec.toInt_ofNat']
  apply Int.bmod_eq_of_le <;> omega

theorem garbage_eq_zero (hinv : ListInvariant garbage list contents)
    (hcount : list.lCount.toInt = contents.length) : garbage = 0 := by
  have hlength : list.lCount = BitVec.ofNat 64 contents.length := by
    rw [← BitVec.ofInt_toInt (x := list.lCount), hcount]
    exact BitVec.ofInt_natCast ..
  have hsum := hinv.count
  rw [hlength] at hsum
  exact BitVec.self_eq_add_left.mp hsum

theorem get_of_short (hinv : ListInvariant 0 list contents) (hshort : contents.length < 2 ^ 31)
    {fuel : ℕ} (hfuel : contents.length < fuel) (index : ℤ) :
    list.get fuel index =
      .ok (if index < 0 then none else contents[index.toNat]?.map Prod.fst) := by
  have hlast : (list.lCount - 1).toInt = contents.length - 1 := by
    rw [BitVec.toInt_sub, hinv.count_toInt hshort]
    apply Int.bmod_eq_of_le <;> simp <;> omega
  rw [JTList.get, hlast]
  by_cases hnegative : index < 0
  · simp [hnegative]
  · by_cases hbeyond : (contents.length : ℤ) - 1 < index
    · have hnone : contents[index.toNat]? = none := List.getElem?_eq_none (by omega)
      simp [hbeyond, hnegative, hnone]
    · rw [if_neg (by omega), if_neg hnegative, getLoop_of_segment hinv.chain hfuel (by omega)]
      · simp
      · rw [intMax]
        omega

/-- At the greatest `int` the counter of `Get` overflows. -/
theorem length_lt_of_represents (hinv : ListInvariant garbage list contents)
    (hrepresents : list.Represents contents) : contents.length < 2 ^ 31 := by
  by_contra hlong
  rw [Nat.not_lt] at hlong
  have hget := hrepresents.get intMax (contents.length + 1) (by omega)
  have hmax : intMax < (0 : ℤ) + contents.length := by
    rw [intMax]
    omega
  have hbefore : ¬ ((list.lCount - 1).toInt < intMax ∨ intMax < 0) := by
    have hrange := BitVec.toInt_lt (x := list.lCount)
    have hlast : (list.lCount - 1).toInt = contents.length - 1 := by
      rw [hrepresents.count] at hrange
      rw [BitVec.toInt_sub, hrepresents.count]
      apply Int.bmod_eq_of_le <;> simp <;> omega
    rw [hlast, intMax]
    omega
  rw [JTList.get, if_neg hbefore, getLoop_overflow hinv.chain (Nat.lt_succ_self _) (le_refl _)
    (by decide) hmax] at hget
  cases hget

theorem represents (hinv : ListInvariant 0 list contents) (hne : contents ≠ [])
    (hshort : contents.length < 2 ^ 31) : list.Represents contents where
  count := hinv.count_toInt hshort
  tail := hinv.tail hne
  chain := hinv.chain
  get := fun index _ hfuel => hinv.get_of_short hshort hfuel index

end ListInvariant

theorem new_represents : (new 0).Represents [] where
  count := rfl
  tail := rfl
  chain := rfl
  get := fun index fuel hfuel =>
    (new_listInvariant 0).get_of_short (by decide) hfuel index

/-- The operations end without a fault, with the list linked as it should be.  The
whole representation is right exactly under `KeepsRepresentation`. -/
theorem represents_iff (garbage : BitVec 64) {operations : List Operation}
    (hadmissible : AllAdmissible [] operations) :
    ∃ list, (∀ fuel, operations.length ≤ fuel → run fuel (new garbage) operations = .ok list) ∧
      Segment list.heap list.pHead (contentsAfter [] operations) none ∧
      (list.Represents (contentsAfter [] operations) ↔ KeepsRepresentation garbage operations) := by
  obtain ⟨list, hrun, hinv, htail⟩ := (new_listInvariant garbage).run hadmissible
  refine ⟨list, fun fuel hfuel => hrun fuel (by simpa using hfuel), hinv.chain, ?_⟩
  constructor
  · intro hrepresents
    refine ⟨hinv.garbage_eq_zero hrepresents.count, ?_, hinv.length_lt_of_represents hrepresents⟩
    by_contra hemptied
    rw [not_or, not_ne_iff] at hemptied
    apply htail hemptied.1
    rw [hrepresents.tail, hemptied.2]
    rfl
  · rintro ⟨rfl, hcontents, hshort⟩
    by_cases hempty : contentsAfter [] operations = []
    · have hnone : operations = [] := hcontents.resolve_right (not_not_intro hempty)
      subst hnone
      have hlist := hrun 0 (by simp)
      cases hlist
      exact new_represents
    · exact hinv.represents hempty hshort

/-- The address of a removed node is used again. -/
def reusedAddress : List Operation :=
  [.append 10 0, .append 20 1, .append 30 2, .remove 1, .append 40 1]

theorem represents_reusedAddress :
    ∃ list, run 5 (new 0) reusedAddress = .ok list ∧
      list.Represents [(0, 10), (2, 30), (1, 40)] := by
  obtain ⟨list, hrun, _, hiff⟩ :=
    represents_iff 0 (by decide : AllAdmissible [] reusedAddress)
  have hcontents : contentsAfter [] reusedAddress = [(0, 10), (2, 30), (1, 40)] := rfl
  refine ⟨list, hrun 5 (by decide), ?_⟩
  rw [← hcontents]
  exact hiff.mpr ⟨rfl, by simp [hcontents], by simp [hcontents]⟩

/-- A fresh list whose memory held 7, and a list emptied by `Remove`. -/
theorem not_represents_emptied :
    ¬ (new 7).Represents [] ∧
    ∃ list, run 2 (new 0) [.append 10 0, .remove 0] = .ok list ∧
      list.pHead = none ∧ list.pTail = some 0 ∧ list.heap 0 = none ∧ ¬ list.Represents [] := by
  constructor
  · intro hrepresents
    exact absurd hrepresents.count (by decide)
  · refine ⟨_, rfl, rfl, rfl, rfl, ?_⟩
    intro hrepresents
    exact absurd hrepresents.tail (by decide)

end CppProj.JTList
