import Mathlib.Data.List.Nodup
import Mathlib.Logic.Relation
import Mathlib.Tactic.Common

/-!
# Trees of nodes that own their children

`nodes` gives the nodes that have not been deleted, and `children` the addresses that a
node refers to.  `Owned` says that these references make a set of trees: no node has two
parents, and the way down never comes back.  `Forest` lists the nodes of some trees in the
order in which they are deleted, children before their parent.
-/

universe u v

namespace OwnedTrees

variable {Address : Type u} {Node : Type v} (children : Node → List Address)

def IsChild (nodes : Address → Option Node) (parent child : Address) : Prop :=
  ∃ node, nodes parent = some node ∧ child ∈ children node

/-- The nodes of the tree under an address, that address included. -/
def Below (nodes : Address → Option Node) : Address → Address → Prop :=
  Relation.ReflTransGen (IsChild children nodes)

structure Owned (nodes : Address → Option Node) : Prop where
  live : ∀ parent child, IsChild children nodes parent child → nodes child ≠ none
  nodup : ∀ parent node, nodes parent = some node → (children node).Nodup
  unique : ∀ first second child, IsChild children nodes first child →
    IsChild children nodes second child → first = second
  acyclic : ∃ rank : Address → ℕ, ∀ parent child, IsChild children nodes parent child →
    rank child < rank parent

variable {children} {nodes : Address → Option Node}

theorem below_head_cases {root address : Address} (hbelow : Below children nodes root address) :
    root = address ∨
      ∃ child, IsChild children nodes root child ∧ Below children nodes child address :=
  Relation.ReflTransGen.cases_head hbelow

theorem below_tail_cases {root address : Address} (hbelow : Below children nodes root address) :
    address = root ∨
      ∃ parent, Below children nodes root parent ∧ IsChild children nodes parent address :=
  Relation.ReflTransGen.cases_tail hbelow

theorem below_live (howned : Owned children nodes) {root address : Address}
    (hroot : nodes root ≠ none) (hbelow : Below children nodes root address) :
    nodes address ≠ none := by
  rcases below_tail_cases hbelow with heq | ⟨parent, _, hchild⟩
  · exact heq ▸ hroot
  · exact howned.live parent address hchild

/-- The edges after a change at one node are the old ones of the others and the new ones of
that node. -/
theorem isChild_change {after : Address → Option Node} {address parent child : Address}
    {node : Node} (hself : after address = some node)
    (hother : ∀ other, other ≠ address → after other = nodes other)
    (hchild : IsChild children after parent child) :
    parent = address ∧ child ∈ children node ∨ IsChild children nodes parent child := by
  obtain ⟨found, hfound, hmem⟩ := hchild
  by_cases heq : parent = address
  · subst heq
    rw [hself] at hfound
    cases hfound
    exact .inl ⟨rfl, hmem⟩
  · rw [hother parent heq] at hfound
    exact .inr ⟨found, hfound, hmem⟩

theorem exists_bound (rank : Address → ℕ) (addresses : List Address) :
    ∃ bound, ∀ address ∈ addresses, rank address < bound := by
  induction addresses with
  | nil => exact ⟨0, by simp⟩
  | cons first rest ih =>
      obtain ⟨bound, hbound⟩ := ih
      refine ⟨max (rank first + 1) bound, ?_⟩
      intro other hother
      rcases List.mem_cons.mp hother with rfl | hother
      · omega
      · have hlt := hbound other hother
        omega

namespace Owned

theorem not_below_parent (howned : Owned children nodes) {parent child : Address}
    (hchild : IsChild children nodes parent child) : ¬ Below children nodes child parent := by
  obtain ⟨rank, hrank⟩ := howned.acyclic
  have hle : ∀ {root address}, Below children nodes root address → rank address ≤ rank root := by
    intro root address hbelow
    induction hbelow with
    | refl => exact Nat.le_refl _
    | tail _ hstep ih => exact Nat.le_trans (Nat.le_of_lt (hrank _ _ hstep)) ih
  intro hback
  exact absurd (hrank _ _ hchild) (Nat.not_lt.mpr (hle hback))

/-- Two trees with a common node are one within the other. -/
theorem below_or_below (howned : Owned children nodes) {first second address : Address}
    (hfirst : Below children nodes first address) (hsecond : Below children nodes second address) :
    Below children nodes first second ∨ Below children nodes second first := by
  induction hfirst with
  | refl => exact .inr hsecond
  | tail hbefore hstep ih =>
      rcases below_tail_cases hsecond with heq | ⟨parent, hparent, hlast⟩
      · subst heq
        exact .inl (hbefore.tail hstep)
      · rw [howned.unique _ _ _ hlast hstep] at hparent
        exact ih hparent

theorem not_below_sibling (howned : Owned children nodes) {parent first second : Address}
    (hfirst : IsChild children nodes parent first)
    (hsecond : IsChild children nodes parent second) (hne : first ≠ second) :
    ¬ Below children nodes first second := by
  intro hbelow
  rcases below_tail_cases hbelow with heq | ⟨other, hother, hlast⟩
  · exact hne heq.symm
  · rw [howned.unique _ _ _ hlast hsecond] at hother
    exact howned.not_below_parent hfirst hother

/-- The way up ends at a node without a parent, if the nodes are finitely many. -/
theorem exists_root (howned : Owned children nodes) {all : List Address}
    (hall : ∀ address, nodes address ≠ none → address ∈ all) {address : Address}
    (hlive : nodes address ≠ none) :
    ∃ root, nodes root ≠ none ∧ (∀ parent, ¬ IsChild children nodes parent root) ∧
      Below children nodes root address := by
  obtain ⟨rank, hrank⟩ := howned.acyclic
  obtain ⟨bound, hbound⟩ := exists_bound rank all
  -- by induction on the distance of the rank from its bound
  induction hdistance : bound - rank address using Nat.strongRecOn generalizing address with
  | ind distance ih =>
      by_cases hparent : ∃ parent, IsChild children nodes parent address
      · obtain ⟨parent, hchild⟩ := hparent
        have hparentLive : nodes parent ≠ none := by
          obtain ⟨node, hnode, _⟩ := hchild
          rw [hnode]
          exact Option.some_ne_none _
        have hlt := hbound parent (hall parent hparentLive)
        have hup := hrank parent address hchild
        obtain ⟨root, hroot, horphan, hbelow⟩ :=
          ih (bound - rank parent) (by omega) hparentLive rfl
        exact ⟨root, hroot, horphan, hbelow.tail hchild⟩
      · exact ⟨address, hlive, fun parent hchild => hparent ⟨parent, hchild⟩, .refl⟩

/-! ## Changes of the trees -/

/-- Nodes are deleted or lose children, and no child that stays refers to a deleted node. -/
theorem shrink (howned : Owned children nodes) {after : Address → Option Node}
    (hless : ∀ address node, after address = some node →
      ∃ old, nodes address = some old ∧ (children node).Sublist (children old))
    (hlive : ∀ parent child, IsChild children after parent child → after child ≠ none) :
    Owned children after := by
  have hchild : ∀ parent child, IsChild children after parent child →
      IsChild children nodes parent child := by
    rintro parent child ⟨node, hnode, hmem⟩
    obtain ⟨old, hold, hsublist⟩ := hless parent node hnode
    exact ⟨old, hold, hsublist.subset hmem⟩
  obtain ⟨rank, hrank⟩ := howned.acyclic
  refine ⟨hlive, ?_, ?_, rank, fun parent child h => hrank _ _ (hchild _ _ h)⟩
  · intro parent node hnode
    obtain ⟨old, hold, hsublist⟩ := hless parent node hnode
    exact (howned.nodup parent old hold).sublist hsublist
  · intro first second child hfirst hsecond
    exact howned.unique _ _ _ (hchild _ _ hfirst) (hchild _ _ hsecond)

theorem insert (howned : Owned children nodes) {after : Address → Option Node}
    {address : Address} {node : Node} (hfresh : nodes address = none)
    (hself : after address = some node) (hnone : children node = [])
    (hother : ∀ other, other ≠ address → after other = nodes other) :
    Owned children after := by
  have hne : ∀ other, nodes other ≠ none → other ≠ address := by
    rintro other hlive rfl
    exact hlive hfresh
  have hchild : ∀ parent child, IsChild children after parent child →
      IsChild children nodes parent child := by
    intro parent child h
    rcases isChild_change hself hother h with ⟨_, hmem⟩ | hold
    · rw [hnone] at hmem
      cases hmem
    · exact hold
  obtain ⟨rank, hrank⟩ := howned.acyclic
  refine ⟨?_, ?_, ?_, rank, fun parent child h => hrank _ _ (hchild _ _ h)⟩
  · intro parent child h
    have hlive := howned.live parent child (hchild parent child h)
    rw [hother child (hne child hlive)]
    exact hlive
  · intro parent found hfound
    by_cases heq : parent = address
    · subst heq
      rw [hself] at hfound
      cases hfound
      rw [hnone]
      exact List.nodup_nil
    · rw [hother parent heq] at hfound
      exact howned.nodup parent found hfound
  · intro first second child hfirst hsecond
    exact howned.unique _ _ _ (hchild _ _ hfirst) (hchild _ _ hsecond)

/-- The tree of the child can be put below a node outside it. -/
theorem exists_rank_link (howned : Owned children nodes) {parent child : Address}
    (houtside : ¬ Below children nodes child parent) :
    ∃ rank : Address → ℕ,
      (∀ first second, IsChild children nodes first second → rank second < rank first) ∧
        rank child < rank parent := by
  classical
  obtain ⟨rank, hrank⟩ := howned.acyclic
  -- the nodes outside the tree of the child move up by the rank of the child
  refine ⟨fun address => if Below children nodes child address then rank address
    else rank address + rank child + 1, ?_, ?_⟩
  · intro first second h
    have hlt := hrank first second h
    by_cases hbelow : Below children nodes child first
    · have hsecond : Below children nodes child second := hbelow.tail h
      simp only [if_pos hbelow, if_pos hsecond]
      exact hlt
    · simp only [if_neg hbelow]
      split
      · omega
      · omega
  · have hself : Below children nodes child child := .refl
    simp only [if_neg houtside, if_pos hself]
    omega

theorem link (howned : Owned children nodes) {after : Address → Option Node}
    {parent child : Address} {old node : Node} (hlive : nodes child ≠ none)
    (horphan : ∀ other, ¬ IsChild children nodes other child)
    (houtside : ¬ Below children nodes child parent) (hold : nodes parent = some old)
    (hself : after parent = some node) (hchildren : children node = children old ++ [child])
    (hother : ∀ other, other ≠ parent → after other = nodes other) :
    Owned children after := by
  have hchild : ∀ first second, IsChild children after first second →
      IsChild children nodes first second ∨ first = parent ∧ second = child := by
    intro first second h
    rcases isChild_change hself hother h with ⟨rfl, hmem⟩ | hbefore
    · rw [hchildren, List.mem_append, List.mem_singleton] at hmem
      rcases hmem with hmem | rfl
      · exact .inl ⟨old, hold, hmem⟩
      · exact .inr ⟨rfl, rfl⟩
    · exact .inl hbefore
  have hstill : ∀ address, nodes address ≠ none → after address ≠ none := by
    intro address haddress
    by_cases heq : address = parent
    · subst heq
      rw [hself]
      exact Option.some_ne_none _
    · rw [hother address heq]
      exact haddress
  constructor
  · intro first second h
    rcases hchild first second h with h | ⟨_, rfl⟩
    · exact hstill second (howned.live first second h)
    · exact hstill second hlive
  · intro first found hfound
    by_cases heq : first = parent
    · subst heq
      rw [hself] at hfound
      cases hfound
      rw [hchildren]
      refine List.Nodup.append (howned.nodup first old hold) (List.nodup_singleton child) ?_
      intro other hmem hsame
      rw [List.mem_singleton.mp hsame] at hmem
      exact horphan first ⟨old, hold, hmem⟩
    · rw [hother first heq] at hfound
      exact howned.nodup first found hfound
  · intro first second other hfirst hsecond
    rcases hchild first other hfirst with hone | ⟨rfl, rfl⟩
    · rcases hchild second other hsecond with htwo | ⟨rfl, rfl⟩
      · exact howned.unique _ _ _ hone htwo
      · exact (horphan first hone).elim
    · rcases hchild second other hsecond with htwo | ⟨rfl, _⟩
      · exact (horphan second htwo).elim
      · rfl
  · obtain ⟨rank, hrank, hlink⟩ := howned.exists_rank_link houtside
    refine ⟨rank, ?_⟩
    intro first second h
    rcases hchild first second h with h | ⟨rfl, rfl⟩
    · exact hrank first second h
    · exact hlink

end Owned

/-! ## The nodes of some trees in the order of their deletion -/

inductive Forest (children : Node → List Address) (nodes : Address → Option Node) :
    List Address → List Address → Prop where
  | nil : Forest children nodes [] []
  | cons {address : Address} {rest below others : List Address} {node : Node}
      (hnode : nodes address = some node)
      (hbelow : Forest children nodes (children node) below)
      (hothers : Forest children nodes rest others) :
      Forest children nodes (address :: rest) (below ++ address :: others)

namespace Forest

theorem mem_iff {roots all : List Address} (hforest : Forest children nodes roots all)
    (address : Address) :
    address ∈ all ↔ ∃ root ∈ roots, Below children nodes root address := by
  induction hforest with
  | nil => simp
  | @cons root rest below others node hnode _ _ ihbelow ihothers =>
      rw [List.mem_append, List.mem_cons, ihbelow, ihothers]
      constructor
      · rintro (⟨child, hchild, hunder⟩ | rfl | ⟨other, hother, hunder⟩)
        · exact ⟨root, List.mem_cons_self, .head ⟨node, hnode, hchild⟩ hunder⟩
        · exact ⟨address, List.mem_cons_self, .refl⟩
        · exact ⟨other, List.mem_cons_of_mem _ hother, hunder⟩
      · rintro ⟨other, hother, hunder⟩
        rcases List.mem_cons.mp hother with rfl | hother
        · rcases below_head_cases hunder with heq | ⟨child, ⟨found, hfound, hchild⟩, hunder⟩
          · exact .inr (.inl heq.symm)
          · rw [hnode] at hfound
            cases hfound
            exact .inl ⟨child, hchild, hunder⟩
        · exact .inr (.inr ⟨other, hother, hunder⟩)

theorem exists_of_live (howned : Owned children nodes) {roots : List Address}
    (hlive : ∀ root ∈ roots, nodes root ≠ none) : ∃ all, Forest children nodes roots all := by
  obtain ⟨rank, hrank⟩ := howned.acyclic
  suffices hbounded : ∀ bound, ∀ roots : List Address,
      (∀ root ∈ roots, nodes root ≠ none ∧ rank root < bound) →
        ∃ all, Forest children nodes roots all by
    obtain ⟨bound, hbound⟩ := exists_bound rank roots
    exact hbounded bound roots fun root hroot => ⟨hlive root hroot, hbound root hroot⟩
  intro bound
  induction bound with
  | zero =>
      intro roots hroots
      cases roots with
      | nil => exact ⟨[], .nil⟩
      | cons root roots => exact absurd (hroots root List.mem_cons_self).2 (Nat.not_lt_zero _)
  | succ bound ih =>
      intro roots hroots
      induction roots with
      | nil => exact ⟨[], .nil⟩
      | cons root roots ihroots =>
          obtain ⟨⟨hroot, hlt⟩, hrest⟩ := List.forall_mem_cons.mp hroots
          obtain ⟨node, hnode⟩ := Option.ne_none_iff_exists'.mp hroot
          obtain ⟨others, hothers⟩ := ihroots hrest
          obtain ⟨below, hbelow⟩ := ih (children node) (by
            intro child hchild
            have hstep : IsChild children nodes root child := ⟨node, hnode, hchild⟩
            have hless := hrank root child hstep
            exact ⟨howned.live root child hstep, by omega⟩)
          exact ⟨_, .cons hnode hbelow hothers⟩

theorem nodup (howned : Owned children nodes) {roots all : List Address}
    (hforest : Forest children nodes roots all) (hroots : roots.Nodup)
    (hapart : ∀ first ∈ roots, ∀ second ∈ roots, first ≠ second →
      ¬ Below children nodes first second) : all.Nodup := by
  induction hforest with
  | nil => exact List.nodup_nil
  | @cons root rest below others node hnode hbelow hothers ihbelow ihothers =>
      obtain ⟨hnew, hrest⟩ := List.nodup_cons.mp hroots
      have hchild : ∀ child ∈ children node, IsChild children nodes root child :=
        fun child hmem => ⟨node, hnode, hmem⟩
      have hneRoot : ∀ other ∈ rest, other ≠ root := by
        rintro other hother rfl
        exact hnew hother
      have hbelowNodup := ihbelow (howned.nodup root node hnode)
        (fun first hfirst second hsecond hne =>
          howned.not_below_sibling (hchild first hfirst) (hchild second hsecond) hne)
      have hothersNodup := ihothers hrest
        (fun first hfirst second hsecond => hapart first (List.mem_cons_of_mem _ hfirst) second
          (List.mem_cons_of_mem _ hsecond))
      have hunder : ∀ address ∈ below, Below children nodes root address := by
        intro address hmem
        obtain ⟨child, hmemChild, hchildBelow⟩ := (hbelow.mem_iff address).mp hmem
        exact .head (hchild child hmemChild) hchildBelow
      have hrootOther : ∀ other ∈ rest, ∀ address, Below children nodes root address →
          ¬ Below children nodes other address := by
        intro other hother address hroot hbelowOther
        rcases howned.below_or_below hroot hbelowOther with h | h
        · exact hapart root List.mem_cons_self other (List.mem_cons_of_mem _ hother)
            (hneRoot other hother).symm h
        · exact hapart other (List.mem_cons_of_mem _ hother) root List.mem_cons_self
            (hneRoot other hother) h
      refine List.Nodup.append hbelowNodup (List.nodup_cons.mpr ⟨?_, hothersNodup⟩) ?_
      · intro hmem
        obtain ⟨other, hother, hbelowOther⟩ := (hothers.mem_iff root).mp hmem
        exact hrootOther other hother root .refl hbelowOther
      · intro address hmem hlater
        rcases List.mem_cons.mp hlater with rfl | hlater
        · obtain ⟨child, hmemChild, hback⟩ := (hbelow.mem_iff address).mp hmem
          exact howned.not_below_parent (hchild child hmemChild) hback
        · obtain ⟨other, hother, hbelowOther⟩ := (hothers.mem_iff address).mp hlater
          exact hrootOther other hother address (hunder address hmem) hbelowOther

/-- The nodes of one tree, each of them once. -/
theorem exists_single (howned : Owned children nodes) {root : Address}
    (hroot : nodes root ≠ none) :
    ∃ all, Forest children nodes [root] all ∧ all.Nodup ∧
      ∀ address, address ∈ all ↔ Below children nodes root address := by
  have hroots : ∀ other ∈ [root], nodes other ≠ none := by
    simpa using hroot
  obtain ⟨all, hforest⟩ := exists_of_live howned hroots
  refine ⟨all, hforest, hforest.nodup howned (List.nodup_singleton root) ?_, ?_⟩
  · intro first hfirst second hsecond hne
    rw [List.mem_singleton.mp hfirst, List.mem_singleton.mp hsecond] at hne
    exact (hne rfl).elim
  · intro address
    rw [hforest.mem_iff]
    simp

end Forest

end OwnedTrees
