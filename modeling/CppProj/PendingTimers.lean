import Mathlib.Data.List.Induction
import Mathlib.Logic.Function.Basic
import Mathlib.Order.Lattice
import Mathlib.Tactic.Common

/-!
# A set of pending timers

The specification of a one-shot timer service, over any identifiers and any
time.  A history lists what the service did: timers added, started and
cancelled.  `pendingAfter` is the set of pending timers that a history leads
to, and a history is lawful if each event is one that the set before it allows.
A lawful history starts a timer at most once, and never after the timer was
cancelled.
-/

universe u v

namespace PendingTimers

inductive Event (Id : Type u) (Time : Type v) where
  | added (id : Id) (deadline : Time)
  | started (id : Id) (now : Time)
  | cancelled (id : Id) (answer : Bool)
  | cancelledAll
  deriving DecidableEq

/-- The pending timers with their deadlines. -/
abbrev Pending (Id : Type u) (Time : Type v) := Id → Option Time

variable {Id : Type u} {Time : Type v}

def Event.addedId : Event Id Time → Option Id
  | .added id _ => some id
  | _ => none

def addedIds (history : List (Event Id Time)) : List Id :=
  history.filterMap Event.addedId

theorem addedIds_append (before after : List (Event Id Time)) :
    addedIds (before ++ after) = addedIds before ++ addedIds after :=
  List.filterMap_append

variable [DecidableEq Id]

def Event.apply (pending : Pending Id Time) : Event Id Time → Pending Id Time
  | .added id deadline => Function.update pending id (some deadline)
  | .started id _ | .cancelled id _ => Function.update pending id none
  | .cancelledAll => fun _ => none

def pendingAfter (history : List (Event Id Time)) : Pending Id Time :=
  history.foldl Event.apply fun _ => none

@[simp] theorem pendingAfter_nil (id : Id) :
    pendingAfter ([] : List (Event Id Time)) id = none := rfl

@[simp] theorem pendingAfter_append_singleton (history : List (Event Id Time))
    (event : Event Id Time) :
    pendingAfter (history ++ [event]) = event.apply (pendingAfter history) := by
  simp [pendingAfter, List.foldl_append]

variable [LinearOrder Time]

/-- The service may start `id` at the time `now`: the timer is due, and no
pending timer is due before it. -/
structure MayStart (pending : Pending Id Time) (id : Id) (now : Time) : Prop where
  due : ∃ deadline, pending id = some deadline ∧ deadline ≤ now ∧
    ∀ other otherDeadline, pending other = some otherDeadline → deadline ≤ otherDeadline

/-- What the set of pending timers allows after a history. -/
def Legal (history : List (Event Id Time)) : Event Id Time → Prop
  | .added id _ => id ∉ addedIds history
  | .started id now => MayStart (pendingAfter history) id now
  | .cancelled id answer => answer = true ↔ pendingAfter history id ≠ none
  | .cancelledAll => True

inductive Lawful : List (Event Id Time) → Prop where
  | nil : Lawful []
  | snoc {history : List (Event Id Time)} {event : Event Id Time}
      (hlawful : Lawful history) (hlegal : Legal history event) :
      Lawful (history ++ [event])

theorem lawful_snoc_iff {history : List (Event Id Time)} {event : Event Id Time} :
    Lawful (history ++ [event]) ↔ Lawful history ∧ Legal history event := by
  constructor
  · intro hlawful
    generalize hwhole : history ++ [event] = whole at hlawful
    cases hlawful with
    | nil => simp at hwhole
    | snoc hlawful hlegal =>
        obtain ⟨rfl, hevent⟩ := List.append_inj' hwhole rfl
        cases hevent
        exact ⟨hlawful, hlegal⟩
  · exact fun h => .snoc h.1 h.2

theorem Lawful.of_append {before after : List (Event Id Time)}
    (hlawful : Lawful (before ++ after)) : Lawful before := by
  induction after using List.reverseRecOn with
  | nil => simpa using hlawful
  | append_singleton after event ih =>
      rw [← List.append_assoc] at hlawful
      exact ih (lawful_snoc_iff.mp hlawful).1

theorem Lawful.legal {before after : List (Event Id Time)} {event : Event Id Time}
    (hlawful : Lawful (before ++ event :: after)) : Legal before event := by
  have hsplit : before ++ event :: after = (before ++ [event]) ++ after := by simp
  rw [hsplit] at hlawful
  exact (lawful_snoc_iff.mp hlawful.of_append).2

theorem Lawful.mayStart {before after : List (Event Id Time)} {id : Id} {now : Time}
    (hlawful : Lawful (before ++ .started id now :: after)) :
    MayStart (pendingAfter before) id now :=
  hlawful.legal

end PendingTimers
