import Mathlib.Data.List.Basic
import Mathlib.Tactic.Common

/-!
# A leader that broadcasts and followers that reply

The leader appends commands to one log, and every follower handles the log in
order at its own pace.  A machine says which replies a command is owed, up to
the part of a reply that the environment decides.  What a follower still owes
then depends on the log and on how many of its replies the leader has taken,
not on how far the follower has come.
-/

universe u v w

namespace BroadcastReplies

/-- The shapes of the replies to a command, which may depend on earlier ones. -/
structure Machine (σ : Type u) (C : Type v) (S : Type w) where
  start : σ
  step : σ → C → σ × List S

namespace Machine

variable {σ : Type u} {C : Type v} {S : Type w}

def next (machine : Machine σ C S) (done : σ × List S) (command : C) : σ × List S :=
  ((machine.step done.1 command).1, done.2 ++ (machine.step done.1 command).2)

def outcome (machine : Machine σ C S) (log : List C) : σ × List S :=
  log.foldl machine.next (machine.start, [])

/-- The state after a log. -/
def after (machine : Machine σ C S) (log : List C) : σ := (machine.outcome log).1

/-- The replies that a log is owed. -/
def replies (machine : Machine σ C S) (log : List C) : List S := (machine.outcome log).2

variable (machine : Machine σ C S)

@[simp] theorem after_nil : machine.after [] = machine.start := rfl

@[simp] theorem replies_nil : machine.replies [] = [] := rfl

@[simp] theorem after_concat (log : List C) (command : C) :
    machine.after (log ++ [command]) = (machine.step (machine.after log) command).1 := by
  rw [after, outcome, List.foldl_append]
  rfl

@[simp] theorem replies_concat (log : List C) (command : C) :
    machine.replies (log ++ [command]) =
      machine.replies log ++ (machine.step (machine.after log) command).2 := by
  rw [replies, outcome, List.foldl_append]
  rfl

theorem replies_prefix_append (log more : List C) :
    machine.replies log <+: machine.replies (log ++ more) := by
  induction more generalizing log with
  | nil => exact (congrArg machine.replies (List.append_nil log)).symm ▸ List.prefix_rfl
  | cons command more ih =>
      have hlater := ih (log ++ [command])
      rw [replies_concat, ← List.append_cons] at hlater
      exact (List.prefix_append _ _).trans hlater

theorem replies_take_prefix (log : List C) (position : ℕ) :
    machine.replies (log.take position) <+: machine.replies log := by
  have hprefix := machine.replies_prefix_append (log.take position) (log.drop position)
  rwa [List.take_append_drop] at hprefix

end Machine

/-- The leader's view of one follower: how many commands of the log the
follower has handled, all that it has written, and how many of these replies
the leader has taken. -/
structure Link (R : Type u) where
  position : ℕ
  written : List R
  taken : ℕ
  deriving DecidableEq

namespace Link

variable {σ : Type u} {C : Type v} {S : Type w} {R : Type u}

def initial : Link R := ⟨0, [], 0⟩

/-- The follower has handled the next command and written these replies. -/
def handled (link : Link R) (replies : List R) : Link R :=
  { link with position := link.position + 1, written := link.written ++ replies }

def take (link : Link R) : Link R :=
  { link with taken := link.taken + 1 }

/-- The replies that the leader has taken. -/
def received (link : Link R) : List R := link.written.take link.taken

/-- What the leader has yet to take when the follower has handled the log. -/
def owed (machine : Machine σ C S) (log : List C) (link : Link R) : List S :=
  (machine.replies log).drop link.taken

structure Follows (machine : Machine σ C S) (shape : R → S) (log : List C) (link : Link R) :
    Prop where
  position_le : link.position ≤ log.length
  written : link.written.map shape = machine.replies (log.take link.position)
  taken_le : link.taken ≤ link.written.length

variable {machine : Machine σ C S} {shape : R → S} {log : List C} {link : Link R}

theorem Follows.initial : Follows machine shape ([] : List C) (Link.initial : Link R) where
  position_le := Nat.zero_le _
  written := rfl
  taken_le := Nat.zero_le _

theorem Follows.append (hfollows : Follows machine shape log link) (command : C) :
    Follows machine shape (log ++ [command]) link where
  position_le := by
    rw [List.length_append]
    exact Nat.le_trans hfollows.position_le (Nat.le_add_right _ _)
  written := by
    rw [List.take_append_of_le_length hfollows.position_le]
    exact hfollows.written
  taken_le := hfollows.taken_le

theorem Follows.handled (hfollows : Follows machine shape log link) {command : C}
    {replies : List R} (hcommand : log[link.position]? = some command)
    (hreplies : replies.map shape =
      (machine.step (machine.after (log.take link.position)) command).2) :
    Follows machine shape log (link.handled replies) where
  position_le := (List.getElem?_eq_some_iff.mp hcommand).1
  written := by
    have htake : log.take (link.position + 1) = log.take link.position ++ [command] := by
      rw [List.take_add_one, hcommand]
      rfl
    rw [Link.handled, List.map_append, hfollows.written, hreplies, htake,
      Machine.replies_concat]
  taken_le := by
    rw [Link.handled, List.length_append]
    exact Nat.le_trans hfollows.taken_le (Nat.le_add_right _ _)

theorem Follows.take (hfollows : Follows machine shape log link) {reply : R}
    (hreply : link.written[link.taken]? = some reply) : Follows machine shape log link.take where
  position_le := hfollows.position_le
  written := hfollows.written
  taken_le := (List.getElem?_eq_some_iff.mp hreply).1

/-- Handling commands does not change what is owed. -/
@[simp] theorem owed_handled (replies : List R) :
    owed machine log (link.handled replies) = owed machine log link := rfl

theorem received_take {reply : R} (hreply : link.written[link.taken]? = some reply) :
    link.take.received = link.received ++ [reply] := by
  rw [received, received, Link.take, List.take_add_one, hreply]
  rfl

theorem Follows.received_handled (hfollows : Follows machine shape log link)
    (replies : List R) : (link.handled replies).received = link.received :=
  List.take_append_of_le_length hfollows.taken_le

theorem Follows.length_written_le (hfollows : Follows machine shape log link) :
    link.written.length ≤ (machine.replies log).length := by
  rw [← List.length_map shape, hfollows.written]
  exact (machine.replies_take_prefix log link.position).length_le

/-- A new command is owed its replies after the ones still owed. -/
theorem Follows.owed_append (hfollows : Follows machine shape log link) (command : C) :
    owed machine (log ++ [command]) link =
      owed machine log link ++ (machine.step (machine.after log) command).2 := by
  rw [owed, owed, Machine.replies_concat, List.drop_append_of_le_length]
  exact Nat.le_trans hfollows.taken_le hfollows.length_written_le

/-- The leader takes the first of the replies that are owed. -/
theorem Follows.owed_eq_cons (hfollows : Follows machine shape log link) {reply : R}
    (hreply : link.written[link.taken]? = some reply) :
    owed machine log link = shape reply :: owed machine log link.take := by
  have hshape : (machine.replies (log.take link.position))[link.taken]? =
      some (shape reply) := by
    rw [← hfollows.written, List.getElem?_map, hreply]
    rfl
  obtain ⟨later, hlater⟩ := machine.replies_take_prefix log link.position
  have hget : (machine.replies log)[link.taken]? = some (shape reply) := by
    rw [← hlater, List.getElem?_append_left (List.getElem?_eq_some_iff.mp hshape).1]
    exact hshape
  obtain ⟨hlt, hvalue⟩ := List.getElem?_eq_some_iff.mp hget
  rw [owed, List.drop_eq_getElem_cons hlt, hvalue]
  rfl

/-- Whoever owes a reply has written it or has commands left to handle. -/
theorem Follows.exists_of_owed (hfollows : Follows machine shape log link)
    (howed : owed machine log link ≠ []) :
    link.taken < link.written.length ∨ link.position < log.length := by
  by_contra hnone
  rw [not_or, Nat.not_lt, Nat.not_lt] at hnone
  have hall : log.take link.position = log := List.take_of_length_le hnone.2
  have hlength := congrArg List.length hfollows.written
  rw [List.length_map, hall] at hlength
  exact howed (List.drop_eq_nil_of_le (by omega))

/-- Of whoever owes nothing the leader has taken all replies. -/
theorem Follows.received_eq_written (hfollows : Follows machine shape log link)
    (howed : owed machine log link = []) : link.received = link.written := by
  have htaken : (machine.replies log).length ≤ link.taken := List.drop_eq_nil_iff.mp howed
  have hlength := hfollows.length_written_le
  exact List.take_of_length_le (by omega)

/-- Whoever owes no more than the replies after a command has handled it, if it is
owed a reply. -/
theorem Follows.lt_position_of_owed_le (hfollows : Follows machine shape log link)
    {before after : List C} {command : C} (hlog : log = before ++ command :: after)
    (hreply : (machine.step (machine.after before) command).2 ≠ [])
    (howed : (owed machine log link).length + (machine.replies (before ++ [command])).length ≤
      (machine.replies log).length) :
    before.length < link.position := by
  by_contra hle
  have hlength := congrArg List.length hfollows.written
  rw [List.length_map] at hlength
  have hbefore : (machine.replies (log.take link.position)).length ≤
      (machine.replies before).length := by
    have htake : log.take link.position = before.take link.position := by
      rw [hlog, List.take_append_of_le_length (by omega)]
    rw [htake]
    exact (machine.replies_take_prefix before link.position).length_le
  rw [owed, List.length_drop, Machine.replies_concat, List.length_append] at howed
  have hpositive := List.length_pos_iff.mpr hreply
  have htakenLe := hfollows.taken_le
  omega

/-- Whoever owes nothing has handled every command that is owed a reply. -/
theorem Follows.lt_position (hfollows : Follows machine shape log link)
    (howed : owed machine log link = []) {before after : List C} {command : C}
    (hlog : log = before ++ command :: after)
    (hreply : (machine.step (machine.after before) command).2 ≠ []) :
    before.length < link.position := by
  refine hfollows.lt_position_of_owed_le hlog hreply ?_
  have happend : log = before ++ [command] ++ after := by
    rw [hlog, List.append_assoc, List.singleton_append]
  rw [howed, List.length_nil, Nat.zero_add, happend]
  exact (machine.replies_prefix_append _ _).length_le

end Link

end BroadcastReplies
