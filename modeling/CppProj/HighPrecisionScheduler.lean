import CppProj.LabelledHistory
import CppProj.ListUpdate
import CppProj.TransitionSystem
import Mathlib.Algebra.Ring.Int.Defs
import Mathlib.Data.List.Chain

/-!
# `HighPrecisionScheduler` of `highRes.cpp`

`run` goes through the tasks once for each reading of the clock, and computes
the next time of a task from that reading and the time its callback took.
Times are nanoseconds, intervals and execution times whole microseconds.  A
sleep may end at any time.
-/

namespace CppProj.HighPrecisionScheduler

open LabelledHistory ListUpdate

def microseconds (count : ℤ) : ℤ := count * 1000

/-- `duration_cast<microseconds>` cuts off toward zero. -/
def toMicroseconds (ticks : ℤ) : ℤ := ticks.tdiv 1000

/-- The callback is the position of the task. -/
structure HighPrecisionTask where
  interval : ℤ
  nextRun : ℤ
  executionCount : ℕ
  deriving DecidableEq

/-- A run of a task: the reading of the loop, and the time measured. -/
structure Run where
  now : ℤ
  executionTime : ℤ
  deriving DecidableEq

/-- `visiting` is before the task at that position, or at the end of the loop over the
tasks. -/
inductive Phase where
  | adding
  | visiting (now : ℤ) (position : ℕ)
  deriving DecidableEq

/-- `clock` is the last reading, and `history` lists the runs with the positions of their
tasks. -/
structure State where
  tasks : List HighPrecisionTask
  minInterval : ℤ
  clock : ℤ
  phase : Phase
  history : List (ℕ × Run)
  deriving DecidableEq

/-- `pass` goes on from a task that is not due, `execute` runs one that is. -/
inductive Action where
  | addHighPrecisionTask (intervalMs now : ℤ)
  | loop (now : ℤ)
  | pass
  | execute (start finish : ℤ)
  deriving DecidableEq

def addHighPrecisionTask (state : State) (intervalMs now : ℤ) : State :=
  let interval := intervalMs * 1000
  { state with
    tasks := state.tasks ++ [⟨interval, now + microseconds interval, 0⟩]
    minInterval := if interval < state.minInterval then interval else state.minInterval
    clock := now }

def HighPrecisionTask.executed (task : HighPrecisionTask) (now executionTime : ℤ) :
    HighPrecisionTask :=
  { task with
    executionCount := task.executionCount + 1
    nextRun := now + microseconds task.interval - microseconds executionTime }

def step (state : State) : Action → Option State
  | .addHighPrecisionTask intervalMs now =>
      if state.phase = .adding ∧ state.clock ≤ now then
        some (addHighPrecisionTask state intervalMs now)
      else none
  | .loop now =>
      if state.clock ≤ now then
        match state.phase with
        | .adding => some { state with phase := .visiting now 0, clock := now }
        | .visiting _ position =>
            if position = state.tasks.length then
              some { state with phase := .visiting now 0, clock := now }
            else none
      else none
  | .pass =>
      match state.phase with
      | .adding => none
      | .visiting now position =>
          match state.tasks[position]? with
          | none => none
          | some task =>
              if task.nextRun ≤ now then none
              else some { state with phase := .visiting now (position + 1) }
  | .execute start finish =>
      match state.phase with
      | .adding => none
      | .visiting now position =>
          match state.tasks[position]? with
          | none => none
          | some task =>
              if task.nextRun ≤ now ∧ state.clock ≤ start ∧ start ≤ finish then
                let executionTime := toMicroseconds (finish - start)
                some { state with
                  tasks := state.tasks.set position (task.executed now executionTime)
                  clock := finish
                  phase := .visiting now (position + 1)
                  history := state.history ++ [(position, ⟨now, executionTime⟩)] }
              else none

/-- The clock stands at `clock` before the first reading. -/
def scheduler (clock : ℤ) : TransitionSystem State Action where
  initial := ⟨[], 1000, clock, .adding, []⟩
  step := step

/-! ## The interval -/

/-- The readings of consecutive runs of a task lie its interval apart. -/
def KeepsInterval (state : State) : Prop :=
  ∀ (position : ℕ) task, state.tasks[position]? = some task →
    (entriesOf position state.history).IsChain fun earlier later =>
      earlier.now + microseconds task.interval ≤ later.now

/-- A reading less than the interval after the last run, but not by more than the
execution time of that run. -/
def WithinExecutionTime (task : HighPrecisionTask) (last : Run) (now : ℤ) : Prop :=
  last.now + microseconds task.interval - microseconds last.executionTime ≤ now ∧
    now < last.now + microseconds task.interval

instance (task : HighPrecisionTask) (last : Run) (now : ℤ) :
    Decidable (WithinExecutionTime task last now) :=
  inferInstanceAs (Decidable (_ ∧ _))

/-- The loop is not at a task within the execution time of its last run. -/
def VisitedOutsideAt (state : State) : Phase → Prop
  | .adding => True
  | .visiting now position =>
      ∀ task ∈ state.tasks[position]?, ∀ last ∈ (entriesOf position state.history).getLast?,
        ¬ WithinExecutionTime task last now

instance (state : State) : ∀ phase, Decidable (VisitedOutsideAt state phase)
  | .adding => isTrue trivial
  | .visiting now position =>
      inferInstanceAs (Decidable (∀ task ∈ state.tasks[position]?,
        ∀ last ∈ (entriesOf position state.history).getLast?, ¬ WithinExecutionTime task last now))

/-- The loop does not come to a task within the execution time of its last run. -/
def VisitedOutside (state : State) : Action → Prop
  | .addHighPrecisionTask _ _ | .loop _ => True
  | .pass | .execute _ _ => VisitedOutsideAt state state.phase

instance (state : State) : ∀ action, Decidable (VisitedOutside state action)
  | .addHighPrecisionTask _ _ | .loop _ => isTrue trivial
  | .pass | .execute _ _ => inferInstanceAs (Decidable (VisitedOutsideAt state state.phase))

structure Invariant (state : State) : Prop where
  known : ∀ entry ∈ state.history, entry.1 < state.tasks.length
  nextRun : ∀ (position : ℕ) task last, state.tasks[position]? = some task →
    (entriesOf position state.history).getLast? = some last →
      task.nextRun = last.now + microseconds task.interval - microseconds last.executionTime

theorem initial_invariant (clock : ℤ) : Invariant (scheduler clock).initial :=
  ⟨nofun, nofun⟩

/-- What a step does to the tasks and their runs. -/
inductive Transition (state next : State) : Action → Prop where
  | still (action : Action) (htasks : next.tasks = state.tasks)
      (hhistory : next.history = state.history)
      (hpass : ∀ now position, action = .pass → state.phase = .visiting now position →
        ∀ task, state.tasks[position]? = some task → now < task.nextRun)
      (hexecute : ∀ start finish, action ≠ .execute start finish) : Transition state next action
  | added (intervalMs now : ℤ) (task : HighPrecisionTask)
      (htasks : next.tasks = state.tasks ++ [task]) (hhistory : next.history = state.history) :
      Transition state next (.addHighPrecisionTask intervalMs now)
  | executed (start finish now executionTime : ℤ) (position : ℕ) (task : HighPrecisionTask)
      (hphase : state.phase = .visiting now position) (hget : state.tasks[position]? = some task)
      (hdue : task.nextRun ≤ now)
      (htasks : next.tasks = state.tasks.set position (task.executed now executionTime))
      (hhistory : next.history = state.history ++ [(position, ⟨now, executionTime⟩)]) :
      Transition state next (.execute start finish)

theorem transition_of_step {state next : State} {action : Action}
    (hstep : step state action = some next) : Transition state next action := by
  cases action with
  | addHighPrecisionTask intervalMs now =>
      simp only [step, Option.ite_none_right_eq_some] at hstep
      obtain ⟨_, ⟨⟩⟩ := hstep
      exact .added intervalMs now _ rfl rfl
  | loop now =>
      simp only [step, Option.ite_none_right_eq_some] at hstep
      obtain ⟨_, hloop⟩ := hstep
      split at hloop
      · cases hloop
        exact .still _ rfl rfl nofun nofun
      · simp only [Option.ite_none_right_eq_some] at hloop
        obtain ⟨_, ⟨⟩⟩ := hloop
        exact .still _ rfl rfl nofun nofun
  | pass =>
      simp only [step] at hstep
      split at hstep
      · cases hstep
      · rename_i now position hphase
        split at hstep
        · cases hstep
        · rename_i task hget
          simp only [Option.ite_none_left_eq_some] at hstep
          obtain ⟨hearly, ⟨⟩⟩ := hstep
          refine .still _ rfl rfl ?_ nofun
          rintro other index - hsame found hfound
          rw [hphase] at hsame
          cases hsame
          rw [hget] at hfound
          cases hfound
          exact Int.not_le.mp hearly
  | execute start finish =>
      simp only [step] at hstep
      split at hstep
      · cases hstep
      · rename_i now position hphase
        split at hstep
        · cases hstep
        · rename_i task hget
          simp only [Option.ite_none_right_eq_some] at hstep
          obtain ⟨⟨hdue, _⟩, ⟨⟩⟩ := hstep
          exact .executed start finish now _ position task hphase hget hdue rfl rfl

namespace Invariant

variable {state next : State} {action : Action}

theorem entriesOf_new (hinv : Invariant state) :
    entriesOf state.tasks.length state.history = [] :=
  entriesOf_eq_nil fun entry hmem => (hinv.known entry hmem).ne

theorem step (hinv : Invariant state) (hstep : step state action = some next) :
    Invariant next := by
  cases transition_of_step hstep with
  | still _ htasks hhistory _ _ =>
      constructor
      · rw [htasks, hhistory]
        exact hinv.known
      · rw [htasks, hhistory]
        exact hinv.nextRun
  | added intervalMs now new htasks hhistory =>
      constructor
      · rw [htasks, hhistory, List.length_append]
        exact fun entry hmem => Nat.lt_add_right 1 (hinv.known entry hmem)
      · rw [htasks, hhistory]
        intro position task last hget hlast
        rcases getElem?_append_singleton_cases hget with hold | ⟨rfl, rfl⟩
        · exact hinv.nextRun position task last hold hlast
        · rw [hinv.entriesOf_new] at hlast
          cases hlast
  | executed start finish now executionTime position task hphase hget hdue htasks hhistory =>
      have hlt : position < state.tasks.length := (List.getElem?_eq_some_iff.mp hget).1
      constructor
      · rw [htasks, hhistory, List.length_set]
        exact labels_lt_append hinv.known hlt _
      · rw [htasks, hhistory]
        intro index found last hfound hlast
        rcases getElem?_set_cases hfound with ⟨rfl, rfl⟩ | ⟨hne, hold⟩
        · rw [entriesOf_append_self, List.getLast?_concat] at hlast
          cases hlast
          rfl
        · rw [entriesOf_append_of_ne hne] at hlast
          exact hinv.nextRun index found last hold hlast

end Invariant

/-! ## One step -/

section OneStep

variable {state next : State}

theorem keepsInterval_still (htasks : next.tasks = state.tasks)
    (hhistory : next.history = state.history) : KeepsInterval next ↔ KeepsInterval state := by
  rw [KeepsInterval, KeepsInterval, htasks, hhistory]

theorem keepsInterval_added (hinv : Invariant state) {new : HighPrecisionTask}
    (htasks : next.tasks = state.tasks ++ [new]) (hhistory : next.history = state.history) :
    KeepsInterval next ↔ KeepsInterval state := by
  rw [KeepsInterval, KeepsInterval, htasks, hhistory]
  constructor
  · intro hkeeps position task hget
    exact hkeeps position task (getElem?_append_of_eq_some hget _)
  · intro hkeeps position task hget
    rcases getElem?_append_singleton_cases hget with hold | ⟨rfl, rfl⟩
    · exact hkeeps position task hold
    · rw [hinv.entriesOf_new]
      exact .nil

theorem keepsInterval_executed {now executionTime : ℤ} {position : ℕ} {task : HighPrecisionTask}
    (hget : state.tasks[position]? = some task)
    (htasks : next.tasks = state.tasks.set position (task.executed now executionTime))
    (hhistory : next.history = state.history ++ [(position, ⟨now, executionTime⟩)]) :
    KeepsInterval next ↔ KeepsInterval state ∧
      ∀ last ∈ (entriesOf position state.history).getLast?,
        last.now + microseconds task.interval ≤ now := by
  rw [KeepsInterval, KeepsInterval, htasks, hhistory]
  constructor
  · intro hkeeps
    have hself := hkeeps position _ (getElem?_set_self hget _)
    rw [entriesOf_append_self, List.isChain_append] at hself
    obtain ⟨hchain, _, hlast⟩ := hself
    constructor
    · intro index found hfound
      by_cases heq : position = index
      · subst heq
        rw [hget] at hfound
        cases hfound
        exact hchain
      · have hkept := hkeeps index found (by rwa [getElem?_set_of_ne heq])
        rwa [entriesOf_append_of_ne heq] at hkept
    · exact fun last hmem => hlast last hmem _ rfl
  · rintro ⟨hkeeps, hlast⟩ index found hfound
    rcases getElem?_set_cases hfound with ⟨rfl, rfl⟩ | ⟨hne, hold⟩
    · rw [entriesOf_append_self]
      refine (hkeeps position task hget).append (.singleton _) ?_
      rintro last hmem _ ⟨⟩
      exact hlast last hmem
    · rw [entriesOf_append_of_ne hne]
      exact hkeeps index found hold

theorem keepsInterval_of_next (hinv : Invariant state) {action : Action}
    (hstep : step state action = some next) (hkeeps : KeepsInterval next) :
    KeepsInterval state := by
  cases transition_of_step hstep with
  | still _ htasks hhistory _ _ => exact (keepsInterval_still htasks hhistory).mp hkeeps
  | added _ _ _ htasks hhistory => exact (keepsInterval_added hinv htasks hhistory).mp hkeeps
  | executed _ _ _ _ _ _ _ hget _ htasks hhistory =>
      exact ((keepsInterval_executed hget htasks hhistory).mp hkeeps).1

theorem visitedOutside_execute_iff {now : ℤ} {position : ℕ} (hinv : Invariant state)
    (hphase : state.phase = .visiting now position) {task : HighPrecisionTask}
    (hget : state.tasks[position]? = some task) (hdue : task.nextRun ≤ now) (start finish : ℤ) :
    VisitedOutside state (.execute start finish) ↔
      ∀ last ∈ (entriesOf position state.history).getLast?,
        last.now + microseconds task.interval ≤ now := by
  simp only [VisitedOutside, VisitedOutsideAt, hphase, hget, Option.mem_some_iff, forall_eq']
  refine forall₂_congr fun last hlast => ?_
  have hnext := hinv.nextRun position task last hget hlast
  rw [WithinExecutionTime]
  omega

theorem keepsInterval_step (hinv : Invariant state) (hkeeps : KeepsInterval state)
    {action : Action} (hstep : step state action = some next) :
    KeepsInterval next ↔ VisitedOutside state action := by
  cases transition_of_step hstep with
  | still _ htasks hhistory hpass hexecute =>
      refine iff_of_true ((keepsInterval_still htasks hhistory).mpr hkeeps) ?_
      cases action with
      | addHighPrecisionTask _ _ | loop _ => trivial
      | execute start finish => exact (hexecute start finish rfl).elim
      | pass =>
          -- the task is not due, so the reading lies before the window
          show VisitedOutsideAt state state.phase
          cases hphase : state.phase with
          | adding => trivial
          | visiting now position =>
              intro task hget last hlast hwithin
              have hearly := hpass now position rfl hphase task hget
              rw [hinv.nextRun position task last hget hlast] at hearly
              exact Int.not_le.mpr hearly hwithin.1
  | added _ _ _ htasks hhistory =>
      exact iff_of_true ((keepsInterval_added hinv htasks hhistory).mpr hkeeps) trivial
  | executed start finish _ _ _ _ hphase hget hdue htasks hhistory =>
      rw [keepsInterval_executed hget htasks hhistory, and_iff_right hkeeps,
        visitedOutside_execute_iff hinv hphase hget hdue]

end OneStep

/-- The scheduler keeps the intervals in exactly the runs whose loop readings never come to a
task within the execution time of its last run. -/
theorem keepsInterval_iff {clock : ℤ} {actions : List Action} {final : State}
    (hrun : (scheduler clock).run (scheduler clock).initial actions = some final) :
    KeepsInterval final ↔
      (scheduler clock).StepsMeet VisitedOutside (scheduler clock).initial actions := by
  refine TransitionSystem.run_iff_stepsMeet Invariant KeepsInterval ?_ ?_ ?_
    (initial_invariant clock) nofun hrun
  · exact fun _ _ _ hinv hstep => hinv.step hstep
  · exact fun _ _ _ hinv hkeeps hstep => keepsInterval_step hinv hkeeps hstep
  · exact fun _ _ _ hinv hbad hstep hkeeps => hbad (keepsInterval_of_next hinv hstep hkeeps)

/-- A task of 10 ms that takes 4 ms, visited at 10 ms and at 20 ms. -/
def slowLoop : List Action :=
  [.addHighPrecisionTask 10 0, .loop 10000000, .execute 10000000 14000000, .loop 20000000,
    .execute 20000000 24000000]

theorem keepsInterval_slowLoop :
    ∃ final, (scheduler 0).run (scheduler 0).initial slowLoop = some final ∧
      KeepsInterval final :=
  have hrun : ∃ final, (scheduler 0).run (scheduler 0).initial slowLoop = some final := ⟨_, rfl⟩
  hrun.imp fun _ hfinal => ⟨hfinal, (keepsInterval_iff hfinal).mpr (by decide)⟩

def fastLoop : List Action :=
  [.addHighPrecisionTask 10 0, .loop 10000000, .execute 10000000 14000000, .loop 16000000,
    .execute 16000000 20000000]

theorem not_keepsInterval_fastLoop :
    ∃ final, (scheduler 0).run (scheduler 0).initial fastLoop = some final ∧
      entriesOf 0 final.history = [⟨10000000, 4000⟩, ⟨16000000, 4000⟩] ∧
      ¬ KeepsInterval final := by
  refine ⟨_, rfl, rfl, ?_⟩
  intro hkeeps
  have hpair := hkeeps 0 _ rfl
  rw [show entriesOf 0 _ = [⟨10000000, 4000⟩, ⟨16000000, 4000⟩] from rfl,
    List.isChain_pair] at hpair
  revert hpair
  decide

end CppProj.HighPrecisionScheduler
