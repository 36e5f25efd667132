import CppProj.ConditionVariable
import CppProj.MutualExclusion
import CppProj.TransitionSystem
import Mathlib.Algebra.Ring.Int.Defs
import Mathlib.Algebra.Ring.Nat

/-!
# The worker pool of `use_mutex.cpp`

`main` creates the workers, pushes the tasks and then one sentinel for each
worker, and joins the workers.  `push` notifies after it has released the mutex,
and whichever sleeping worker `notify_one` picks may find that another worker
was faster.  The number of workers and the tasks are parameters.
-/

namespace CppProj.TaskQueue

inductive OnceFlag where
  | idle
  | active
  | done
  deriving DecidableEq

/-- Where a worker stands: in `std::call_once`, in `pop`, or with the task it
has taken. -/
inductive WorkerPhase where
  | callOnce
  | runOnce
  | popLock
  | wait (phase : WaitPhase)
  | take
  | unlock (task : ℤ)
  | received (task : ℤ)
  | processing (task : ℤ)
  | exited
  deriving DecidableEq

/-- `spawning` counts the workers that are not created yet and `joining` is the
position of the worker that is joined next. -/
inductive MainPhase where
  | spawning (left : ℕ)
  | testLoop
  | pushLock
  | pushInsert
  | pushUnlock
  | pushNotify
  | joining (index : ℕ)
  | returned
  deriving DecidableEq

namespace WorkerPhase

def holdsMutex : WorkerPhase → Bool
  | .wait phase => phase.holdsMutex
  | .take | .unlock _ => true
  | _ => false

/-- What the worker has taken out of the queue and not processed.  The sentinel
stays with the worker that it ends. -/
def held : WorkerPhase → List ℤ
  | .unlock task | .received task | .processing task => [task]
  | .exited => [-1]
  | _ => []

/-- The worker takes an item from the queue or tests it before it sleeps
again. -/
def claims : WorkerPhase → Bool
  | .popLock | .wait .testing | .wait .notified | .take => true
  | _ => false

end WorkerPhase

namespace MainPhase

def holdsMutex : MainPhase → Bool
  | .pushInsert | .pushUnlock => true
  | _ => false

/-- The item pushed last is not notified yet. -/
def pending : MainPhase → ℕ
  | .pushUnlock | .pushNotify => 1
  | _ => 0

def left : MainPhase → ℕ
  | .spawning left => left
  | _ => 0

def pushesDone : MainPhase → Bool
  | .joining _ | .returned => true
  | _ => false

end MainPhase

/-- `remaining` is what `main` has still to push.  `popped` lists the items in
the order in which they leave the queue and `processed` the tasks in the order
of their processing, both with the worker's position. -/
structure State where
  tasks : List ℤ
  remaining : List ℤ
  main : MainPhase
  workers : List WorkerPhase
  flag : OnceFlag
  popped : List (ℕ × ℤ)
  processed : List (ℕ × ℤ)
  deriving DecidableEq

/-- `notifyOne` carries the sleeping worker that `notify_one` wakes, if there is
one. -/
inductive Action where
  | main
  | notifyOne (woken : Option ℕ)
  | worker (index : ℕ)
  | spuriousWakeup (index : ℕ)
  deriving DecidableEq

/-- Everything that `main` pushes. -/
def plan (workers : ℕ) (tasks : List ℤ) : List ℤ :=
  tasks ++ List.replicate workers (-1)

def initial (workers : ℕ) (tasks : List ℤ) : State where
  tasks := []
  remaining := plan workers tasks
  main := .spawning workers
  workers := []
  flag := .idle
  popped := []
  processed := []

namespace State

def mutexFree (state : State) : Bool :=
  !state.main.holdsMutex && noneHolds WorkerPhase.holdsMutex state.workers

def setWorker (state : State) (index : ℕ) (phase : WorkerPhase) : State :=
  { state with workers := state.workers.set index phase }

end State

def mainStep (state : State) : Option State :=
  match state.main with
  | .spawning 0 => some { state with main := .testLoop }
  | .spawning (left + 1) =>
      some { state with workers := state.workers ++ [.callOnce], main := .spawning left }
  | .testLoop =>
      some { state with main := if state.remaining.isEmpty then .joining 0 else .pushLock }
  | .pushLock => if state.mutexFree then some { state with main := .pushInsert } else none
  | .pushInsert =>
      match state.remaining with
      | [] => none
      | task :: rest =>
          some { state with
            tasks := state.tasks ++ [task]
            remaining := rest
            main := .pushUnlock }
  | .pushUnlock => some { state with main := .pushNotify }
  | .joining index =>
      match state.workers[index]? with
      | none => some { state with main := .returned }
      | some .exited => some { state with main := .joining (index + 1) }
      | some _ => none
  | .pushNotify | .returned => none

def notifyOneStep (state : State) : Option ℕ → Option State
  | none =>
      if state.workers.all fun worker => worker != .wait .blocked then
        some { state with main := .testLoop }
      else none
  | some index =>
      if state.workers[index]? = some (.wait .blocked) then
        some { state.setWorker index (.wait .notified) with main := .testLoop }
      else none

def workerStep (state : State) (index : ℕ) (phase : WorkerPhase) : Option State :=
  match phase with
  | .callOnce =>
      match state.flag with
      | .idle => some { state.setWorker index .runOnce with flag := .active }
      | .active => none
      | .done => some (state.setWorker index .popLock)
  | .runOnce => some { state.setWorker index .popLock with flag := .done }
  | .popLock =>
      if state.mutexFree then some (state.setWorker index (.wait .testing)) else none
  | .wait .testing =>
      some (state.setWorker index (if state.tasks.isEmpty then .wait .blocking else .take))
  | .wait .blocking => some (state.setWorker index (.wait .blocked))
  | .wait .notified =>
      if state.mutexFree then some (state.setWorker index (.wait .testing)) else none
  | .take =>
      match state.tasks with
      | [] => none
      | task :: rest =>
          some { state.setWorker index (.unlock task) with
            tasks := rest
            popped := state.popped ++ [(index, task)] }
  | .unlock task => some (state.setWorker index (.received task))
  | .received task =>
      some (state.setWorker index (if task = -1 then .exited else .processing task))
  | .processing task =>
      some { state.setWorker index .popLock with
        processed := state.processed ++ [(index, task)] }
  | .wait .blocked | .exited => none

def step (state : State) : Action → Option State
  | .main => mainStep state
  | .notifyOne woken => if state.main = .pushNotify then notifyOneStep state woken else none
  | .worker index => state.workers[index]?.bind (workerStep state index)
  | .spuriousWakeup index =>
      if state.workers[index]? = some (.wait .blocked) then
        some (state.setWorker index (.wait .notified))
      else none

def system (workers : ℕ) (tasks : List ℤ) : TransitionSystem State Action where
  initial := initial workers tasks
  step := step

/-- No thread of the program can take a step. -/
def Stuck (state : State) : Prop :=
  ∀ action, (∀ index, action ≠ .spuriousWakeup index) → step state action = none

end CppProj.TaskQueue
