import CppProj.ConditionVariable
import CppProj.DeliveryMechanismsOptions
import CppProj.TransitionSystem
import Mathlib.Data.Finset.Card
import Mathlib.Data.Fintype.Basic
import Mathlib.Logic.Function.Basic

/-!
# The delivery mechanisms example

Any number of applications on one topic, each a publisher, a subscriber or both.
A publisher sends numbered samples while somebody is matched, a subscriber
counts samples and stops itself after so many.

Of each application the thread of `run` is modelled step by step, as are the
samples its listener has taken.  The callbacks and `stop` do not lock the mutex
of the waits, so their notifications may come at any point of a wait.  The
middleware keeps the order of the samples of one writer, and may lose any of
them; what a deleted writer has not delivered is lost.
-/

namespace CppProj.DeliveryMechanisms

/-- Where the thread of `run` stands: `publishing` is after the wait of
`publish`, `writing` after the loan, `resting` in `wait_for` and `checking`
after it. -/
inductive Phase where
  | head
  | waiting (wait : WaitPhase)
  | publishing
  | writing
  | resting
  | checking
  | returned
  deriving DecidableEq

/-- A sample, by its writer and `index`. -/
abbrev Sample (n : ℕ) := Fin n × UInt32

/-- `notifications` counts the calls of `cv_` that have been started.  `history`
is in the reader, `batch` is the rest of what the listener has taken, `received`
what it has printed, and `written` what the writer has sent. -/
structure App (n : ℕ) where
  phase : Phase
  matched : ℕ
  indexOfLastSampleSent : UInt32
  receivedSamples : UInt32
  stop : Bool
  notifications : ℕ
  written : List UInt32
  history : List (Sample n)
  batch : List (Sample n)
  received : List (Sample n)
  deleted : Bool
  deriving DecidableEq

variable {n : ℕ}

def Config.publishes (config : Config) : Bool :=
  config.entity = .publisher || config.entity = .pubsub

def Config.subscribes (config : Config) : Bool :=
  config.entity = .subscriber || config.entity = .pubsub

/-- `samples_` is 0 or not reached yet. -/
def Config.wants (config : Config) (count : UInt32) : Bool :=
  config.samples = 0 || decide (count.toNat < config.samples.toNat)

namespace App

/-- The head of the loop of `run`, and for a subscriber its only wait.  Of an
entity that is undefined there is no application. -/
def initial (config : Config) : App n where
  phase :=
    match config.entity with
    | .publisher | .pubsub => .head
    | .subscriber => .waiting .testing
    | .undefined => .returned
  matched := 0
  indexOfLastSampleSent := 0
  receivedSamples := 0
  stop := false
  notifications := 0
  written := []
  history := []
  batch := []
  received := []
  deleted := false

/-- `stop`: the flag is set, and the notification is to come. -/
def stopped (app : App n) : App n :=
  { app with stop := true, notifications := app.notifications + 1 }

/-- What the wait is for: in `publish` a match or the flag, in
`SubscriberApp::run` the flag. -/
def goesOn (config : Config) (app : App n) : Bool :=
  app.stop || (config.publishes && decide (0 < app.matched))

/-- A step of `run` that does not depend on the middleware or the clock. -/
def advance (config : Config) (app : App n) : Option (App n) :=
  match app.phase with
  | .head =>
      some
        (if app.stop then { app with phase := .returned }
        else if config.wants app.indexOfLastSampleSent then
          { app with phase := .waiting .testing }
        else if config.entity = .pubsub then { app with phase := .resting }
        else { app with phase := .returned })
  | .waiting .testing =>
      some
        (if app.goesOn config then
          { app with phase := if config.publishes then .publishing else .returned }
        else { app with phase := .waiting .blocking })
  | .waiting .blocking => some { app with phase := .waiting .blocked }
  | .waiting .notified => some { app with phase := .waiting .testing }
  | .publishing => if app.stop then some { app with phase := .resting } else none
  | .checking =>
      some
        (if config.samples ≠ 0 ∧ config.wants app.receivedSamples = false ∧
            config.wants app.indexOfLastSampleSent = false then
          { app.stopped with phase := .head }
        else { app with phase := .head })
  | .waiting .blocked | .writing | .resting | .returned => none

/-- `loan_sample`, and the index of the sample. -/
def loan (loaned : Bool) (app : App n) : Option (App n) :=
  if app.phase = .publishing ∧ app.stop = false then
    some
      (if loaned then
        { app with
          indexOfLastSampleSent := app.indexOfLastSampleSent + 1
          phase := .writing }
      else { app with phase := .resting })
  else none

def write (succeeded : Bool) (app : App n) : Option (App n) :=
  if app.phase = .writing then
    some
      { app with
        written :=
          if succeeded then app.written ++ [app.indexOfLastSampleSent] else app.written
        phase := .resting }
  else none

/-- `wait_for` ends. -/
def rest (config : Config) (app : App n) : Option (App n) :=
  if app.phase = .resting then
    some { app with phase := if config.entity = .pubsub then .checking else .head }
  else none

/-- A notification of `cv_`. -/
def notify (app : App n) : Option (App n) :=
  if 0 < app.notifications then
    some
      { app with
        notifications := app.notifications - 1
        phase :=
          match app.phase with
          | .waiting wait => .waiting wait.notify
          | phase => phase }
  else none

/-- `take` in `on_data_available`, of so many samples.  `PubSubApp` also tests
the number of samples. -/
def take (config : Config) (count : ℕ) (app : App n) : Option (App n) :=
  if app.deleted = false ∧ app.batch = [] ∧ app.stop = false ∧ 0 < count ∧ app.history ≠ [] ∧
      (config.entity = .pubsub → config.wants app.receivedSamples = true) then
    some
      { app with
        batch := app.history.take count
        history := app.history.drop count }
  else none

/-- A sample is counted and printed.  `SubscriberApp` stops itself. -/
def receive (config : Config) (app : App n) : Option (App n) :=
  match app.batch with
  | sample :: rest =>
      let counted := { app with
        batch := rest
        received := app.received ++ [sample]
        receivedSamples := app.receivedSamples + 1 }
      some
        (if config.entity = .subscriber ∧ config.wants counted.receivedSamples = false then
          counted.stopped
        else counted)
  | [] => none

/-- The application is destroyed after its thread has ended. -/
def delete (app : App n) : Option (App n) :=
  if app.phase = .returned ∧ app.batch = [] ∧ app.deleted = false then
    some { app with deleted := true }
  else none

end App

/-! ## The system -/

/-- Whether the writer knows the reader, and how many samples of the writer the
middleware has dealt with for the reader. -/
structure Link where
  matched : Bool
  position : ℕ
  deriving DecidableEq

/-- `links writer reader` -/
structure State (n : ℕ) where
  apps : Fin n → App n
  links : Fin n → Fin n → Link

inductive Action (n : ℕ) where
  | advance (index : Fin n)
  | loan (index : Fin n) (loaned : Bool)
  | write (index : Fin n) (succeeded : Bool)
  | rest (index : Fin n)
  | notify (index : Fin n)
  | signal (index : Fin n)
  | publicationMatched (writer reader : Fin n)
  | publicationUnmatched (writer reader : Fin n)
  | deliver (writer reader : Fin n)
  | lose (writer reader : Fin n)
  | take (index : Fin n) (count : ℕ)
  | receive (index : Fin n)
  | delete (index : Fin n)
  deriving DecidableEq

namespace State

def initial (configs : Fin n → Config) : State n where
  apps := fun index => App.initial (configs index)
  links := fun _ _ => ⟨false, 0⟩

def withApp (state : State n) (index : Fin n) (app : App n) : State n :=
  { state with apps := Function.update state.apps index app }

def withLink (state : State n) (writer reader : Fin n) (link : Link) : State n :=
  { state with
    links := Function.update state.links writer
      (Function.update (state.links writer) reader link) }

/-- `current_count` -/
def currentCount (state : State n) (writer : Fin n) : ℕ :=
  (Finset.univ.filter fun reader => (state.links writer reader).matched = true).card

end State

/-- A writer and a reader may be matched. -/
def Compatible (configs : Fin n → Config) (writer reader : Fin n) : Prop :=
  (configs writer).publishes = true ∧ (configs reader).subscribes = true ∧
    (writer = reader → (configs writer).ignoreLocalEndpoints = false)

instance (configs : Fin n → Config) (writer reader : Fin n) :
    Decidable (Compatible configs writer reader) :=
  inferInstanceAs (Decidable (_ ∧ _ ∧ _))

def appStep (state : State n) (index : Fin n) (step : App n → Option (App n)) :
    Option (State n) :=
  (step (state.apps index)).map (state.withApp index)

/-- `on_publication_matched` with a change of 1. -/
def matchedStep (configs : Fin n → Config) (state : State n) (writer reader : Fin n) :
    Option (State n) :=
  let app := state.apps writer
  let link := state.links writer reader
  if Compatible configs writer reader ∧ app.deleted = false ∧
      (state.apps reader).deleted = false ∧ link.matched = false then
    let matched := state.withLink writer reader { link with matched := true }
    some
      (matched.withApp writer
        { app with
          matched := matched.currentCount writer
          notifications := app.notifications + 1 })
  else none

/-- `on_publication_matched` with a change of -1, which notifies nobody. -/
def unmatchedStep (state : State n) (writer reader : Fin n) : Option (State n) :=
  let app := state.apps writer
  let link := state.links writer reader
  if app.deleted = false ∧ (state.apps reader).deleted = true ∧ link.matched = true then
    let unmatched := state.withLink writer reader { link with matched := false }
    some (unmatched.withApp writer { app with matched := unmatched.currentCount writer })
  else none

/-- The next sample of a writer gets into the history of a reader. -/
def deliverStep (state : State n) (writer reader : Fin n) : Option (State n) :=
  let link := state.links writer reader
  let app := state.apps reader
  match (state.apps writer).written[link.position]? with
  | some sample =>
      if link.matched = true ∧ (state.apps writer).deleted = false ∧ app.deleted = false then
        some
          ((state.withLink writer reader { link with position := link.position + 1 }).withApp reader
            { app with history := app.history ++ [(writer, sample)] })
      else none
  | none => none

def loseStep (state : State n) (writer reader : Fin n) : Option (State n) :=
  let link := state.links writer reader
  if link.position < (state.apps writer).written.length then
    some (state.withLink writer reader { link with position := link.position + 1 })
  else none

def step (configs : Fin n → Config) (state : State n) : Action n → Option (State n)
  | .advance index => appStep state index (App.advance (configs index))
  | .loan index loaned => appStep state index (App.loan loaned)
  | .write index succeeded => appStep state index (App.write succeeded)
  | .rest index => appStep state index (App.rest (configs index))
  | .notify index => appStep state index App.notify
  | .signal index => appStep state index fun app => some app.stopped
  | .publicationMatched writer reader => matchedStep configs state writer reader
  | .publicationUnmatched writer reader => unmatchedStep state writer reader
  | .deliver writer reader => deliverStep state writer reader
  | .lose writer reader => loseStep state writer reader
  | .take index count => appStep state index (App.take (configs index) count)
  | .receive index => appStep state index (App.receive (configs index))
  | .delete index => appStep state index App.delete

def system (configs : Fin n → Config) : TransitionSystem (State n) (Action n) :=
  ⟨State.initial configs, step configs⟩

end CppProj.DeliveryMechanisms
