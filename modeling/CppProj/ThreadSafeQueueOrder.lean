import CppProj.ThreadSafeQueue

/-!
# Order and end of `ThreadSafeQueue`

The critical sections of `push` and of the pops move values at the two ends of
`queue_`, so what has been enqueued is what has been popped followed by what is
queued.  A pop decides under `mtx_` to take a value, with the flag down; the
flag is never lowered, and a `stop` that has returned has raised it.
-/

universe u

namespace CppProj.ThreadSafeQueue

variable {T : Type u}

/-! ## What a step does -/

inductive Move (state : State T) (index : ℕ) (call : Call T) : State T → Prop where
  | quiet (phase : Phase T) (htake : phase ≠ .take) (hnotify : phase ≠ .stopNotify)
      (hresult : phase.result = call.phase.result)
      (hmutex : phase.holdsMutex = true → call.holdsMutex = true ∨ state.mutexFree = true) :
      Move state index call (state.setPhase index call phase)
  | decide (hmutex : call.holdsMutex = true) (hqueue : state.queue ≠ [])
      (hflag : state.stopFlag = false) (hresult : call.phase.result = none) :
      Move state index call (state.setPhase index call .take)
  | insert (value : T) (hphase : call.phase = .pushInsert value) :
      Move state index call
        { state.setPhase index call .pushNotify with
          queue := state.queue ++ [value]
          enqueued := state.enqueued ++ [value] }
  | take (value : T) (rest : List T) (hphase : call.phase = .take)
      (hqueue : state.queue = value :: rest) :
      Move state index call
        { state.setPhase index call (.unlock (some value)) with
          queue := rest
          popped := state.popped ++ [(index, value)] }
  | stopStore (hphase : call.phase = .stopStore) :
      Move state index call
        { state.setPhase index call .stopNotify with stopFlag := true }
  | stopNotify (hphase : call.phase = .stopNotify) :
      Move state index call
        { state with
          calls := (state.calls.map Call.notify).set index { call with phase := .returned none }
          stopReturned := true }

theorem move_of_acquire {state next : State T} {index : ℕ} {call : Call T} {phase : Phase T}
    (htake : phase ≠ .take) (hnotify : phase ≠ .stopNotify)
    (hresult : phase.result = call.phase.result)
    (hstep : (if state.mutexFree then some (state.setPhase index call phase) else none) =
      some next) :
    Move state index call next := by
  split_ifs at hstep with hfree
  cases hstep
  exact .quiet phase htake hnotify hresult fun _ => Or.inr hfree

theorem move_of_callStep {state next : State T} {index : ℕ} {call : Call T}
    (hstep : callStep state index call = some next) : Move state index call next := by
  have hholds : ∀ phase, call.phase = phase → phase.holdsMutex = true →
      call.holdsMutex = true := by
    intro phase hphase hholds
    rw [Call.holdsMutex, hphase, hholds]
  unfold callStep at hstep
  cases hphase : call.phase with
  | pushTest value =>
      simp only [hphase] at hstep
      cases hstep
      split_ifs
      · exact .quiet _ (by simp) (by simp) (by rw [hphase]; rfl) (by simp [Phase.holdsMutex])
      · exact .quiet _ (by simp) (by simp) (by rw [hphase]; rfl) (by simp [Phase.holdsMutex])
  | pushLock value | tryPopLock | waitLock | timedOut =>
      simp only [hphase] at hstep
      exact move_of_acquire (by simp) (by simp) (by rw [hphase]; rfl) hstep
  | pushInsert value =>
      simp only [hphase] at hstep
      cases hstep
      exact .insert value hphase
  | tryPopTest =>
      have hmutex := hholds _ hphase rfl
      simp only [hphase] at hstep
      cases hstep
      by_cases hfail : (state.queue.isEmpty || state.stopFlag) = true
      · rw [if_pos hfail]
        exact .quiet _ (by simp) (by simp) (by rw [hphase]; rfl) fun _ => Or.inl hmutex
      · rw [if_neg hfail]
        simp only [Bool.or_eq_true, List.isEmpty_iff, not_or, Bool.not_eq_true] at hfail
        exact .decide hmutex hfail.1 hfail.2 (by rw [hphase]; rfl)
  | wait waiting =>
      cases waiting with
      | testing =>
          have hmutex := hholds _ hphase rfl
          simp only [hphase] at hstep
          cases hstep
          split_ifs
          · exact .quiet _ (by simp) (by simp) (by rw [hphase]; rfl) fun _ => Or.inl hmutex
          · exact .quiet _ (by simp) (by simp) (by rw [hphase]; rfl) fun _ => Or.inl hmutex
      | blocking =>
          simp only [hphase] at hstep
          cases hstep
          exact .quiet _ (by simp) (by simp) (by rw [hphase]; rfl)
            (by simp [Phase.holdsMutex, WaitPhase.holdsMutex])
      | blocked => simp [hphase] at hstep
      | notified =>
          simp only [hphase] at hstep
          exact move_of_acquire (by simp) (by simp) (by rw [hphase]; rfl) hstep
  | lastTest =>
      have hmutex := hholds _ hphase rfl
      simp only [hphase] at hstep
      cases hstep
      split_ifs
      · exact .quiet _ (by simp) (by simp) (by rw [hphase]; rfl) fun _ => Or.inl hmutex
      · exact .quiet _ (by simp) (by simp) (by rw [hphase]; rfl) fun _ => Or.inl hmutex
  | testAfterWait =>
      have hmutex := hholds _ hphase rfl
      simp only [hphase] at hstep
      cases hstep
      by_cases hfail : (state.stopFlag || state.queue.isEmpty) = true
      · rw [if_pos hfail]
        exact .quiet _ (by simp) (by simp) (by rw [hphase]; rfl) fun _ => Or.inl hmutex
      · rw [if_neg hfail]
        simp only [Bool.or_eq_true, List.isEmpty_iff, not_or, Bool.not_eq_true] at hfail
        exact .decide hmutex hfail.2 hfail.1 (by rw [hphase]; rfl)
  | take =>
      simp only [hphase] at hstep
      cases hqueue : state.queue with
      | nil => simp [hqueue] at hstep
      | cons value rest =>
          simp only [hqueue] at hstep
          cases hstep
          exact .take value rest hphase hqueue
  | unlock result =>
      simp only [hphase] at hstep
      cases hstep
      exact .quiet _ (by simp) (by simp) (by rw [hphase]; rfl) (by simp [Phase.holdsMutex])
  | stopStore =>
      simp only [hphase] at hstep
      cases hstep
      exact .stopStore hphase
  | stopNotify =>
      simp only [hphase] at hstep
      cases hstep
      exact .stopNotify hphase
  | pushNotify | returned result => simp [hphase] at hstep

theorem move_of_wakeStep {state next : State T} {index : ℕ} {call : Call T} {phase : Phase T}
    (hphase : phase = .timedOut ∨ phase = .wait .notified)
    (hstep : wakeStep state index call phase = some next) : Move state index call next := by
  unfold wakeStep at hstep
  split_ifs at hstep with hasleep
  cases hstep
  have hresult : call.phase.result = none := by
    cases hcall : call.phase <;> simp [hcall, Phase.asleep, Phase.result] at hasleep ⊢
  rcases hphase with rfl | rfl
  · exact .quiet _ (by simp) (by simp) (by rw [hresult]; rfl) (by simp [Phase.holdsMutex])
  · exact .quiet _ (by simp) (by simp) (by rw [hresult]; rfl)
      (by simp [Phase.holdsMutex, WaitPhase.holdsMutex])

/-! ## The invariant -/

structure CallInvariant (state : State T) (call : Call T) : Prop where
  stocked : call.phase = .take → state.queue ≠ []
  raised : call.phase = .stopNotify → state.stopFlag = true
  late : call.beganAfterStop = true →
    state.stopFlag = true ∧ call.phase ≠ .take ∧ call.phase.result = none

structure QueueInvariant (state : State T) : Prop where
  conserved : state.enqueued = state.popped.map Prod.snd ++ state.queue
  exclusive : MutuallyExclusive Call.holdsMutex state.calls
  calls : ∀ call ∈ state.calls, CallInvariant state call
  stopped : state.stopReturned = true → state.stopFlag = true
  results : ∀ index value, (index, value) ∈ state.popped ↔
    ∃ call, state.calls[index]? = some call ∧ call.phase.result = some value
  distinct : (state.popped.map Prod.fst).Nodup

theorem initial_queueInvariant : QueueInvariant (initial : State T) := by
  refine ⟨rfl, .nil, ?_, ?_, ?_, List.nodup_nil⟩ <;> simp [initial]

namespace CallInvariant

variable {state next : State T} {call : Call T}

/-- A call that is not about to take a value keeps what it knows while the flag
is not lowered. -/
theorem mono (hcall : CallInvariant state call)
    (hqueue : call.phase = .take → state.queue ≠ [] → next.queue ≠ [])
    (hflag : state.stopFlag = true → next.stopFlag = true) : CallInvariant next call := by
  constructor
  case stocked =>
    intro hphase
    exact hqueue hphase (hcall.stocked hphase)
  case raised =>
    intro hphase
    exact hflag (hcall.raised hphase)
  case late =>
    intro hbegan
    obtain ⟨hstop, htake, hresult⟩ := hcall.late hbegan
    exact ⟨hflag hstop, htake, hresult⟩

theorem notify (hcall : CallInvariant state call)
    (hflag : state.stopFlag = true → next.stopFlag = true) (hqueue : next.queue = state.queue) :
    CallInvariant next call.notify := by
  have hsame : ∀ phase : Phase T, (phase.notify = .take → phase = .take) ∧
      (phase.notify = .stopNotify → phase = .stopNotify) ∧
      phase.notify.result = phase.result := by
    intro phase
    cases phase <;> simp [Phase.notify, Phase.result]
  obtain ⟨htake, hstopNotify, hresult⟩ := hsame call.phase
  constructor
  case stocked =>
    intro hphase
    exact hqueue ▸ hcall.stocked (htake hphase)
  case raised =>
    intro hphase
    exact hflag (hcall.raised (hstopNotify hphase))
  case late =>
    intro hbegan
    obtain ⟨hstop, hnotTake, hnone⟩ := hcall.late hbegan
    refine ⟨hflag hstop, fun hphase => hnotTake (htake hphase), ?_⟩
    exact hresult.trans hnone

end CallInvariant

namespace QueueInvariant

variable {state : State T} {index : ℕ} {call : Call T}

theorem results_set (hinv : QueueInvariant state) (hget : state.calls[index]? = some call)
    {phase : Phase T} (hresult : phase.result = call.phase.result) :
    ∀ position value, (position, value) ∈ state.popped ↔
      ∃ found, (state.calls.set index { call with phase := phase })[position]? = some found ∧
        found.phase.result = some value := by
  intro position value
  rw [hinv.results]
  by_cases hposition : index = position
  · subst hposition
    rw [ListUpdate.getElem?_set_self hget, hget]
    simp [hresult]
  · rw [ListUpdate.getElem?_set_of_ne hposition]

theorem setPhase (hinv : QueueInvariant state) (hget : state.calls[index]? = some call)
    {phase : Phase T} (hresult : phase.result = call.phase.result)
    (hexclusive : MutuallyExclusive Call.holdsMutex (state.setPhase index call phase).calls)
    (hcall : CallInvariant state { call with phase := phase }) :
    QueueInvariant (state.setPhase index call phase) := by
  refine ⟨hinv.conserved, hexclusive, ?_, hinv.stopped, hinv.results_set hget hresult,
    hinv.distinct⟩
  intro member hmem
  rcases List.mem_or_eq_of_mem_set hmem with hold | rfl
  · exact (hinv.calls member hold).mono (fun _ h => h) id
  · exact hcall.mono (fun _ h => h) id

/-- The call that holds the mutex is the only one that may be about to take a
value. -/
theorem phase_ne_take (hinv : QueueInvariant state) (hget : state.calls[index]? = some call)
    (hholds : call.holdsMutex = true) {other : ℕ} {found : Call T}
    (hother : state.calls[other]? = some found) (hne : index ≠ other) : found.phase ≠ .take := by
  intro hphase
  have hreleased := hinv.exclusive.not_holds_of_ne hget hholds hother hne
  rw [Call.holdsMutex, hphase] at hreleased
  cases hreleased

theorem eq_or_getElem? {item member : Call T}
    (hmem : member ∈ state.calls.set index item) :
    member = item ∨ ∃ other, index ≠ other ∧ state.calls[other]? = some member := by
  obtain ⟨other, hother⟩ := List.mem_iff_getElem?.mp hmem
  rcases ListUpdate.getElem?_set_cases hother with ⟨_, heq⟩ | ⟨hne, hold⟩
  · exact Or.inl heq
  · exact Or.inr ⟨other, hne, hold⟩

theorem insert (hinv : QueueInvariant state) (hget : state.calls[index]? = some call)
    {value : T} (hphase : call.phase = .pushInsert value) :
    QueueInvariant
      { state.setPhase index call .pushNotify with
        queue := state.queue ++ [value]
        enqueued := state.enqueued ++ [value] } := by
  have hholds : call.holdsMutex = true := by rw [Call.holdsMutex, hphase]; rfl
  have hresult : (Phase.pushNotify : Phase T).result = call.phase.result := by rw [hphase]; rfl
  refine ⟨?_, hinv.exclusive.set_held hget hholds _, ?_, hinv.stopped,
    hinv.results_set hget hresult, hinv.distinct⟩
  · have hconserved := hinv.conserved
    simp only [State.setPhase]
    rw [hconserved, List.append_assoc]
  · intro member hmem
    rcases eq_or_getElem? hmem with rfl | ⟨other, _, hother⟩
    · refine ⟨by simp, by simp, ?_⟩
      intro hbegan
      exact ⟨((hinv.calls call (List.mem_of_getElem? hget)).late hbegan).1, by simp, rfl⟩
    · exact (hinv.calls member (List.mem_of_getElem? hother)).mono (fun _ _ => by simp) id

theorem take (hinv : QueueInvariant state) (hget : state.calls[index]? = some call)
    {value : T} {rest : List T} (hphase : call.phase = .take)
    (hqueue : state.queue = value :: rest) :
    QueueInvariant
      { state.setPhase index call (.unlock (some value)) with
        queue := rest
        popped := state.popped ++ [(index, value)] } := by
  have hholds : call.holdsMutex = true := by rw [Call.holdsMutex, hphase]; rfl
  have hnew : index ∉ state.popped.map Prod.fst := by
    intro hmem
    obtain ⟨⟨position, old⟩, hold, rfl⟩ := List.mem_map.mp hmem
    obtain ⟨found, hfound, hresult⟩ := (hinv.results position old).mp hold
    rw [hget, Option.some.injEq] at hfound
    subst hfound
    simp [hphase, Phase.result] at hresult
  constructor
  case conserved =>
    have hconserved := hinv.conserved
    simp only [State.setPhase, List.map_append, List.map_cons, List.map_nil]
    rw [hconserved, hqueue, List.append_assoc]
    rfl
  case exclusive => exact hinv.exclusive.set_held hget hholds _
  case calls =>
    intro member hmem
    rcases eq_or_getElem? hmem with rfl | ⟨other, hne, hother⟩
    · refine ⟨by simp, by simp, ?_⟩
      intro hbegan
      have hlate := (hinv.calls call (List.mem_of_getElem? hget)).late hbegan
      exact (hlate.2.1 hphase).elim
    · refine (hinv.calls member (List.mem_of_getElem? hother)).mono ?_ id
      intro htake
      exact (hinv.phase_ne_take hget hholds hother hne htake).elim
  case stopped => exact hinv.stopped
  case results =>
    intro position other
    simp only [State.setPhase, List.mem_append, List.mem_singleton]
    by_cases hposition : index = position
    · subst hposition
      rw [ListUpdate.getElem?_set_self hget]
      constructor
      · rintro (hold | hpair)
        · exact (hnew (List.mem_map.mpr ⟨_, hold, rfl⟩)).elim
        · cases hpair
          exact ⟨_, rfl, rfl⟩
      · rintro ⟨found, hfound, hresult⟩
        cases hfound
        cases hresult
        exact Or.inr rfl
    · rw [ListUpdate.getElem?_set_of_ne hposition, ← hinv.results]
      simp [Ne.symm hposition]
  case distinct =>
    rw [List.map_append]
    exact List.nodup_append_comm.mpr (List.nodup_cons.mpr ⟨hnew, hinv.distinct⟩)

theorem stopStore (hinv : QueueInvariant state) (hget : state.calls[index]? = some call)
    (hphase : call.phase = .stopStore) :
    QueueInvariant { state.setPhase index call .stopNotify with stopFlag := true } := by
  have hresult : (Phase.stopNotify : Phase T).result = call.phase.result := by rw [hphase]; rfl
  refine ⟨hinv.conserved, hinv.exclusive.set_released index rfl, ?_, fun _ => rfl,
    hinv.results_set hget hresult, hinv.distinct⟩
  intro member hmem
  rcases eq_or_getElem? hmem with rfl | ⟨other, _, hother⟩
  · exact ⟨by simp, fun _ => rfl, fun _ => ⟨rfl, by simp, rfl⟩⟩
  · exact (hinv.calls member (List.mem_of_getElem? hother)).mono (fun _ h => h) fun _ => rfl

theorem stopNotify (hinv : QueueInvariant state) (hget : state.calls[index]? = some call)
    (hphase : call.phase = .stopNotify) :
    QueueInvariant
      { state with
        calls := (state.calls.map Call.notify).set index { call with phase := .returned none }
        stopReturned := true } := by
  have hraised : state.stopFlag = true :=
    (hinv.calls call (List.mem_of_getElem? hget)).raised hphase
  have hunchanged : ∀ other : Call T, other.notify.holdsMutex = other.holdsMutex ∧
      other.notify.phase.result = other.phase.result := by
    intro other
    obtain ⟨phase, began⟩ := other
    cases phase with
    | wait waiting => cases waiting <;> exact ⟨rfl, rfl⟩
    | _ => exact ⟨rfl, rfl⟩
  constructor
  case conserved => exact hinv.conserved
  case exclusive =>
    exact (hinv.exclusive.map fun other => (hunchanged other).1).set_released index rfl
  case calls =>
    intro member hmem
    rcases List.mem_or_eq_of_mem_set hmem with hold | rfl
    · obtain ⟨other, hother, rfl⟩ := List.mem_map.mp hold
      exact (hinv.calls other hother).notify id rfl
    · exact ⟨by simp, by simp, fun _ => ⟨hraised, by simp, rfl⟩⟩
  case stopped => exact fun _ => hraised
  case results =>
    intro position value
    rw [hinv.results]
    by_cases hposition : index = position
    · subst hposition
      simp [hget, hphase, Phase.result, List.getElem?_set]
    · rw [ListUpdate.getElem?_set_of_ne hposition, List.getElem?_map]
      constructor
      · rintro ⟨found, hfound, hresult⟩
        exact ⟨found.notify, by rw [hfound]; rfl, (hunchanged found).2.trans hresult⟩
      · rintro ⟨found, hfound, hresult⟩
        obtain ⟨other, hother, rfl⟩ := Option.map_eq_some_iff.mp hfound
        exact ⟨other, hother, (hunchanged other).2.symm.trans hresult⟩
  case distinct => exact hinv.distinct

end QueueInvariant

theorem Move.queueInvariant {state next : State T} {index : ℕ} {call : Call T}
    (hinv : QueueInvariant state) (hget : state.calls[index]? = some call)
    (hmove : Move state index call next) : QueueInvariant next := by
  have hcall := hinv.calls call (List.mem_of_getElem? hget)
  cases hmove with
  | quiet phase htake hnotify hresult hmutex =>
      refine hinv.setPhase hget hresult ?_ ?_
      · by_cases hholds : phase.holdsMutex = true
        · rcases hmutex hholds with hheld | hfree
          · exact hinv.exclusive.set_held hget hheld _
          · exact .set_acquired hfree index _
        · exact hinv.exclusive.set_released index (by simpa [Call.holdsMutex] using hholds)
      · refine ⟨fun h => (htake h).elim, fun h => (hnotify h).elim, ?_⟩
        intro hbegan
        obtain ⟨hstop, _, hnone⟩ := hcall.late hbegan
        exact ⟨hstop, htake, hresult.trans hnone⟩
  | decide hmutex hqueue hflag hresult =>
      refine hinv.setPhase hget hresult.symm (hinv.exclusive.set_held hget hmutex _) ?_
      refine ⟨fun _ => hqueue, by simp, ?_⟩
      intro hbegan
      -- a call that began after a `stop` has returned sees the flag
      rw [(hcall.late hbegan).1] at hflag
      cases hflag
  | insert value hphase => exact hinv.insert hget hphase
  | take value rest hphase hqueue => exact hinv.take hget hphase hqueue
  | stopStore hphase => exact hinv.stopStore hget hphase
  | stopNotify hphase => exact hinv.stopNotify hget hphase

/-- `notify_one` is a move of the sleeping call and one of the notifying call. -/
theorem moves_of_notifyOneStep {state next : State T} {index : ℕ} {call : Call T}
    {woken : Option ℕ} (hget : state.calls[index]? = some call)
    (hstep : notifyOneStep state index call woken = some next) :
    Move state index call next ∨
      ∃ sleeper other middle, state.calls[sleeper]? = some other ∧
        Move state sleeper other middle ∧ middle.calls[index]? = some call ∧
        Move middle index call next := by
  unfold notifyOneStep at hstep
  split at hstep
  next hphase =>
    split_ifs at hstep with hnobody
    cases hstep
    refine Or.inl (.quiet _ (by simp) (by simp) (by rw [hphase]; rfl) fun _ => Or.inl ?_)
    rw [Call.holdsMutex, hphase]
    rfl
  next sleeper hphase =>
    split at hstep
    next other hother =>
      split_ifs at hstep with hasleep
      cases hstep
      have hblocked : other.phase = .wait .blocked := by
        cases hcase : other.phase with
        | wait waiting => cases waiting <;> simp_all [Phase.asleep]
        | _ => rw [hcase] at hasleep; cases hasleep
      have hnotified : other.notify = { other with phase := .wait .notified } := by
        rw [Call.notify, hblocked]
        rfl
      have hne : sleeper ≠ index := by
        rintro rfl
        rw [hget, Option.some.injEq] at hother
        rw [← hother, hphase] at hblocked
        cases hblocked
      have hholds : call.holdsMutex = true := by
        rw [Call.holdsMutex, hphase]
        rfl
      refine Or.inr ⟨sleeper, other, state.setPhase sleeper other (.wait .notified), hother, ?_,
        (ListUpdate.getElem?_set_of_ne hne _).trans hget, ?_⟩
      · exact .quiet _ (by simp) (by simp) (by rw [hblocked]; rfl)
          (by simp [Phase.holdsMutex, WaitPhase.holdsMutex])
      · rw [hnotified]
        exact .quiet (.unlock none) (by simp) (by simp) (by rw [hphase]; rfl)
          fun _ => Or.inl hholds
    next => cases hstep
  next => cases hstep

theorem queueInvariant_call {state : State T} (hinv : QueueInvariant state)
    (request : Request T) :
    QueueInvariant
      { state with calls := state.calls ++ [⟨request.begin, state.stopReturned⟩] } := by
  have hbegin : request.begin.holdsMutex = false ∧ request.begin.result = none ∧
      request.begin ≠ .take ∧ request.begin ≠ .stopNotify := by
    cases request <;> simp [Request.begin, Phase.holdsMutex, Phase.result]
  obtain ⟨hreleased, hresult, htake, hstopNotify⟩ := hbegin
  refine ⟨hinv.conserved, hinv.exclusive.append_released hreleased, ?_, hinv.stopped, ?_,
    hinv.distinct⟩
  · intro member hmem
    rcases List.mem_append.mp hmem with hold | hnew
    · exact (hinv.calls member hold).mono (fun _ h => h) id
    · rw [List.mem_singleton] at hnew
      subst hnew
      exact ⟨fun h => (htake h).elim, fun h => (hstopNotify h).elim,
        fun hbegan => ⟨hinv.stopped hbegan, htake, hresult⟩⟩
  · intro position value
    rw [hinv.results]
    constructor
    · rintro ⟨found, hfound, hvalue⟩
      exact ⟨found, ListUpdate.getElem?_append_of_eq_some hfound _, hvalue⟩
    · rintro ⟨found, hfound, hvalue⟩
      rw [List.getElem?_append] at hfound
      split_ifs at hfound with hlt
      · exact ⟨found, hfound, hvalue⟩
      · obtain ⟨_, rfl⟩ := List.getElem?_eq_some_iff.mp hfound
        simp [hresult] at hvalue

theorem step_queueInvariant {state next : State T} {action : Action T}
    (hinv : QueueInvariant state) (hstep : step state action = some next) :
    QueueInvariant next := by
  cases action with
  | call request =>
      simp only [step] at hstep
      cases hstep
      exact queueInvariant_call hinv request
  | move index =>
      obtain ⟨call, hget, hcall⟩ := Option.bind_eq_some_iff.mp hstep
      exact (move_of_callStep hcall).queueInvariant hinv hget
  | notifyOne index woken =>
      obtain ⟨call, hget, hcall⟩ := Option.bind_eq_some_iff.mp hstep
      rcases moves_of_notifyOneStep hget hcall with
        hmove | ⟨sleeper, other, middle, hother, hwake, hstill, hmove⟩
      · exact hmove.queueInvariant hinv hget
      · exact hmove.queueInvariant (hwake.queueInvariant hinv hother) hstill
  | timeout index =>
      obtain ⟨call, hget, hcall⟩ := Option.bind_eq_some_iff.mp hstep
      exact (move_of_wakeStep (Or.inl rfl) hcall).queueInvariant hinv hget
  | spuriousWakeup index =>
      obtain ⟨call, hget, hcall⟩ := Option.bind_eq_some_iff.mp hstep
      exact (move_of_wakeStep (Or.inr rfl) hcall).queueInvariant hinv hget

theorem queueInvariant_of_reachable {state : State T} (hreach : system.Reachable state) :
    QueueInvariant state := by
  apply hreach.invariant QueueInvariant initial_queueInvariant
  intro state action next hinv hstep
  exact step_queueInvariant hinv hstep

/-- The values popped so far, each returned by one call, are the first of the
values enqueued and the rest is queued; no call that began after a `stop` had
returned has a value. -/
theorem popped_prefix_enqueued {state : State T} (hreach : system.Reachable state) :
    state.popped.map Prod.snd <+: state.enqueued ∧
    state.enqueued = state.popped.map Prod.snd ++ state.queue ∧
    (∀ index value, (index, value) ∈ state.popped ↔
      ∃ call, state.calls[index]? = some call ∧ call.phase.result = some value) ∧
    (state.popped.map Prod.fst).Nodup ∧
    ∀ call ∈ state.calls, call.beganAfterStop = true → call.phase.result = none := by
  have hinv := queueInvariant_of_reachable hreach
  refine ⟨⟨state.queue, hinv.conserved.symm⟩, hinv.conserved, hinv.results, hinv.distinct, ?_⟩
  intro call hmem hbegan
  exact ((hinv.calls call hmem).late hbegan).2.2

/-- Two values are pushed while a `wait_and_pop` sleeps; it is woken and takes
the first one.  After a `stop` a `try_pop` finds nothing, although the second
value is still queued. -/
theorem popped_prefix_enqueued_stopped :
    ∃ state, (system : TransitionSystem (State ℤ) (Action ℤ)).Reachable state ∧
      state.enqueued = [5, 7] ∧ state.queue = [7] ∧ state.popped.map Prod.snd <+: [5, 7] ∧
      ∃ call ∈ state.calls, call.beganAfterStop = true ∧ call.phase.result = none := by
  obtain ⟨state, hrun, henqueued, hqueue, late, hcall, hbegan⟩ :
      ∃ state : State ℤ, system.run initial
          ([.call .waitAndPop, .move 0, .move 0, .move 0,
            .call (.push 5), .move 1, .move 1, .move 1, .notifyOne 1 (some 0), .move 1,
            .call (.push 7), .move 2, .move 2, .move 2, .notifyOne 2 none, .move 2,
            .move 0, .move 0, .move 0, .move 0, .move 0,
            .call .stop, .move 3, .move 3,
            .call .tryPop, .move 4, .move 4, .move 4]) = some state ∧
        state.enqueued = [5, 7] ∧ state.queue = [7] ∧
        ∃ call, state.calls[4]? = some call ∧ call.beganAfterStop = true :=
    ⟨_, rfl, rfl, rfl, _, rfl, rfl⟩
  have hmem : late ∈ state.calls := List.mem_of_getElem? hcall
  have hfifo := popped_prefix_enqueued ⟨_, hrun⟩
  obtain ⟨hpopped, _, _, _, hlate⟩ := hfifo
  exact ⟨state, ⟨_, hrun⟩, henqueued, hqueue, henqueued ▸ hpopped, late, hmem, hbegan,
    hlate late hmem hbegan⟩

end CppProj.ThreadSafeQueue
