import OrionQueue.AgentRegistry
import OrionQueue.StopRequests

/-!
Stop requests on their way to the executor. A job that is being stopped is owned
by one thread of the agent, and only that thread's last report takes it out of
the states CANCEL_REQUESTED and PREEMPTED. `Sound` says so for a whole state, and
`Advance` what it takes for the step of one thread to keep it.
-/

namespace OrionQueue.StopDelivery

open Jobs JobStore MemoryRepository JobService JobLifecycle Reports Executor
open Agent AgentRegistry StopRequests Runs

variable {Cpu Mem : Type}

/-- The thread is responsible for a job in this state. -/
inductive Owns (state : Jobs.State) (phase : Phase) : Prop where
  | underway (waiting : phase.underway = true)
  | finished {outcome : Outcome} (running : state = .running)
      (returned : phase.outcome = some outcome) (ordinary : finalKind outcome ≠ .stopped)
  | crashed {error : String} (running : state = .running) (raised : phase = .crashed error)
  | stopped {outcome : Outcome} (pending : Stopping state)
      (returned : phase.outcome = some outcome) (isStop : finalKind outcome = .stopped)

def Engaged (state : Jobs.State) : Prop := state = .running ∨ Stopping state

def Owned (state : State Cpu Mem) (id : String) (jobState : Jobs.State) : Prop :=
  id ≠ "" ∧ ∃ t thread, state.runningJobs id = some t ∧ state.threads t = some thread ∧
    thread.job.jobID = id ∧ Owns jobState thread.phase

/-- Whatever thread is listed for the job has its last report answered. -/
def Released (state : State Cpu Mem) (id : String) : Prop :=
  ∀ t thread, state.runningJobs id = some t → state.threads t = some thread →
    thread.phase.settled = true

/-- A listed thread that was signalled has its last report answered. -/
def Unsignalled (state : State Cpu Mem) (id : String) : Prop :=
  ∀ t thread, state.runningJobs id = some t → state.threads t = some thread →
    thread.cancelled = true → thread.phase.settled = true

/-- Offered and to be stopped in one response: it started between the two
listings, and nothing has signalled its thread yet. -/
def Doubled (state : State Cpu Mem) (id : String) : Prop :=
  StopPending state.jobs id ∧ ∀ t thread, state.runningJobs id = some t →
    state.threads t = some thread → thread.cancelled = false

/-- A stop signal for the thread is due, or comes too late to matter. -/
def Signallable (state : State Cpu Mem) (t : Nat) : Prop :=
  ∀ thread, state.threads t = some thread →
    thread.phase.settled = true ∨ StopPending state.jobs thread.job.jobID

def StopsSound (state : State Cpu Mem) (stops : List String) : Prop :=
  ∀ id ∈ stops, StopPending state.jobs id ∨ Released state id

def OffersSound (state : State Cpu Mem) (assigned : List AssignedJob) (stops : List String) : Prop :=
  ∀ job ∈ assigned, job.jobID ∈ stops → Doubled state job.jobID

/-- What the response in hand still says about the jobs. -/
def LoopSound (state : State Cpu Mem) : Loop → Prop
  | .sleeping | .heartbeatSent => True
  | .assignedListed assigned => ∀ job ∈ assigned, Unsignalled state job.jobID
  | .offering assigned stops => StopsSound state stops ∧ OffersSound state assigned stops
  | .spawning job assigned stops =>
      StopsSound state stops ∧ OffersSound state assigned stops ∧ job.jobID ∉ stops
  | .stopping stops => StopsSound state stops
  | .signalling t stops => StopsSound state stops ∧ Signallable state t

structure Sound (state : State Cpu Mem) : Prop where
  registered : Registered state
  keyed : state.jobs.Keyed
  unpaused : ∀ id job, state.jobs.find id = some job → job.state ≠ .checkpointing
  owned : ∀ id job, state.jobs.find id = some job → Engaged job.state → Owned state id job.state
  polled : ∀ t thread outcome, state.threads t = some thread →
    thread.phase.outcome = some outcome → finalKind outcome = .stopped → thread.cancelled = true
  pending : ∀ t thread, state.threads t = some thread → thread.cancelled = true →
    thread.phase.settled = false → StopPending state.jobs thread.job.jobID
  loop : LoopSound state state.loop

theorem start_sound (workerID : String) : Sound (State.start workerID : State Cpu Mem) where
  registered := start_registered workerID
  keyed := Tables.keyed_empty Job.id
  unpaused := by simp [State.start]
  owned := by simp [State.start]
  polled := by simp [State.start]
  pending := by simp [State.start]
  loop := trivial

theorem owns_unsettled {state : Jobs.State} {phase : Phase} (owns : Owns state phase) :
    phase.settled = false := by
  cases owns with
  | underway waiting => cases phase <;> simp_all [Phase.settled, Phase.underway]
  | finished running returned ordinary => cases phase <;> simp_all [Phase.settled, Phase.outcome]
  | crashed running raised => simp [raised, Phase.settled]
  | stopped pending returned isStop => cases phase <;> simp_all [Phase.settled, Phase.outcome]

theorem owns_stopping {before after : Jobs.State} {phase : Phase} (owns : Owns before phase)
    (was : Stopping before) (stopping : Stopping after) : Owns after phase := by
  have notRunning : before ≠ .running := by
    rintro rfl
    simp [Stopping] at was
  cases owns with
  | underway waiting => exact .underway waiting
  | finished running => exact absurd running notRunning
  | crashed running => exact absurd running notRunning
  | stopped _ returned isStop => exact .stopped stopping returned isStop

/-- A step that is not the loop's own leaves all that the loop relies on. -/
structure Kept (before after : State Cpu Mem) : Prop where
  stops : ∀ id, StopPending before.jobs id ∨ Released before id →
    StopPending after.jobs id ∨ Released after id
  unsignalled : ∀ id, Unsignalled before id → Unsignalled after id
  doubled : ∀ id, Doubled before id → Doubled after id
  signallable : ∀ t, Signallable before t → Signallable after t

theorem kept_loop {before after : State Cpu Mem} (kept : Kept before after) {loop : Loop}
    (sound : LoopSound before loop) : LoopSound after loop := by
  have stops : ∀ {ids : List String}, StopsSound before ids → StopsSound after ids :=
    fun sound id member => kept.stops id (sound id member)
  have offers : ∀ {assigned : List AssignedJob} {ids : List String},
      OffersSound before assigned ids → OffersSound after assigned ids :=
    fun sound job member doubled => kept.doubled job.jobID (sound job member doubled)
  cases loop with
  | sleeping | heartbeatSent => trivial
  | assignedListed assigned => exact fun job member => kept.unsignalled job.jobID (sound job member)
  | offering assigned ids => exact ⟨stops sound.1, offers sound.2⟩
  | spawning job assigned ids => exact ⟨stops sound.1, offers sound.2.1, sound.2.2⟩
  | stopping ids => exact stops sound
  | signalling t ids => exact ⟨stops sound.1, kept.signallable t sound.2⟩

/-! ### A move of one thread -/

/-- A stop that is no longer pending after the move was ended by the thread's own
report. -/
structure Advance (before after : State Cpu Mem) (t : Nat) (thread thread' : Thread) : Prop where
  moves : Moves before after t thread thread'
  cancelled : thread'.cancelled = thread.cancelled
  settles : thread.phase.settled = true → thread'.phase.exited = true
  pending : ∀ id, StopPending before.jobs id → StopPending after.jobs id ∨
    id = thread.job.jobID ∧ thread'.phase.settled = true ∧
      ∃ outcome, thread.phase.outcome = some outcome ∧ finalKind outcome = .stopped

section Advances
variable {before after : State Cpu Mem} {t : Nat} {thread thread' : Thread}

/-- Only the thread that moved can lose a pending stop, and it is settled then. -/
theorem advance_pending (sound : Sound before) (advance : Advance before after t thread thread')
    {other : Nat} {current : Thread} (found : after.threads other = some current)
    (unsettled : current.phase.settled = false)
    (pending : StopPending before.jobs current.job.jobID) :
    StopPending after.jobs current.job.jobID := by
  rcases advance.pending _ pending with still | ⟨job, settled, _⟩
  · exact still
  · rw [advance.moves.threads other] at found
    by_cases own : other = t
    · rw [if_pos own] at found
      obtain rfl := Option.some.inj found
      exact absurd (settled.symm.trans unsettled) (by simp)
    · rw [if_neg own] at found
      have listed := sound.registered.listed other current found (settled_alive unsettled)
      rw [job, moves_own sound.registered advance.moves] at listed
      exact absurd (Option.some.inj listed).symm own

theorem advance_stops (sound : Sound before) (advance : Advance before after t thread thread')
    {id : String} (stops : StopPending before.jobs id ∨ Released before id) :
    StopPending after.jobs id ∨ Released after id := by
  have own := moves_own sound.registered advance.moves
  rcases stops with pending | released
  · rcases advance.pending id pending with still | ⟨rfl, settled, _⟩
    · exact Or.inl still
    · refine Or.inr fun other current listed found => ?_
      obtain ⟨known, ⟨_, rfl, _⟩ | ⟨apart, _⟩⟩ :=
        moves_listed sound.registered advance.moves listed found
      · exact settled
      · exact absurd (Option.some.inj (known.symm.trans own)) apart
  · refine Or.inr fun other current listed found => ?_
    obtain ⟨known, ⟨rfl, rfl, rfl, alive⟩ | ⟨_, same⟩⟩ :=
      moves_listed sound.registered advance.moves listed found
    · have exited := advance.settles (released other thread known advance.moves.was)
      exact absurd (exited.symm.trans alive) (by simp)
    · exact released other current known same

theorem advance_unsignalled (sound : Sound before)
    (advance : Advance before after t thread thread') {id : String}
    (unsignalled : Unsignalled before id) : Unsignalled after id := by
  intro other current listed found signalled
  obtain ⟨known, ⟨rfl, rfl, rfl, alive⟩ | ⟨_, same⟩⟩ :=
    moves_listed sound.registered advance.moves listed found
  · rw [advance.cancelled] at signalled
    have exited := advance.settles (unsignalled other thread known advance.moves.was signalled)
    exact absurd (exited.symm.trans alive) (by simp)
  · exact unsignalled other current known same signalled

theorem advance_doubled (sound : Sound before) (advance : Advance before after t thread thread')
    {id : String} (doubled : Doubled before id) : Doubled after id := by
  obtain ⟨pending, unsignalled⟩ := doubled
  have still : StopPending after.jobs id := by
    rcases advance.pending id pending with still | ⟨rfl, _, outcome, returned, isStop⟩
    · exact still
    · -- A stopped executor was signalled, and the job's own thread was not.
      have signalled := sound.polled t thread outcome advance.moves.was returned isStop
      have own := moves_own sound.registered advance.moves
      exact absurd (signalled.symm.trans (unsignalled t thread own advance.moves.was)) (by simp)
  refine ⟨still, fun other current listed found => ?_⟩
  obtain ⟨known, ⟨rfl, rfl, _⟩ | ⟨_, same⟩⟩ :=
    moves_listed sound.registered advance.moves listed found
  · rw [advance.cancelled]
    exact unsignalled other thread known advance.moves.was
  · exact unsignalled other current known same

/-- What a thread is after a move, in terms of what it was. -/
theorem advance_before (advance : Advance before after t thread thread') {other : Nat}
    {current : Thread} (found : after.threads other = some current) :
    ∃ earlier, before.threads other = some earlier ∧ current.job = earlier.job ∧
      current.cancelled = earlier.cancelled ∧
      (earlier.phase.settled = true → current.phase.settled = true) := by
  rw [advance.moves.threads other] at found
  by_cases own : other = t
  · subst own
    rw [if_pos rfl] at found
    obtain rfl := Option.some.inj found
    refine ⟨thread, advance.moves.was, advance.moves.job, advance.cancelled, fun settled => ?_⟩
    have exited := advance.settles settled
    cases phase : thread'.phase <;> simp_all [Phase.exited, Phase.settled]
  · rw [if_neg own] at found
    exact ⟨current, found, rfl, rfl, id⟩

theorem advance_kept (sound : Sound before) (advance : Advance before after t thread thread') :
    Kept before after where
  stops _ := advance_stops sound advance
  unsignalled _ := advance_unsignalled sound advance
  doubled _ := advance_doubled sound advance
  signallable other signallable current found := by
    obtain ⟨earlier, known, job, _, settled⟩ := advance_before advance found
    cases closed : current.phase.settled with
    | true => exact Or.inl rfl
    | false =>
        refine Or.inr (advance_pending sound advance found closed ?_)
        rw [job]
        exact (signallable earlier known).resolve_left fun was =>
          absurd ((settled was).symm.trans closed) (by simp)

/-- What a move of one thread leaves to be shown: the jobs, and the thread's own
new phase. -/
structure Supported (after : State Cpu Mem) (thread' : Thread) : Prop where
  keyed : after.jobs.Keyed
  unpaused : ∀ id job, after.jobs.find id = some job → job.state ≠ .checkpointing
  owned : ∀ id job, after.jobs.find id = some job → Engaged job.state → Owned after id job.state
  polled : ∀ outcome, thread'.phase.outcome = some outcome → finalKind outcome = .stopped →
    thread'.cancelled = true

theorem advance_sound (sound : Sound before) (advance : Advance before after t thread thread')
    (supported : Supported after thread') : Sound after where
  registered := moves_registered sound.registered advance.moves
  keyed := supported.keyed
  unpaused := supported.unpaused
  owned := supported.owned
  polled other current outcome found returned isStop := by
    rw [advance.moves.threads other] at found
    split at found
    · obtain rfl := Option.some.inj found
      exact supported.polled outcome returned isStop
    · exact sound.polled other current outcome found returned isStop
  pending other current found signalled unsettled := by
    obtain ⟨earlier, known, job, cancelled, settled⟩ := advance_before advance found
    refine advance_pending sound advance found unsettled ?_
    rw [job]
    refine sound.pending other earlier known (cancelled ▸ signalled) ?_
    by_contra closed
    exact absurd ((settled (by simpa using closed)).symm.trans unsettled) (by simp)
  loop := by
    rw [advance.moves.loop]
    exact kept_loop (advance_kept sound advance) sound.loop

/-- A job keeps its owner unless the owner is the thread that moved. -/
theorem advance_owned (sound : Sound before) (advance : Advance before after t thread thread')
    {id : String} {state : Jobs.State} (owned : Owned before id state)
    (own : id = thread.job.jobID → Owns state thread.phase → Owns state thread'.phase) :
    Owned after id state := by
  obtain ⟨named, u, current, listed, found, job, owns⟩ := owned
  refine ⟨named, u, ?_⟩
  by_cases same : u = t
  · subst same
    obtain rfl : thread = current := Option.some.inj (advance.moves.was.symm.trans found)
    have owns' := own job.symm owns
    have alive := settled_alive (owns_unsettled owns')
    refine ⟨thread', ?_, by rw [advance.moves.threads, if_pos rfl], advance.moves.job ▸ job, owns'⟩
    rw [advance.moves.running, alive, if_neg (by simp), listed]
  · have apart : id ≠ thread.job.jobID := by
      rintro rfl
      exact same (Option.some.inj (listed.symm.trans (moves_own sound.registered advance.moves)))
    refine ⟨current, ?_, by rw [advance.moves.threads, if_neg same, found], job, owns⟩
    rw [advance.moves.running, if_neg (fun both => apart both.2), listed]

end Advances

end OrionQueue.StopDelivery
