import OrionQueue.AgentRegistry

/-!
The agent against any server. A heartbeat is answered with any jobs to start, the
same one as often as it likes, and any stop signals, or it fails; a report is
answered with success or with any error. The loop and the job threads are the
ones of `Agent`, cut at the same places; the job store of the state plays no part.
-/

namespace OrionQueue.JobThreads

open Reports Executor Agent AgentRegistry Runs

variable {Cpu Mem : Type}

inductive Label where
  | response (assigned : List AssignedJob) (stops : List String)
  /-- The heartbeat fails with a grpc.RpcError. -/
  | unanswered
  | loop
  | thread (t : Nat) (elapsed : ℚ)
  | reply (t : Nat) (problem : Option Status)

/-- Where the answer to its report takes a thread. -/
def replied (problem : Option Status) : Phase → Option Phase
  | .startedSent => some (.startedReply problem)
  | .finalSent _ => some .finalReply
  | _ => none

def step (python : Python) (state : State Cpu Mem) : Label → Option (State Cpu Mem)
  | .response assigned stops =>
      match state.loop with
      | .heartbeatSent => some { state with loop := .offering assigned stops }
      | _ => none
  | .unanswered =>
      match state.loop with
      | .heartbeatSent => some { state with loop := .sleeping }
      | _ => none
  | .loop =>
      match state.loop with
      -- The loop waits for the answer to its heartbeat.
      | .heartbeatSent | .assignedListed _ => none
      | _ => some state.loopStep
  | .thread t elapsed => state.threadStep python elapsed t
  | .reply t problem =>
      match state.threads t with
      | none => none
      | some thread => (replied problem thread.phase).map fun phase =>
          state.setThread t { thread with phase := phase }

/-- All that a step can do. -/
inductive Effect (python : Python) (state : State Cpu Mem) : Label → State Cpu Mem → Prop where
  | response {assigned : List AssignedJob} {stops : List String} :
      Effect python state (.response assigned stops) { state with loop := .offering assigned stops }
  | unanswered : Effect python state .unanswered { state with loop := .sleeping }
  | loop : Effect python state .loop state.loopStep
  | thread {t : Nat} {elapsed : ℚ} {thread : Thread} {phase : Phase}
      (found : state.threads t = some thread) (next : thread.next python elapsed = some phase) :
      Effect python state (.thread t elapsed) (turned state t thread phase)
  | reply {t : Nat} {problem : Option Status} {thread : Thread} {phase : Phase}
      (found : state.threads t = some thread) (answer : replied problem thread.phase = some phase) :
      Effect python state (.reply t problem) (state.setThread t { thread with phase := phase })

theorem step_effect {python : Python} {state next : State Cpu Mem} {label : Label}
    (stepped : step python state label = some next) : Effect python state label next := by
  cases label with
  | response assigned stops =>
      simp only [step] at stepped
      split at stepped <;> cases stepped
      exact .response
  | unanswered =>
      simp only [step] at stepped
      split at stepped <;> cases stepped
      exact .unanswered
  | loop =>
      simp only [step] at stepped
      split at stepped <;> cases stepped
      exact .loop
  | thread t elapsed =>
      obtain ⟨thread, phase, found, turns, rfl⟩ := threadStep_cases stepped
      exact .thread found turns
  | reply t problem =>
      simp only [step] at stepped
      split at stepped
      · cases stepped
      · rename_i thread found
        obtain ⟨phase, answer, rfl⟩ := Option.map_eq_some_iff.mp stepped
        exact .reply found answer

/-- The loop starts a thread, sets an event, or touches neither. -/
inductive LoopEffect (state : State Cpu Mem) : State Cpu Mem → Prop where
  | goesOn (loop : Loop) : LoopEffect state { state with loop := loop }
  | spawns {job : AssignedJob} {rest : List AssignedJob} {stops : List String}
      (spawning : state.loop = .spawning job rest stops) :
      LoopEffect state { state.spawn job with loop := .offering rest stops }
  | signals (t : Nat) (stops : List String) :
      LoopEffect state { state.signal t with loop := .stopping stops }

theorem loopStep_effect (state : State Cpu Mem) : LoopEffect state state.loopStep := by
  unfold State.loopStep
  split
  case h_5 | h_8 => split <;> exact .goesOn _
  case h_6 spawning => exact .spawns spawning
  case h_9 => exact .signals _ _
  all_goals exact .goesOn _

theorem replied_moves {state : State Cpu Mem} {t : Nat} {problem : Option Status}
    {thread : Thread} {phase : Phase} (found : state.threads t = some thread)
    (answer : replied problem thread.phase = some phase) :
    Moves state (state.setThread t { thread with phase := phase }) t thread
      { thread with phase := phase } := by
  obtain ⟨alive, live⟩ : thread.phase.exited = false ∧ phase.exited = false := by
    cases was : thread.phase <;> simp [was, replied] at answer <;> subst answer <;> exact ⟨rfl, rfl⟩
  exact {
    was := found
    alive := alive
    threads := fun other => Function.update_apply _ _ _ _
    job := rfl
    running := fun id => by simp [live, State.setThread]
    mirrored := fun same => same
    spawned := rfl
    loop := rfl }

/-- A thread that the tables list has not run its clean-up. -/
def Live (state : State Cpu Mem) : Prop :=
  ∀ id t thread, state.runningJobs id = some t → state.threads t = some thread →
    thread.phase.exited = false

theorem moves_live {before after : State Cpu Mem} {t : Nat} {thread thread' : Thread}
    (registered : Registered before) (live : Live before)
    (moves : Moves before after t thread thread') : Live after := by
  intro id other current listed found
  obtain ⟨known, own | elsewhere⟩ := moves_listed registered moves listed found
  · obtain ⟨_, rfl, _, alive⟩ := own
    exact alive
  · exact live id other current known elsewhere.2

theorem spawn_live {state : State Cpu Mem} (live : Live state) (job : AssignedJob) :
    Live (state.spawn job) := by
  intro id t thread listed found
  rw [spawn_running] at listed
  rw [spawn_threads] at found
  split at found
  · cases found
    rfl
  · rename_i old
    split at listed
    · exact absurd (Option.some.inj listed).symm old
    · exact live id t thread listed found

theorem signal_live {state : State Cpu Mem} (live : Live state) (t : Nat) :
    Live (state.signal t) := by
  intro id other thread listed found
  rw [(signal_frame state t).2.1] at listed
  obtain ⟨before, known, _, phase, _⟩ := signal_threads found
  rw [phase]
  exact live id other before listed known

theorem loopStep_live {state next : State Cpu Mem} (live : Live state)
    (effect : LoopEffect state next) : Live next := by
  cases effect with
  | goesOn loop => exact live
  | spawns spawning =>
      exact fun id t thread listed found => spawn_live live _ id t thread listed found
  | signals t stops =>
      exact fun id other thread listed found => signal_live live t id other thread listed found

/-- The tables list exactly the threads whose clean-up has not run. -/
theorem step_listed {python : Python} (state : State Cpu Mem) (label : Label)
    (next : State Cpu Mem) (before : Registered state ∧ Live state)
    (stepped : step python state label = some next) : Registered next ∧ Live next := by
  obtain ⟨registered, live⟩ := before
  cases step_effect stepped with
  | response | unanswered => exact ⟨turned_loop_registered registered nofun, live⟩
  | loop => exact ⟨loopStep_registered registered, loopStep_live live (loopStep_effect state)⟩
  | thread found turns =>
      have moves := turned_moves found (next_turn turns)
      exact ⟨moves_registered registered moves, moves_live registered live moves⟩
  | reply found answer =>
      have moves := replied_moves found answer
      exact ⟨moves_registered registered moves, moves_live registered live moves⟩

theorem run_listed {python : Python} {workerID : String} {labels : List Label}
    {state : State Cpu Mem} (ran : run (step python) (State.start workerID) labels = some state) :
    Registered state ∧ Live state :=
  run_invariant step_listed ran ⟨start_registered workerID, fun _ _ _ listed => by cases listed⟩

theorem one_execution_per_job (python : Python) (workerID : String) (labels : List Label)
    (state : State Cpu Mem) (ran : run (step python) (State.start workerID) labels = some state) :
    (∀ t t' thread thread', state.threads t = some thread → state.threads t' = some thread' →
      thread.phase.exited = false → thread'.phase.exited = false →
      thread.job.jobID = thread'.job.jobID → t = t') ∧
    ∀ id t, state.cancelEvents id = some t → state.runningJobs id = some t ∧
      ∃ thread, state.threads t = some thread ∧ thread.job.jobID = id ∧
        thread.phase.exited = false := by
  obtain ⟨registered, live⟩ := run_listed ran
  constructor
  · intro t t' thread thread' found found' alive alive' same
    have listed := registered.listed t thread found alive
    have listed' := registered.listed t' thread' found' alive'
    rw [same, listed'] at listed
    exact (Option.some.inj listed).symm
  · intro id t event
    rw [registered.mirrored] at event
    obtain ⟨thread, found, job⟩ := registered.named id t event
    exact ⟨event, thread, found, job, live id t thread event found⟩

def trainingJob : AssignedJob := ⟨"job-1", [], 0⟩

/-- The response offers the job twice. The first thread is refused and gone when the
loop comes to the second offer, so that the job is started again. -/
def offeredTwice : List Label :=
  [.loop, .response [trainingJob, trainingJob] [], .loop, .loop, .thread 0 0,
    .reply 0 (some ⟨.failedPrecondition, ""⟩), .thread 0 0, .loop, .loop]

theorem offeredTwice_one_thread : ∃ state : State Int Int,
    run (step plainPython) (State.start "worker-1")
      offeredTwice = some state ∧ state.spawned = 2 ∧ state.cancelEvents "job-1" = some 1 ∧
      ∃ thread, state.threads 1 = some thread ∧ thread.job.jobID = "job-1" ∧
        thread.phase.exited = false := by
  obtain ⟨state, ran⟩ : ∃ state : State Int Int,
      run (step plainPython) (State.start "worker-1")
        offeredTwice = some state := ⟨_, rfl⟩
  have event : state.cancelEvents "job-1" = some 1 := by
    cases ran
    rfl
  obtain ⟨_, thread, found, job, alive⟩ :=
    (one_execution_per_job _ "worker-1" offeredTwice state ran).2 "job-1" 1 event
  refine ⟨state, ran, ?_, event, thread, found, job, alive⟩
  cases ran
  rfl

end OrionQueue.JobThreads
