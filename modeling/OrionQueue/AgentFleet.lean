import OrionQueue.JobThreads
import OrionQueue.StopRequests

/-!
Any number of worker agents on one job store. Each process is the `Agent` of
agent/main.py; its heartbeats are answered from the shared store, its reports change
that store. A heartbeat or a report may fail before the server handles it or after, and
a process may die at any step, with all its threads. A report that its sender has given
up, or not outlived, may still reach the server at any later time. The server may recover
the jobs of a worker, one Update at a time, whether or not its process is alive.
-/

namespace OrionQueue.AgentFleet

open Jobs JobStore MemoryRepository JobService JobLifecycle Reports Executor AgentRegistry Runs
open Agent (AssignedJob Phase Thread Loop requested)

variable {Cpu Mem : Type}

/-- The process that registered under a worker ID. A new process gets a new ID. -/
inductive Process (Cpu Mem : Type) where
  | unregistered
  | running (agent : Agent.State Cpu Mem)
  | gone

structure State (Cpu Mem : Type) where
  jobs : MemoryRepository Cpu Mem
  processes : String → Process Cpu Mem
  /-- The reports that no thread waits for any more. -/
  inFlight : List Report

def State.start : State Cpu Mem := ⟨.empty, fun _ => .unregistered, []⟩

/-- The process of the worker has moved on, and nothing else has. -/
def State.setAgent (state : State Cpu Mem) (workerID : String) (agent : Agent.State Cpu Mem) :
    State Cpu Mem :=
  { state with processes := Function.update state.processes workerID (.running agent) }

@[simp]
theorem setAgent_running (state : State Cpu Mem) (workerID : String) (agent : Agent.State Cpu Mem) :
    (state.setAgent workerID agent).processes workerID = .running agent :=
  Function.update_self ..

theorem setAgent_setAgent (state : State Cpu Mem) (workerID : String)
    (agent agent' : Agent.State Cpu Mem) :
    (state.setAgent workerID agent).setAgent workerID agent' = state.setAgent workerID agent' := by
  simp only [State.setAgent, Function.update_idem]

/-- What one agent does, with the server on its behalf. -/
inductive Act where
  | loop
  /-- The heartbeat fails with a grpc.RpcError. -/
  | unanswered
  | thread (t : Nat) (elapsed : ℚ)
  /-- The server handles the report and the thread gets its answer. -/
  | deliver (t : Nat) (now : Time)
  /-- The server handles the report and the thread gets an error. -/
  | unheard (t : Nat) (now : Time) (problem : Status)
  /-- The thread gets an error before the server handles the report. -/
  | lost (t : Nat) (problem : Status)

inductive Label (Cpu Mem : Type) where
  | call (now : Time) (op : Op Cpu Mem)
  | recover (now : Time) (workerID id : String)
  /-- The server handles a report that no thread waits for. -/
  | late (index : Nat) (now : Time)
  | register (workerID : String)
  | crash (workerID : String)
  | act (workerID : String) (act : Act)

def fail (agent : Agent.State Cpu Mem) (jobs : MemoryRepository Cpu Mem) (t : Nat) (problem : Status) :
    Option (Agent.State Cpu Mem) :=
  match agent.threads t with
  | none => none
  | some thread => (JobThreads.replied (some problem) thread.phase).map fun phase =>
      { agent with jobs := jobs }.setThread t { thread with phase := phase }

def perform (python : Python) (agent : Agent.State Cpu Mem) : Act → Option (Agent.State Cpu Mem)
  | .loop => some agent.loopStep
  | .unanswered =>
      match agent.loop with
      | .heartbeatSent | .assignedListed _ => some { agent with loop := .sleeping }
      | _ => none
  | .thread t elapsed => agent.threadStep python elapsed t
  | .deliver t now => agent.deliver now t
  | .unheard t now problem =>
      (agent.deliver now t).bind fun handled => fail agent handled.jobs t problem
  | .lost t problem => fail agent agent.jobs t problem

/-- The report that a thread waits on. -/
def sent (workerID : String) (thread : Thread) : Option Report :=
  match thread.phase with
  | .startedSent => some ⟨.started, thread.job.jobID, workerID⟩
  | .finalSent outcome => some ⟨Agent.finalKind outcome, thread.job.jobID, workerID⟩
  | _ => none

/-- The report under way that the thread gives up. -/
def givenUp (agent : Agent.State Cpu Mem) : Act → List Report
  | .lost t _ => ((agent.threads t).bind (sent agent.workerID)).toList
  | _ => []

/-- All reports under way from the process. -/
def outstanding (agent : Agent.State Cpu Mem) : List Report :=
  (List.range agent.spawned).filterMap fun t => (agent.threads t).bind (sent agent.workerID)

section Machine
variable [Zero Cpu] [LT Cpu] [DecidableLT Cpu] [Zero Mem] [LT Mem] [DecidableLT Mem]

def step (python : Python) (state : State Cpu Mem) : Label Cpu Mem → Option (State Cpu Mem)
  | .call now op =>
      if requested state.jobs op then some { state with jobs := op.apply now state.jobs } else none
  | .recover now workerID id =>
      some { state with jobs := (JobService.recover state.jobs now workerID id).2 }
  | .late index now =>
      state.inFlight[index]?.map fun report =>
        ⟨(handleReport state.jobs now report).2, state.processes, state.inFlight.eraseIdx index⟩
  | .register workerID =>
      match state.processes workerID with
      | .unregistered => some { state with
          processes := Function.update state.processes workerID (.running (.start workerID)) }
      | _ => none
  | .crash workerID =>
      match state.processes workerID with
      | .running agent => some { state with
          processes := Function.update state.processes workerID .gone
          inFlight := state.inFlight ++ outstanding agent }
      | _ => none
  | .act workerID act =>
      match state.processes workerID with
      | .running agent => (perform python { agent with jobs := state.jobs } act).map fun next =>
          ⟨next.jobs, Function.update state.processes workerID (.running next),
            state.inFlight ++ givenUp agent act⟩
      | _ => none

end Machine

/-! ### What one agent can do -/

/-- The thread may still execute the job, or has yet to tell the server how that ended. -/
def live : Phase → Bool
  | .finalReply | .ended | .crashed _ => false
  | _ => true

theorem live_alive {phase : Phase} (isLive : live phase = true) : phase.exited = false := by
  cases phase <;> simp_all [live, Phase.exited]

def LiveThread (agent : Agent.State Cpu Mem) (id : String) : Prop :=
  ∃ t thread, agent.threads t = some thread ∧ thread.job.jobID = id ∧ live thread.phase = true

/-- The report of a thread and where its answer takes the thread. -/
inductive Reported (thread : Thread) : Kind → Phase → Prop where
  | started {problem : Option Status} (was : thread.phase = .startedSent) :
      Reported thread .started (.startedReply problem)
  | final {outcome : Outcome} (was : thread.phase = .finalSent outcome) :
      Reported thread (Agent.finalKind outcome) .finalReply

/-- All that an agent can do. -/
inductive Effect (python : Python) (agent : Agent.State Cpu Mem) :
    Act → Agent.State Cpu Mem → Prop where
  | loop : Effect python agent .loop agent.loopStep
  | unanswered : Effect python agent .unanswered { agent with loop := .sleeping }
  | thread {t : Nat} {elapsed : ℚ} {thread : Thread} {phase : Phase}
      (found : agent.threads t = some thread) (next : thread.next python elapsed = some phase) :
      Effect python agent (.thread t elapsed) (turned agent t thread phase)
  | reported {act : Act} {t : Nat} {now : Time} {thread : Thread} {kind : Kind} {phase : Phase}
      (handled : act = .deliver t now ∨ ∃ problem, act = .unheard t now problem)
      (found : agent.threads t = some thread) (reported : Reported thread kind phase) :
      Effect python agent act ({ agent with
        jobs := (handleReport agent.jobs now ⟨kind, thread.job.jobID, agent.workerID⟩).2 }.setThread t
          { thread with phase := phase })
  | lost {t : Nat} {problem : Status} {thread : Thread} {kind : Kind} {phase : Phase}
      (found : agent.threads t = some thread) (reported : Reported thread kind phase) :
      Effect python agent (.lost t problem) (agent.setThread t { thread with phase := phase })

theorem replied_reported {thread : Thread} {problem : Option Status} {phase : Phase}
    (answer : JobThreads.replied problem thread.phase = some phase) :
    ∃ kind, Reported thread kind phase := by
  unfold JobThreads.replied at answer
  split at answer
  case h_1 was =>
    obtain rfl := Option.some.inj answer
    exact ⟨_, .started was⟩
  case h_2 was =>
    obtain rfl := Option.some.inj answer
    exact ⟨_, .final was⟩
  case h_3 => cases answer

theorem perform_effect {python : Python} {agent next : Agent.State Cpu Mem} {act : Act}
    (performed : perform python agent act = some next) : Effect python agent act next := by
  cases act with
  | loop =>
      obtain rfl := Option.some.inj performed
      exact .loop
  | unanswered =>
      simp only [perform] at performed
      split at performed <;> cases performed <;> exact .unanswered
  | thread t elapsed =>
      obtain ⟨thread, phase, found, turns, rfl⟩ := threadStep_cases performed
      exact .thread found turns
  | deliver t now =>
      obtain ⟨thread, kind, phase, found, answer, rfl⟩ := deliver_cases performed
      cases answer with
      | started was => exact .reported (.inl rfl) found (.started was)
      | final was => exact .reported (.inl rfl) found (.final was)
  | unheard t now problem =>
      obtain ⟨handled, delivered, failed⟩ := Option.bind_eq_some_iff.mp performed
      obtain ⟨thread, kind, phase, found, answer, rfl⟩ := deliver_cases delivered
      simp only [fail, found] at failed
      obtain ⟨phase', replied, rfl⟩ := Option.map_eq_some_iff.mp failed
      cases answer with
      | started was =>
          simp only [was, JobThreads.replied, Option.some.injEq] at replied
          subst replied
          exact .reported (.inr ⟨problem, rfl⟩) found (.started was)
      | final was =>
          simp only [was, JobThreads.replied, Option.some.injEq] at replied
          subst replied
          exact .reported (.inr ⟨problem, rfl⟩) found (.final was)
  | lost t problem =>
      simp only [perform, fail] at performed
      split at performed
      · cases performed
      · rename_i thread found
        obtain ⟨phase, replied, rfl⟩ := Option.map_eq_some_iff.mp performed
        obtain ⟨kind, reported⟩ := replied_reported replied
        exact .lost found reported

section Agents
variable {python : Python} {agent next : Agent.State Cpu Mem} {act : Act}

theorem reported_moves {t : Nat} {thread : Thread} {kind : Kind} {phase : Phase}
    (found : agent.threads t = some thread) (reported : Reported thread kind phase)
    (jobs : MemoryRepository Cpu Mem) :
    Moves agent ({ agent with jobs := jobs }.setThread t { thread with phase := phase }) t thread
      { thread with phase := phase } := by
  obtain ⟨alive, stays⟩ : thread.phase.exited = false ∧ phase.exited = false := by
    cases reported with
    | started was | final was => exact ⟨by rw [was]; rfl, rfl⟩
  exact {
    was := found
    alive := alive
    threads := fun other => Function.update_apply _ _ _ _
    job := rfl
    running := fun id => by simp [stays, Agent.State.setThread]
    mirrored := fun same => same
    spawned := rfl
    loop := rfl }

theorem effect_registered (registered : Registered agent) (effect : Effect python agent act next) :
    Registered next := by
  cases effect with
  | loop => exact loopStep_registered registered
  | unanswered => exact turned_loop_registered registered nofun
  | thread found turns => exact moves_registered registered (turned_moves found (next_turn turns))
  | reported _ found reported => exact moves_registered registered (reported_moves found reported _)
  | lost found reported => exact moves_registered registered (reported_moves found reported agent.jobs)

theorem turn_live {elapsed : ℚ} {thread : Thread} {phase : Phase} (turn : Turn elapsed thread phase)
    (isLive : live phase = true) : live thread.phase = true := by
  cases turn with
  | refused | raised | leave => cases isLive
  | announce was | enter was | slept was | returned was | report was =>
      rw [was]
      rfl

theorem reported_live {thread : Thread} {kind : Kind} {phase : Phase}
    (reported : Reported thread kind phase) : live thread.phase = true := by
  cases reported with
  | started was | final was =>
      rw [was]
      rfl

theorem moves_thread {t : Nat} {thread thread' : Thread} (moves : Moves agent next t thread thread')
    (before : live thread'.phase = true → live thread.phase = true) {id : String}
    (isLive : LiveThread next id) : LiveThread agent id := by
  obtain ⟨other, current, found, named, lives⟩ := isLive
  rw [moves.threads other] at found
  by_cases own : other = t
  · rw [if_pos own] at found
    obtain rfl := Option.some.inj found
    exact ⟨t, thread, moves.was, by rwa [← moves.job], before lives⟩
  · rw [if_neg own] at found
    exact ⟨other, current, found, named, lives⟩

/-- A live thread was live before, or the loop has just started it. -/
theorem effect_live (effect : Effect python agent act next) {id : String}
    (isLive : LiveThread next id) :
    LiveThread agent id ∨ act = .loop ∧
      ∃ job rest stops, agent.loop = .spawning job rest stops ∧ job.jobID = id := by
  cases effect with
  | unanswered => exact Or.inl isLive
  | thread found turns =>
      have turn := next_turn turns
      exact Or.inl (moves_thread (turned_moves found turn) (turn_live turn) isLive)
  | reported _ found reported =>
      exact Or.inl (moves_thread (reported_moves found reported _)
        (fun _ => reported_live reported) isLive)
  | lost found reported =>
      exact Or.inl (moves_thread (reported_moves found reported agent.jobs)
        (fun _ => reported_live reported) isLive)
  | loop =>
      have turned := JobThreads.loopStep_effect agent
      generalize agent.loopStep = after at isLive turned
      obtain ⟨t, thread, found, named, lives⟩ := isLive
      cases turned with
      | goesOn loop => exact Or.inl ⟨t, thread, found, named, lives⟩
      | @spawns job rest stops spawning =>
          rw [spawn_threads] at found
          by_cases new : t = agent.spawned
          · rw [if_pos new] at found
            obtain rfl := Option.some.inj found
            exact Or.inr ⟨rfl, job, rest, stops, spawning, named⟩
          · rw [if_neg new] at found
            exact Or.inl ⟨t, thread, found, named, lives⟩
      | signals signalled stops =>
          obtain ⟨before, known, job, phase, -⟩ := signal_threads found
          exact Or.inl ⟨t, before, known, by rw [← job, named], by rw [← phase, lives]⟩

/-- What an agent can do to the store. -/
inductive Writes (agent next : Agent.State Cpu Mem) : Prop where
  | nothing (same : next.jobs = agent.jobs)
  | start {now : Time} {id : String}
      (handled : next.jobs = (handleReport agent.jobs now ⟨.started, id, agent.workerID⟩).2)
  | final {now : Time} {id : String} {kind : Kind} (was : LiveThread agent id)
      (finished : ¬ LiveThread next id)
      (handled : next.jobs = (handleReport agent.jobs now ⟨kind, id, agent.workerID⟩).2)

theorem loopStep_jobs (agent : Agent.State Cpu Mem) : agent.loopStep.jobs = agent.jobs := by
  have turned := JobThreads.loopStep_effect agent
  generalize agent.loopStep = after at turned
  cases turned with
  | goesOn | spawns => rfl
  | signals t => exact (signal_frame agent t).1

theorem effect_workerID (effect : Effect python agent act next) : next.workerID = agent.workerID := by
  cases effect with
  | loop =>
      have turned := JobThreads.loopStep_effect agent
      generalize agent.loopStep = after at turned
      cases turned with
      | goesOn | spawns => rfl
      | signals t =>
          unfold Agent.State.signal
          split <;> rfl
  | thread =>
      unfold turned
      split <;> rfl
  | unanswered | reported | lost => rfl

theorem effect_writes (registered : Registered agent) (effect : Effect python agent act next) :
    Writes agent next := by
  have registered' := effect_registered registered effect
  cases effect with
  | loop => exact .nothing (loopStep_jobs agent)
  | unanswered | lost => exact .nothing rfl
  | thread => exact .nothing (turned_jobs ..)
  | @reported _ t now thread kind phase _ found reported =>
      cases reported with
      | started was => exact .start rfl
      | @final outcome was =>
          have moves := reported_moves found (.final was)
            (handleReport agent.jobs now
              ⟨Agent.finalKind outcome, thread.job.jobID, agent.workerID⟩).2
          refine .final ⟨t, thread, found, rfl, by rw [was]; rfl⟩ ?_ rfl
          -- The tables list one thread for the job, and that one has its answer.
          rintro ⟨other, current, known, named, lives⟩
          have own := registered'.listed t _ ((moves.threads t).trans (if_pos rfl)) rfl
          have listed := registered'.listed other current known (live_alive lives)
          rw [named, own] at listed
          obtain rfl := Option.some.inj listed
          rw [moves.threads, if_pos rfl] at known
          obtain rfl := Option.some.inj known
          cases lives

end Agents

/-! ### Who holds a job -/

/-- The record keeps the job with the worker, or the job will never be placed again. -/
def HeldBy (workerID : String) (job : Job Cpu Mem) : Prop :=
  job.state = .cancelled ∨ job.state.recoverable = true ∧ job.assignedWorkerIDs = [workerID]

def Keeps (fn : Job Cpu Mem → Except JobError (Job Cpu Mem)) : Prop :=
  ∀ workerID job job', HeldBy workerID job → fn job = .ok job' → HeldBy workerID job'

theorem cancelUpdate_keeps (now : Time) : Keeps (cancelUpdate now : Job Cpu Mem → _) := by
  rintro workerID job job' held accepted
  unfold cancelUpdate at accepted
  cases state : job.state <;> simp only [state] at accepted <;> cases accepted
  all_goals first
    | exact held
    | exact Or.inl rfl
    | skip
  all_goals
    rcases held with cancelled | ⟨-, assigned⟩
    · simp [state] at cancelled
    · exact Or.inr ⟨rfl, assigned⟩

theorem assignUpdate_keeps (workerIDs : List String) : Keeps (assignUpdate workerIDs : Job Cpu Mem → _) := by
  rintro workerID job job' held accepted
  unfold assignUpdate at accepted
  split at accepted
  · rename_i queued
    simp [HeldBy, queued, State.recoverable] at held
  · cases accepted

theorem startUpdate_keeps (now : Time) : Keeps (startUpdate now : Job Cpu Mem → _) := by
  rintro workerID job job' held accepted
  unfold startUpdate at accepted
  split at accepted
  · rename_i scheduled
    cases accepted
    rcases held with cancelled | ⟨-, assigned⟩
    · simp [scheduled] at cancelled
    · exact Or.inr ⟨rfl, assigned⟩
  · cases accepted

theorem preemptUpdate_keeps (reason : String) : Keeps (preemptUpdate reason : Job Cpu Mem → _) := by
  rintro workerID job job' held accepted
  unfold preemptUpdate at accepted
  split at accepted
  · rename_i running
    split at accepted <;> cases accepted
    rcases held with cancelled | ⟨-, assigned⟩
    · simp [running] at cancelled
    · exact Or.inr ⟨rfl, assigned⟩
  · cases accepted

theorem retryUpdate_keeps : Keeps (retryUpdate : Job Cpu Mem → _) := by
  rintro workerID job job' held accepted
  unfold retryUpdate at accepted
  split at accepted
  · rename_i failed
    simp [HeldBy, failed, State.recoverable] at held
  · cases accepted

theorem update_held {jobs : MemoryRepository Cpu Mem} {key id : String}
    {fn : Job Cpu Mem → Except JobError (Job Cpu Mem)} {workerID : String} {job : Job Cpu Mem}
    (found : jobs.find id = some job) (held : HeldBy workerID job)
    (keeps : id = key → ∀ job', fn job = .ok job' → HeldBy workerID job') :
    ∃ job', (jobs.update key fn).2.find id = some job' ∧ HeldBy workerID job' := by
  rcases update_cases jobs key fn with ⟨problem, same⟩ | ⟨old, updated, known, accepted, stored⟩
  · exact ⟨job, by rw [same, found], held⟩
  · rw [stored, find_put]
    by_cases own : id = key
    · subst own
      obtain rfl : old = job := Option.some.inj (known.symm.trans found)
      exact ⟨updated, if_pos rfl, keeps rfl updated accepted⟩
    · exact ⟨job, (if_neg own).trans found, held⟩

/-- At most one worker in a record, and each record under its own ID. -/
structure Tidy (jobs : MemoryRepository Cpu Mem) : Prop where
  keyed : jobs.Keyed
  single : ∀ id job, jobs.find id = some job → job.assignedWorkerIDs.length ≤ 1

/-- What is offered to a worker is held by it. -/
theorem offered_held {jobs : MemoryRepository Cpu Mem} (tidy : Tidy jobs) {workerID : String}
    {job : Job Cpu Mem} (offered : job ∈ listAssignedToWorker jobs workerID) :
    jobs.find job.id = some job ∧ job.state = .scheduled ∧ job.assignedWorkerIDs = [workerID] := by
  obtain ⟨active, listed⟩ := List.mem_filter.mp offered
  obtain ⟨⟨key, found⟩, -⟩ := mem_listActive_iff.mp active
  simp only [Bool.and_eq_true, decide_eq_true_eq, List.contains_iff_mem] at listed
  obtain ⟨scheduled, assigned⟩ := listed
  have single := tidy.single key job found
  refine ⟨by rwa [tidy.keyed key job found], scheduled, ?_⟩
  match workers : job.assignedWorkerIDs with
  | [] => simp [workers] at assigned
  | [only] =>
      rw [workers, List.mem_singleton] at assigned
      rw [assigned]
  | _ :: _ :: _ => simp [workers] at single

section Calls
variable [Zero Cpu] [LT Cpu] [DecidableLT Cpu] [Zero Mem] [LT Mem] [DecidableLT Mem]

theorem apply_tidy {jobs : MemoryRepository Cpu Mem} (tidy : Tidy jobs) (now : Time)
    (op : Op Cpu Mem) (single : SinglePlacement op) : Tidy (op.apply now jobs) where
  keyed := apply_keyed tidy.keyed now op
  single := by
    refine apply_records tidy.single (fun _ _ kept => kept) ?_ ?_ (fun _ _ _ _ => Nat.zero_le 1)
    · intro id charged job job' moved kept
      cases moved with
      | requeue | confirmPreempt => exact Nat.zero_le 1
      | _ => exact kept
    · rintro id workerIDs job rfl - - -
      exact single.le

theorem report_tidy {jobs : MemoryRepository Cpu Mem} (tidy : Tidy jobs) (now : Time)
    (report : Report) : Tidy (handleReport jobs now report).2 := by
  rw [handleReport_store]
  split
  · exact tidy
  · cases report.kind with
    | started => exact apply_tidy tidy now (.start report.jobID) trivial
    | completed exitCode => exact apply_tidy tidy now (.complete report.jobID) trivial
    | failed reason => exact apply_tidy tidy now (.fail report.jobID reason) trivial
    | stopped => exact apply_tidy tidy now (.reportStopped report.jobID) trivial

theorem submit_found {jobs : MemoryRepository Cpu Mem} {now : Time} {key id : String}
    {input : SubmitInput Cpu Mem} {job : Job Cpu Mem} (fresh : jobs.find key = none)
    (found : jobs.find id = some job) : (submit jobs now key input).2.find id = some job := by
  have other : id ≠ key := by
    rintro rfl
    exact absurd (fresh.symm.trans found) (by simp)
  cases checked : validateSubmit input with
  | error problem => simpa only [submit, checked] using found
  | ok _ =>
      simp only [submit, checked]
      cases known : jobs.bySubmission input.submissionID with
      | some existing =>
          have same : jobs.create (newJob now key input) = ((existing, false), jobs) :=
            create_existing known
          rw [same, found]
      | none =>
          have stored : jobs.create (newJob now key input) =
              ((newJob now key input, true), jobs.insertNew (newJob now key input)) :=
            create_new known
          rw [stored, find_insertNew]
          exact (if_neg other).trans found

/-- Clients and the scheduler take no job away from the worker that holds it. -/
theorem requested_held {jobs : MemoryRepository Cpu Mem} {now : Time} {op : Op Cpu Mem}
    (allowed : requested jobs op = true) {id workerID : String} {job : Job Cpu Mem}
    (found : jobs.find id = some job) (held : HeldBy workerID job) :
    ∃ job', (op.apply now jobs).find id = some job' ∧ HeldBy workerID job' := by
  cases op with
  | submit key input =>
      have fresh : jobs.find key = none := by simpa [requested] using allowed
      exact ⟨job, submit_found fresh found, held⟩
  | cancel key => exact update_held found held fun _ job' => cancelUpdate_keeps now workerID job job' held
  | assignToWorkers key workerIDs =>
      exact update_held found held fun _ job' => assignUpdate_keeps workerIDs workerID job job' held
  | preempt key reason =>
      exact update_held found held fun _ job' => preemptUpdate_keeps reason workerID job job' held
  | retry key => exact update_held found held fun _ job' => retryUpdate_keeps workerID job job' held
  | start | complete | fail | reportStopped | recover => cases allowed

theorem requested_tidy {jobs : MemoryRepository Cpu Mem} (tidy : Tidy jobs) (now : Time)
    {op : Op Cpu Mem} (allowed : requested jobs op = true) : Tidy (op.apply now jobs) := by
  refine apply_tidy tidy now op ?_
  cases op with
  | assignToWorkers id workerIDs => simpa [requested, SinglePlacement] using allowed
  | _ => trivial

end Calls

/-! ### The fleet -/

/-- What `running_jobs` and its threads say of a job. -/
def busy (agent : Agent.State Cpu Mem) (id : String) : Bool :=
  (agent.runningJobs id).any fun t => (agent.threads t).any fun thread => live thread.phase

def busyAt (state : State Cpu Mem) (workerID id : String) : Bool :=
  match state.processes workerID with
  | .running agent => busy agent id
  | _ => false

/-- The worker that the job is assigned to is not busy with it. -/
def idle (state : State Cpu Mem) (id : String) : Bool :=
  (state.jobs.find id).all fun job =>
    job.assignedWorkerIDs.all fun workerID => !busyAt state workerID id

/-- A job is started only while the server still offers it, and as long as the worker that
a job is assigned to is busy with it, neither LoseWorker requeues the job nor does the
server handle a report on its end that was given up. -/
def timely (state : State Cpu Mem) : Label Cpu Mem → Bool
  | .recover _ _ id => idle state id
  | .late index _ => state.inFlight[index]?.all fun report =>
      report.kind = .started || idle state report.jobID
  | .act workerID .loop =>
      match state.processes workerID with
      | .running agent =>
          match agent.loop with
          | .spawning job _ _ =>
              (listAssignedToWorker state.jobs workerID).any fun offered => offered.id = job.jobID
          | _ => true
      | _ => true
  | _ => true

def LiveAt (state : State Cpu Mem) (workerID id : String) : Prop :=
  ∃ agent, state.processes workerID = .running agent ∧ LiveThread agent id

/-- What holds of every fleet, however its steps interleave. -/
structure Sound (state : State Cpu Mem) : Prop where
  tidy : Tidy state.jobs
  registered : ∀ workerID agent, state.processes workerID = .running agent → Registered agent
  named : ∀ workerID agent, state.processes workerID = .running agent → agent.workerID = workerID

structure Orderly (state : State Cpu Mem) : Prop extends Sound state where
  held : ∀ workerID id, LiveAt state workerID id →
    ∃ job, state.jobs.find id = some job ∧ HeldBy workerID job
  exclusive : ∀ workerID other id, LiveAt state workerID id → LiveAt state other id →
    workerID = other

theorem live_busy {agent : Agent.State Cpu Mem} (registered : Registered agent) {id : String}
    (isLive : LiveThread agent id) : busy agent id = true := by
  obtain ⟨t, thread, found, rfl, lives⟩ := isLive
  have listed := registered.listed t thread found (live_alive lives)
  simp [busy, listed, found, lives]

theorem start_sound : Sound (State.start : State Cpu Mem) where
  tidy := ⟨Tables.keyed_empty Job.id, fun id job found => by simp [State.start] at found⟩
  registered workerID agent running := by cases running
  named workerID agent running := by cases running

theorem start_orderly : Orderly (State.start : State Cpu Mem) where
  toSound := start_sound
  held workerID id := by
    rintro ⟨agent, running, -⟩
    cases running
  exclusive workerID other id := by
    rintro ⟨agent, running, -⟩
    cases running

section Steps
variable {state : State Cpu Mem}

theorem registered_here {agent : Agent.State Cpu Mem} (registered : Registered agent)
    (jobs : MemoryRepository Cpu Mem) : Registered { agent with jobs := jobs } :=
  ⟨registered.mirrored, registered.listed, registered.named, registered.fresh, registered.vacant⟩

theorem process_cases {processes : String → Process Cpu Mem} {workerID other : String}
    {process : Process Cpu Mem} {agent : Agent.State Cpu Mem}
    (running : Function.update processes workerID process other = .running agent) :
    other = workerID ∧ process = .running agent ∨
      other ≠ workerID ∧ processes other = .running agent := by
  rw [Function.update_apply] at running
  by_cases own : other = workerID
  · rw [if_pos own] at running
    exact Or.inl ⟨own, running⟩
  · rw [if_neg own] at running
    exact Or.inr ⟨own, running⟩

theorem sound_process (sound : Sound state) {jobs : MemoryRepository Cpu Mem} (tidy : Tidy jobs)
    {workerID : String} {process : Process Cpu Mem}
    (own : ∀ agent, process = .running agent → Registered agent ∧ agent.workerID = workerID)
    (inFlight : List Report) :
    Sound ⟨jobs, Function.update state.processes workerID process, inFlight⟩ where
  tidy := tidy
  registered other agent running := by
    rcases process_cases running with ⟨-, isOwn⟩ | ⟨-, before⟩
    · exact (own agent isOwn).1
    · exact sound.registered other agent before
  named other agent running := by
    rcases process_cases running with ⟨rfl, isOwn⟩ | ⟨-, before⟩
    · exact (own agent isOwn).2
    · exact sound.named other agent before

/-- The store changes and no process does. -/
theorem orderly_jobs (orderly : Orderly state) {jobs : MemoryRepository Cpu Mem}
    {inFlight : List Report} (sound : Sound ⟨jobs, state.processes, inFlight⟩)
    (held : ∀ workerID id job, LiveAt state workerID id → state.jobs.find id = some job →
      HeldBy workerID job → ∃ job', jobs.find id = some job' ∧ HeldBy workerID job') :
    Orderly ⟨jobs, state.processes, inFlight⟩ where
  toSound := sound
  held workerID id isLive := by
    obtain ⟨job, found, holds⟩ := orderly.held workerID id isLive
    exact held workerID id job isLive found holds
  exclusive := orderly.exclusive

/-- A process comes or goes, without a live thread. -/
theorem orderly_process (orderly : Orderly state) {workerID : String} {process : Process Cpu Mem}
    {inFlight : List Report}
    (sound : Sound ⟨state.jobs, Function.update state.processes workerID process, inFlight⟩)
    (idle : ∀ agent id, process = .running agent → ¬ LiveThread agent id) :
    Orderly ⟨state.jobs, Function.update state.processes workerID process, inFlight⟩ := by
  have before : ∀ other id,
      LiveAt ⟨state.jobs, Function.update state.processes workerID process, inFlight⟩ other id →
      LiveAt state other id := by
    rintro other id ⟨agent, running, lives⟩
    rcases process_cases running with ⟨-, own⟩ | ⟨-, earlier⟩
    · exact absurd lives (idle agent id own)
    · exact ⟨agent, earlier, lives⟩
  exact ⟨sound, fun other id isLive => orderly.held other id (before other id isLive),
    fun first second id isLive isLive' =>
      orderly.exclusive first second id (before first id isLive) (before second id isLive')⟩

theorem idle_free {holder id : String} {job : Job Cpu Mem} (orderly : Orderly state)
    (isIdle : idle state id = true) (isLive : LiveAt state holder id)
    (found : state.jobs.find id = some job) : job.assignedWorkerIDs ≠ [holder] := by
  intro assigned
  obtain ⟨agent, running, lives⟩ := isLive
  have occupied : busyAt state holder id = true := by
    simpa only [busyAt, running] using live_busy (orderly.registered holder agent running) lives
  simp [idle, found, assigned, occupied] at isIdle

/-- Recovery takes a job from the worker it is assigned to only if that is not busy with it. -/
theorem recover_held {now : Time} {workerID key id : String} {holder : String} {job : Job Cpu Mem}
    (orderly : Orderly state) (inTime : timely state (.recover now workerID key) = true)
    (isLive : LiveAt state holder id) (found : state.jobs.find id = some job)
    (held : HeldBy holder job) :
    ∃ job', (recover state.jobs now workerID key).2.find id = some job' ∧ HeldBy holder job' := by
  refine update_held found held fun own job' accepted => ?_
  subst own
  rcases held with cancelled | ⟨-, assigned⟩
  · have same : job' = job := by
      simpa [recoverUpdate, stopped, cancelled, eq_comm] using accepted
    exact Or.inl (same ▸ cancelled)
  · exact absurd assigned (idle_free orderly inTime isLive found)

theorem reportUpdate_cancelled {now : Time} {kind : Kind} {job job' : Job Cpu Mem}
    (cancelled : job.state = .cancelled) (accepted : reportUpdate now kind job = .ok job') :
    job' = job := by
  cases kind with
  | started | completed | failed =>
      simp [reportUpdate, startUpdate, completeUpdate, failUpdate, cancelled] at accepted
  | stopped => simpa [reportUpdate, reportStoppedUpdate, stopped, cancelled, eq_comm] using accepted

/-- So does a report that comes late, unless it is on the start. -/
theorem late_held {now : Time} {report : Report} {holder id : String} {job : Job Cpu Mem}
    (orderly : Orderly state)
    (inTime : report.kind = .started ∨ idle state report.jobID = true)
    (isLive : LiveAt state holder id) (found : state.jobs.find id = some job)
    (held : HeldBy holder job) :
    ∃ job', (handleReport state.jobs now report).2.find id = some job' ∧ HeldBy holder job' := by
  rw [handleReport_store]
  split
  · exact ⟨job, found, held⟩
  · refine update_held found held fun own job' accepted => ?_
    subst own
    rcases inTime with starts | isIdle
    · rw [starts] at accepted
      exact startUpdate_keeps now holder job job' held accepted
    · rcases held with cancelled | ⟨-, assigned⟩
      · exact Or.inl (reportUpdate_cancelled cancelled accepted ▸ cancelled)
      · exact absurd assigned (idle_free orderly isIdle isLive found)

/-- What an agent writes takes no job away from another worker, nor from itself while one
of its threads is live. -/
theorem writes_held {workerID : String} {agent next : Agent.State Cpu Mem} (orderly : Orderly state)
    (running : state.processes workerID = .running agent)
    (writes : Writes { agent with jobs := state.jobs } next) {holder id : String} {job : Job Cpu Mem}
    (isLive : LiveAt state holder id) (still : holder = workerID → LiveThread next id)
    (found : state.jobs.find id = some job) (held : HeldBy holder job) :
    ∃ job', next.jobs.find id = some job' ∧ HeldBy holder job' := by
  cases writes with
  | nothing same => exact ⟨job, by rw [same, found], held⟩
  | start handled =>
      rw [handled, handleReport_store]
      split
      · exact ⟨job, found, held⟩
      · exact update_held found held fun _ job' => startUpdate_keeps _ holder job job' held
  | @final now key kind was finished handled =>
      have other : id ≠ key := by
        rintro rfl
        have same := orderly.exclusive holder workerID id isLive ⟨agent, running, was⟩
        exact finished (still same)
      rw [handled, StopRequests.report_other other]
      exact ⟨job, found, held⟩

def Offered (state : State Cpu Mem) (workerID id : String) : Prop :=
  ∃ job, state.jobs.find id = some job ∧ job.state = .scheduled ∧ job.assignedWorkerIDs = [workerID]

theorem offered_owner (orderly : Orderly state) {workerID other id : String}
    (offered : Offered state workerID id) (isLive : LiveAt state other id) : other = workerID := by
  obtain ⟨job, found, scheduled, assigned⟩ := offered
  obtain ⟨job', found', held⟩ := orderly.held other id isLive
  obtain rfl : job' = job := Option.some.inj (found'.symm.trans found)
  rcases held with cancelled | ⟨-, assigned'⟩
  · simp [scheduled] at cancelled
  · exact List.singleton_inj.mp (assigned'.symm.trans assigned)

/-- A thread that the loop starts is for a job that the server still offers. -/
theorem act_started {python : Python} (orderly : Orderly state) {workerID : String} {act : Act}
    {agent next : Agent.State Cpu Mem} (running : state.processes workerID = .running agent)
    (inTime : timely state (.act workerID act) = true)
    (performed : perform python { agent with jobs := state.jobs } act = some next) {id : String}
    (isLive : LiveThread next id) :
    LiveAt state workerID id ∨ Offered state workerID id ∧ next.jobs = state.jobs := by
  rcases effect_live (perform_effect performed) isLive with
    before | ⟨rfl, job, rest, stops, spawning, named⟩
  · exact Or.inl ⟨agent, running, before⟩
  · right
    have spawning' : agent.loop = .spawning job rest stops := spawning
    simp only [timely, running, spawning', List.any_eq_true, decide_eq_true_eq] at inTime
    obtain ⟨offered, listed, same⟩ := inTime
    obtain ⟨found, scheduled, assigned⟩ := offered_held orderly.tidy listed
    obtain rfl := Option.some.inj performed
    exact ⟨⟨offered, by rw [← named, ← same, found], scheduled, assigned⟩, loopStep_jobs _⟩

theorem act_orderly {python : Python} (orderly : Orderly state) {workerID : String} {act : Act}
    {agent next : Agent.State Cpu Mem} (running : state.processes workerID = .running agent)
    (inTime : timely state (.act workerID act) = true)
    (performed : perform python { agent with jobs := state.jobs } act = some next)
    {inFlight : List Report}
    (sound : Sound ⟨next.jobs, Function.update state.processes workerID (.running next), inFlight⟩) :
    Orderly ⟨next.jobs, Function.update state.processes workerID (.running next), inFlight⟩ := by
  have registered := registered_here (orderly.registered workerID agent running) state.jobs
  have writes := effect_writes registered (perform_effect performed)
  have origin : ∀ other id,
      LiveAt ⟨next.jobs, Function.update state.processes workerID (.running next), inFlight⟩ other id →
      LiveAt state other id ∧ (other = workerID → LiveThread next id) ∨
        other = workerID ∧ Offered state workerID id ∧ next.jobs = state.jobs := by
    rintro other id ⟨agent', isRunning, lives⟩
    rcases process_cases isRunning with ⟨rfl, own⟩ | ⟨apart, before⟩
    · obtain rfl := Process.running.inj own
      rcases act_started orderly running inTime performed lives with before | offered
      · exact Or.inl ⟨before, fun _ => lives⟩
      · exact Or.inr ⟨rfl, offered⟩
    · exact Or.inl ⟨⟨agent', before, lives⟩, fun own => absurd own apart⟩
  refine ⟨sound, ?_, ?_⟩
  · intro other id isLive
    rcases origin other id isLive with ⟨before, still⟩ | ⟨rfl, ⟨job, found, scheduled, assigned⟩, same⟩
    · obtain ⟨job, found, held⟩ := orderly.held other id before
      exact writes_held orderly running writes before still found held
    · exact ⟨job, same ▸ found, Or.inr ⟨by rw [scheduled]; rfl, assigned⟩⟩
  · intro first second id isLive isLive'
    rcases origin first id isLive, origin second id isLive' with
      ⟨⟨before, -⟩ | ⟨rfl, offered, -⟩, ⟨before', -⟩ | ⟨rfl, offered', -⟩⟩
    · exact orderly.exclusive first second id before before'
    · exact offered_owner orderly offered' before
    · exact (offered_owner orderly offered before').symm
    · rfl

variable [Zero Cpu] [LT Cpu] [DecidableLT Cpu] [Zero Mem] [LT Mem] [DecidableLT Mem]

theorem writes_tidy {agent next : Agent.State Cpu Mem} (tidy : Tidy agent.jobs)
    (writes : Writes agent next) : Tidy next.jobs := by
  cases writes with
  | nothing same => rwa [same]
  | start handled | final _ _ handled =>
      rw [handled]
      exact report_tidy tidy _ _

theorem step_sound {python : Python} (state : State Cpu Mem) (label : Label Cpu Mem)
    (next : State Cpu Mem) (sound : Sound state) (stepped : step python state label = some next) :
    Sound next := by
  cases label with
  | call now op =>
      simp only [step] at stepped
      split at stepped <;> cases stepped
      exact ⟨requested_tidy sound.tidy now (by assumption), sound.registered, sound.named⟩
  | recover now workerID id =>
      obtain rfl := Option.some.inj stepped
      exact ⟨apply_tidy sound.tidy now (.recover workerID id) trivial, sound.registered, sound.named⟩
  | late index now =>
      obtain ⟨report, -, rfl⟩ := Option.map_eq_some_iff.mp stepped
      exact ⟨report_tidy sound.tidy now report, sound.registered, sound.named⟩
  | register workerID =>
      simp only [step] at stepped
      split at stepped <;> cases stepped
      refine sound_process sound sound.tidy ?_ _
      rintro agent ⟨⟩
      exact ⟨start_registered workerID, rfl⟩
  | crash workerID =>
      simp only [step] at stepped
      split at stepped <;> cases stepped
      refine sound_process sound sound.tidy ?_ _
      rintro agent ⟨⟩
  | act workerID act =>
      simp only [step] at stepped
      split at stepped
      case h_1 agent running =>
        obtain ⟨moved, performed, rfl⟩ := Option.map_eq_some_iff.mp stepped
        have registered := registered_here (sound.registered workerID agent running) state.jobs
        have effect := perform_effect performed
        refine sound_process sound (writes_tidy sound.tidy (effect_writes registered effect)) ?_ _
        rintro _ ⟨⟩
        exact ⟨effect_registered registered effect,
          (effect_workerID effect).trans (sound.named workerID agent running)⟩
      case h_2 => cases stepped

theorem step_orderly {python : Python} (state : State Cpu Mem) (label : Label Cpu Mem)
    (next : State Cpu Mem) (orderly : Orderly state) (inTime : timely state label = true)
    (stepped : step python state label = some next) : Orderly next := by
  have sound := step_sound state label next orderly.toSound stepped
  cases label with
  | call now op =>
      simp only [step] at stepped
      split at stepped
      case isTrue allowed =>
        obtain rfl := Option.some.inj stepped
        exact orderly_jobs orderly sound
          fun workerID id job _ found held => requested_held allowed found held
      case isFalse => cases stepped
  | recover now workerID id =>
      obtain rfl := Option.some.inj stepped
      exact orderly_jobs orderly sound
        fun holder key job isLive found held => recover_held orderly inTime isLive found held
  | late index now =>
      obtain ⟨report, listed, rfl⟩ := Option.map_eq_some_iff.mp stepped
      have inTime' : report.kind = .started ∨ idle state report.jobID = true := by
        simpa [timely, listed] using inTime
      exact orderly_jobs orderly sound
        fun holder key job isLive found held => late_held orderly inTime' isLive found held
  | register workerID =>
      simp only [step] at stepped
      split at stepped <;> cases stepped
      refine orderly_process orderly sound ?_
      rintro agent id ⟨⟩ ⟨t, thread, found, -⟩
      cases found
  | crash workerID =>
      simp only [step] at stepped
      split at stepped <;> cases stepped
      exact orderly_process orderly sound nofun
  | act workerID act =>
      simp only [step] at stepped
      split at stepped
      case h_1 agent running =>
        obtain ⟨moved, performed, rfl⟩ := Option.map_eq_some_iff.mp stepped
        exact act_orderly orderly running inTime performed sound
      case h_2 => cases stepped

/-- At any time at most one agent, with one thread, is at work on a job, and the record of
the job names its worker, unless the job was cancelled before its start was reported. -/
theorem one_agent_per_job (python : Python) (labels : List (Label Cpu Mem)) (state : State Cpu Mem)
    (ran : run (step python) State.start labels = some state)
    (inTime : Along (step python) (fun state label => timely state label = true) State.start labels)
    (workerID : String) (agent : Agent.State Cpu Mem)
    (running : state.processes workerID = .running agent) (t : Nat) (thread : Thread)
    (found : agent.threads t = some thread) (isLive : live thread.phase = true) :
    (∃ job, state.jobs.find thread.job.jobID = some job ∧ HeldBy workerID job) ∧
    ∀ other agent' t' thread', state.processes other = .running agent' →
      agent'.threads t' = some thread' → live thread'.phase = true →
      thread'.job.jobID = thread.job.jobID → other = workerID ∧ t' = t := by
  have orderly : Orderly state := guarded_invariant step_orderly ran inTime start_orderly
  have own : LiveAt state workerID thread.job.jobID := ⟨agent, running, t, thread, found, rfl, isLive⟩
  refine ⟨orderly.held workerID _ own, ?_⟩
  intro other agent' t' thread' running' found' isLive' same
  obtain rfl := orderly.exclusive other workerID _ ⟨agent', running', t', thread', found', same, isLive'⟩ own
  obtain rfl := Process.running.inj (running'.symm.trans running)
  have registered := orderly.registered other agent' running
  have listed := registered.listed t thread found (live_alive isLive)
  have listed' := registered.listed t' thread' found' (live_alive isLive')
  rw [same, listed] at listed'
  exact ⟨rfl, (Option.some.inj listed').symm⟩

end Steps

def unavailable : Status := ⟨.unavailable, ""⟩

def limited : SubmitInput Int Int :=
  { submission ⟨1, 0, 2, 1024⟩ with timeoutSeconds := 60 }

/-- job-1 is placed on the worker, offered in its heartbeat and started in a thread. -/
def offering (workerID : String) : List (Label Int Int) :=
  .call 1 (.assignToWorkers "job-1" [workerID]) :: List.replicate 5 (.act workerID .loop)

/-- Worker-1 gives up its start report and dies in the middle of the job, which is
recovered and goes to worker-2, where the report still finds it scheduled. -/
def failoverLabels : List (Label Int Int) :=
  [.register "worker-1", .register "worker-2", .call 0 (.submit "job-1" limited)] ++
    offering "worker-1" ++
    [.act "worker-1" (.thread 0 0), .act "worker-1" (.lost 0 unavailable),
      .act "worker-1" (.thread 0 0), .crash "worker-1", .recover 3 "worker-1" "job-1"] ++
    offering "worker-2" ++
    [.late 0 4, .act "worker-2" (.thread 0 0), .act "worker-2" (.unheard 0 5 unavailable),
      .act "worker-2" (.thread 0 0)]

def executes (state : State Cpu Mem) (workerID : String) (t : Nat) : Bool :=
  match state.processes workerID with
  | .running agent => (agent.threads t).any fun thread =>
      match thread.phase with
      | .executing _ _ => thread.job.jobID = "job-1"
      | _ => false
  | _ => false

theorem executes_thread {state : State Cpu Mem} {workerID : String} {t : Nat}
    (executing : executes state workerID t = true) :
    ∃ agent thread, state.processes workerID = .running agent ∧ agent.threads t = some thread ∧
      thread.job.jobID = "job-1" ∧ live thread.phase = true := by
  unfold executes at executing
  split at executing
  case h_1 agent running =>
    obtain ⟨thread, found, phase⟩ := (Option.any_eq_true _ _).mp executing
    split at phase
    case h_1 was => exact ⟨agent, thread, running, found, of_decide_eq_true phase, by rw [was]; rfl⟩
    case h_2 => cases phase
  case h_2 => cases executing

theorem failoverLabels_one_agent : ∃ state job,
    run (step plainPython) State.start failoverLabels = some state ∧
      executes state "worker-2" 0 = true ∧ state.jobs.find "job-1" = some job ∧
      HeldBy "worker-2" job := by
  have reached : (run (step plainPython) State.start failoverLabels).any
      (fun state => executes state "worker-2" 0) = true := by decide +kernel
  obtain ⟨state, ran, executing⟩ := (Option.any_eq_true _ _).mp reached
  obtain ⟨agent, thread, running, found, named, isLive⟩ := executes_thread executing
  have inTime : check (step plainPython) timely State.start failoverLabels = true := by decide +kernel
  obtain ⟨⟨job, stored, held⟩, -⟩ := one_agent_per_job plainPython failoverLabels state ran
    (check_along inTime) "worker-2" agent running 0 thread found isLive
  exact ⟨state, job, ran, executing, named ▸ stored, held⟩

/-- A second offer of job-1 to worker-1 is under way while the job times out there, is
requeued and placed on worker-2. Worker-1 starts it once more, and is not told that it
is not to. -/
def staleLabels : List (Label Int Int) :=
  [.register "worker-1", .register "worker-2", .call 0 (.submit "job-1" limited)] ++
    offering "worker-1" ++ List.replicate 5 (.act "worker-1" .loop) ++
    [.act "worker-1" (.thread 0 0), .act "worker-1" (.deliver 0 2), .act "worker-1" (.thread 0 0),
      .act "worker-1" (.thread 0 61), .act "worker-1" (.thread 0 61),
      .act "worker-1" (.deliver 0 3), .act "worker-1" (.thread 0 61)] ++
    offering "worker-2" ++ List.replicate 2 (.act "worker-1" .loop) ++
    [.act "worker-2" (.thread 0 0), .act "worker-2" (.deliver 0 4), .act "worker-2" (.thread 0 0),
      .act "worker-1" (.thread 1 0), .act "worker-1" (.lost 1 unavailable),
      .act "worker-1" (.thread 1 0)]

-- A job started from an offer that the server no longer makes is executed twice.
example : (run (step plainPython) State.start staleLabels).any
    (fun state => executes state "worker-1" 1 && executes state "worker-2" 0) = true := by
  decide +kernel

end OrionQueue.AgentFleet
