import OrionQueue.ExecutorRun
import OrionQueue.HeartbeatRound

/-!
One job on one worker, from the heartbeat that brings it to its last report, while nobody
else does anything: a round of the heartbeat loop of agent/main.py, then the
thread of the job through report_started, the executor and the report of the outcome. An
executor that raises takes the thread with it, and the job stays RUNNING.
-/

namespace OrionQueue.Execution

open Jobs JobStore MemoryRepository JobService JobLifecycle Reports Executor AgentRegistry AgentFleet
open HeartbeatRound Runs
open Agent (AssignedJob Phase Thread finalKind)

variable {Cpu Mem : Type}

/-! ### A thread by itself -/

/-- What a thread does, and what the server does to answer it. -/
def owned (workerID : String) (t : Nat) : Label Cpu Mem → Prop
  | .act other (.thread t' _) | .act other (.deliver t' _) => other = workerID ∧ t' = t
  | _ => False

/-- Where the end of the executor takes the thread. -/
def returned : Except String Outcome → Phase
  | .ok outcome => .reporting outcome
  | .error problem => .crashed problem

section Thread
variable (state : State Cpu Mem) (agent : Agent.State Cpu Mem) (t : Nat)
  (job : AssignedJob) (cancelled : Bool)

/-- The process with its thread in a phase, and all else as it was. -/
def standing (jobs : MemoryRepository Cpu Mem) (phase : Phase) : Agent.State Cpu Mem :=
  { agent with jobs := jobs }.setThread t ⟨job, phase, cancelled⟩

def during (jobs : MemoryRepository Cpu Mem) (phase : Phase) : State Cpu Mem :=
  { state with jobs := jobs }.setAgent agent.workerID (standing agent t job cancelled jobs phase)

/-- The thread has left, and the tables with it. -/
def departed (jobs : MemoryRepository Cpu Mem) : State Cpu Mem :=
  { state with jobs := jobs }.setAgent agent.workerID
    ((standing agent t job cancelled jobs .ended).pop job.jobID)

theorem standing_found (jobs : MemoryRepository Cpu Mem) (phase : Phase) :
    (standing agent t job cancelled jobs phase).threads t = some ⟨job, phase, cancelled⟩ :=
  Function.update_self ..

theorem standing_moves (jobs jobs' : MemoryRepository Cpu Mem) (phase phase' : Phase) :
    { standing agent t job cancelled jobs phase with jobs := jobs' }.setThread t
        ⟨job, phase', cancelled⟩ = standing agent t job cancelled jobs' phase' := by
  simp only [standing, Agent.State.setThread, Function.update_idem]

variable {state agent t job cancelled}

section Steps
variable [Zero Cpu] [LT Cpu] [DecidableLT Cpu] [Zero Mem] [LT Mem] [DecidableLT Mem]
  {python : Python} {jobs : MemoryRepository Cpu Mem}

theorem during_step {phase : Phase} {act : Act} {next : Agent.State Cpu Mem}
    (performed : perform python (standing agent t job cancelled jobs phase) act = some next)
    (answered : givenUp (standing agent t job cancelled jobs phase) act = []) :
    step python (during state agent t job cancelled jobs phase) (.act agent.workerID act) =
      some ({ state with jobs := next.jobs }.setAgent agent.workerID next) := by
  have here : (during state agent t job cancelled jobs phase).processes agent.workerID =
      .running (standing agent t job cancelled jobs phase) := setAgent_running ..
  have current : { standing agent t job cancelled jobs phase with
      jobs := (during state agent t job cancelled jobs phase).jobs } =
        standing agent t job cancelled jobs phase := rfl
  simp only [step, here, current, performed, Option.map_some, answered, List.append_nil]
  simp only [during, State.setAgent, Function.update_idem]

theorem during_turns {phase phase' : Phase} {elapsed : ℚ}
    (next : (⟨job, phase, cancelled⟩ : Thread).next python elapsed = some phase')
    (stays : phase' ≠ .ended) :
    step python (during state agent t job cancelled jobs phase)
        (.act agent.workerID (.thread t elapsed)) =
      some (during state agent t job cancelled jobs phase') := by
  have performed : perform python (standing agent t job cancelled jobs phase) (.thread t elapsed) =
      some (standing agent t job cancelled jobs phase') := by
    simp only [perform, Agent.State.threadStep, standing_found, next]
    cases phase' with
    | ended => exact absurd rfl stays
    | _ => exact congrArg some (standing_moves ..)
  exact during_step performed rfl

theorem during_leaves {phase : Phase} {elapsed : ℚ}
    (next : (⟨job, phase, cancelled⟩ : Thread).next python elapsed = some .ended) :
    step python (during state agent t job cancelled jobs phase)
        (.act agent.workerID (.thread t elapsed)) =
      some (departed state agent t job cancelled jobs) := by
  have performed : perform python (standing agent t job cancelled jobs phase) (.thread t elapsed) =
      some ((standing agent t job cancelled jobs .ended).pop job.jobID) := by
    simp only [perform, Agent.State.threadStep, standing_found, next]
    exact congrArg (fun left => some (Agent.State.pop left job.jobID)) (standing_moves ..)
  exact during_step performed rfl

theorem during_started {now : Time} {running : Job Cpu Mem} {jobs' : MemoryRepository Cpu Mem}
    (handled : handleReport jobs now ⟨.started, job.jobID, agent.workerID⟩ = (.ok running, jobs')) :
    step python (during state agent t job cancelled jobs .startedSent)
        (.act agent.workerID (.deliver t now)) =
      some (during state agent t job cancelled jobs' (.startedReply none)) := by
  have performed : perform python (standing agent t job cancelled jobs .startedSent) (.deliver t now) =
      some (standing agent t job cancelled jobs' (.startedReply none)) := by
    have asked : handleReport (standing agent t job cancelled jobs .startedSent).jobs now
        ⟨.started, job.jobID, (standing agent t job cancelled jobs .startedSent).workerID⟩ =
          (.ok running, jobs') := handled
    simp only [perform, Agent.State.deliver, standing_found, asked]
    exact congrArg some (standing_moves ..)
  exact during_step performed rfl

theorem during_reported {now : Time} {outcome : Outcome} :
    step python (during state agent t job cancelled jobs (.finalSent outcome))
        (.act agent.workerID (.deliver t now)) =
      some (during state agent t job cancelled
        (handleReport jobs now ⟨finalKind outcome, job.jobID, agent.workerID⟩).2 .finalReply) := by
  have performed : perform python (standing agent t job cancelled jobs (.finalSent outcome))
      (.deliver t now) = some (standing agent t job cancelled
        (handleReport jobs now ⟨finalKind outcome, job.jobID, agent.workerID⟩).2 .finalReply) := by
    simp only [perform, Agent.State.deliver, standing_found]
    exact congrArg some (standing_moves ..)
  exact during_step performed rfl

/-! ### The executor and the reports around it -/

theorem turn_leads {phase phase' : Phase} {elapsed : ℚ} {final : State Cpu Mem}
    (next : (⟨job, phase, cancelled⟩ : Thread).next python elapsed = some phase')
    (stays : phase' ≠ .ended)
    (later : Leads (step python) (owned agent.workerID t)
      (during state agent t job cancelled jobs phase') final) :
    Leads (step python) (owned agent.workerID t)
      (during state agent t job cancelled jobs phase) final := by
  have own : owned agent.workerID t (.act agent.workerID (.thread t elapsed) : Label Cpu Mem) :=
    ⟨rfl, rfl⟩
  exact .cons own (during_turns next stays) later

/-- The thread goes through the passes of `run`, each with what the clock says then. -/
theorem executing_leads (elapsed : Int → ℚ) {config : Config} {remaining : Nat} {pass : Int}
    (left : pass + remaining = config.steps + 1) :
    Leads (step python) (owned agent.workerID t)
      (during state agent t job cancelled jobs (.executing config pass))
      (during state agent t job cancelled jobs (returned (ExecutorRun.loop python
        (.int job.timeoutSeconds) ⟨some fun _ => cancelled, elapsed⟩ config remaining pass).1)) := by
  induction remaining generalizing pass with
  | zero =>
      have after : ¬ pass ≤ config.steps := by omega
      have next : (⟨job, .executing config pass, cancelled⟩ : Thread).next python (elapsed pass) =
          some (.reporting ⟨true, config.steps, "", false⟩) := by
        simp only [Thread.next, boundary, if_neg after]
      exact turn_leads next (by simp) (.refl _)
  | succ remaining ih =>
      have stops : (⟨some fun _ => cancelled, elapsed⟩ : ExecutorRun.World).stops pass = cancelled := rfl
      rw [ExecutorRun.loop_boundary python _ config left, Nat.add_sub_cancel, stops]
      cases progress : boundary python config job.timeoutSeconds pass cancelled (elapsed pass) with
      | returned outcome =>
          have next : (⟨job, .executing config pass, cancelled⟩ : Thread).next python (elapsed pass) =
              some (.reporting outcome) := by simp only [Thread.next, progress]
          exact turn_leads next (by simp) (.refl _)
      | raised problem =>
          have next : (⟨job, .executing config pass, cancelled⟩ : Thread).next python (elapsed pass) =
              some (.crashed problem) := by simp only [Thread.next, progress]
          exact turn_leads next (by simp) (.refl _)
      | slept =>
          have next : (⟨job, .executing config pass, cancelled⟩ : Thread).next python (elapsed pass) =
              some (.executing config (pass + 1)) := by simp only [Thread.next, progress]
          have onward : pass + 1 + remaining = config.steps + 1 := by omega
          exact turn_leads next (by simp) (ih onward)

/-- A thread whose start was accepted calls the executor. -/
theorem accepted_leads (elapsed : Int → ℚ) :
    Leads (step python) (owned agent.workerID t)
      (during state agent t job cancelled jobs (.startedReply none))
      (during state agent t job cancelled jobs (returned (ExecutorRun.run python
        (.int job.timeoutSeconds) ⟨some fun _ => cancelled, elapsed⟩ job.command).1)) := by
  unfold ExecutorRun.run
  cases parsed : parseCommand python job.command with
  | error problem =>
      have next : (⟨job, .startedReply none, cancelled⟩ : Thread).next python 0 =
          some (.crashed problem) := by simp only [Thread.next, parsed]
      exact turn_leads next (by simp) (.refl _)
  | ok config =>
      have next : (⟨job, .startedReply none, cancelled⟩ : Thread).next python 0 =
          some (.executing config 1) := by simp only [Thread.next, parsed]
      have positive : 1 ≤ config.steps := parse_steps (by decide) parsed
      exact turn_leads next (by simp) (executing_leads elapsed (by omega))

theorem starting_leads {now : Time} {running : Job Cpu Mem} {jobs' : MemoryRepository Cpu Mem}
    (handled : handleReport jobs now ⟨.started, job.jobID, agent.workerID⟩ = (.ok running, jobs'))
    (elapsed : Int → ℚ) :
    Leads (step python) (owned agent.workerID t)
      (during state agent t job cancelled jobs .starting)
      (during state agent t job cancelled jobs' (returned (ExecutorRun.run python
        (.int job.timeoutSeconds) ⟨some fun _ => cancelled, elapsed⟩ job.command).1)) := by
  have next : (⟨job, .starting, cancelled⟩ : Thread).next python 0 = some .startedSent := rfl
  have own : owned agent.workerID t (.act agent.workerID (.deliver t now) : Label Cpu Mem) := ⟨rfl, rfl⟩
  exact turn_leads next (by simp) (.cons own (during_started handled) (accepted_leads elapsed))

/-- The outcome is reported and the thread leaves, whatever the answer. -/
theorem reporting_leads (now : Time) (outcome : Outcome) :
    Leads (step python) (owned agent.workerID t)
      (during state agent t job cancelled jobs (.reporting outcome))
      (departed state agent t job cancelled
        (handleReport jobs now ⟨finalKind outcome, job.jobID, agent.workerID⟩).2) := by
  have next : (⟨job, .reporting outcome, cancelled⟩ : Thread).next python 0 =
      some (.finalSent outcome) := rfl
  have leave : (⟨job, .finalReply, cancelled⟩ : Thread).next python 0 = some .ended := rfl
  have asks : owned agent.workerID t (.act agent.workerID (.deliver t now) : Label Cpu Mem) := ⟨rfl, rfl⟩
  have leaves : owned agent.workerID t (.act agent.workerID (.thread t 0) : Label Cpu Mem) := ⟨rfl, rfl⟩
  exact turn_leads next (by simp)
    (.cons asks during_reported (.cons leaves (during_leaves leave) (.refl _)))

end Steps

end Thread

/-! ### After a round -/

theorem standing_self {agent : Agent.State Cpu Mem} {t : Nat} {job : AssignedJob} {phase : Phase}
    {cancelled : Bool} (found : agent.threads t = some ⟨job, phase, cancelled⟩) :
    standing agent t job cancelled agent.jobs phase = agent := by
  have same : Function.update agent.threads t (some ⟨job, phase, cancelled⟩) = agent.threads := by
    rw [← found, Function.update_eq_self]
  simp only [standing, Agent.State.setThread, same]

def underway (started : Time) (job : Job Cpu Mem) : Job Cpu Mem :=
  { job with state := .running, startedAt := some started }

/-- What the reports of an execution make of the job. -/
def concluded (started finished : Time) (outcome : Outcome) (job : Job Cpu Mem) : Job Cpu Mem :=
  if outcome.success then
    { underway started job with state := .succeeded, completedAt := some finished }
  else applyFailureOrRetry (underway started job) outcome.failureReason finished

/-- An expected report is answered with the changed record. -/
theorem handleReport_expected {jobs : MemoryRepository Cpu Mem} {job job' : Job Cpu Mem}
    (found : jobs.find job.id = some job) (named : job.id ≠ "") {now : Time} {kind : Kind}
    (accepted : reportUpdate now kind job = .ok job') (workerID : String) :
    handleReport jobs now ⟨kind, job.id, workerID⟩ = (.ok job', jobs.put job.id job') := by
  have served : serve jobs now ⟨kind, job.id, workerID⟩ = (.ok job', jobs.put job.id job') := by
    rw [serve_update]
    exact update_stored found accepted
  rw [handleReport, if_neg named, served]

theorem unstopped_loop {python : Python} {timeout : ExecutorRun.Number} {elapsed : Int → ℚ}
    {config : Config} {remaining : Nat} {pass : Int} {outcome : Outcome}
    (ended : (ExecutorRun.loop python timeout ⟨some fun _ => false, elapsed⟩ config remaining pass).1 =
      .ok outcome) : outcome.stopped = false := by
  induction remaining generalizing pass with
  | zero =>
      cases ended
      rfl
  | succ remaining ih =>
      have goesOn : (⟨some fun _ => false, elapsed⟩ : ExecutorRun.World).stops pass = false := rfl
      rw [ExecutorRun.loop, ExecutorRun.body, goesOn, if_neg Bool.false_ne_true] at ended
      split at ended
      case h_1 returned =>
        split at returned
        · cases returned
          cases ended
          rfl
        · split at returned
          · cases returned
            cases ended
            rfl
          · split at returned <;> cases returned
      case h_2 => cases ended
      case h_3 => exact ih ended

theorem unstopped_run {python : Python} {timeout : ExecutorRun.Number} {elapsed : Int → ℚ}
    {command : List String} {outcome : Outcome}
    (ended : (ExecutorRun.run python timeout ⟨some fun _ => false, elapsed⟩ command).1 = .ok outcome) :
    outcome.stopped = false := by
  unfold ExecutorRun.run at ended
  split at ended
  · cases ended
  · exact unstopped_loop ended

/-- The report of an outcome that is no stop is accepted for a running job. -/
theorem concluding_update (started finished : Time) {outcome : Outcome} (job : Job Cpu Mem)
    (goesOn : outcome.stopped = false) :
    reportUpdate finished (finalKind outcome) (underway started job) =
      .ok (concluded started finished outcome job) := by
  unfold finalKind concluded
  cases outcome.success with
  | true => rfl
  | false =>
      rw [goesOn]
      rfl

/-- The two reports of an execution leave the job as it concluded. -/
theorem concluded_stores {jobs : MemoryRepository Cpu Mem} {job : Job Cpu Mem} (named : job.id ≠ "")
    {started finished : Time} {outcome : Outcome} (goesOn : outcome.stopped = false) (workerID : String) :
    Stores jobs (handleReport (jobs.put job.id (underway started job)) finished
      ⟨finalKind outcome, job.id, workerID⟩).2 job.id (concluded started finished outcome job) := by
  have current : (jobs.put job.id (underway started job)).find (underway started job).id =
      some (underway started job) := by
    rw [find_put]
    exact if_pos rfl
  have reported : handleReport (jobs.put job.id (underway started job)) finished
      ⟨finalKind outcome, job.id, workerID⟩ = (.ok (concluded started finished outcome job),
        (jobs.put job.id (underway started job)).put job.id (concluded started finished outcome job)) :=
    handleReport_expected current named (concluding_update started finished job goesOn) workerID
  intro id
  rw [reported, find_put, find_put]
  by_cases own : id = job.id
  · rw [if_pos own, if_pos own]
  · rw [if_neg own, if_neg own, if_neg own]

section Fleet
variable [Zero Cpu] [LT Cpu] [DecidableLT Cpu] [Zero Mem] [LT Mem] [DecidableLT Mem]

/-- An undisturbed round has brought the process here. -/
structure Rounded (python : Python) (state : State Cpu Mem) (workerID : String)
    (agent : Agent.State Cpu Mem) : Prop where
  reached : ∃ count, run (step python) state (List.replicate count (.act workerID .loop)) =
    some (state.setAgent workerID agent)
  worker : agent.workerID = workerID
  jobs : agent.jobs = state.jobs

section Reachable
variable {python : Python} {state : State Cpu Mem} {workerID : String} {agent : Agent.State Cpu Mem}

theorem round_rounded (sound : Sound state) (running : state.processes workerID = .running agent)
    (asleep : agent.loop = .sleeping) :
    Rounded python state workerID (round { agent with jobs := state.jobs }) := by
  obtain ⟨count, rounded⟩ : ∃ count, run (step python) state
      (List.replicate count (.act workerID .loop)) =
        some (state.setAgent workerID (round { agent with jobs := state.jobs })) :=
    round_run running asleep
  have sound' := run_invariant step_sound rounded sound
  exact ⟨⟨count, rounded⟩, sound'.named workerID _ (setAgent_running ..),
    round_jobs (sound_listed sound running)⟩

/-- The thread goes on from where the round left it. -/
theorem rounded_then (rounded : Rounded python state workerID agent) {t : Nat} {job : AssignedJob}
    {phase : Phase} {cancelled : Bool} {final : State Cpu Mem}
    (found : agent.threads t = some ⟨job, phase, cancelled⟩)
    (onward : Leads (step python) (owned workerID t)
      (during state agent t job cancelled state.jobs phase) final) :
    ∃ count acts, (∀ label ∈ acts, owned workerID t label) ∧
      run (step python) state (List.replicate count (.act workerID .loop) ++ acts) = some final := by
  obtain ⟨count, reached⟩ := rounded.reached
  obtain ⟨acts, own, ran⟩ := onward
  have self : standing agent t job cancelled state.jobs phase = agent := rounded.jobs ▸ standing_self found
  refine ⟨count, acts, own, ?_⟩
  rw [run_append reached, ← ran, during, self, rounded.worker]

end Reachable

/-- After `waitingLabels` job-2 is offered and has no thread. -/
def pending (state : State Int Int) : Bool :=
  match state.processes "worker-1" with
  | .running agent =>
      (agent.runningJobs "job-2").isNone &&
      (listAssignedToWorker state.jobs "worker-1").any fun job =>
        job.id = "job-2" && job.command = ["sleep", "10"] && job.timeoutSeconds = 0
  | _ => false

structure Pending (state : State Int Int) (agent : Agent.State Int Int) (offered : Job Int Int) :
    Prop where
  running : state.processes "worker-1" = .running agent
  asleep : agent.loop = .sleeping
  idle : agent.runningJobs "job-2" = none
  listed : offered ∈ listAssignedToWorker state.jobs "worker-1"
  named : offered.id = "job-2"
  command : offered.command = ["sleep", "10"]
  timeout : offered.timeoutSeconds = 0

theorem waitingLabels_pending : ∃ state agent offered,
    run (step plainPython) State.start waitingLabels = some state ∧ Pending state agent offered := by
  have reached : (run (step plainPython) State.start waitingLabels).any
      (fun state => asleep state "worker-1" && pending state) = true := by
    decide +kernel
  obtain ⟨state, ran, holds⟩ := (Option.any_eq_true _ _).mp reached
  obtain ⟨sleeps, holds⟩ := Bool.and_eq_true_iff.mp holds
  obtain ⟨agent, running, sleeping⟩ := asleep_agent sleeps
  simp only [pending, running, Bool.and_eq_true, List.any_eq_true, decide_eq_true_eq,
    Option.isNone_iff_eq_none] at holds
  obtain ⟨idle, offered, listed, ⟨named, command⟩, timeout⟩ := holds
  exact ⟨state, agent, offered, ran, running, sleeping, idle, listed, named, command, timeout⟩

/-- A job that is scheduled on a worker without a thread for it goes through the next
round and its own thread to the end of its executor. If that returned, the store has the
job as it reported it and the agent has forgotten it. If it raised, the job stays RUNNING
and the dead thread stays in `running_jobs`. -/
theorem offered_job_concludes (python : Python) (labels : List (Label Cpu Mem)) (state : State Cpu Mem)
    (ran : run (step python) State.start labels = some state) (workerID : String)
    (agent : Agent.State Cpu Mem) (running : state.processes workerID = .running agent)
    (asleep : agent.loop = .sleeping) (job : Job Cpu Mem) (named : job.id ≠ "")
    (offered : job ∈ listAssignedToWorker state.jobs workerID)
    (idle : agent.runningJobs job.id = none) (elapsed : Int → ℚ) (started finished : Time) :
    ∃ count t acts final agent', (∀ label ∈ acts, owned workerID t label) ∧
      run (step python) state (List.replicate count (.act workerID .loop) ++ acts) = some final ∧
      final.processes = Function.update state.processes workerID (.running agent') ∧
      final.inFlight = state.inFlight ∧ agent'.cancelEvents = agent'.runningJobs ∧
      match (ExecutorRun.run python (.int job.timeoutSeconds) ⟨some fun _ => false, elapsed⟩
        job.command).1 with
      | .ok outcome => Stores state.jobs final.jobs job.id (concluded started finished outcome job) ∧
          agent'.runningJobs job.id = none
      | .error problem =>
          Stores state.jobs final.jobs job.id (underway started job) ∧
          agent'.runningJobs job.id = some t ∧
          agent'.threads t = some ⟨.of job, .crashed problem, false⟩ := by
  have sound : Sound state := run_invariant step_sound ran start_sound
  have offered' : job ∈ listAssignedToWorker state.jobs agent.workerID :=
    sound.named workerID agent running ▸ offered
  have rounded : Rounded python state workerID (round { agent with jobs := state.jobs }) :=
    round_rounded sound running asleep
  obtain ⟨stored, scheduled, -⟩ := offered_held sound.tidy offered
  obtain ⟨t, -, known, found⟩ : ∃ t, agent.threads t = none ∧
      (round { agent with jobs := state.jobs }).runningJobs job.id = some t ∧
      (round { agent with jobs := state.jobs }).threads t = some ⟨.of job, .starting, false⟩ :=
    offered_thread sound.tidy (sound_listed sound running) offered' idle
  generalize HeartbeatRound.round { agent with jobs := state.jobs } = agent' at rounded known found
  obtain rfl : agent'.workerID = workerID := rounded.worker
  have mirrored : ∀ {acts : List (Label Cpu Mem)} {jobs : MemoryRepository Cpu Mem}
      {last : Agent.State Cpu Mem}, run (step python) state acts =
        some ({ state with jobs := jobs }.setAgent agent'.workerID last) →
      last.cancelEvents = last.runningJobs := by
    intro acts jobs last reached
    have after := run_invariant step_sound reached sound
    exact (after.registered agent'.workerID last (setAgent_running ..)).mirrored
  have begun : reportUpdate started .started job = .ok (underway started job) := if_pos scheduled
  have starts : Leads (step python) (owned agent'.workerID t)
      (during state agent' t (.of job) false state.jobs .starting)
      (during state agent' t (.of job) false (state.jobs.put job.id (underway started job))
        (returned (ExecutorRun.run python (.int job.timeoutSeconds) ⟨some fun _ => false, elapsed⟩
          job.command).1)) :=
    starting_leads (handleReport_expected stored named begun agent'.workerID) elapsed
  cases ended : (ExecutorRun.run python (.int job.timeoutSeconds) ⟨some fun _ => false, elapsed⟩
      job.command).1 with
  | error problem =>
      rw [ended] at starts
      obtain ⟨count, acts, own, reached⟩ := rounded_then rounded found starts
      exact ⟨count, t, acts, _, _, own, reached, rfl, rfl, mirrored reached, put_stores _ _ _, known,
        Function.update_self ..⟩
  | ok outcome =>
      rw [ended] at starts
      obtain ⟨count, acts, own, reached⟩ := rounded_then rounded found
        (starts.trans (reporting_leads finished outcome))
      exact ⟨count, t, acts, _, _, own, reached, rfl, rfl, mirrored reached,
        concluded_stores named (unstopped_run ended) agent'.workerID, Function.update_self ..⟩

theorem waitingLabels_concluded : ∃ state count acts final offered,
    run (step plainPython) State.start waitingLabels = some state ∧ offered.id = "job-2" ∧
      run (step plainPython) state (List.replicate count (.act "worker-1" .loop) ++ acts) = some final ∧
      Stores state.jobs final.jobs "job-2" (concluded 6 7 ⟨true, 5, "", false⟩ offered) := by
  obtain ⟨state, agent, offered, ran, pends⟩ := waitingLabels_pending
  obtain ⟨count, t, acts, final, agent', -, reached, -, -, -, ended⟩ :=
    offered_job_concludes plainPython waitingLabels state ran "worker-1" agent pends.running pends.asleep
      offered (by simp [pends.named]) pends.listed (by rw [pends.named, pends.idle]) (fun _ => 0) 6 7
  have succeeds : (ExecutorRun.run plainPython (.int 0) ⟨some fun _ => false, fun _ => 0⟩
      ["sleep", "10"]).1 = .ok ⟨true, 5, "", false⟩ := by
    decide +kernel
  rw [pends.command, pends.timeout, succeeds] at ended
  exact ⟨state, count, acts, final, offered, ran, pends.named, reached, pends.named ▸ ended.1⟩

end Fleet

end OrionQueue.Execution
