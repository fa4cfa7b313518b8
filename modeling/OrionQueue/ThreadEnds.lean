import OrionQueue.JobThreads

/-!
How a job thread ends. Beside the agent, `Watched` keeps what each thread has done:
the reports it attempted, the answers it got, and whether it called the executor. A
thread that returns has left both tables and has attempted one last report, unless
its start was refused. An exception of the executor is caught by nobody: the thread
dies with its entries in the tables and the job is never reported.
-/

namespace OrionQueue.ThreadEnds

open Reports Executor AgentRegistry JobThreads Runs
open Agent hiding step Label

variable {Cpu Mem : Type}

inductive Event where
  | attempted (kind : Kind)
  | answered (problem : Option Status)
  | ran
  deriving DecidableEq

structure Watched (Cpu Mem : Type) where
  agent : State Cpu Mem
  log : Nat → List Event

def Watched.start (workerID : String) : Watched Cpu Mem := ⟨State.start workerID, fun _ => []⟩

/-- What a thread does by the step it takes out of a phase. -/
def noted : Phase → List Event
  | .starting => [.attempted .started]
  | .startedReply (some ⟨.failedPrecondition, _⟩) => []
  | .startedReply _ => [.ran]
  | .reporting outcome => [.attempted (finalKind outcome)]
  | _ => []

def Watched.record (watched : Watched Cpu Mem) : Label → Nat → List Event
  | .thread t _ => Function.update watched.log t
      (watched.log t ++ (watched.agent.threads t).elim [] fun thread => noted thread.phase)
  | .reply t problem => Function.update watched.log t (watched.log t ++ [.answered problem])
  | _ => watched.log

def Watched.step (python : Python) (watched : Watched Cpu Mem) (label : Label) :
    Option (Watched Cpu Mem) :=
  (JobThreads.step python watched.agent label).map fun agent => ⟨agent, watched.record label⟩

/-- `_execute` has returned or raised. -/
def finished : Phase → Bool
  | .ended | .crashed _ => true
  | _ => false

def startRefused : List Event → Bool
  | .attempted .started :: .answered (some ⟨.failedPrecondition, _⟩) :: _ => true
  | _ => false

/-- The attempts at report_completed, report_failed and report_stopped. -/
def finals (log : List Event) : List Kind :=
  log.filterMap fun
    | .attempted .started => none
    | .attempted kind => some kind
    | _ => none

structure CleanEnd (watched : Watched Cpu Mem) (t : Nat) (jobID : String) : Prop where
  unlisted : watched.agent.runningJobs jobID = none
  forgotten : watched.agent.cancelEvents jobID = none
  reported : if startRefused (watched.log t) then Event.ran ∉ watched.log t ∧ finals (watched.log t) = []
    else (finals (watched.log t)).length = 1

/-- Every thread of the job ends cleanly, in every run. -/
def EndsCleanly (Cpu Mem : Type) (python : Python) (workerID : String) (job : AssignedJob) : Prop :=
  ∀ (labels : List Label) (watched next : Watched Cpu Mem) (label : Label) (t : Nat)
    (thread thread' : Thread),
    run (Watched.step python) (Watched.start workerID) labels = some watched →
    Watched.step python watched label = some next →
    watched.agent.threads t = some thread → finished thread.phase = false →
    next.agent.threads t = some thread' → finished thread'.phase = true → thread'.job = job →
      CleanEnd next t job.jobID

/-- The command is parsed, and the executor returns before its first sleep or is
able to sleep. -/
def executable (python : Python) (command : List String) : Bool :=
  match parseCommand python command with
  | .error _ => false
  | .ok config => (python.sleep config.stepSeconds).isOk || config.failAtStep = some 1

/-! ### The executor -/

/-- The first pass of the loop raises where the command is no command for it. -/
theorem boundary_first {python : Python} {config : Config} {timeoutSeconds : Int} {error : String}
    (positive : 1 ≤ config.steps) (sleepless : python.sleep config.stepSeconds = .error error)
    (goesOn : config.failAtStep ≠ some 1) :
    boundary python config timeoutSeconds 1 false 0 = .raised error := by
  have inTime : ¬ (0 < timeoutSeconds ∧ (timeoutSeconds : ℚ) < 0) := by
    rintro ⟨late, early⟩
    have negative : timeoutSeconds < 0 := by exact_mod_cast early
    omega
  rw [boundary, if_pos positive, if_neg Bool.false_ne_true, if_neg goesOn, if_neg inTime, sleepless]

/-! ### What a thread has done when it is in a phase -/

def Refused (log : List Event) : Prop :=
  ∃ message, log = [.attempted .started, .answered (some ⟨.failedPrecondition, message⟩)]

def Entered (log : List Event) : Prop :=
  ∃ problem : Option Status, (∀ status ∈ problem, status.code ≠ .failedPrecondition) ∧
    log = [.attempted .started, .answered problem, .ran]

def Concluded (log : List Event) : Prop :=
  ∃ before outcome problem, Entered before ∧
    log = before ++ [.attempted (finalKind outcome), .answered problem]

def Traced (python : Python) (thread : Thread) (log : List Event) : Prop :=
  match thread.phase with
  | .starting => log = []
  | .startedSent => log = [.attempted .started]
  | .startedReply problem => log = [.attempted .started, .answered problem]
  | .executing config pass => Entered log ∧ parseCommand python thread.job.command = .ok config ∧
      (pass = 1 ∨ python.sleep config.stepSeconds = .ok ())
  | .reporting _ => Entered log
  | .finalSent outcome => ∃ before, Entered before ∧ log = before ++ [.attempted (finalKind outcome)]
  | .finalReply => Concluded log
  | .ended => Refused log ∨ Concluded log
  | .crashed _ => executable python thread.job.command = false

theorem refused_log {log : List Event} (refused : Refused log) :
    startRefused log = true ∧ Event.ran ∉ log ∧ finals log = [] := by
  obtain ⟨message, rfl⟩ := refused
  simp [startRefused, finals]

theorem finals_append (left right : List Event) : finals (left ++ right) = finals left ++ finals right :=
  List.filterMap_append

theorem finals_final (outcome : Outcome) (problem : Option Status) :
    finals [.attempted (finalKind outcome), .answered problem] = [finalKind outcome] := by
  cases kind : finalKind outcome with
  | started => exact absurd kind (finalKind_final outcome)
  | _ => rfl

theorem concluded_log {log : List Event} (concluded : Concluded log) :
    startRefused log = false ∧ (finals log).length = 1 := by
  obtain ⟨_, outcome, answer, ⟨problem, other, rfl⟩, rfl⟩ := concluded
  constructor
  · cases problem with
    | none => rfl
    | some status =>
        obtain ⟨code, message⟩ := status
        have different : code ≠ .failedPrecondition := other _ rfl
        cases code <;> first | rfl | exact absurd rfl different
  · rw [finals_append, finals_final]
    rfl

/-- A start that was not refused is followed by the call of the executor. -/
theorem entry_noted {problem : Option Status}
    (accepted : ∀ message, problem ≠ some ⟨.failedPrecondition, message⟩) :
    Entered ([.attempted .started, .answered problem] ++ noted (.startedReply problem)) := by
  refine ⟨problem, ?_, ?_⟩
  · rintro ⟨code, message⟩ isProblem refused
    obtain rfl := refused
    exact accepted message isProblem
  · unfold noted
    split <;> simp_all

/-- The executor raises only in its first pass: a second one means that the first slept. -/
theorem raised_unexecutable {python : Python} {command : List String} {config : Config}
    {timeoutSeconds step : Int} {stop : Bool} {elapsed : ℚ} {error : String}
    (parsed : parseCommand python command = .ok config)
    (first : step = 1 ∨ python.sleep config.stepSeconds = .ok ())
    (raised : boundary python config timeoutSeconds step stop elapsed = .raised error) :
    executable python command = false := by
  obtain ⟨sleepless, goesOn⟩ := boundary_raised raised
  obtain rfl : step = 1 := first.resolve_right (by simp [sleepless])
  simp [executable, parsed, sleepless, goesOn, Except.isOk, Except.toBool]

theorem next_traced {python : Python} {elapsed : ℚ} {thread : Thread} {phase : Phase}
    {log : List Event} (traced : Traced python thread log)
    (next : thread.next python elapsed = some phase) :
    Traced python { thread with phase := phase } (log ++ noted thread.phase) := by
  unfold Traced at traced
  unfold Thread.next at next
  split at next <;> rename_i was
  case h_1 =>
    cases next
    simp only [was] at traced
    simp [Traced, traced, was, noted]
  case h_2 message =>
    cases next
    simp only [was] at traced
    exact Or.inl ⟨message, by simp [traced, was, noted]⟩
  case h_3 problem accepted =>
    simp only [was] at traced
    have entered : Entered (log ++ noted thread.phase) := by
      rw [traced, was]
      exact entry_noted accepted
    split at next <;> cases next
    · rename_i unreadable
      simp [Traced, executable, unreadable]
    · rename_i config parsed
      exact ⟨entered, parsed, Or.inl rfl⟩
  case h_4 config step =>
    simp only [was] at traced
    obtain ⟨entered, parsed, first⟩ := traced
    have same : log ++ noted thread.phase = log := by simp [was, noted]
    rw [same]
    split at next <;> cases next
    · exact entered
    · rename_i raised
      exact raised_unexecutable parsed first raised
    · rename_i slept
      exact ⟨entered, parsed, Or.inr (boundary_slept slept)⟩
  case h_5 outcome =>
    cases next
    simp only [was] at traced
    exact ⟨log, traced, by simp [was, noted]⟩
  case h_6 =>
    cases next
    simp only [was] at traced
    exact Or.inr (by simpa [was, noted] using traced)
  all_goals cases next

theorem replied_traced {python : Python} {thread : Thread} {phase : Phase}
    {problem : Option Status} {log : List Event} (traced : Traced python thread log)
    (answer : replied problem thread.phase = some phase) :
    Traced python { thread with phase := phase } (log ++ [.answered problem]) := by
  unfold Traced at traced
  cases was : thread.phase <;> simp only [was, replied, Option.some.injEq, reduceCtorEq] at answer
  case startedSent =>
    subst answer
    simp only [was] at traced
    simp [Traced, traced]
  case finalSent outcome =>
    subst answer
    simp only [was] at traced
    obtain ⟨before, entered, rfl⟩ := traced
    exact ⟨before, outcome, problem, entered, by simp⟩

/-! ### Whole runs -/

structure AllTraced (python : Python) (watched : Watched Cpu Mem) : Prop where
  traced : ∀ t thread, watched.agent.threads t = some thread → Traced python thread (watched.log t)
  silent : ∀ t, watched.agent.threads t = none → watched.log t = []

theorem start_traced (python : Python) (workerID : String) :
    AllTraced python (Watched.start workerID : Watched Cpu Mem) :=
  ⟨fun t thread found => by simp [Watched.start, State.start] at found, fun _ _ => rfl⟩

theorem turned_threads (state : State Cpu Mem) (t : Nat) (thread : Thread) (phase : Phase)
    (other : Nat) : (turned state t thread phase).threads other =
      if other = t then some { thread with phase := phase } else state.threads other := by
  unfold turned
  split <;> exact Function.update_apply _ _ _ _

/-- One thread writes its log, and the others are where they were. -/
theorem own_traced {python : Python} {watched : Watched Cpu Mem} {agent : State Cpu Mem} {t : Nat}
    {thread' : Thread} {events : List Event} (traced : AllTraced python watched)
    (threads : ∀ other, agent.threads other =
      if other = t then some thread' else watched.agent.threads other)
    (own : Traced python thread' (watched.log t ++ events)) :
    AllTraced python ⟨agent, Function.update watched.log t (watched.log t ++ events)⟩ := by
  constructor
  · intro other current found
    simp only [threads other] at found
    by_cases same : other = t
    · subst same
      rw [if_pos rfl] at found
      obtain rfl := Option.some.inj found
      simpa using own
    · rw [if_neg same] at found
      simpa [same] using traced.traced other current found
  · intro other missing
    simp only [threads other] at missing
    by_cases same : other = t
    · simp [same] at missing
    · rw [if_neg same] at missing
      simpa [same] using traced.silent other missing

theorem loop_traced {python : Python} {watched : Watched Cpu Mem} {agent : State Cpu Mem}
    (registered : Registered watched.agent) (traced : AllTraced python watched)
    (effect : LoopEffect watched.agent agent) : AllTraced python ⟨agent, watched.log⟩ := by
  cases effect with
  | goesOn loop => exact ⟨traced.traced, traced.silent⟩
  | @spawns job rest stops spawning =>
      constructor
      · intro t thread found
        have found' : (watched.agent.spawn job).threads t = some thread := found
        rw [spawn_threads] at found'
        split at found'
        · rename_i new
          cases found'
          exact traced.silent t (registered.fresh t (le_of_eq new.symm))
        · exact traced.traced t thread found'
      · intro t missing
        have missing' : (watched.agent.spawn job).threads t = none := missing
        rw [spawn_threads] at missing'
        split at missing'
        · cases missing'
        · exact traced.silent t missing'
  | signals t stops =>
      constructor
      · intro other thread found
        obtain ⟨before, known, job, phase, _⟩ := signal_threads found
        have own := traced.traced other before known
        unfold Traced at own ⊢
        rw [job, phase]
        exact own
      · intro other missing
        refine traced.silent other ?_
        cases known : watched.agent.threads other with
        | none => rfl
        | some before =>
            obtain ⟨thread, found, _⟩ := signal_found t known
            exact absurd (found.symm.trans missing) (by simp)

theorem step_traced {python : Python} (watched : Watched Cpu Mem) (label : Label)
    (next : Watched Cpu Mem)
    (before : (Registered watched.agent ∧ Live watched.agent) ∧ AllTraced python watched)
    (stepped : Watched.step python watched label = some next) :
    (Registered next.agent ∧ Live next.agent) ∧ AllTraced python next := by
  obtain ⟨listed, traced⟩ := before
  obtain ⟨agent, moved, rfl⟩ := Option.map_eq_some_iff.mp stepped
  refine ⟨step_listed watched.agent label agent listed moved, ?_⟩
  cases step_effect moved with
  | response | unanswered => exact ⟨traced.traced, traced.silent⟩
  | loop => exact loop_traced listed.1 traced (loopStep_effect watched.agent)
  | @thread t elapsed thread phase found turns =>
      have own := next_traced (traced.traced t thread found) turns
      simp only [Watched.record, found, Option.elim_some]
      exact own_traced traced (turned_threads watched.agent t thread phase) own
  | @reply t problem thread phase found answer =>
      have own := replied_traced (traced.traced t thread found) answer
      exact own_traced traced (fun other => Function.update_apply _ _ _ _) own

theorem run_traced {python : Python} {workerID : String} {labels : List Label}
    {watched : Watched Cpu Mem}
    (ran : run (Watched.step python) (Watched.start workerID) labels = some watched) :
    (Registered watched.agent ∧ Live watched.agent) ∧ AllTraced python watched :=
  run_invariant step_traced ran
    ⟨⟨start_registered workerID, fun _ _ _ listed => by cases listed⟩, start_traced python workerID⟩

theorem replied_unfinished {problem : Option Status} {phase phase' : Phase}
    (answer : replied problem phase = some phase') : finished phase' = false := by
  cases phase <;> simp only [replied, Option.some.injEq, reduceCtorEq] at answer <;> subst answer <;> rfl

/-- The loop moves no thread that is there. -/
theorem loop_phase {state after : State Cpu Mem} (registered : Registered state)
    (effect : LoopEffect state after) {t : Nat} {thread thread' : Thread}
    (found : state.threads t = some thread) (found' : after.threads t = some thread') :
    thread'.phase = thread.phase := by
  cases effect with
  | goesOn loop => rw [Option.some.inj (found.symm.trans found')]
  | @spawns job rest stops spawning =>
      have spawned : (state.spawn job).threads t = some thread' := found'
      rw [spawn_threads] at spawned
      split at spawned
      · rename_i new
        have missing := registered.fresh t (le_of_eq new.symm)
        rw [found] at missing
        cases missing
      · rw [Option.some.inj (found.symm.trans spawned)]
  | signals other stops =>
      obtain ⟨before, known, _, phase, _⟩ := signal_threads found'
      rw [phase, Option.some.inj (found.symm.trans known)]

/-- A thread gets to its end by a step of its own. -/
theorem finishing_step {python : Python} {state next : State Cpu Mem} (registered : Registered state)
    {label : Label} {t : Nat} {thread thread' : Thread}
    (stepped : step python state label = some next)
    (found : state.threads t = some thread) (busy : finished thread.phase = false)
    (found' : next.threads t = some thread') (isOver : finished thread'.phase = true) :
    next = turned state t thread thread'.phase := by
  -- Every other step leaves the thread in its phase, or in one that is not its end.
  have unmoved : thread'.phase ≠ thread.phase := by
    intro same
    rw [same, busy] at isOver
    cases isOver
  cases step_effect stepped with
  | response | unanswered =>
      obtain rfl := Option.some.inj (found.symm.trans found')
      exact absurd rfl unmoved
  | loop => exact absurd (loop_phase registered (loopStep_effect state) found found') unmoved
  | @thread other elapsed mover phase known turns =>
      rw [turned_threads] at found'
      split at found'
      · rename_i same
        subst same
        obtain rfl := Option.some.inj (found.symm.trans known)
        obtain rfl := Option.some.inj found'
        rfl
      · exact absurd (by rw [Option.some.inj (found.symm.trans found')]) unmoved
  | @reply other problem mover phase known answer =>
      have moved : (if t = other then some { mover with phase := phase } else state.threads t) =
          some thread' := (Function.update_apply _ _ _ _).symm.trans found'
      split at moved
      · obtain rfl := Option.some.inj moved
        rw [replied_unfinished answer] at isOver
        cases isOver
      · exact absurd (by rw [Option.some.inj (found.symm.trans moved)]) unmoved

/-- The start is accepted, and nobody stops the job. -/
def undisturbedLabels (job : AssignedJob) : List Label :=
  [.loop, .response [job] [], .loop, .loop, .thread 0 0, .reply 0 none]

theorem undisturbed_run (python : Python) (workerID : String) (job : AssignedJob) :
    ∃ watched : Watched Cpu Mem,
      run (Watched.step python) (Watched.start workerID) (undisturbedLabels job) = some watched ∧
      watched.agent.threads 0 = some ⟨job, .startedReply none, false⟩ ∧
      watched.agent.runningJobs job.jobID = some 0 := by
  refine ⟨_, rfl, ?_, ?_⟩
  · rfl
  · simp [State.loopStep, State.setThread, Watched.start, State.start, State.spawn]

theorem turn_step {python : Python} {watched : Watched Cpu Mem} {t : Nat} {thread : Thread}
    {phase : Phase} (found : watched.agent.threads t = some thread)
    (next : thread.next python 0 = some phase) (live : phase.exited = false) :
    ∃ after : Watched Cpu Mem, Watched.step python watched (.thread t 0) = some after ∧
      after.agent.threads t = some { thread with phase := phase } ∧
      after.agent.runningJobs = watched.agent.runningJobs := by
  have stepped : step python watched.agent (.thread t 0) =
      some (watched.agent.setThread t { thread with phase := phase }) := by
    simp only [step, State.threadStep, found, next]
    cases phase with
    | ended => cases live
    | _ => rfl
  refine ⟨⟨watched.agent.setThread t { thread with phase := phase }, watched.record (.thread t 0)⟩,
    ?_, Function.update_self _ _ _, rfl⟩
  rw [Watched.step, stepped, Option.map_some]

theorem turned_ended (state : State Cpu Mem) (t : Nat) (thread : Thread) :
    (turned state t thread .ended).runningJobs thread.job.jobID = none ∧
      (turned state t thread .ended).cancelEvents thread.job.jobID = none := by
  simp [turned, Phase.exited, State.pop]

/-- Where the command is no command for the executor, an accepted start ends in an
exception, and the tables keep the thread. -/
theorem crash_run (python : Python) (workerID : String) (job : AssignedJob)
    (unexecutable : executable python job.command = false) :
    ∃ (labels : List Label) (watched next : Watched Cpu Mem) (thread thread' : Thread),
      run (Watched.step python) (Watched.start workerID) labels = some watched ∧
      Watched.step python watched (.thread 0 0) = some next ∧
      watched.agent.threads 0 = some thread ∧ finished thread.phase = false ∧
      next.agent.threads 0 = some thread' ∧ finished thread'.phase = true ∧ thread'.job = job ∧
      next.agent.runningJobs job.jobID = some 0 := by
  obtain ⟨first, ran, found, listed⟩ : ∃ watched : Watched Cpu Mem,
      run (Watched.step python) (Watched.start workerID) (undisturbedLabels job) = some watched ∧
      watched.agent.threads 0 = some ⟨job, .startedReply none, false⟩ ∧
      watched.agent.runningJobs job.jobID = some 0 := undisturbed_run python workerID job
  cases parsed : parseCommand python job.command with
  | error problem =>
      have crash : (⟨job, .startedReply none, false⟩ : Thread).next python 0 =
          some (.crashed problem) := by simp [Thread.next, parsed]
      obtain ⟨next, stepped, found', same⟩ := turn_step found crash rfl
      exact ⟨_, first, next, _, _, ran, stepped, found, rfl, found', rfl, rfl, same ▸ listed⟩
  | ok config =>
      obtain ⟨sleepless, goesOn⟩ : (python.sleep config.stepSeconds).isOk = false ∧
          config.failAtStep ≠ some 1 := by simpa [executable, parsed] using unexecutable
      obtain ⟨problem, raises⟩ : ∃ problem, python.sleep config.stepSeconds = .error problem := by
        cases slept : python.sleep config.stepSeconds with
        | error problem => exact ⟨problem, rfl⟩
        | ok _ => simp [slept, Except.isOk, Except.toBool] at sleepless
      have enter : (⟨job, .startedReply none, false⟩ : Thread).next python 0 =
          some (.executing config 1) := by simp [Thread.next, parsed]
      have crash : (⟨job, .executing config 1, false⟩ : Thread).next python 0 =
          some (.crashed problem) := by
        have positive : 1 ≤ config.steps := parse_steps (by decide) parsed
        simp [Thread.next, boundary_first positive raises goesOn]
      obtain ⟨second, entered, found', same⟩ := turn_step found enter rfl
      obtain ⟨third, stepped, found'', same'⟩ := turn_step found' crash rfl
      refine ⟨undisturbedLabels job ++ [.thread 0 0], second, third, _, _, ?_, stepped, found', rfl,
        found'', rfl, rfl, ?_⟩
      · rw [run_append ran, run, entered]
        rfl
      · rw [same', same, listed]

theorem thread_ends_cleanly_iff (python : Python) (workerID : String) (job : AssignedJob) :
    EndsCleanly Cpu Mem python workerID job ↔ executable python job.command = true := by
  constructor
  · intro clean
    by_contra unexecutable
    obtain ⟨labels, watched, next, thread, thread', ran, stepped, found, busy, found', isOver, isJob,
      listed⟩ := @crash_run Cpu Mem python workerID job (by simpa using unexecutable)
    have unlisted :=
      (clean labels watched next _ 0 thread thread' ran stepped found busy found' isOver isJob).unlisted
    rw [listed] at unlisted
    cases unlisted
  · rintro runnable labels watched next label t thread thread' ran stepped found busy found' isOver rfl
    have traced := (step_traced watched label next (run_traced ran) stepped).2.traced t thread' found'
    obtain ⟨agent, moved, rfl⟩ := Option.map_eq_some_iff.mp stepped
    have turn := finishing_step (run_traced ran).1.1 moved found busy found' isOver
    have job : thread'.job = thread.job := by
      rw [turn, turned_threads, if_pos rfl] at found'
      rw [← Option.some.inj found']
    unfold Traced at traced
    cases phase : thread'.phase <;> simp only [phase, finished, Bool.false_eq_true] at isOver
    case crashed error =>
      simp only [phase] at traced
      rw [runnable] at traced
      cases traced
    case ended =>
      simp only [phase] at traced
      rw [phase] at turn
      obtain ⟨unlisted, forgotten⟩ := turned_ended watched.agent t thread
      rw [← turn, ← job] at unlisted forgotten
      refine ⟨unlisted, forgotten, ?_⟩
      rcases traced with refused | concluded
      · obtain ⟨isRefused, silent, none⟩ := refused_log refused
        rw [if_pos isRefused]
        exact ⟨silent, none⟩
      · obtain ⟨accepted, one⟩ := concluded_log concluded
        rw [if_neg (by simp [accepted])]
        exact one

/-- Enough of Python to read a single digit. -/
def digitPython : Python where
  int raw :=
    match raw.toList with
    | [digit] => if digit.isDigit then some (digit.toNat - '0'.toNat) else none
    | _ => none
  float _ := none
  repr raw := "'" ++ raw ++ "'"
  formatFloat _ := ""
  sleep _ := .ok ()

def misspelledJob : AssignedJob := ⟨"job-1", ["--steps=three"], 60⟩

/-- The job was accepted, offered and started. Its thread dies on the command, without
a report, and the tables list it for good. -/
theorem misspelledJob_never_reported : ∃ (watched : Watched Int Int) (thread : Thread),
    run (Watched.step digitPython) (Watched.start "worker-1")
      (undisturbedLabels misspelledJob ++ [.thread 0 0]) = some watched ∧
    watched.agent.threads 0 = some thread ∧ thread.job = misspelledJob ∧
    thread.phase = .crashed "invalid integer for --steps: 'three'" ∧
    watched.agent.runningJobs "job-1" = some 0 ∧ watched.agent.cancelEvents "job-1" = some 0 ∧
    watched.log 0 = [.attempted .started, .answered none, .ran] ∧
    startRefused (watched.log 0) = false ∧ finals (watched.log 0) = [] := by
  refine ⟨_, ⟨misspelledJob, .crashed "invalid integer for --steps: 'three'", false⟩, rfl, ?_⟩
  exact ⟨rfl, rfl, rfl, rfl, rfl, rfl, rfl, rfl⟩

end OrionQueue.ThreadEnds
