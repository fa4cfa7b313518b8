import OrionQueue.Agent

/-!
The tables of the agent. `running_jobs` and `cancel_events` list exactly the
threads whose clean-up has not run, each under the job it executes, so a job has
at most one such thread. This holds in every run, whatever the server answers and
however the executor ends.
-/

namespace OrionQueue.AgentRegistry

open Jobs JobStore MemoryRepository JobService Reports Executor Agent Runs

variable {Cpu Mem : Type}

structure Registered (state : State Cpu Mem) : Prop where
  mirrored : state.cancelEvents = state.runningJobs
  listed : ∀ t thread, state.threads t = some thread → thread.phase.exited = false →
    state.runningJobs thread.job.jobID = some t
  named : ∀ id t, state.runningJobs id = some t → ∃ thread, state.threads t = some thread ∧
    thread.job.jobID = id
  fresh : ∀ t, state.spawned ≤ t → state.threads t = none
  vacant : ∀ job rest stops, state.loop = .spawning job rest stops →
    state.runningJobs job.jobID = none

theorem start_registered (workerID : String) :
    Registered (State.start workerID : State Cpu Mem) := by
  constructor <;> simp [State.start]

theorem registered_old {state : State Cpu Mem} (registered : Registered state) {t : Nat}
    {thread : Thread} (found : state.threads t = some thread) : t ≠ state.spawned := by
  rintro rfl
  exact absurd ((registered.fresh _ le_rfl).symm.trans found) (by simp)

/-! ### A step of one thread -/

/-- The steps a thread takes by itself. -/
inductive Turn (elapsed : ℚ) (thread : Thread) : Phase → Prop where
  | announce (was : thread.phase = .starting) : Turn elapsed thread .startedSent
  | refused {problem : Status} (was : thread.phase = .startedReply (some problem)) :
      Turn elapsed thread .ended
  | enter {problem : Option Status} {config : Config}
      (was : thread.phase = .startedReply problem) : Turn elapsed thread (.executing config 1)
  | raised {error : String} (was : thread.phase.settled = false)
      (unreported : thread.phase.outcome = none) : Turn elapsed thread (.crashed error)
  | slept {config : Config} {step : Int} (was : thread.phase = .executing config step) :
      Turn elapsed thread (.executing config (step + 1))
  | returned {python : Python} {config : Config} {step : Int} {outcome : Outcome}
      (was : thread.phase = .executing config step)
      (ran : boundary python config thread.job.timeoutSeconds step thread.cancelled elapsed =
        .returned outcome) : Turn elapsed thread (.reporting outcome)
  | report {outcome : Outcome} (was : thread.phase = .reporting outcome) :
      Turn elapsed thread (.finalSent outcome)
  | leave (was : thread.phase = .finalReply) : Turn elapsed thread .ended

theorem next_turn {python : Python} {elapsed : ℚ} {thread : Thread} {phase : Phase}
    (next : thread.next python elapsed = some phase) : Turn elapsed thread phase := by
  unfold Thread.next at next
  split at next
  · rename_i was
    cases next
    exact .announce was
  · rename_i was
    cases next
    exact .refused was
  · rename_i problem _ was
    split at next <;> cases next
    · exact .raised (by simp [was, Phase.settled]) (by simp [was, Phase.outcome])
    · exact .enter was
  · rename_i config step was
    split at next <;> cases next
    · exact .returned was (by assumption)
    · exact .raised (by simp [was, Phase.settled]) (by simp [was, Phase.outcome])
    · exact .slept was
  · rename_i was
    cases next
    exact .report was
  · rename_i was
    cases next
    exact .leave was
  all_goals cases next

theorem settled_alive {phase : Phase} (unsettled : phase.settled = false) : phase.exited = false := by
  cases phase <;> simp_all [Phase.settled, Phase.exited]

theorem turn_alive {elapsed : ℚ} {thread : Thread} {phase : Phase}
    (turn : Turn elapsed thread phase) : thread.phase.exited = false := by
  cases turn with
  | raised was => exact settled_alive was
  | announce was | refused was | enter was | slept was | returned was | report was | leave was =>
      simp [was, Phase.exited]

/-- One thread moves to another phase, and leaves the tables when it is over. -/
structure Moves (before after : State Cpu Mem) (t : Nat) (thread thread' : Thread) : Prop where
  was : before.threads t = some thread
  alive : thread.phase.exited = false
  threads : ∀ other, after.threads other = if other = t then some thread' else before.threads other
  job : thread'.job = thread.job
  running : ∀ id, after.runningJobs id =
    if thread'.phase.exited = true ∧ id = thread.job.jobID then none else before.runningJobs id
  mirrored : before.cancelEvents = before.runningJobs → after.cancelEvents = after.runningJobs
  spawned : after.spawned = before.spawned
  loop : after.loop = before.loop

section Moving
variable {before after : State Cpu Mem} {t : Nat} {thread thread' : Thread}

theorem moves_own (registered : Registered before) (moves : Moves before after t thread thread') :
    before.runningJobs thread.job.jobID = some t :=
  registered.listed t thread moves.was moves.alive

theorem moves_running (moves : Moves before after t thread thread') {id : String} {other : Nat}
    (listed : after.runningJobs id = some other) : before.runningJobs id = some other := by
  rw [moves.running id] at listed
  split at listed
  · cases listed
  · exact listed

/-- A thread listed afterwards was listed before, and is not over. -/
theorem moves_listed (registered : Registered before) (moves : Moves before after t thread thread')
    {id : String} {other : Nat} {current : Thread} (listed : after.runningJobs id = some other)
    (found : after.threads other = some current) :
    before.runningJobs id = some other ∧
      ((other = t ∧ current = thread' ∧ id = thread.job.jobID ∧ thread'.phase.exited = false) ∨
        (other ≠ t ∧ before.threads other = some current)) := by
  have known := moves_running moves listed
  refine ⟨known, ?_⟩
  rw [moves.threads other] at found
  by_cases own : other = t
  · subst own
    rw [if_pos rfl] at found
    obtain ⟨current', stored, job⟩ := registered.named id other known
    obtain rfl : thread = current' := Option.some.inj (moves.was.symm.trans stored)
    refine Or.inl ⟨rfl, (Option.some.inj found).symm, job.symm, ?_⟩
    cases exited : thread'.phase.exited with
    | false => rfl
    | true => simp [moves.running, exited, job] at listed
  · rw [if_neg own] at found
    exact Or.inr ⟨own, found⟩

theorem moves_registered (registered : Registered before)
    (moves : Moves before after t thread thread') : Registered after where
  mirrored := moves.mirrored registered.mirrored
  listed other current found alive := by
    have own := moves_own registered moves
    rw [moves.threads other] at found
    rw [moves.running]
    by_cases same : other = t
    · subst same
      rw [if_pos rfl] at found
      obtain rfl := Option.some.inj found
      rw [alive, moves.job]
      simpa using own
    · rw [if_neg same] at found
      have listed := registered.listed other current found alive
      rw [if_neg, listed]
      rintro ⟨_, job⟩
      rw [job, own] at listed
      exact same (Option.some.inj listed).symm
  named id other listed := by
    obtain ⟨current, found, job⟩ := registered.named id other (moves_running moves listed)
    rw [moves.threads other]
    by_cases same : other = t
    · subst same
      obtain rfl : thread = current := Option.some.inj (moves.was.symm.trans found)
      exact ⟨thread', if_pos rfl, moves.job ▸ job⟩
    · exact ⟨current, by rw [if_neg same, found], job⟩
  fresh other late := by
    rw [moves.spawned] at late
    rw [moves.threads other, if_neg, registered.fresh other late]
    rintro rfl
    exact absurd (moves.was.symm.trans (registered.fresh other late)) (by simp)
  vacant job rest stops spawning := by
    rw [moves.loop] at spawning
    rw [moves.running, registered.vacant job rest stops spawning, ite_self]

end Moving

def turned (state : State Cpu Mem) (t : Nat) (thread : Thread) (phase : Phase) : State Cpu Mem :=
  if phase.exited then (state.setThread t { thread with phase := phase }).pop thread.job.jobID
  else state.setThread t { thread with phase := phase }

theorem threadStep_cases {python : Python} {elapsed : ℚ} {state next : State Cpu Mem} {t : Nat}
    (stepped : state.threadStep python elapsed t = some next) :
    ∃ thread phase, state.threads t = some thread ∧ thread.next python elapsed = some phase ∧
      next = turned state t thread phase := by
  unfold State.threadStep at stepped
  split at stepped
  · cases stepped
  · rename_i thread found
    split at stepped
    · cases stepped
    · rename_i next
      exact ⟨thread, .ended, found, next, (Option.some.inj stepped).symm⟩
    · rename_i phase live next
      refine ⟨thread, phase, found, next, ?_⟩
      have alive : phase.exited = false := by
        cases phase with
        | ended => exact absurd rfl live
        | _ => rfl
      simpa [turned, alive] using (Option.some.inj stepped).symm

theorem turned_moves {elapsed : ℚ} {state : State Cpu Mem} {t : Nat} {thread : Thread}
    {phase : Phase} (found : state.threads t = some thread) (turn : Turn elapsed thread phase) :
    Moves state (turned state t thread phase) t thread { thread with phase := phase } where
  was := found
  alive := turn_alive turn
  threads other := by unfold turned; split <;> exact Function.update_apply _ _ _ _
  job := rfl
  running id := by
    by_cases exited : phase.exited = true
    · simp [turned, exited, State.pop, State.setThread, Function.update_apply]
    · simp [turned, exited, State.setThread]
  mirrored same := by unfold turned; split <;> simp [State.pop, State.setThread, same]
  spawned := by unfold turned; split <;> rfl
  loop := by unfold turned; split <;> rfl

theorem turned_jobs (state : State Cpu Mem) (t : Nat) (thread : Thread) (phase : Phase) :
    (turned state t thread phase).jobs = state.jobs := by
  unfold turned
  split <;> rfl

def answered (now : Time) (state : State Cpu Mem) (t : Nat) (thread : Thread) (kind : Kind)
    (phase : Phase) : State Cpu Mem :=
  { state with
    jobs := (handleReport state.jobs now ⟨kind, thread.job.jobID, state.workerID⟩).2 }.setThread t
      { thread with phase := phase }

/-- The two reports a thread waits on, and where the answer takes it. -/
inductive Answer (now : Time) (state : State Cpu Mem) (thread : Thread) : Kind → Phase → Prop where
  | started (was : thread.phase = .startedSent) :
      Answer now state thread .started (.startedReply (answer
        (handleReport state.jobs now ⟨.started, thread.job.jobID, state.workerID⟩).1))
  | final {outcome : Outcome} (was : thread.phase = .finalSent outcome) :
      Answer now state thread (finalKind outcome) .finalReply

theorem deliver_cases {now : Time} {state next : State Cpu Mem} {t : Nat}
    (stepped : state.deliver now t = some next) :
    ∃ thread kind phase, state.threads t = some thread ∧ Answer now state thread kind phase ∧
      next = answered now state t thread kind phase := by
  unfold State.deliver at stepped
  split at stepped
  · cases stepped
  · rename_i thread found
    split at stepped
    · rename_i was
      exact ⟨thread, .started, _, found, .started was, (Option.some.inj stepped).symm⟩
    · rename_i was
      exact ⟨thread, _, _, found, .final was, (Option.some.inj stepped).symm⟩
    · cases stepped

theorem answer_unsettled {now : Time} {state : State Cpu Mem} {thread : Thread} {kind : Kind}
    {phase : Phase} (answer : Answer now state thread kind phase) :
    thread.phase.settled = false ∧ phase.exited = false := by
  cases answer with
  | started was | final was => simp [was, Phase.settled, Phase.exited]

theorem answered_moves {now : Time} {state : State Cpu Mem} {t : Nat} {thread : Thread}
    {kind : Kind} {phase : Phase} (found : state.threads t = some thread)
    (answer : Answer now state thread kind phase) :
    Moves state (answered now state t thread kind phase) t thread
      { thread with phase := phase } where
  was := found
  alive := settled_alive (answer_unsettled answer).1
  threads other := Function.update_apply _ _ _ _
  job := rfl
  running id := by simp [(answer_unsettled answer).2, answered, State.setThread]
  mirrored same := same
  spawned := rfl
  loop := rfl

/-! ### The heartbeat loop -/

theorem spawn_threads (state : State Cpu Mem) (job : AssignedJob) (other : Nat) :
    (state.spawn job).threads other =
      if other = state.spawned then some ⟨job, .starting, false⟩ else state.threads other :=
  Function.update_apply _ _ _ _

theorem spawn_running (state : State Cpu Mem) (job : AssignedJob) (id : String) :
    (state.spawn job).runningJobs id =
      if id = job.jobID then some state.spawned else state.runningJobs id :=
  Function.update_apply _ _ _ _

theorem spawn_registered {state : State Cpu Mem} {job : AssignedJob} {rest : List AssignedJob}
    {stops : List String} (registered : Registered state)
    (absent : state.runningJobs job.jobID = none) :
    Registered { state.spawn job with loop := .offering rest stops } where
  mirrored := by
    have same := registered.mirrored
    simp [State.spawn, same]
  listed t thread found alive := by
    rw [spawn_threads] at found
    rw [spawn_running]
    split at found
    · rename_i new
      cases found
      rw [if_pos rfl, new]
    · have listed := registered.listed t thread found alive
      -- The loop checked that no thread is listed for the job before it starts one.
      have other : thread.job.jobID ≠ job.jobID := by
        intro same
        rw [same, absent] at listed
        cases listed
      rw [if_neg other, listed]
  named id t listed := by
    rw [spawn_running] at listed
    split at listed
    · rename_i own
      cases listed
      exact ⟨⟨job, .starting, false⟩, by rw [spawn_threads, if_pos rfl], own.symm⟩
    · obtain ⟨thread, found, same⟩ := registered.named id t listed
      exact ⟨thread, by rw [spawn_threads, if_neg (registered_old registered found), found], same⟩
  fresh t late := by
    have later : state.spawned + 1 ≤ t := late
    rw [spawn_threads, if_neg (by omega), registered.fresh t (by omega)]
  vacant _ _ _ spawning := by cases spawning

/-- A thread after a signal, with the thread it was. -/
theorem signal_threads {state : State Cpu Mem} {t other : Nat} {thread : Thread}
    (found : (state.signal t).threads other = some thread) :
    ∃ before, state.threads other = some before ∧ thread.job = before.job ∧
      thread.phase = before.phase ∧ (before.cancelled = true → thread.cancelled = true) ∧
      (thread.cancelled = true → other = t ∨ before.cancelled = true) := by
  unfold State.signal at found
  split at found
  · exact ⟨thread, found, rfl, rfl, id, Or.inr⟩
  · rename_i before known
    simp only [State.setThread, Function.update_apply] at found
    split at found
    · rename_i own
      cases found
      exact ⟨before, own ▸ known, rfl, rfl, fun _ => rfl, fun _ => Or.inl own⟩
    · exact ⟨thread, found, rfl, rfl, id, Or.inr⟩

theorem signal_found {state : State Cpu Mem} (t : Nat) {other : Nat} {before : Thread}
    (known : state.threads other = some before) :
    ∃ thread, (state.signal t).threads other = some thread ∧ thread.job = before.job ∧
      thread.phase = before.phase := by
  unfold State.signal
  split
  · exact ⟨before, known, rfl, rfl⟩
  · rename_i signalled same
    simp only [State.setThread, Function.update_apply]
    split
    · rename_i own
      subst own
      obtain rfl : signalled = before := Option.some.inj (same.symm.trans known)
      exact ⟨_, rfl, rfl, rfl⟩
    · exact ⟨before, known, rfl, rfl⟩

theorem signal_frame (state : State Cpu Mem) (t : Nat) :
    (state.signal t).jobs = state.jobs ∧ (state.signal t).runningJobs = state.runningJobs ∧
      (state.signal t).cancelEvents = state.cancelEvents ∧
      (state.signal t).spawned = state.spawned := by
  unfold State.signal
  split <;> exact ⟨rfl, rfl, rfl, rfl⟩

theorem signal_registered {state : State Cpu Mem} {t : Nat} {stops : List String}
    (registered : Registered state) :
    Registered { state.signal t with loop := .stopping stops } := by
  obtain ⟨_, running, events, spawned⟩ := signal_frame state t
  exact {
    mirrored := by
      rw [running, events]
      exact registered.mirrored
    listed := fun other thread found alive => by
      obtain ⟨before, known, job, phase, _⟩ := signal_threads found
      rw [running, job]
      exact registered.listed other before known (phase ▸ alive)
    named := fun id other listed => by
      rw [running] at listed
      obtain ⟨before, known, job⟩ := registered.named id other listed
      obtain ⟨thread, found, same, _⟩ := signal_found t known
      exact ⟨thread, found, same ▸ job⟩
    fresh := fun other late => by
      rw [spawned] at late
      cases found : (state.signal t).threads other with
      | none => rfl
      | some thread =>
          obtain ⟨before, known, _⟩ := signal_threads found
          exact absurd ((registered.fresh other late).symm.trans known) (by simp)
    vacant := fun _ _ _ spawning => by cases spawning }

/-- A loop step that starts no thread and sets no event. -/
theorem turned_loop_registered {state : State Cpu Mem} {loop : Loop} (registered : Registered state)
    (vacant : ∀ job rest stops, loop = .spawning job rest stops →
      state.runningJobs job.jobID = none) : Registered { state with loop := loop } :=
  ⟨registered.mirrored, registered.listed, registered.named, registered.fresh, vacant⟩

theorem loopStep_registered {state : State Cpu Mem} (registered : Registered state) :
    Registered state.loopStep := by
  unfold State.loopStep
  split
  · exact turned_loop_registered registered nofun
  · exact turned_loop_registered registered nofun
  · exact turned_loop_registered registered nofun
  · exact turned_loop_registered registered nofun
  · split
    · exact turned_loop_registered registered nofun
    · rename_i unlisted
      refine turned_loop_registered registered ?_
      rintro _ _ _ ⟨⟩
      simpa using unlisted
  · rename_i job rest stops known
    exact spawn_registered registered (registered.vacant job rest stops known)
  · exact turned_loop_registered registered nofun
  · split <;> exact turned_loop_registered registered nofun
  · exact signal_registered registered

section Machine
variable [Zero Cpu] [LT Cpu] [DecidableLT Cpu] [Zero Mem] [LT Mem] [DecidableLT Mem]

theorem step_registered {python : Python} (state : State Cpu Mem) (label : Label Cpu Mem)
    (next : State Cpu Mem) (registered : Registered state)
    (stepped : step python state label = some next) : Registered next := by
  cases label with
  | call now op =>
      simp only [step] at stepped
      split at stepped <;> cases stepped
      exact ⟨registered.mirrored, registered.listed, registered.named, registered.fresh,
        registered.vacant⟩
  | loop =>
      cases stepped
      exact loopStep_registered registered
  | thread t elapsed =>
      obtain ⟨thread, phase, found, next, rfl⟩ := threadStep_cases stepped
      exact moves_registered registered (turned_moves found (next_turn next))
  | deliver t now =>
      obtain ⟨thread, kind, phase, found, answer, rfl⟩ := deliver_cases stepped
      exact moves_registered registered (answered_moves found answer)

/-- In every run the tables list the threads that are not over, one for a job. -/
theorem run_registered {python : Python} {workerID : String} {labels : List (Label Cpu Mem)}
    {state : State Cpu Mem} (ran : run (step python) (State.start workerID) labels = some state) :
    Registered state :=
  run_invariant step_registered ran (start_registered workerID)

end Machine

end OrionQueue.AgentRegistry
