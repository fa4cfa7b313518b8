import OrionQueue.AgentFleet

/-!
One round of the heartbeat loop of agent/main.py, from one sleep to the next, while
nothing else happens: the heartbeat, the two listings that the server answers it with,
the loop over the offered jobs and the loop over the stop signals.
-/

namespace OrionQueue.HeartbeatRound

open Jobs JobStore MemoryRepository JobService Reports Executor AgentRegistry AgentFleet Runs
open Agent (AssignedJob Phase Thread Loop)

variable {Cpu Mem : Type}

def Reaches (agent after : Agent.State Cpu Mem) : Prop :=
  ∃ count, Agent.State.loopStep^[count] agent = after

theorem Reaches.refl (agent : Agent.State Cpu Mem) : Reaches agent agent := ⟨0, rfl⟩

theorem Reaches.step {agent after : Agent.State Cpu Mem} (later : Reaches agent.loopStep after) :
    Reaches agent after := by
  obtain ⟨count, reached⟩ := later
  exact ⟨count + 1, reached⟩

theorem Reaches.trans {agent middle after : Agent.State Cpu Mem} (first : Reaches agent middle)
    (second : Reaches middle after) : Reaches agent after := by
  obtain ⟨count, rfl⟩ := first
  obtain ⟨count', rfl⟩ := second
  exact ⟨count' + count, Function.iterate_add_apply ..⟩

/-! ### The offered jobs -/

def offerOne (agent : Agent.State Cpu Mem) (job : AssignedJob) : Agent.State Cpu Mem :=
  if (agent.runningJobs job.jobID).isSome then agent else agent.spawn job

def offerAll (agent : Agent.State Cpu Mem) (assigned : List AssignedJob) : Agent.State Cpu Mem :=
  assigned.foldl offerOne agent

theorem offering_reaches (agent : Agent.State Cpu Mem) (assigned : List AssignedJob)
    (stops : List String) :
    Reaches { agent with loop := .offering assigned stops }
      { offerAll agent assigned with loop := .stopping stops } := by
  induction assigned generalizing agent with
  | nil => exact .step (.refl _)
  | cons job rest ih =>
      by_cases known : (agent.runningJobs job.jobID).isSome = true
      · have skipped : offerAll agent (job :: rest) = offerAll agent rest := by
          rw [offerAll, List.foldl_cons, offerOne, if_pos known, ← offerAll]
        have stepped : ({ agent with loop := .offering (job :: rest) stops } :
            Agent.State Cpu Mem).loopStep = { agent with loop := .offering rest stops } :=
          if_pos known
        rw [skipped]
        exact .step (stepped ▸ ih agent)
      · have started : offerAll agent (job :: rest) = offerAll (agent.spawn job) rest := by
          rw [offerAll, List.foldl_cons, offerOne, if_neg known, ← offerAll]
        have stepped : ({ agent with loop := .offering (job :: rest) stops } :
            Agent.State Cpu Mem).loopStep = { agent with loop := .spawning job rest stops } :=
          if_neg known
        rw [started]
        refine .step ?_
        rw [stepped]
        exact .step (ih (agent.spawn job))

/-- The tables, whatever the loop is about to do. -/
abbrev Listed (agent : Agent.State Cpu Mem) : Prop := Registered { agent with loop := .sleeping }

/-- What the loop over the offers does to the threads and to `running_jobs`. -/
structure Offers (agent : Agent.State Cpu Mem) (assigned : List AssignedJob)
    (after : Agent.State Cpu Mem) : Prop where
  jobs : after.jobs = agent.jobs
  listed : Listed after
  running : ∀ id, after.runningJobs id ≠ none ↔
    agent.runningJobs id ≠ none ∨ ∃ job ∈ assigned, job.jobID = id
  stays : ∀ id t, agent.runningJobs id = some t → after.runningJobs id = some t
  fresh : ∀ id t, after.runningJobs id = some t →
    agent.runningJobs id = some t ∨ agent.threads t = none
  kept : ∀ t thread, agent.threads t = some thread → after.threads t = some thread
  new : ∀ t thread, after.threads t = some thread → agent.threads t = some thread ∨
    agent.threads t = none ∧ thread.phase = .starting ∧ thread.cancelled = false ∧
      thread.job ∈ assigned ∧ agent.runningJobs thread.job.jobID = none

theorem spawn_offers {agent : Agent.State Cpu Mem} (listed : Listed agent) {job : AssignedJob}
    (absent : agent.runningJobs job.jobID = none) : Offers agent [job] (agent.spawn job) where
  jobs := rfl
  listed := by
    have spawned : Registered { ({ agent with loop := .sleeping } : Agent.State Cpu Mem).spawn job with
        loop := .offering [] [] } := spawn_registered listed absent
    exact ⟨spawned.mirrored, spawned.listed, spawned.named, spawned.fresh, nofun⟩
  running id := by
    rw [spawn_running]
    by_cases own : id = job.jobID
    · simp [own]
    · simp [own, Ne.symm own]
  stays id t known := by
    rw [spawn_running, if_neg, known]
    rintro rfl
    exact absurd (absent.symm.trans known) (by simp)
  fresh id t known := by
    rw [spawn_running] at known
    split at known
    · obtain rfl := Option.some.inj known
      exact Or.inr (listed.fresh agent.spawned le_rfl)
    · exact Or.inl known
  kept t thread found := by
    rw [spawn_threads, if_neg (registered_old listed found), found]
  new t thread found := by
    rw [spawn_threads] at found
    by_cases isNew : t = agent.spawned
    · rw [if_pos isNew] at found
      obtain rfl := Option.some.inj found
      exact Or.inr ⟨listed.fresh t isNew.ge, rfl, rfl, List.mem_singleton_self job, absent⟩
    · rw [if_neg isNew] at found
      exact Or.inl found

theorem offers_trans {agent middle after : Agent.State Cpu Mem} {first second : List AssignedJob}
    (offers : Offers agent first middle) (offers' : Offers middle second after) :
    Offers agent (first ++ second) after where
  jobs := offers'.jobs.trans offers.jobs
  listed := offers'.listed
  running id := by
    rw [offers'.running, offers.running, or_assoc]
    simp only [List.mem_append, or_and_right, exists_or]
  stays id t known := offers'.stays id t (offers.stays id t known)
  fresh id t known := by
    rcases offers'.fresh id t known with earlier | absent
    · exact offers.fresh id t earlier
    · right
      cases found : agent.threads t with
      | none => rfl
      | some thread => exact absurd (absent.symm.trans (offers.kept t thread found)) (by simp)
  kept t thread found := offers'.kept t thread (offers.kept t thread found)
  new t thread found := by
    rcases offers'.new t thread found with earlier | ⟨absent, starting, fresh, offered, idle⟩
    · rcases offers.new t thread earlier with before | ⟨absent, starting, fresh, offered, idle⟩
      · exact Or.inl before
      · exact Or.inr ⟨absent, starting, fresh, List.mem_append_left _ offered, idle⟩
    · have before : agent.threads t = none := by
        cases known : agent.threads t with
        | none => rfl
        | some older => exact absurd (absent.symm.trans (offers.kept t older known)) (by simp)
      have idle' : agent.runningJobs thread.job.jobID = none := by
        cases known : agent.runningJobs thread.job.jobID with
        | none => rfl
        | some older => exact absurd (idle.symm.trans (offers.stays _ older known)) (by simp)
      exact Or.inr ⟨before, starting, fresh, List.mem_append_right _ offered, idle'⟩

theorem offerOne_offers {agent : Agent.State Cpu Mem} (listed : Listed agent) (job : AssignedJob) :
    Offers agent [job] (offerOne agent job) := by
  unfold offerOne
  split
  case isTrue known =>
    refine ⟨rfl, listed, fun id => ?_, fun _ _ => id, fun _ _ => Or.inl, fun _ _ => id,
      fun _ _ => Or.inl⟩
    constructor
    · exact Or.inl
    · rintro (running | ⟨offered, member, rfl⟩)
      · exact running
      · obtain rfl := List.mem_singleton.mp member
        exact Option.isSome_iff_ne_none.mp known
  case isFalse absent => exact spawn_offers listed (by simpa using absent)

theorem offerAll_offers {agent : Agent.State Cpu Mem} (listed : Listed agent)
    (assigned : List AssignedJob) : Offers agent assigned (offerAll agent assigned) := by
  induction assigned generalizing agent with
  | nil =>
      exact ⟨rfl, listed, by simp [offerAll], fun _ _ => id, fun _ _ => Or.inl, fun _ _ => id,
        fun _ _ => Or.inl⟩
  | cons job rest ih =>
      have first := offerOne_offers listed job
      exact offers_trans first (ih first.listed)

/-! ### The stop signals -/

def stopOne (agent : Agent.State Cpu Mem) (id : String) : Agent.State Cpu Mem :=
  match agent.cancelEvents id with
  | none => agent
  | some t => agent.signal t

def stopAll (agent : Agent.State Cpu Mem) (stops : List String) : Agent.State Cpu Mem :=
  stops.foldl stopOne agent

theorem stopping_reaches (agent : Agent.State Cpu Mem) (stops : List String) :
    Reaches { agent with loop := .stopping stops } { stopAll agent stops with loop := .sleeping } := by
  induction stops generalizing agent with
  | nil => exact .step (.refl _)
  | cons id rest ih =>
      cases event : agent.cancelEvents id with
      | none =>
          have skipped : stopAll agent (id :: rest) = stopAll agent rest := by
            rw [stopAll, List.foldl_cons, stopOne, event, ← stopAll]
          have stepped : ({ agent with loop := .stopping (id :: rest) } :
              Agent.State Cpu Mem).loopStep = { agent with loop := .stopping rest } := by
            simp only [Agent.State.loopStep, event]
          rw [skipped]
          exact .step (stepped ▸ ih agent)
      | some t =>
          have signalled : stopAll agent (id :: rest) = stopAll (agent.signal t) rest := by
            rw [stopAll, List.foldl_cons, stopOne, event, ← stopAll]
          have stepped : ({ agent with loop := .stopping (id :: rest) } :
              Agent.State Cpu Mem).loopStep = { agent with loop := .signalling t rest } := by
            simp only [Agent.State.loopStep, event]
          have stepped' : ({ agent with loop := .signalling t rest } :
              Agent.State Cpu Mem).loopStep = { agent.signal t with loop := .stopping rest } := by
            simp only [Agent.State.loopStep, Agent.State.signal]
            cases agent.threads t <;> rfl
          rw [signalled]
          refine .step ?_
          rw [stepped]
          refine .step ?_
          rw [stepped']
          exact ih (agent.signal t)

theorem signal_thread (agent : Agent.State Cpu Mem) (t other : Nat) :
    (agent.signal t).threads other = (agent.threads other).map fun thread =>
      { thread with cancelled := thread.cancelled || other = t } := by
  unfold Agent.State.signal
  split
  · rename_i missing
    by_cases own : other = t
    · simp [own, missing]
    · cases agent.threads other <;> simp [own]
  · rename_i thread found
    simp only [Agent.State.setThread, Function.update_apply]
    by_cases own : other = t
    · simp [own, found]
    · cases agent.threads other <;> simp [own]

/-- Exactly the threads listed in `cancel_events` for one of the jobs are signalled. -/
theorem stopAll_spec (agent : Agent.State Cpu Mem) (stops : List String) :
    (stopAll agent stops).jobs = agent.jobs ∧
      (stopAll agent stops).runningJobs = agent.runningJobs ∧
      (stopAll agent stops).cancelEvents = agent.cancelEvents ∧
      ∀ other, (stopAll agent stops).threads other = (agent.threads other).map fun thread =>
        { thread with
          cancelled := thread.cancelled || stops.any fun id => agent.cancelEvents id = some other } := by
  induction stops generalizing agent with
  | nil => exact ⟨rfl, rfl, rfl, fun other => by
      cases found : agent.threads other <;> simp [stopAll, found]⟩
  | cons id rest ih =>
      have split : stopAll agent (id :: rest) = stopAll (stopOne agent id) rest := rfl
      obtain ⟨jobs, running, events, threads⟩ := ih (stopOne agent id)
      rw [split, jobs, running, events]
      cases event : agent.cancelEvents id with
      | none =>
          have same : stopOne agent id = agent := by rw [stopOne, event]
          rw [same] at threads ⊢
          refine ⟨rfl, rfl, rfl, fun other => ?_⟩
          rw [threads other]
          simp [event]
      | some t =>
          have signalled : stopOne agent id = agent.signal t := by rw [stopOne, event]
          obtain ⟨jobs', running', events', -⟩ := signal_frame agent t
          rw [signalled] at threads ⊢
          refine ⟨jobs', running', events', fun other => ?_⟩
          rw [threads other, signal_thread, Option.map_map, events']
          cases agent.threads other with
          | none => rfl
          | some thread =>
              simp [event, Bool.or_assoc, eq_comm]

/-! ### The round -/

def round (agent : Agent.State Cpu Mem) : Agent.State Cpu Mem :=
  { stopAll (offerAll agent ((listAssignedToWorker agent.jobs agent.workerID).map AssignedJob.of))
      ((listStoppableForWorker agent.jobs agent.workerID).map Job.id) with loop := .sleeping }

/-- From the heartbeat on, the loop goes through the round. -/
theorem round_reaches (agent : Agent.State Cpu Mem) :
    Reaches { agent with loop := .heartbeatSent } (round agent) :=
  -- The two listings of WorkerHeartbeat, with nothing in between.
  .step (.step ((offering_reaches agent _ _).trans (stopping_reaches _ _)))

theorem offered_idle {jobs : MemoryRepository Cpu Mem} (tidy : Tidy jobs) {workerID : String}
    {offered stopping : Job Cpu Mem} (isOffered : offered ∈ listAssignedToWorker jobs workerID)
    (isStopping : stopping ∈ listStoppableForWorker jobs workerID) : offered.id ≠ stopping.id := by
  intro same
  obtain ⟨found, scheduled, -⟩ := offered_held tidy isOffered
  obtain ⟨active, listed⟩ := List.mem_filter.mp isStopping
  obtain ⟨⟨key, found'⟩, -⟩ := mem_listActive_iff.mp active
  obtain rfl := tidy.keyed key stopping found'
  obtain rfl : offered = stopping := Option.some.inj (found.symm.trans (same ▸ found'))
  simp [scheduled] at listed

section Round
variable {agent : Agent.State Cpu Mem}

/-- The jobs of the response to the heartbeat. -/
def offers (agent : Agent.State Cpu Mem) : List AssignedJob :=
  (listAssignedToWorker agent.jobs agent.workerID).map AssignedJob.of

theorem round_offers (listed : Listed agent) : Offers agent (offers agent) (offerAll agent (offers agent)) :=
  offerAll_offers listed _

theorem round_running (listed : Listed agent) (id : String) :
    (round agent).runningJobs id ≠ none ↔ agent.runningJobs id ≠ none ∨
      ∃ job ∈ listAssignedToWorker agent.jobs agent.workerID, job.id = id := by
  obtain ⟨-, running, -⟩ := stopAll_spec (offerAll agent (offers agent))
    ((listStoppableForWorker agent.jobs agent.workerID).map Job.id)
  have same : (round agent).runningJobs = (offerAll agent (offers agent)).runningJobs := running
  rw [same, (round_offers listed).running]
  simp only [offers, List.mem_map, exists_exists_and_eq_and]
  rfl

/-- A thread is signalled if `running_jobs` lists it for a job that is to stop. -/
theorem round_thread (listed : Listed agent) (t : Nat) :
    (round agent).threads t = ((offerAll agent (offers agent)).threads t).map fun thread =>
      { thread with
        cancelled := thread.cancelled ||
          (listStoppableForWorker agent.jobs agent.workerID).any fun job =>
            (offerAll agent (offers agent)).runningJobs job.id = some t } := by
  obtain ⟨-, -, -, threads⟩ := stopAll_spec (offerAll agent (offers agent))
    ((listStoppableForWorker agent.jobs agent.workerID).map Job.id)
  have mirrored : (offerAll agent (offers agent)).cancelEvents =
      (offerAll agent (offers agent)).runningJobs := (round_offers listed).listed.mirrored
  rw [mirrored] at threads
  refine (threads t).trans ?_
  simp only [List.any_map]
  rfl

theorem round_old (listed : Listed agent) {t : Nat} {thread : Thread}
    (found : agent.threads t = some thread) :
    (round agent).threads t = some { thread with
      cancelled := thread.cancelled || agent.runningJobs thread.job.jobID = some t &&
        (listStoppableForWorker agent.jobs agent.workerID).any fun job =>
          job.id = thread.job.jobID } := by
  have spec := round_offers listed
  rw [round_thread listed, spec.kept t thread found, Option.map_some]
  congr 3
  -- An entry for an old thread was there before, and is under the job of the thread.
  have entry : ∀ id, (offerAll agent (offers agent)).runningJobs id = some t ↔
      agent.runningJobs thread.job.jobID = some t ∧ id = thread.job.jobID := by
    intro id
    constructor
    · intro known
      rcases spec.fresh id t known with before | absent
      · obtain ⟨current, found', own⟩ := listed.named id t before
        obtain rfl : current = thread := Option.some.inj (found'.symm.trans found)
        exact ⟨own ▸ before, own.symm⟩
      · exact absurd (absent.symm.trans found) (by simp)
    · rintro ⟨before, rfl⟩
      exact spec.stays _ t before
  rw [Bool.eq_iff_iff]
  simp only [entry, List.any_eq_true, Bool.and_eq_true, decide_eq_true_eq]
  constructor
  · rintro ⟨job, stopping, here, own⟩
    exact ⟨here, job, stopping, own⟩
  · rintro ⟨here, job, stopping, own⟩
    exact ⟨job, stopping, here, own⟩

theorem round_new (tidy : Tidy agent.jobs) (listed : Listed agent) {t : Nat} {thread : Thread}
    (found : (round agent).threads t = some thread) (absent : agent.threads t = none) :
    thread.phase = .starting ∧ thread.cancelled = false ∧
      agent.runningJobs thread.job.jobID = none ∧
      ∃ job ∈ listAssignedToWorker agent.jobs agent.workerID, AssignedJob.of job = thread.job := by
  have spec := round_offers listed
  rw [round_thread listed, Option.map_eq_some_iff] at found
  obtain ⟨started, found, rfl⟩ := found
  rcases spec.new t started found with before | ⟨-, starting, quiet, offered, idle⟩
  · exact absurd (absent.symm.trans before) (by simp)
  · obtain ⟨job, isOffered, isJob⟩ := List.mem_map.mp offered
    refine ⟨starting, ?_, idle, job, isOffered, isJob⟩
    simp only [quiet, Bool.false_or, List.any_eq_false, decide_eq_true_eq]
    -- The job is scheduled, so that no stop can be asked for it.
    intro stopping isStopping known
    obtain ⟨current, found', own⟩ := spec.listed.named _ t known
    obtain rfl : current = started := Option.some.inj (found'.symm.trans found)
    rw [← isJob] at own
    exact offered_idle tidy isOffered isStopping own

theorem round_tables (agent : Agent.State Cpu Mem) :
    (round agent).runningJobs = (offerAll agent (offers agent)).runningJobs :=
  (stopAll_spec _ _).2.1

theorem round_jobs (listed : Listed agent) : (round agent).jobs = agent.jobs :=
  (stopAll_spec _ _).1.trans (round_offers listed).jobs

/-- The round has a thread for the job that it was offered. -/
theorem offered_thread (tidy : Tidy agent.jobs) (listed : Listed agent) {job : Job Cpu Mem}
    (offered : job ∈ listAssignedToWorker agent.jobs agent.workerID)
    (idle : agent.runningJobs job.id = none) :
    ∃ t, agent.threads t = none ∧ (round agent).runningJobs job.id = some t ∧
      (round agent).threads t = some ⟨.of job, .starting, false⟩ := by
  have spec := round_offers listed
  obtain ⟨t, known⟩ := Option.ne_none_iff_exists'.mp
    ((round_running listed job.id).mpr (Or.inr ⟨job, offered, rfl⟩))
  rw [round_tables] at known
  -- The entry is new, and so is the thread it names.
  have absent : agent.threads t = none := by
    rcases spec.fresh job.id t known with before | absent
    · exact absurd (idle.symm.trans before) (by simp)
    · exact absent
  obtain ⟨started, found, own⟩ := spec.listed.named job.id t known
  have here := round_thread listed t
  rw [show (offerAll agent (offers agent)).threads t = some started from found, Option.map_some] at here
  obtain ⟨starting, quiet, -, other, isOffered, isJob⟩ := round_new tidy listed here absent
  have same : other.id = job.id := by
    rw [← own]
    exact congrArg AssignedJob.jobID isJob
  obtain rfl : other = job := by
    have stored := (offered_held tidy isOffered).1
    rw [same] at stored
    exact Option.some.inj (stored.symm.trans (offered_held tidy offered).1)
  refine ⟨t, absent, by rwa [round_tables], here.trans ?_⟩
  simp only at starting quiet isJob
  rw [starting, quiet, isJob]

theorem sound_listed {state : State Cpu Mem} {workerID : String}
    (sound : Sound state) (running : state.processes workerID = .running agent) :
    Listed { agent with jobs := state.jobs } := by
  have registered := sound.registered workerID agent running
  exact ⟨registered.mirrored, registered.listed, registered.named, registered.fresh, nofun⟩

end Round

section Fleet
variable [Zero Cpu] [LT Cpu] [DecidableLT Cpu] [Zero Mem] [LT Mem] [DecidableLT Mem]

theorem loops_run {python : Python} {workerID : String} (count : Nat) {state : State Cpu Mem}
    {agent : Agent.State Cpu Mem} (running : state.processes workerID = .running agent)
    (current : agent.jobs = state.jobs) :
    run (step python) state (List.replicate count (.act workerID .loop)) =
      some (state.setAgent workerID (Agent.State.loopStep^[count] agent)) := by
  induction count generalizing state agent with
  | zero =>
      rw [Function.iterate_zero, id, State.setAgent, ← running, Function.update_eq_self]
      rfl
  | succ count ih =>
      have here : { agent with jobs := state.jobs } = agent := by rw [← current]
      have stepped : step python state (.act workerID .loop) =
          some (state.setAgent workerID agent.loopStep) := by
        simp only [step, running, here, perform, Option.map_some, loopStep_jobs, current, givenUp,
          List.append_nil, State.setAgent]
      rw [List.replicate_succ]
      refine run_cons.mpr ⟨_, stepped, ?_⟩
      rw [ih (setAgent_running ..) ((loopStep_jobs agent).trans current), setAgent_setAgent]
      rfl

/-- The state after an undisturbed round. -/
theorem round_run {python : Python} {workerID : String} {state : State Cpu Mem}
    {agent : Agent.State Cpu Mem} (running : state.processes workerID = .running agent)
    (asleep : agent.loop = .sleeping) :
    ∃ count, run (step python) state (List.replicate count (.act workerID .loop)) =
      some (state.setAgent workerID (round { agent with jobs := state.jobs })) := by
  obtain ⟨count, reached⟩ := round_reaches { agent with jobs := state.jobs }
  have stepped : step python state (.act workerID .loop) =
      some (state.setAgent workerID { agent with jobs := state.jobs, loop := .heartbeatSent }) := by
    simp only [step, running, perform, Agent.State.loopStep, asleep, Option.map_some, givenUp,
      List.append_nil, State.setAgent]
  refine ⟨count + 1, ?_⟩
  rw [List.replicate_succ]
  refine run_cons.mpr ⟨_, stepped, ?_⟩
  rw [loops_run count (setAgent_running ..) rfl, setAgent_setAgent, reached]

/-- In an undisturbed round of its heartbeat loop a worker starts one thread for every job
that is scheduled on it and has none, signals the thread of every job that is to stop,
and does nothing else. -/
theorem round_serves (python : Python) (labels : List (Label Cpu Mem)) (state : State Cpu Mem)
    (ran : run (step python) State.start labels = some state) (workerID : String)
    (agent : Agent.State Cpu Mem) (running : state.processes workerID = .running agent)
    (asleep : agent.loop = .sleeping) :
    ∃ count agent', run (step python) state (List.replicate count (.act workerID .loop)) =
        some (state.setAgent workerID agent') ∧
      agent'.loop = .sleeping ∧
      (∀ id, agent'.runningJobs id ≠ none ↔ agent.runningJobs id ≠ none ∨
        ∃ job ∈ listAssignedToWorker state.jobs workerID, job.id = id) ∧
      (∀ t thread, agent.threads t = some thread → agent'.threads t = some { thread with
        cancelled := thread.cancelled || agent.runningJobs thread.job.jobID = some t &&
          (listStoppableForWorker state.jobs workerID).any fun job => job.id = thread.job.jobID }) ∧
      (∀ job ∈ listAssignedToWorker state.jobs workerID, agent.runningJobs job.id = none →
        ∃ t, agent.threads t = none ∧ agent'.runningJobs job.id = some t ∧
          agent'.cancelEvents job.id = some t ∧
          agent'.threads t = some ⟨.of job, .starting, false⟩ ∧
          ∀ t' thread, agent'.threads t' = some thread → agent.threads t' = none →
            thread.job.jobID = job.id → t' = t) ∧
      ∀ t thread, agent'.threads t = some thread → agent.threads t = none →
        thread.phase = .starting ∧ thread.cancelled = false ∧
          agent.runningJobs thread.job.jobID = none ∧
          ∃ job ∈ listAssignedToWorker state.jobs workerID, AssignedJob.of job = thread.job := by
  have sound : Sound state := run_invariant step_sound ran start_sound
  obtain ⟨count, rounded⟩ : ∃ count, run (step python) state
      (List.replicate count (.act workerID .loop)) =
        some (state.setAgent workerID (round { agent with jobs := state.jobs })) :=
    round_run running asleep
  have listed := sound_listed sound running
  obtain rfl : agent.workerID = workerID := sound.named workerID agent running
  refine ⟨count, _, rounded, rfl, round_running listed, fun t thread => round_old listed, ?_,
    fun t thread => round_new sound.tidy listed⟩
  intro job offered unknown
  have registered : Registered (round { agent with jobs := state.jobs }) :=
    (run_invariant step_sound rounded sound).registered agent.workerID _ (setAgent_running ..)
  obtain ⟨t, absent, known, started⟩ := offered_thread sound.tidy listed offered unknown
  refine ⟨t, absent, known, registered.mirrored ▸ known, started, fun t' thread found new own => ?_⟩
  have alive := (round_new sound.tidy listed found new).1
  have also := registered.listed t' thread found (by rw [alive]; rfl)
  rw [own, known] at also
  exact (Option.some.inj also).symm

end Fleet

/-- job-1 runs on worker-1 and is cancelled; job-2 has been placed on it. -/
def waitingLabels : List (Label Int Int) :=
  [.register "worker-1", .call 0 (.submit "job-1" (submission ⟨1, 0, 2, 1024⟩)),
    .call 1 (.assignToWorkers "job-1" ["worker-1"])] ++ List.replicate 7 (.act "worker-1" .loop) ++
    [.act "worker-1" (.thread 0 0), .act "worker-1" (.deliver 0 2), .call 3 (.cancel "job-1"),
      .call 4 (.submit "job-2" (submission ⟨1, 0, 2, 1024⟩)),
      .call 5 (.assignToWorkers "job-2" ["worker-1"])]

def asleep (state : State Cpu Mem) (workerID : String) : Bool :=
  match state.processes workerID with
  | .running agent =>
      match agent.loop with
      | .sleeping => true
      | _ => false
  | _ => false

theorem asleep_agent {state : State Cpu Mem} {workerID : String} (sleeps : asleep state workerID = true) :
    ∃ agent, state.processes workerID = .running agent ∧ agent.loop = .sleeping := by
  unfold asleep at sleeps
  split at sleeps
  case h_1 agent running =>
    split at sleeps
    case h_1 sleeping => exact ⟨agent, running, sleeping⟩
    case h_2 => cases sleeps
  case h_2 => cases sleeps

theorem waitingLabels_served : ∃ state agent count agent',
    run (step plainPython) State.start waitingLabels = some state ∧
      state.processes "worker-1" = .running agent ∧
      run (step plainPython) state (List.replicate count (.act "worker-1" .loop)) =
        some (state.setAgent "worker-1" agent') ∧
      agent'.loop = .sleeping ∧ agent'.runningJobs "job-2" ≠ none := by
  have reached : (run (step plainPython) State.start waitingLabels).any (fun state =>
      asleep state "worker-1" &&
        (listAssignedToWorker state.jobs "worker-1").any fun job => job.id = "job-2") = true := by
    decide +kernel
  obtain ⟨state, ran, holds⟩ := (Option.any_eq_true _ _).mp reached
  obtain ⟨sleeps, offered⟩ := Bool.and_eq_true_iff.mp holds
  obtain ⟨agent, running, sleeping⟩ := asleep_agent sleeps
  obtain ⟨job, isOffered, isJob⟩ := List.any_eq_true.mp offered
  obtain ⟨count, agent', rounded, again, started, -⟩ :=
    round_serves plainPython waitingLabels state ran "worker-1" agent running sleeping
  exact ⟨state, agent, count, agent', ran, running, rounded, again,
    (started "job-2").mpr (Or.inr ⟨job, isOffered, of_decide_eq_true isJob⟩)⟩

end OrionQueue.HeartbeatRound
