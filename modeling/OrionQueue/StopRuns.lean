import OrionQueue.StopDelivery

/-!
Every step of the agent and of the server keeps `StopDelivery.Sound`, the steps
of a thread and the calls under `stopsInTime`, which keeps a stop request and an
executor that ends by itself from crossing; whole runs follow.
-/

namespace OrionQueue.StopRuns

open Jobs JobStore MemoryRepository JobService JobLifecycle Reports Executor
open Agent AgentRegistry StopRequests StopDelivery Runs

variable {Cpu Mem : Type}

def stopPending (jobs : MemoryRepository Cpu Mem) (id : String) : Bool :=
  (jobs.find id).any fun job => job.state = .cancelRequested || job.state = .preempted

theorem stopPending_iff (jobs : MemoryRepository Cpu Mem) (id : String) :
    stopPending jobs id = true ↔ StopPending jobs id := by
  simp [stopPending, StopPending, Stopping, Option.any_eq_true]

/-! ### The steps of a thread -/

section Turns
variable {elapsed : ℚ} {thread : Thread} {phase : Phase}

theorem turn_settles (turn : Turn elapsed thread phase) (settled : thread.phase.settled = true) :
    phase.exited = true := by
  cases turn with
  | raised was => exact absurd (settled.symm.trans was) (by simp)
  | refused | leave => rfl
  | announce was | enter was | slept was | returned was | report was =>
      simp [was, Phase.settled] at settled

theorem turn_polled (turn : Turn elapsed thread phase)
    (before : ∀ outcome, thread.phase.outcome = some outcome → finalKind outcome = .stopped →
      thread.cancelled = true) {outcome : Outcome} (returned : phase.outcome = some outcome)
    (isStop : finalKind outcome = .stopped) : thread.cancelled = true := by
  cases turn with
  | returned was ran =>
      obtain rfl := Option.some.inj returned
      exact (boundary_stopped ran (finalKind_stopped isStop)).1
  | report was => exact before outcome (by simpa [was, Phase.outcome] using returned) isStop
  | _ => simp [Phase.outcome] at returned

/-- The executor does not end by itself while a stop of its job is pending. -/
def yields (pending : Bool) : Phase → Bool
  | .reporting outcome => finalKind outcome = .stopped || !pending
  | .crashed _ => !pending
  | _ => true

theorem turn_owns (turn : Turn elapsed thread phase) {state : Jobs.State}
    (owns : Owns state thread.phase) (engaged : Engaged state) {pending : Bool}
    (means : pending = true ↔ Stopping state) (yielded : yields pending phase = true)
    (signalled : thread.cancelled = true → Stopping state) : Owns state phase := by
  have ordinary : pending = false → state = .running := by
    intro free
    refine engaged.resolve_right fun stopping => ?_
    exact absurd ((means.mpr stopping).symm.trans free) (by simp)
  cases turn with
  | announce was | refused was | leave was =>
      cases owns <;> simp_all [Phase.underway, Phase.outcome]
  | enter | slept => exact .underway rfl
  | raised => exact .crashed (ordinary (by simpa [yields] using yielded)) rfl
  | @returned _ _ _ outcome was ran =>
      by_cases isStop : finalKind outcome = .stopped
      · exact .stopped (signalled (boundary_stopped ran (finalKind_stopped isStop)).1) rfl isStop
      · exact .finished (ordinary (by simpa [yields, isStop] using yielded)) rfl isStop
  | report was =>
      cases owns with
      | underway waiting => simp [was, Phase.underway] at waiting
      | finished running returned isFinal =>
          exact .finished running (by simpa [was, Phase.outcome] using returned) isFinal
      | crashed running raised => simp [was] at raised
      | stopped pending returned isStop =>
          exact .stopped pending (by simpa [was, Phase.outcome] using returned) isStop

end Turns

theorem turned_sound {elapsed : ℚ} {state : State Cpu Mem} {t : Nat} {thread : Thread}
    {phase : Phase} (sound : Sound state) (found : state.threads t = some thread)
    (turn : Turn elapsed thread phase)
    (inTime : yields (stopPending state.jobs thread.job.jobID) phase = true) :
    Sound (turned state t thread phase) := by
  have jobs := turned_jobs state t thread phase
  have advance : Advance state (turned state t thread phase) t thread
      { thread with phase := phase } :=
    ⟨turned_moves found turn, rfl, turn_settles turn, fun id pending => Or.inl (jobs ▸ pending)⟩
  refine advance_sound sound advance ⟨jobs ▸ sound.keyed, jobs ▸ sound.unpaused, ?_, ?_⟩
  · intro id job stored engaged
    rw [jobs] at stored
    refine advance_owned sound advance (sound.owned id job stored engaged) ?_
    rintro rfl owns
    have means : stopPending state.jobs thread.job.jobID = true ↔ Stopping job.state := by
      simp [stopPending, stored, Stopping]
    refine turn_owns turn owns engaged means inTime fun signalled => ?_
    obtain ⟨known, same, stopping⟩ :=
      sound.pending t thread found signalled (owns_unsettled owns)
    obtain rfl : job = known := Option.some.inj (stored.symm.trans same)
    exact stopping
  · intro outcome returned isStop
    have signalled : thread.cancelled = true :=
      turn_polled turn (fun earlier => sound.polled t thread earlier found) returned isStop
    exact signalled

/-! ### The answers of the server -/

/-- A stop ends only by the report of a stopped executor. -/
theorem report_pending {now : Time} {jobs : MemoryRepository Cpu Mem} {kind : Kind}
    {id workerID key : String} (pending : StopPending jobs key) :
    StopPending (handleReport jobs now ⟨kind, id, workerID⟩).2 key ∨ key = id ∧ kind = .stopped := by
  obtain ⟨job, found, stopping⟩ := pending
  by_cases own : key = id
  · subst own
    obtain ⟨job', stored, handled⟩ : ∃ job',
        (handleReport jobs now ⟨kind, key, workerID⟩).2.find key = some job' ∧
          Handled kind key job job' := report_handled found
    cases handled with
    | ignored same => exact Or.inl ⟨job', stored, same ▸ stopping⟩
    | started _ _ placed => simp [Stopping, placed] at stopping
    | closed _ _ expected =>
        refine Or.inr ⟨rfl, ?_⟩
        rcases stopping with state | state <;> cases kind <;> simp_all [expects]
  · have other : (handleReport jobs now ⟨kind, id, workerID⟩).2.find key = jobs.find key :=
      report_other own
    exact Or.inl ⟨job, other.trans found, stopping⟩

section Answers
variable {now : Time} {state : State Cpu Mem} {t : Nat} {thread : Thread} {kind : Kind}
  {phase : Phase}

theorem answer_stopped (answer : Answer now state thread kind phase) (isStop : kind = .stopped) :
    phase.settled = true ∧
      ∃ outcome, thread.phase.outcome = some outcome ∧ finalKind outcome = .stopped := by
  cases answer with
  | started => cases isStop
  | @final outcome was => exact ⟨rfl, outcome, by rw [was]; rfl, isStop⟩

/-- The owner's report is never ignored. -/
theorem answer_expected (answer : Answer now state thread kind phase) {jobState : Jobs.State}
    (owns : Owns jobState thread.phase) : expects kind jobState = true := by
  cases answer with
  | started was => cases owns <;> simp_all [Phase.underway, Phase.outcome]
  | @final outcome was =>
      rw [was] at owns
      cases owns with
      | underway waiting => simp [Phase.underway] at waiting
      | finished running returned ordinary =>
          obtain rfl := Option.some.inj returned
          have isFinal := finalKind_final outcome
          cases kind : finalKind outcome <;> simp_all [expects]
      | crashed running raised => cases raised
      | stopped pending returned isStop =>
          obtain rfl := Option.some.inj returned
          rw [isStop]
          rcases pending with state | state <;> simp [expects, state]

theorem answer_accepted (answer : Answer now state thread kind phase) {job : Job Cpu Mem}
    (named : thread.job.jobID ≠ "") (found : state.jobs.find thread.job.jobID = some job)
    (placed : job.state = .scheduled) (isStart : kind = .started) : phase.underway = true := by
  cases answer with
  | started was =>
      rw [started_answer named found placed]
      rfl
  | @final outcome was => exact absurd isStart (finalKind_final outcome)

theorem answer_unreported (answer : Answer now state thread kind phase) :
    phase.outcome = none := by
  cases answer <;> rfl

theorem answered_sound (sound : Sound state) (found : state.threads t = some thread)
    (answer : Answer now state thread kind phase) :
    Sound (answered now state t thread kind phase) := by
  have advance : Advance state (answered now state t thread kind phase) t thread
      { thread with phase := phase } := by
    refine ⟨answered_moves found answer, rfl, fun settled => ?_, fun id pending => ?_⟩
    · exact absurd (settled.symm.trans (answer_unsettled answer).1) (by simp)
    · exact (report_pending pending).imp_right fun ⟨own, isStop⟩ =>
        ⟨own, answer_stopped answer isStop⟩
  have own := moves_own sound.registered advance.moves
  refine advance_sound sound advance ⟨handleReport_keyed sound.keyed _, ?_, ?_, ?_⟩
  · intro id job' stored
    obtain ⟨job, known, ⟨_, rfl⟩ | ⟨_, handled⟩⟩ := report_effect stored
    · exact sound.unpaused id job known
    · exact handled_unpaused handled (sound.unpaused id job known)
  · intro id job' stored engaged
    obtain ⟨job, known, ⟨other, rfl⟩ | ⟨rfl, handled⟩⟩ := report_effect stored
    · exact advance_owned sound advance (sound.owned id job known engaged)
        (fun same => absurd same other)
    · cases handled with
      | ignored same unexpected =>
          -- The job is engaged already, so the thread owns it and the report counts.
          obtain ⟨named, u, current, listed, stored', _, owns⟩ :=
            sound.owned _ job known (same ▸ engaged)
          obtain rfl : t = u := Option.some.inj (own.symm.trans listed)
          obtain rfl : thread = current := Option.some.inj (found.symm.trans stored')
          have counted := answer_expected answer owns
          rcases unexpected with blank | refused
          · exact absurd blank named
          · exact absurd (counted.symm.trans refused) (by simp)
      | started named isStart placed running =>
          refine ⟨named, t, { thread with phase := phase }, own, ?_, rfl, ?_⟩
          · rw [advance.moves.threads, if_pos rfl]
          · exact .underway (answer_accepted answer named known placed isStart)
      | closed _ _ _ inactive =>
          rcases engaged with state | state | state <;> simp [state] at inactive
  · intro outcome returned
    exact absurd ((answer_unreported answer).symm.trans returned) (by simp)

end Answers

/-! ### The calls of clients and of the scheduler -/

/-- The executor of the job is still to return. -/
def executing (state : State Cpu Mem) (id : String) : Bool :=
  ((state.runningJobs id).bind state.threads).any fun thread => thread.phase.underway

theorem follows_pending {target : Option String} {jobs after : MemoryRepository Cpu Mem}
    (follows : Follows target jobs after) {id : String} (pending : StopPending jobs id) :
    StopPending after id := by
  obtain ⟨job, found, stopping⟩ := pending
  obtain ⟨job', stored, eased⟩ := follows.present id job found
  exact ⟨job', stored, eased.stays stopping⟩

theorem follows_kept {target : Option String} {state : State Cpu Mem}
    {after : MemoryRepository Cpu Mem} (follows : Follows target state.jobs after) :
    Kept state { state with jobs := after } where
  stops _ := Or.imp_left (follows_pending follows)
  unsignalled _ := id
  doubled _ doubled := ⟨follows_pending follows doubled.1, doubled.2⟩
  signallable _ signallable thread found :=
    (signallable thread found).imp_right (follows_pending follows)

/-- Where a record found after a call comes from. -/
theorem follows_back {target : Option String} {jobs after : MemoryRepository Cpu Mem}
    (follows : Follows target jobs after) {id : String} {job' : Job Cpu Mem}
    (stored : after.find id = some job') :
    job'.state = .queued ∨ ∃ job, jobs.find id = some job ∧
      Eased (target = some id) job.state job'.state := by
  cases found : jobs.find id with
  | none => exact Or.inl (follows.new id job' found stored)
  | some job =>
      obtain ⟨known, same, eased⟩ := follows.present id job found
      obtain rfl : known = job' := Option.some.inj (same.symm.trans stored)
      exact Or.inr ⟨job, rfl, eased⟩

/-- Calls keep the agent's picture, as long as a stop that takes effect finds the
executor of the job still to return. -/
theorem follows_sound {target : Option String} {state : State Cpu Mem}
    {after : MemoryRepository Cpu Mem} (sound : Sound state)
    (follows : Follows target state.jobs after) (keyed : after.Keyed)
    (inTime : ∀ id job, target = some id → state.jobs.find id = some job → job.state = .running →
      StopPending after id → executing state id = true) :
    Sound { state with jobs := after } where
  registered := ⟨sound.registered.mirrored, sound.registered.listed, sound.registered.named,
    sound.registered.fresh, sound.registered.vacant⟩
  keyed := keyed
  unpaused id job' stored paused := by
    rcases follows_back follows stored with queued | ⟨job, found, eased⟩
    · simp [queued] at paused
    · exact sound.unpaused id job found (eased.paused paused)
  owned id job' stored engaged := by
    rcases follows_back follows stored with queued | ⟨job, found, eased⟩
    · simp [queued, Engaged, Stopping] at engaged
    · rcases engaged with running | stopping
      · have before := eased.running running
        rw [running]
        exact before ▸ sound.owned id job found (Or.inl before)
      · rcases eased.stopped stopping with before | ⟨asked, running | paused⟩
        · -- A stop that was under way stays with its thread.
          obtain ⟨named, t, thread, listed, current, own, owns⟩ :=
            sound.owned id job found (Or.inr before)
          exact ⟨named, t, thread, listed, current, own, owns_stopping owns before stopping⟩
        · -- A new stop finds the executor still to return.
          obtain ⟨named, t, thread, listed, current, own, _⟩ :=
            sound.owned id job found (Or.inl running)
          have waiting := inTime id job asked found running ⟨job', stored, stopping⟩
          simp only [executing, listed, Option.bind_some, current, Option.any_some] at waiting
          exact ⟨named, t, thread, listed, current, own, .underway waiting⟩
        · exact absurd paused (sound.unpaused id job found)
  polled := sound.polled
  pending t thread found signalled unsettled :=
    follows_pending follows (sound.pending t thread found signalled unsettled)
  loop := kept_loop (follows_kept follows) sound.loop

/-! ### The heartbeat loop -/

/-- A loop step that starts no thread and sets no event. -/
theorem relisted {state : State Cpu Mem} {loop : Loop} (sound : Sound state)
    (vacant : ∀ job rest stops, loop = .spawning job rest stops →
      state.runningJobs job.jobID = none)
    (loopSound : LoopSound state loop) : Sound { state with loop := loop } where
  registered := turned_loop_registered sound.registered vacant
  keyed := sound.keyed
  unpaused := sound.unpaused
  owned := sound.owned
  polled := sound.polled
  pending := sound.pending
  loop := by
    cases loop <;> exact loopSound

theorem assigned_unsignalled {state : State Cpu Mem} (sound : Sound state) :
    ∀ job ∈ (listAssignedToWorker state.jobs state.workerID).map AssignedJob.of,
      Unsignalled state job.jobID := by
  intro assigned member t thread listed found signalled
  obtain ⟨job, chosen, rfl⟩ := List.mem_map.mp member
  obtain ⟨active, scheduled⟩ := List.mem_filter.mp chosen
  obtain ⟨⟨key, stored⟩, _⟩ := mem_listActive_iff.mp active
  have own : job.id = key := sound.keyed key job stored
  simp only [Bool.and_eq_true, decide_eq_true_eq] at scheduled
  by_contra unsettled
  obtain ⟨known, found', jobID⟩ := sound.registered.named _ t listed
  obtain rfl : thread = known := Option.some.inj (found.symm.trans found')
  obtain ⟨other, same, stopping⟩ := sound.pending t thread found signalled (by simpa using unsettled)
  rw [jobID] at same
  obtain rfl : job = other := Option.some.inj ((own ▸ stored).symm.trans same)
  simp [Stopping, scheduled.1] at stopping

theorem stoppable_pending {state : State Cpu Mem} (sound : Sound state) :
    ∀ id ∈ (listStoppableForWorker state.jobs state.workerID).map Job.id,
      StopPending state.jobs id := by
  intro id member
  obtain ⟨job, chosen, rfl⟩ := List.mem_map.mp member
  obtain ⟨active, stoppable⟩ := List.mem_filter.mp chosen
  obtain ⟨⟨key, stored⟩, _⟩ := mem_listActive_iff.mp active
  have own : job.id = key := sound.keyed key job stored
  simp only [Bool.and_eq_true, Bool.or_eq_true, decide_eq_true_eq] at stoppable
  exact ⟨job, own ▸ stored, stoppable.1⟩

/-- A pending stop has a listed thread, still to have its report answered. -/
theorem pending_owner {state : State Cpu Mem} (sound : Sound state) {id : String}
    (pending : StopPending state.jobs id) : ∃ t thread, state.runningJobs id = some t ∧
      state.threads t = some thread ∧ thread.phase.settled = false := by
  obtain ⟨job, found, stopping⟩ := pending
  obtain ⟨_, t, thread, listed, stored, _, owns⟩ := sound.owned id job found (Or.inr stopping)
  exact ⟨t, thread, listed, stored, owns_unsettled owns⟩

theorem offered_doubled {state : State Cpu Mem} (sound : Sound state) {id : String}
    (unsignalled : Unsignalled state id) (pending : StopPending state.jobs id) :
    Doubled state id := by
  refine ⟨pending, fun t thread listed found => ?_⟩
  by_contra signalled
  obtain ⟨u, owner, listed', found', unsettled⟩ := pending_owner sound pending
  obtain rfl : t = u := Option.some.inj (listed.symm.trans listed')
  obtain rfl : thread = owner := Option.some.inj (found.symm.trans found')
  have settled := unsignalled t thread listed found (by simpa using signalled)
  exact absurd (settled.symm.trans unsettled) (by simp)

/-- A thread listed for another job is listed as before. -/
theorem spawn_listed {state : State Cpu Mem} (registered : Registered state) {job : AssignedJob}
    {id : String} {t : Nat} {thread : Thread} (other : id ≠ job.jobID)
    (listed : (state.spawn job).runningJobs id = some t)
    (found : (state.spawn job).threads t = some thread) :
    state.runningJobs id = some t ∧ state.threads t = some thread := by
  rw [spawn_running, if_neg other] at listed
  obtain ⟨known, stored, _⟩ := registered.named id t listed
  rw [spawn_threads, if_neg (registered_old registered stored)] at found
  exact ⟨listed, found⟩

theorem spawn_sound {state : State Cpu Mem} {job : AssignedJob} {rest : List AssignedJob}
    {stops : List String} (sound : Sound state) (stopsSound : StopsSound state stops)
    (offersSound : OffersSound state rest stops) (absent : state.runningJobs job.jobID = none)
    (unstopped : job.jobID ∉ stops) :
    Sound { state.spawn job with loop := .offering rest stops } where
  registered := spawn_registered sound.registered absent
  keyed := sound.keyed
  unpaused := sound.unpaused
  owned id stored found engaged := by
    obtain ⟨named, t, thread, listed, current, same, owns⟩ := sound.owned id stored found engaged
    refine ⟨named, t, thread, ?_, ?_, same, owns⟩
    · rw [spawn_running, if_neg, listed]
      rintro rfl
      exact absurd (absent.symm.trans listed) (by simp)
    · rw [spawn_threads, if_neg (registered_old sound.registered current), current]
  polled t thread outcome found returned isStop := by
    rw [spawn_threads] at found
    split at found
    · cases found
      cases returned
    · exact sound.polled t thread outcome found returned isStop
  pending t thread found signalled unsettled := by
    rw [spawn_threads] at found
    split at found
    · cases found
      cases signalled
    · exact sound.pending t thread found signalled unsettled
  loop := by
    have other : ∀ {id : String}, id ∈ stops → id ≠ job.jobID := by
      rintro id member rfl
      exact unstopped member
    constructor
    · intro id member
      refine (stopsSound id member).imp_right fun released t thread listed found => ?_
      obtain ⟨listed', found'⟩ := spawn_listed sound.registered (other member) listed found
      exact released t thread listed' found'
    · intro offered member doubled
      obtain ⟨pending, unsignalled⟩ := offersSound offered member doubled
      refine ⟨pending, fun t thread listed found => ?_⟩
      obtain ⟨listed', found'⟩ := spawn_listed sound.registered (other doubled) listed found
      exact unsignalled t thread listed' found'

/-- Setting the event of a thread that may be signalled. -/
theorem signal_sound {state : State Cpu Mem} {t : Nat} {stops : List String} (sound : Sound state)
    (stopsSound : StopsSound state stops) (signallable : Signallable state t) :
    Sound { state.signal t with loop := .stopping stops } := by
  obtain ⟨jobs, running, _, _⟩ := signal_frame state t
  exact {
    registered := signal_registered sound.registered
    keyed := jobs ▸ sound.keyed
    unpaused := jobs ▸ sound.unpaused
    owned := fun id job found engaged => by
      rw [jobs] at found
      obtain ⟨named, other, before, listed, known, own, owns⟩ := sound.owned id job found engaged
      obtain ⟨thread, found', same, phase⟩ := signal_found t known
      exact ⟨named, other, thread, by rw [running, listed], found', same ▸ own, phase ▸ owns⟩
    polled := fun other thread outcome found returned isStop => by
      obtain ⟨before, known, _, phase, kept, _⟩ := signal_threads found
      exact kept (sound.polled other before outcome known (phase ▸ returned) isStop)
    pending := fun other thread found signalled unsettled => by
      obtain ⟨before, known, job, phase, _, cause⟩ := signal_threads found
      rw [phase] at unsettled
      rw [jobs, job]
      rcases cause signalled with rfl | earlier
      · exact (signallable before known).resolve_left fun settled =>
          absurd (settled.symm.trans unsettled) (by simp)
      · exact sound.pending other before known earlier unsettled
    loop := fun id member => by
      refine (stopsSound id member).imp (fun pending => jobs ▸ pending) ?_
      intro released other thread listed found
      obtain ⟨before, known, _, phase, _⟩ := signal_threads found
      rw [running] at listed
      exact phase ▸ released other before listed known }

theorem loopStep_sound {state : State Cpu Mem} (sound : Sound state) : Sound state.loopStep := by
  have loop := sound.loop
  unfold State.loopStep
  split
  · exact relisted sound nofun trivial
  · exact relisted sound nofun (assigned_unsignalled sound)
  · rename_i assigned known
    rw [known] at loop
    -- The second listing; a job on both lists started in between.
    refine relisted sound nofun
      ⟨fun id member => Or.inl (stoppable_pending sound id member), fun job member stopped => ?_⟩
    exact offered_doubled sound (loop job member) (stoppable_pending sound job.jobID stopped)
  · rename_i stops known
    rw [known] at loop
    exact relisted sound nofun loop.1
  · rename_i job rest stops known
    rw [known] at loop
    have offers : OffersSound state rest stops := fun offered member =>
      loop.2 offered (List.mem_cons_of_mem job member)
    split
    · exact relisted sound nofun ⟨loop.1, offers⟩
    · -- A job to be stopped has its thread listed, so this one is not to be stopped.
      rename_i unlisted
      have absent : state.runningJobs job.jobID = none := by simpa using unlisted
      refine relisted sound (by rintro _ _ _ ⟨⟩; exact absent) ⟨loop.1, offers, fun stopped => ?_⟩
      have doubled := loop.2 job List.mem_cons_self stopped
      obtain ⟨t, _, listed, _⟩ := pending_owner sound doubled.1
      exact absurd (absent.symm.trans listed) (by simp)
  · rename_i job rest stops known
    rw [known] at loop
    exact spawn_sound sound loop.1 loop.2.1 (sound.registered.vacant job rest stops known) loop.2.2
  · exact relisted sound nofun trivial
  · rename_i id rest known
    rw [known] at loop
    have remaining : StopsSound state rest := fun other member =>
      loop other (List.mem_cons_of_mem id member)
    split
    · exact relisted sound nofun remaining
    · -- The event may be that of a thread whose report has been answered meanwhile.
      rename_i t event
      refine relisted sound nofun ⟨remaining, fun thread found => ?_⟩
      rw [sound.registered.mirrored] at event
      obtain ⟨current, stored, job⟩ := sound.registered.named id t event
      obtain rfl : thread = current := Option.some.inj (found.symm.trans stored)
      rcases loop id List.mem_cons_self with pending | released
      · exact Or.inr (job ▸ pending)
      · exact Or.inl (released t thread event found)
  · rename_i t rest known
    rw [known] at loop
    exact signal_sound sound loop.1 loop.2

/-! ### Whole runs -/

theorem owns_unsent {state : Jobs.State} {phase : Phase} (owns : Owns state phase)
    (stopping : Stopping state) :
    phase.unsent = true ∨ ∃ outcome, phase = .finalSent outcome ∧ finalKind outcome = .stopped := by
  have notRunning : state ≠ .running := by
    rintro rfl
    simp [Stopping] at stopping
  cases owns with
  | underway waiting => cases phase <;> simp_all [Phase.underway, Phase.unsent]
  | finished running => exact absurd running notRunning
  | crashed running => exact absurd running notRunning
  | stopped _ returned isStop =>
      cases phase <;> simp_all [Phase.outcome, Phase.unsent]

/-- The report of a stopped executor ends the stop. -/
theorem stopped_report_ends {jobs : MemoryRepository Cpu Mem} {id workerID : String}
    {job : Job Cpu Mem} (named : id ≠ "") (found : jobs.find id = some job)
    (stopping : Stopping job.state) (now : Time) :
    ∃ job', (handleReport jobs now ⟨.stopped, id, workerID⟩).2.find id = some job' ∧
      job'.state ≠ .cancelRequested ∧ job'.state ≠ .preempted := by
  obtain ⟨job', stored, handled⟩ : ∃ job',
      (handleReport jobs now ⟨.stopped, id, workerID⟩).2.find id = some job' ∧
        Handled .stopped id job job' := report_handled found
  refine ⟨job', stored, ?_⟩
  cases handled with
  | ignored _ unexpected =>
      have counted : expects .stopped job.state = true := by
        rcases stopping with state | state <;> simp [expects, state]
      rcases unexpected with blank | refused
      · exact absurd blank named
      · exact absurd (counted.symm.trans refused) (by simp)
  | started _ isStart => cases isStart
  | closed _ _ _ inactive =>
      constructor <;> intro state <;> simp [state] at inactive

section Machine
variable [Zero Cpu] [LT Cpu] [DecidableLT Cpu] [Zero Mem] [LT Mem] [DecidableLT Mem]

/-- A stop that takes effect on a RUNNING job finds its executor still to return,
and an executor does not end by itself while a stop of its job is pending. -/
def stopsInTime (python : Python) (state : State Cpu Mem) : Label Cpu Mem → Bool
  | .call now op =>
      (stopTarget op).all fun id =>
        !((state.jobs.find id).any (fun job => job.state = .running) &&
          stopPending (op.apply now state.jobs) id) || executing state id
  | .thread t elapsed =>
      (state.threads t).all fun thread =>
        (thread.next python elapsed).all (yields (stopPending state.jobs thread.job.jobID))
  | _ => true

theorem step_sound {python : Python} (state : State Cpu Mem) (label : Label Cpu Mem)
    (next : State Cpu Mem) (sound : Sound state) (inTime : stopsInTime python state label = true)
    (stepped : step python state label = some next) : Sound next := by
  cases label with
  | call now op =>
      simp only [step] at stepped
      split at stepped
      · rename_i allowed
        cases stepped
        refine follows_sound sound (requested_follows allowed) (apply_keyed sound.keyed now op) ?_
        intro id job target found running pending
        have effective := (stopPending_iff _ _).mpr pending
        simpa [stopsInTime, target, found, running, effective] using inTime
      · cases stepped
  | loop =>
      cases stepped
      exact loopStep_sound sound
  | thread t elapsed =>
      obtain ⟨thread, phase, found, next, rfl⟩ := threadStep_cases stepped
      refine turned_sound sound found (next_turn next) ?_
      simpa [stopsInTime, found, next] using inTime
  | deliver t now =>
      obtain ⟨thread, kind, phase, found, answer, rfl⟩ := deliver_cases stepped
      exact answered_sound sound found answer

/-- Under `stopsInTime` a job that is being stopped has a thread with its last
report still to send, or a report under way that ends the stop. -/
theorem stop_never_stranded (python : Python) (workerID : String) (labels : List (Label Cpu Mem))
    (state : State Cpu Mem) (id : String) (job : Job Cpu Mem)
    (ran : run (step python) (State.start workerID) labels = some state)
    (inTime : Along (step python) (fun state label => stopsInTime python state label = true)
      (State.start workerID) labels)
    (found : state.jobs.find id = some job)
    (stopping : job.state = .cancelRequested ∨ job.state = .preempted) :
    (∃ t thread, state.threads t = some thread ∧ thread.job.jobID = id ∧
        thread.phase.unsent = true) ∨
      ∃ t thread outcome, state.threads t = some thread ∧ thread.job.jobID = id ∧
        thread.phase = .finalSent outcome ∧ ∀ now, ∃ job',
          (handleReport state.jobs now ⟨finalKind outcome, id, state.workerID⟩).2.find id =
            some job' ∧ job'.state ≠ .cancelRequested ∧ job'.state ≠ .preempted := by
  have sound : Sound state := guarded_invariant step_sound ran inTime (start_sound workerID)
  obtain ⟨named, t, thread, _, stored, own, owns⟩ := sound.owned id job found (Or.inr stopping)
  rcases owns_unsent owns stopping with unsent | ⟨outcome, sent, isStop⟩
  · exact Or.inl ⟨t, thread, stored, own, unsent⟩
  · refine Or.inr ⟨t, thread, outcome, stored, own, sent, fun now => ?_⟩
    rw [isStop]
    exact stopped_report_ends named found stopping now

end Machine

/-- job-1 is placed and offered, its start is reported, and its executor begins. -/
def launchLabels : List (Label Int Int) :=
  [.call 1 (.submit "job-1" (submission ⟨1, 0, 2, 1024⟩)),
    .call 2 (.assignToWorkers "job-1" ["worker-1"])] ++ List.replicate 7 .loop ++
    [.thread 0 0, .deliver 0 3, .thread 0 0]

/-- The cancellation is passed on between two steps of the executor. -/
def obeyedLabels : List (Label Int Int) := launchLabels ++
  [.thread 0 0, .call 4 (.cancel "job-1")] ++ List.replicate 6 .loop ++ [.thread 0 1, .thread 0 1]

theorem obeyedLabels_reports : ∃ state job,
    run (step plainPython) (State.start "worker-1") obeyedLabels = some state ∧
      state.jobs.find "job-1" = some job ∧ job.state = .cancelRequested ∧
      ((∃ t thread, state.threads t = some thread ∧ thread.job.jobID = "job-1" ∧
          thread.phase.unsent = true) ∨
        ∃ t thread outcome, state.threads t = some thread ∧ thread.job.jobID = "job-1" ∧
          thread.phase = .finalSent outcome ∧ ∀ now, ∃ job',
            (handleReport state.jobs now ⟨finalKind outcome, "job-1", state.workerID⟩).2.find
                "job-1" = some job' ∧
              job'.state ≠ .cancelRequested ∧ job'.state ≠ .preempted) := by
  have reached : (run (step plainPython) (State.start "worker-1") obeyedLabels).any (fun state =>
      (state.jobs.find "job-1").any fun job => job.state = .cancelRequested) = true := by
    decide +kernel
  obtain ⟨state, ran, holds⟩ := (Option.any_eq_true _ _).mp reached
  obtain ⟨job, found, stopping⟩ := (Option.any_eq_true _ _).mp holds
  have requested : job.state = .cancelRequested := by simpa using stopping
  exact ⟨state, job, ran, found, requested,
    stop_never_stranded plainPython "worker-1" obeyedLabels state "job-1" job ran
      (check_along (by decide +kernel)) found (Or.inl requested)⟩

/-- The executor has returned when the cancellation arrives. -/
def crossedLabels : List (Label Int Int) := launchLabels ++ List.replicate 6 (.thread 0 0) ++
  [.call 4 (.cancel "job-1"), .thread 0 0, .deliver 0 5, .thread 0 0]

/-- The server refuses the report of the completion, and no thread is left. -/
theorem crossedLabels_strands_stop : ∃ state job,
    run (step plainPython) (State.start "worker-1") crossedLabels = some state ∧
      state.jobs.find "job-1" = some job ∧ job.state = .cancelRequested ∧
      ∀ t thread, state.threads t = some thread → thread.phase.exited = true := by
  have reached : (run (step plainPython) (State.start "worker-1") crossedLabels).any (fun state =>
      (state.jobs.find "job-1").any (fun job => job.state = .cancelRequested) &&
        (state.spawned = 1 && (state.threads 0).all fun thread => thread.phase.exited)) = true := by
    decide +kernel
  obtain ⟨state, ran, holds⟩ := (Option.any_eq_true _ _).mp reached
  simp only [Bool.and_eq_true, decide_eq_true_eq] at holds
  obtain ⟨stopping, spawned, inactive⟩ := holds
  obtain ⟨job, found, requested⟩ := (Option.any_eq_true _ _).mp stopping
  refine ⟨state, job, ran, found, by simpa using requested, fun t thread known => ?_⟩
  obtain rfl : t = 0 := by
    by_contra later
    have unborn := (run_registered ran).fresh t (by omega)
    exact absurd (unborn.symm.trans known) (by simp)
  simpa [known] using inactive

end OrionQueue.StopRuns
