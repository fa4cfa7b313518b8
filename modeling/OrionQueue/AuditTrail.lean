import OrionQueue.JobRepository
import OrionQueue.JobService
import OrionQueue.Runs

/-!
The audit trail. The events of a job, read in the order of their insertion,
tell its states from the one it was created in to the one it is stored in. Each
event is written in the transaction of the change it reports, so one lemma per
transaction carries the whole history.
-/

namespace OrionQueue.AuditTrail

open Jobs JobTable Database JobRepository Runs

variable {Cpu Mem : Type}

def eventsOf (db : Database Cpu Mem) (id : String) : List JobEvent :=
  db.events.filter fun event => event.jobID = id

/-- Replays STATE_CHANGED events from a state. Each must start where the one
before it ended, and must end somewhere else. -/
def follow : State → List JobEvent → Option State
  | state, [] => some state
  | state, event :: rest =>
      if event.eventType = .stateChanged ∧ event.fromState = some state ∧ event.toState ≠ state then
        follow event.toState rest
      else none

/-- The calls contain the Create that stored `created`. -/
def CreatedBy (calls : List (Call Cpu Mem)) (created : Job Cpu Mem) : Prop :=
  ∃ before after stored, calls = before ++ .create created false :: after ∧
    (JobRepository.create (execute empty before) created).1 = .ok (stored, true)

/-- The events of every job replay to its stored state: one SUBMITTED event of
the Create that stored it, then the changes. A job that is not stored has none. -/
def Replays (calls : List (Call Cpu Mem)) : Prop :=
  ∀ id, ((execute empty calls).find id = none → eventsOf (execute empty calls) id = []) ∧
    ∀ row, (execute empty calls).find id = some row → ∃ created changes,
      CreatedBy calls created ∧ created.id = id ∧
      eventsOf (execute empty calls) id = submittedEvent created :: changes ∧
      follow created.state changes = some row.state

def step (db : Database Cpu Mem) (call : Call Cpu Mem) : Option (Database Cpu Mem) :=
  some (call.apply db)

/-- An Update that commits gives the job it read back under the ID it had. -/
def KeepsID (db : Database Cpu Mem) : Call Cpu Mem → Prop
  | .create _ _ => True
  | .update id fn aborted => aborted = false → ∀ row updated, db.find id = some row →
      fn (jobOf row) = .ok updated → updated.id = id

theorem keepsID_update {fn : Job Cpu Mem → Except JobError (Job Cpu Mem)}
    (keeps : ∀ job updated, fn job = .ok updated → updated.id = job.id) (id : String) (aborted : Bool)
    (db : Database Cpu Mem) : KeepsID db (.update id fn aborted) := by
  intro _ row updated found accepted
  rw [keeps (jobOf row) updated accepted, jobOf_id, find_id found]

theorem follow_append (state : State) (events more : List JobEvent) :
    follow state (events ++ more) = (follow state events).bind fun reached => follow reached more := by
  induction events generalizing state with
  | nil => rfl
  | cons event rest ih =>
      simp only [List.cons_append, follow]
      split
      · exact ih event.toState
      · rfl

theorem follow_changeEvent (before : State) (after : Job Cpu Mem) :
    follow before (changeEvent before after) = some after.state := by
  unfold changeEvent
  split
  case isTrue same => rw [same, follow]
  case isFalse apart => simp [follow, Ne.symm apart]

theorem eventsOf_append {db after : Database Cpu Mem} {more : List JobEvent}
    (events : after.events = db.events ++ more) (id : String) :
    eventsOf after id = eventsOf db id ++ more.filter fun event => event.jobID = id := by
  rw [eventsOf, events, List.filter_append, eventsOf]

theorem changeEvent_own (before : State) (after : Job Cpu Mem) :
    ((changeEvent before after).filter fun event => event.jobID = after.id) =
      changeEvent before after := by
  unfold changeEvent
  split <;> simp

theorem changeEvent_other {before : State} {after : Job Cpu Mem} {id : String} (apart : id ≠ after.id) :
    ((changeEvent before after).filter fun event => event.jobID = id) = [] := by
  unfold changeEvent
  split <;> simp [Ne.symm apart]

theorem execute_snoc (calls : List (Call Cpu Mem)) (call : Call Cpu Mem) :
    execute empty (calls ++ [call]) = call.apply (execute empty calls) := by
  simp [execute]

theorem createdBy_snoc {calls : List (Call Cpu Mem)} {created : Job Cpu Mem}
    (known : CreatedBy calls created) (call : Call Cpu Mem) : CreatedBy (calls ++ [call]) created := by
  obtain ⟨before, after, stored, rfl, inserted⟩ := known
  exact ⟨before, after ++ [call], stored, by simp, inserted⟩

/-- A call that leaves the database alone leaves the trail alone. -/
theorem replays_unchanged {calls : List (Call Cpu Mem)} (replays : Replays calls)
    {call : Call Cpu Mem} (same : call.apply (execute empty calls) = execute empty calls) :
    Replays (calls ++ [call]) := by
  intro id
  rw [execute_snoc, same]
  refine ⟨(replays id).1, fun row found => ?_⟩
  obtain ⟨created, changes, known, rest⟩ := (replays id).2 row found
  exact ⟨created, changes, createdBy_snoc known call, rest⟩

theorem replays_create {calls : List (Call Cpu Mem)} (replays : Replays calls) (job : Job Cpu Mem) :
    Replays (calls ++ [.create job false]) := by
  rcases create_cases (execute empty calls) job with ⟨same, _⟩ | ⟨unused, distinct, inserted⟩
  · exact replays_unchanged replays same
  · have applied : (Call.create job false).apply (execute empty calls) =
        (((execute empty calls).append (rowOf job) unused distinct).record (submittedEvent job)
          (submitted_known unused distinct)) := congrArg Prod.snd inserted
    have events : ((Call.create job false).apply (execute empty calls)).events =
        (execute empty calls).events ++ [submittedEvent job] := by
      rw [applied]
      rfl
    intro id
    rw [execute_snoc, eventsOf_append events, applied, find_created]
    by_cases own : id = job.id
    · subst own
      have silent := (replays job.id).1 (find_none_iff.mpr unused)
      refine ⟨fun absent => by simp at absent, fun row found => ?_⟩
      obtain rfl : rowOf job = row := by simpa using found
      refine ⟨job, [], ⟨calls, [], _, rfl, congrArg Prod.fst inserted⟩, rfl, ?_, rfl⟩
      simp [silent, submittedEvent]
    · have other : ([submittedEvent job].filter fun event => event.jobID = id) = [] := by
        simp [submittedEvent, Ne.symm own]
      rw [if_neg own, other, List.append_nil]
      refine ⟨(replays id).1, fun row found => ?_⟩
      obtain ⟨created, changes, known, rest⟩ := (replays id).2 row found
      exact ⟨created, changes, createdBy_snoc known _, rest⟩

theorem replays_update {calls : List (Call Cpu Mem)} (replays : Replays calls) {id : String}
    {fn : Job Cpu Mem → Except JobError (Job Cpu Mem)}
    (kept : KeepsID (execute empty calls) (.update id fn false)) :
    Replays (calls ++ [.update id fn false]) := by
  rcases update_cases (execute empty calls) id fn with
    ⟨problem, refused⟩ | ⟨row, updated, target, after, found, accepted, aimed, result, jobs, events⟩
  · exact replays_unchanged replays (congrArg Prod.snd refused)
  · obtain rfl : updated.id = id := kept rfl row updated found accepted
    obtain rfl := Option.some.inj (aimed.symm.trans found)
    have applied : (Call.update updated.id fn false).apply (execute empty calls) = after :=
      congrArg Prod.snd result
    intro other
    rw [execute_snoc, applied, find_written aimed jobs, eventsOf_append events]
    by_cases own : other = updated.id
    · subst own
      rw [if_pos rfl, changeEvent_own]
      refine ⟨fun absent => by simp at absent, fun stored isStored => ?_⟩
      obtain rfl : rewritten target updated = stored := by simpa using isStored
      obtain ⟨created, changes, known, isID, trail, reached⟩ := (replays updated.id).2 target found
      refine ⟨created, changes ++ changeEvent target.state updated, createdBy_snoc known _, isID, ?_, ?_⟩
      · rw [trail, List.cons_append]
      · rw [follow_append, reached, Option.bind_some, follow_changeEvent, rewritten_state]
    · rw [if_neg own, changeEvent_other own, List.append_nil]
      refine ⟨(replays other).1, fun stored isStored => ?_⟩
      obtain ⟨created, changes, known, rest⟩ := (replays other).2 stored isStored
      exact ⟨created, changes, createdBy_snoc known _, rest⟩

theorem replays_step {calls : List (Call Cpu Mem)} (replays : Replays calls) (call : Call Cpu Mem)
    (kept : KeepsID (execute empty calls) call) : Replays (calls ++ [call]) := by
  cases call with
  | create job aborted =>
      cases aborted with
      | true => exact replays_unchanged replays rfl
      | false => exact replays_create replays job
  | update id fn aborted =>
      cases aborted with
      | true => exact replays_unchanged replays rfl
      | false => exact replays_update replays kept

theorem replays_run {calls : List (Call Cpu Mem)} (replays : Replays calls)
    (more : List (Call Cpu Mem)) (kept : Along step KeepsID (execute empty calls) more) :
    Replays (calls ++ more) := by
  induction more generalizing calls with
  | nil => simpa using replays
  | cons call rest ih =>
      have later := kept.2 (call.apply (execute empty calls)) rfl
      rw [← execute_snoc] at later
      simpa using ih (replays_step replays call kept.1) later

theorem trail_replays_to_state (calls : List (Call Cpu Mem)) (kept : Along step KeepsID empty calls) :
    Replays calls := by
  have start : Replays ([] : List (Call Cpu Mem)) :=
    fun id => ⟨fun _ => rfl, fun row found => by cases found⟩
  exact replays_run start calls kept

theorem assignUpdate_id (workerIDs : List String) (job updated : Job Cpu Mem)
    (accepted : JobService.assignUpdate workerIDs job = .ok updated) : updated.id = job.id := by
  unfold JobService.assignUpdate at accepted
  split at accepted <;> cases accepted
  rfl

theorem startUpdate_id (now : Time) (job updated : Job Cpu Mem)
    (accepted : JobService.startUpdate now job = .ok updated) : updated.id = job.id := by
  unfold JobService.startUpdate at accepted
  split at accepted <;> cases accepted
  rfl

def queuedJob (id : String) : Job Int Int := JobService.newJob 0 id (submission ⟨1, 0, 2, 1024⟩)

/-- job-1 is created, assigned, and assigned once more in vain; its start is
lost with its transaction, and job-2 is never stored. -/
def lostCalls : List (Call Int Int) :=
  [.create (queuedJob "job-1") false,
    .update "job-1" (JobService.assignUpdate ["worker-1"]) false,
    .update "job-1" (JobService.assignUpdate ["worker-2"]) false,
    .update "job-1" (JobService.startUpdate 1000) true,
    .create (queuedJob "job-2") true]

theorem lostCalls_replays : ∃ row, (execute empty lostCalls).find "job-1" = some row ∧
    row.state = .scheduled ∧ (execute empty lostCalls).find "job-2" = none ∧
    eventsOf (execute empty lostCalls) "job-1" =
      [⟨"job-1", .submitted, none, .queued, ""⟩,
        ⟨"job-1", .stateChanged, some .queued, .scheduled, ""⟩] ∧
    Replays lostCalls := by
  obtain ⟨row, found, scheduled, absent, trail⟩ :
      ∃ row, (execute empty lostCalls).find "job-1" = some row ∧ row.state = .scheduled ∧
        (execute empty lostCalls).find "job-2" = none ∧
        eventsOf (execute empty lostCalls) "job-1" =
          [⟨"job-1", .submitted, none, .queued, ""⟩,
            ⟨"job-1", .stateChanged, some .queued, .scheduled, ""⟩] :=
    ⟨_, rfl, rfl, rfl, rfl⟩
  have kept : Along step KeepsID empty lostCalls := by
    refine along_of_labels (fun call member db => ?_) empty
    simp only [lostCalls, List.mem_cons, List.not_mem_nil, or_false] at member
    rcases member with rfl | rfl | rfl | rfl | rfl
    · trivial
    · exact keepsID_update (assignUpdate_id _) "job-1" false db
    · exact keepsID_update (assignUpdate_id _) "job-1" false db
    · exact keepsID_update (startUpdate_id _) "job-1" true db
    · trivial
  exact ⟨row, found, scheduled, absent, trail, trail_replays_to_state lostCalls kept⟩

/-- job-2 is SCHEDULED when an Update of job-1 answers with the ID of job-2. -/
def reroutedCalls : List (Call Int Int) :=
  [.create (queuedJob "job-1") false, .create (queuedJob "job-2") false,
    .update "job-2" (JobService.assignUpdate ["worker-1"]) false,
    .update "job-1" (fun job => .ok { job with id := "job-2", state := .running }) false]

/-- The event of job-2 starts from the state of job-1, which is left as it was. -/
theorem reroutedCalls_trail : ∃ first second,
    (execute empty reroutedCalls).find "job-1" = some first ∧ first.state = .queued ∧
    (execute empty reroutedCalls).find "job-2" = some second ∧ second.state = .running ∧
    eventsOf (execute empty reroutedCalls) "job-2" =
      [⟨"job-2", .submitted, none, .queued, ""⟩,
        ⟨"job-2", .stateChanged, some .queued, .scheduled, ""⟩,
        ⟨"job-2", .stateChanged, some .queued, .running, ""⟩] ∧
    ¬ Replays reroutedCalls := by
  obtain ⟨first, second, found, queued, found', running, trail⟩ : ∃ first second,
      (execute empty reroutedCalls).find "job-1" = some first ∧ first.state = .queued ∧
      (execute empty reroutedCalls).find "job-2" = some second ∧ second.state = .running ∧
      eventsOf (execute empty reroutedCalls) "job-2" =
        [⟨"job-2", .submitted, none, .queued, ""⟩,
          ⟨"job-2", .stateChanged, some .queued, .scheduled, ""⟩,
          ⟨"job-2", .stateChanged, some .queued, .running, ""⟩] :=
    ⟨_, _, rfl, rfl, rfl, rfl, rfl⟩
  refine ⟨first, second, found, queued, found', running, trail, fun replays => ?_⟩
  obtain ⟨created, changes, _, _, events, reached⟩ := (replays "job-2").2 second found'
  rw [trail] at events
  obtain ⟨isCreated, rfl⟩ := List.cons.inj events
  have isQueued : created.state = .queued := (congrArg JobEvent.toState isCreated).symm
  simp [isQueued, follow] at reached

end OrionQueue.AuditTrail
