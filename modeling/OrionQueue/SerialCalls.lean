import OrionQueue.AuditTrail
import OrionQueue.JobTransactions

/-!
Every interleaving of the statements of Create and Update on any number of
connections is an execution of whole calls, one after the other, in the order in which
they ended. What is known of sequences of calls therefore holds of the tables that
several API replicas write at once; so the answers to one submission ID agree.
-/

namespace OrionQueue.JobTransactions

open Jobs JobTable Database JobRepository

variable {Cpu Mem : Type}

/-- Each outcome is the answer of its whole call, made after the calls before it. -/
def Answered : Database Cpu Mem → List (Entry Cpu Mem) → Prop
  | _, [] => True
  | db, entry :: rest =>
      (∀ answer, entry.outcome = some answer → entry.request.answer db = answer) ∧
        Answered (entry.call.apply db) rest

theorem answered_snoc {db : Database Cpu Mem} {history : List (Entry Cpu Mem)}
    {entry : Entry Cpu Mem} (answered : Answered db history)
    (last : ∀ answer, entry.outcome = some answer →
      entry.request.answer (execute db (history.map Entry.call)) = answer) :
    Answered db (history ++ [entry]) := by
  induction history generalizing db with
  | nil => exact ⟨last, trivial⟩
  | cons first rest ih => exact ⟨answered.1, ih answered.2 last⟩

structure Serial (start : Database Cpu Mem) (server : Server Cpu Mem) : Prop where
  tables : server.committed = execute start (server.history.map Entry.call)
  answered : Answered start server.history

theorem execute_close (start : Database Cpu Mem) (history : List (Entry Cpu Mem))
    (entry : Entry Cpu Mem) : execute start ((history ++ [entry]).map Entry.call) =
      entry.call.apply (execute start (history.map Entry.call)) := by
  rw [execute, List.map_append, List.foldl_append]
  rfl

theorem serial_called {start after : Database Cpu Mem} {server : Server Cpu Mem}
    {request : Request Cpu Mem} {answer : Answer Cpu Mem} (serial : Serial start server)
    (calls : Calls server.committed request answer after) :
    Serial start { server.close request (some answer) with committed := after } where
  tables := by
    have last := execute_close start server.history ⟨request, some answer⟩
    rw [← serial.tables] at last
    exact (last.trans calls.leaves).symm
  answered := by
    refine answered_snoc serial.answered ?_
    rintro _ ⟨rfl⟩
    rw [← serial.tables]
    exact calls.answers

theorem serial_aborted {start : Database Cpu Mem} {server : Server Cpu Mem}
    (serial : Serial start server) (request : Request Cpu Mem) :
    Serial start (server.close request none) where
  tables := by
    have last := execute_close start server.history ⟨request, none⟩
    rw [← serial.tables] at last
    refine (last.trans ?_).symm
    cases request <;> rfl
  answered := answered_snoc serial.answered fun answer none => by cases none

/-- An idle connection relies on nothing. -/
def Relies (server : Server Cpu Mem) : Option (Transaction Cpu Mem) → Prop
  | none => True
  | some tx => Holds server.committed tx

theorem keysDiffer_symm {left right : Row Cpu Mem} (differ : keysDiffer left right = true) :
    keysDiffer right left = true := by
  simp only [keysDiffer, decide_eq_true_eq] at differ ⊢
  refine ⟨Ne.symm differ.1, ?_⟩
  by_cases anonymous : right.submissionID = ""
  · exact Or.inl anonymous
  · right
    intro same
    rcases differ.2 with empty | apart
    · exact anonymous (same.trans empty)
    · exact apart same.symm

theorem compatible_symm {left right : Option (Transaction Cpu Mem)}
    (apart : compatible left right = true) : compatible right left = true := by
  cases left with
  | none => cases right <;> rfl
  | some left =>
      cases right with
      | none => rfl
      | some right =>
          simp only [compatible, Transaction.compatible, Bool.and_eq_true, List.all_eq_true,
            decide_eq_true_eq] at apart ⊢
          refine ⟨fun id theirs own => apart.1 id own theirs, fun row theirs other own => ?_⟩
          exact keysDiffer_symm (apart.2 other own row theirs)

theorem act_serial {start : Database Cpu Mem} {server server' : Server Cpu Mem}
    {mine next : Option (Transaction Cpu Mem)} {action : Act Cpu Mem}
    (acted : act server mine action = some (server', next)) (serial : Serial start server)
    (relies : Relies server mine) : Serial start server' ∧ Relies server' next := by
  unfold act at acted
  split at acted
  case h_1 request =>
    cases acted
    exact ⟨serial, Holds.begun request⟩
  case h_2 tx =>
    split at acted
    case h_1 => cases acted
    case h_2 continued answered =>
      cases acted
      exact ⟨serial, (statement_sound relies answered).2⟩
    case h_3 answer answered =>
      cases acted
      exact ⟨serial_called serial (statement_sound relies answered), trivial⟩
  case h_3 tx =>
    obtain ⟨request, stage, writes, locks⟩ := tx
    split at acted
    case h_1 answer recorded =>
      cases acted
      cases recorded
      exact ⟨serial_called serial (commit_calls relies), trivial⟩
    case h_2 => cases acted
  case h_4 tx =>
    cases acted
    exact ⟨serial_aborted serial tx.request, trivial⟩
  case h_5 => cases acted

/-- Only COMMIT changes the committed tables. -/
theorem act_committed {server server' : Server Cpu Mem} {mine next : Option (Transaction Cpu Mem)}
    {action : Act Cpu Mem} (acted : act server mine action = some (server', next)) :
    server'.committed = server.committed ∨
      ∃ request answer writes locks, mine = some ⟨request, .recorded answer, writes, locks⟩ ∧
        server'.committed = publish server.committed writes := by
  unfold act at acted
  split at acted
  case h_1 =>
    cases acted
    exact Or.inl rfl
  case h_2 tx =>
    left
    split at acted
    case h_1 => cases acted
    case h_2 | h_3 =>
      cases acted
      rfl
  case h_3 tx =>
    obtain ⟨request, stage, writes, locks⟩ := tx
    split at acted
    case h_1 answer recorded =>
      cases acted
      cases recorded
      exact Or.inr ⟨request, answer, writes, locks, rfl, rfl⟩
    case h_2 => cases acted
  case h_4 =>
    cases acted
    exact Or.inl rfl
  case h_5 => cases acted

theorem act_stable {server server' : Server Cpu Mem} {mine next theirs : Option (Transaction Cpu Mem)}
    {action : Act Cpu Mem} (acted : act server mine action = some (server', next))
    (relies : Relies server mine) (apart : compatible theirs mine = true)
    (holds : Relies server theirs) : Relies server' theirs := by
  cases theirs with
  | none => trivial
  | some other =>
      rcases act_committed acted with same | ⟨request, answer, writes, locks, rfl, published⟩
      · rw [Relies, same]
        exact holds
      · rw [Relies, published]
        exact (commit_beside relies apart).holds holds

theorem act_rule (start : Database Cpu Mem) :
    Sessions.Rule act compatible (Serial start) (@Relies Cpu Mem) where
  symmetric _ _ := compatible_symm
  own _ _ _ _ _ acted serial relies := act_serial acted serial relies
  stable _ _ _ _ _ acted relies _ apart holds := act_stable acted relies apart holds

section Connections

variable {Connection : Type}

def opened (db : Database Cpu Mem) :
    Sessions.World Connection (Server Cpu Mem) (Option (Transaction Cpu Mem)) :=
  ⟨⟨db, []⟩, fun _ => none⟩

theorem opened_sound (db : Database Cpu Mem) :
    Sessions.Sound compatible (Serial db) Relies
      (opened db : Sessions.World Connection (Server Cpu Mem) (Option (Transaction Cpu Mem))) where
  good := ⟨rfl, trivial⟩
  holds _ := trivial
  apart _ _ _ := rfl

variable [DecidableEq Connection] [Fintype Connection]

def step : Sessions.World Connection (Server Cpu Mem) (Option (Transaction Cpu Mem)) →
    Connection × Act Cpu Mem →
    Option (Sessions.World Connection (Server Cpu Mem) (Option (Transaction Cpu Mem))) :=
  Sessions.step act compatible

theorem run_serial {db : Database Cpu Mem} {labels : List (Connection × Act Cpu Mem)}
    {final : Sessions.World Connection (Server Cpu Mem) (Option (Transaction Cpu Mem))}
    (ran : Runs.run step (opened db) labels = some final) : Serial db final.shared :=
  (Sessions.run_sound (act_rule db) ran (opened_sound db)).good

/-- Whatever the order of the statements, with transactions given up at any point:
the committed tables are what the ended calls leave when they are made one after the
other, and each of them has the answer it then has. -/
theorem interleaved_calls_serial {db : Database Cpu Mem} {labels : List (Connection × Act Cpu Mem)}
    {final : Sessions.World Connection (Server Cpu Mem) (Option (Transaction Cpu Mem))}
    (ran : Runs.run step (opened db) labels = some final) :
    final.shared.committed = execute db (final.shared.history.map Entry.call) ∧
      Answered db final.shared.history :=
  ⟨(run_serial ran).tables, (run_serial ran).answered⟩

end Connections

def namedJob (id : String) : Job Int Int := { AuditTrail.queuedJob id with submissionID := "nightly" }

/-- Two replicas create a job for one submission while a third assigns it. The second
INSERT is answered after the first COMMIT, and an Update of the locked row is given up. -/
def replicaLabels : List (Fin 3 × Act Int Int) :=
  [(0, .begin (.create (namedJob "job-1"))), (0, .statement),
    (1, .begin (.create (namedJob "job-2"))), (0, .statement), (0, .commit),
    (1, .statement), (2, .begin (.update "job-1" (JobService.assignUpdate ["worker-1"]))),
    (2, .statement), (1, .statement),
    (0, .begin (.update "job-1" (JobService.cancelUpdate 1000))), (2, .statement), (2, .statement),
    (2, .commit), (0, .statement), (0, .rollback)]

theorem replicaLabels_serial : ∃ final, Runs.run step (opened empty) replicaLabels = some final ∧
    final.shared.history.map (fun entry => entry.outcome.isSome) = [true, true, true, false] ∧
    final.shared.committed = execute empty (final.shared.history.map Entry.call) ∧
    Answered empty final.shared.history := by
  obtain ⟨final, ran, ended⟩ : ∃ final, Runs.run step (opened empty) replicaLabels = some final ∧
      final.shared.history.map (fun entry => entry.outcome.isSome) = [true, true, true, false] :=
    ⟨_, rfl, rfl⟩
  exact ⟨final, ran, ended, interleaved_calls_serial ran⟩

-- While the first row is not committed, the INSERT of the second replica waits.
example : (Runs.run step (opened empty) (replicaLabels.take 3 ++ [(1, .statement)])).isNone = true := rfl

section Resubmission

/-- A Create with this submission ID that returned the job `id`. -/
def Entry.Submits (entry : Entry Cpu Mem) (submissionID id : String) (fresh : Bool) : Prop :=
  ∃ job stored, entry.request = .create job ∧ job.submissionID = submissionID ∧
    entry.outcome = some (.created (.ok (stored, fresh))) ∧ stored.id = id

/-- The submission ID is on record, with this job. -/
def OnRecord (db : Database Cpu Mem) (submissionID id : String) : Prop :=
  ∃ row, db.findSubmission submissionID = some row ∧ row.id = id

theorem getBySubmissionID_ok {db : Database Cpu Mem} {submissionID : String} {stored : Job Cpu Mem}
    (read : getBySubmissionID db submissionID = .ok stored) :
    ∃ row, db.findSubmission submissionID = some row ∧ stored = jobOf row := by
  unfold getBySubmissionID selectJobBySubmissionID at read
  split at read
  case isTrue =>
    split at read
    case h_1 row found => exact ⟨row, found, (Except.ok.inj ((scanned_select _ row).symm.trans read)).symm⟩
    case h_2 => cases read
  case isFalse => cases read

/-- A Create that succeeds has put its submission ID on record, or found it there. -/
theorem create_ok {db : Database Cpu Mem} {job stored : Job Cpu Mem} {fresh : Bool}
    (called : (JobRepository.create db job).1 = .ok (stored, fresh)) :
    fresh = false ∧ OnRecord db job.submissionID stored.id ∧ (JobRepository.create db job).2 = db ∨
      fresh = true ∧ stored.id = job.id ∧ ∃ free : Free db job,
        (JobRepository.create db job).2.jobs =
          (db.append (rowOf job) free.unused free.distinct).jobs := by
  rcases insertJob_cases db job with ⟨cause, other, refused⟩ | refused | ⟨free, -⟩
  · unfold JobRepository.create at called
    rw [refused] at called
    cases cause with
    | noRows => exact absurd rfl other
    | _ => cases called
  · left
    unfold JobRepository.create at called ⊢
    simp only [refused] at called ⊢
    by_cases anonymous : job.submissionID = ""
    · simp [anonymous] at called
    · simp only [if_neg anonymous] at called ⊢
      cases read : getBySubmissionID db job.submissionID with
      | error problem => simp [read] at called
      | ok existing =>
          obtain ⟨row, found, rfl⟩ := getBySubmissionID_ok read
          simp only [read, Except.ok.injEq, Prod.mk.injEq] at called ⊢
          obtain ⟨rfl, rfl⟩ := called
          exact ⟨rfl, ⟨row, found, jobOf_id row⟩, trivial⟩
  · right
    have created := create_inserts free.built free.unused free.distinct
    rw [created] at called ⊢
    simp only [Except.ok.injEq, Prod.mk.injEq] at called
    obtain ⟨rfl, rfl⟩ := called
    exact ⟨rfl, by rw [jobOf_id, rowOf_id], free, rfl⟩

theorem onRecord_append {db after : Database Cpu Mem} {row : Row Cpu Mem} {submissionID id : String}
    (jobs : after.jobs = db.jobs ++ [row]) (known : OnRecord db submissionID id) :
    OnRecord after submissionID id := by
  obtain ⟨first, found, rfl⟩ := known
  refine ⟨first, ?_, rfl⟩
  unfold findSubmission at found ⊢
  rw [jobs, List.find?_append, found, Option.some_or]

theorem onRecord_replace {db after : Database Cpu Mem} {changed : Row Cpu Mem}
    {submissionID id : String} (jobs : after.jobs = (db.replace changed).jobs)
    (known : OnRecord db submissionID id) : OnRecord after submissionID id := by
  obtain ⟨row, found, rfl⟩ := known
  refine ⟨setRow changed row, ?_, setRow_id changed row⟩
  have same : (fun row => decide (row.submissionID = submissionID)) ∘ setRow changed =
      fun row => decide (row.submissionID = submissionID) := by
    funext row
    rw [Function.comp_apply, setRow_submissionID]
  unfold findSubmission at found ⊢
  rw [jobs, replace, List.find?_map, same, found, Option.map_some]

theorem onRecord_call {db : Database Cpu Mem} {submissionID id : String}
    (known : OnRecord db submissionID id) (entry : Entry Cpu Mem) :
    OnRecord (entry.call.apply db) submissionID id := by
  obtain ⟨request, outcome⟩ := entry
  cases outcome with
  | none => cases request <;> exact known
  | some answer =>
      cases request with
      | create job =>
          rcases create_cases db job with ⟨unchanged, -⟩ | ⟨unused, distinct, created⟩
          · have same : (Entry.mk (.create job) (some answer)).call.apply db = db := unchanged
            rw [same]
            exact known
          · exact onRecord_append (congrArg (fun pair => pair.2.jobs) created) known
      | update key fn =>
          rcases update_cases db key fn with
            ⟨problem, refused⟩ | ⟨row, updated, target, after, -, -, -, result, jobs, -⟩
          · have same : (Entry.mk (.update key fn) (some answer)).call.apply db = db :=
              congrArg Prod.snd refused
            rw [same]
            exact known
          · have left : (Entry.mk (.update key fn) (some answer)).call.apply db = after :=
              congrArg Prod.snd result
            rw [left]
            exact onRecord_replace jobs known

theorem onRecord_created {db after : Database Cpu Mem} {job : Job Cpu Mem}
    (named : job.submissionID ≠ "") (free : Free db job)
    (jobs : after.jobs = db.jobs ++ [rowOf job]) : OnRecord after job.submissionID job.id := by
  refine ⟨rowOf job, ?_, rowOf_id job⟩
  have absent : db.jobs.find? (fun row => decide (row.submissionID = job.submissionID)) = none := by
    rw [List.find?_eq_none]
    intro row stored same
    refine free.distinct ⟨named, List.mem_map.mpr ⟨row, stored, ?_⟩⟩
    simpa using same
  unfold findSubmission
  rw [jobs, List.find?_append, absent, Option.none_or]
  simp [rowOf_submissionID]

theorem submits_onRecord {db : Database Cpu Mem} {entry : Entry Cpu Mem} {submissionID id : String}
    {fresh : Bool} (named : submissionID ≠ "")
    (answered : ∀ answer, entry.outcome = some answer → entry.request.answer db = answer)
    (submits : entry.Submits submissionID id fresh) :
    OnRecord (entry.call.apply db) submissionID id := by
  obtain ⟨job, stored, isCreate, rfl, outcome, rfl⟩ := submits
  have called := answered _ outcome
  obtain ⟨request, result⟩ := entry
  cases isCreate
  cases outcome
  rcases create_ok (Answer.created.inj called) with
    ⟨-, known, unchanged⟩ | ⟨-, ownID, free, jobs⟩
  · exact onRecord_call known _
  · rw [ownID]
    exact onRecord_created named free jobs

/-- The submission ID is taken: every further Create with it returns that job. -/
theorem onRecord_submits {db : Database Cpu Mem} {entry : Entry Cpu Mem}
    {submissionID id again : String} {fresh : Bool} (named : submissionID ≠ "")
    (known : OnRecord db submissionID id)
    (answered : ∀ answer, entry.outcome = some answer → entry.request.answer db = answer)
    (submits : entry.Submits submissionID again fresh) : again = id ∧ fresh = false := by
  obtain ⟨job, stored, isCreate, rfl, outcome, rfl⟩ := submits
  have called := answered _ outcome
  obtain ⟨request, result⟩ := entry
  cases isCreate
  cases outcome
  obtain ⟨row, found, rfl⟩ := known
  rcases create_ok (Answer.created.inj called) with ⟨old, ⟨other, same, isID⟩, -⟩ | ⟨-, -, free, -⟩
  · obtain rfl := Option.some.inj (found.symm.trans same)
    exact ⟨isID.symm, old⟩
  · refine absurd ⟨named, List.mem_map.mpr ⟨row, List.mem_of_find?_eq_some found, ?_⟩⟩ free.distinct
    rw [rowOf_submissionID]
    simpa using List.find?_some found

theorem known_submits {db : Database Cpu Mem} {history : List (Entry Cpu Mem)}
    {submissionID id : String} (named : submissionID ≠ "") (answered : Answered db history)
    (known : OnRecord db submissionID id) {later : Entry Cpu Mem} (member : later ∈ history)
    {again : String} {fresh : Bool} (submits : later.Submits submissionID again fresh) :
    again = id ∧ fresh = false := by
  induction history generalizing db with
  | nil => cases member
  | cons entry rest ih =>
      rcases List.mem_cons.mp member with rfl | further
      · exact onRecord_submits named known answered.1 submits
      · exact ih answered.2 (onRecord_call known entry) further

/-- Of two Creates with one submission ID, the second returns the job of the first. -/
def Resubmits (earlier later : Entry Cpu Mem) : Prop :=
  ∀ submissionID id again fresh renewed, submissionID ≠ "" →
    earlier.Submits submissionID id fresh → later.Submits submissionID again renewed →
    again = id ∧ renewed = false

theorem answered_resubmits {db : Database Cpu Mem} {history : List (Entry Cpu Mem)}
    (answered : Answered db history) : history.Pairwise Resubmits := by
  induction history generalizing db with
  | nil => exact List.Pairwise.nil
  | cons entry rest ih =>
      refine List.pairwise_cons.mpr ⟨?_, ih answered.2⟩
      intro later member submissionID id again fresh renewed named first second
      exact known_submits named answered.2 (submits_onRecord named answered.1 first) member second

theorem resubmissions_agree {Connection : Type} [DecidableEq Connection] [Fintype Connection]
    {db : Database Cpu Mem} {labels : List (Connection × Act Cpu Mem)}
    {final : Sessions.World Connection (Server Cpu Mem) (Option (Transaction Cpu Mem))}
    (ran : Runs.run step (opened db) labels = some final) :
    final.shared.history.Pairwise Resubmits :=
  answered_resubmits (run_serial ran).answered

theorem replicaLabels_resubmit : ∃ final first second rest,
    Runs.run step (opened empty) replicaLabels = some final ∧
    final.shared.history = first :: second :: rest ∧
    first.Submits "nightly" "job-1" true ∧ second.Submits "nightly" "job-1" false ∧
    final.shared.history.Pairwise Resubmits := by
  obtain ⟨final, first, second, rest, ran, history, fresh, again⟩ : ∃ final first second rest,
      Runs.run step (opened empty) replicaLabels = some final ∧
      final.shared.history = first :: second :: rest ∧
      first.Submits "nightly" "job-1" true ∧ second.Submits "nightly" "job-1" false :=
    ⟨_, _, _, _, rfl, rfl, ⟨_, _, rfl, rfl, rfl, rfl⟩, ⟨_, _, rfl, rfl, rfl, rfl⟩⟩
  exact ⟨final, first, second, rest, ran, history, fresh, again, resubmissions_agree ran⟩

end Resubmission

end OrionQueue.JobTransactions
