import Mathlib.Logic.Function.Basic
import OrionQueue.JobLifecycle
import OrionQueue.Runs

/-!
LoseWorker among other callers. A call takes one listing and then one locked
Update per listed job; any operation of any other caller may run in between.
`updates` is ghost state: the record each Update of the call acted on and the
record it stored.
-/

namespace OrionQueue.Recovery

open Jobs JobStore MemoryRepository JobService JobLifecycle Runs

variable {Cpu Mem : Type}

structure Call (Cpu Mem : Type) where
  workerID : String
  pending : List String
  recovered : Nat
  updates : List (Job Cpu Mem × Job Cpu Mem)

def Call.begin (repo : MemoryRepository Cpu Mem) (workerID : String) : Call Cpu Mem :=
  ⟨workerID, (lostJobs workerID repo.listActive).map Job.id, 0, []⟩

inductive Caller (Cpu Mem : Type) where
  | idle
  | recovering (call : Call Cpu Mem)
  | returned (call : Call Cpu Mem) (problem : Option JobError)

/-- The next step of a call: one Update, or the return. -/
def Call.next (now : Time) (repo : MemoryRepository Cpu Mem) (call : Call Cpu Mem) :
    Caller Cpu Mem × MemoryRepository Cpu Mem :=
  match call.pending with
  | [] => (.returned call none, repo)
  | id :: rest =>
      match recover repo now call.workerID id with
      | (.error problem, after) => (.returned call (some problem), after)
      -- Counted whether or not the callback changed the record.
      | (.ok job, after) =>
          (.recovering { call with
            pending := rest
            recovered := call.recovered + 1
            updates := call.updates ++ [((repo.find id).getD job, job)] }, after)

structure Desk (Cpu Mem : Type) where
  jobs : MemoryRepository Cpu Mem
  callers : Nat → Caller Cpu Mem

inductive Label (Cpu Mem : Type) where
  | lose (caller : Nat) (workerID : String)
  | advance (caller : Nat) (now : Time)
  | apply (now : Time) (op : Op Cpu Mem)

def Desk.start : Desk Cpu Mem := ⟨empty, fun _ => .idle⟩

section Machine
variable [Zero Cpu] [LT Cpu] [DecidableLT Cpu] [Zero Mem] [LT Mem] [DecidableLT Mem]

def step (desk : Desk Cpu Mem) : Label Cpu Mem → Option (Desk Cpu Mem)
  | .lose caller workerID =>
      match desk.callers caller with
      | .recovering _ => none
      | _ => some { desk with
          callers := Function.update desk.callers caller
            (.recovering (Call.begin desk.jobs workerID)) }
  | .advance caller now =>
      match desk.callers caller with
      | .recovering call => some
          { jobs := (call.next now desk.jobs).2
            callers := Function.update desk.callers caller (call.next now desk.jobs).1 }
      | _ => none
  | .apply now op => some { desk with jobs := op.apply now desk.jobs }

end Machine

/-- The job is in a state that LoseWorker acts on. -/
def recoverableIn (repo : MemoryRepository Cpu Mem) (id : String) : Prop :=
  ∃ job, repo.find id = some job ∧ job.state.recoverable = true

theorem recoverUpdate_changes {now : Time} {workerID : String} {job job' : Job Cpu Mem}
    (accepted : recoverUpdate now workerID job = .ok job')
    (active : job.state.recoverable = true) : job ≠ job' := by
  rintro rfl
  have state := congrArg Job.state (Except.ok.inj accepted)
  cases known : job.state <;>
    simp [known, applyFailureOrRetry, stopped, State.recoverable] at state active
  all_goals split at state <;> simp at state

theorem begin_pending {repo : MemoryRepository Cpu Mem} (keyed : repo.Keyed) (workerID : String) :
    (Call.begin repo workerID).pending.Nodup ∧
      ∀ id ∈ (Call.begin repo workerID).pending, ∃ job, repo.find id = some job ∧
        job.state.recoverable = true ∧ workerID ∈ job.assignedWorkerIDs := by
  constructor
  · exact (listActive_ids_nodup keyed).sublist (List.filter_sublist.map Job.id)
  · intro id member
    obtain ⟨job, listed, rfl⟩ := List.mem_map.mp member
    obtain ⟨active, chosen⟩ := List.mem_filter.mp listed
    obtain ⟨⟨key, found⟩, _⟩ := mem_listActive_iff.mp active
    rw [keyed key job found]
    simp only [Bool.and_eq_true, List.contains_iff_mem] at chosen
    exact ⟨job, found, chosen⟩

/-- Every Update of the call so far changed a record, of a job on its worker. -/
structure Clean (call : Call Cpu Mem) : Prop where
  changed : ∀ update ∈ call.updates, update.1 ≠ update.2 ∧
    call.workerID ∈ update.1.assignedWorkerIDs
  counted : call.recovered = call.updates.length

/-- Every job still to be updated is as the listing saw it: on the worker, in a
state to recover. -/
structure Awaiting (repo : MemoryRepository Cpu Mem) (call : Call Cpu Mem) : Prop where
  distinct : call.pending.Nodup
  present : ∀ id ∈ call.pending, ∃ job, repo.find id = some job ∧
    job.state.recoverable = true ∧ call.workerID ∈ job.assignedWorkerIDs

def Tended (repo : MemoryRepository Cpu Mem) : Caller Cpu Mem → Prop
  | .idle => True
  | .recovering call => Clean call ∧ Awaiting repo call
  | .returned call _ => Clean call

structure Orderly (desk : Desk Cpu Mem) : Prop where
  keyed : desk.jobs.Keyed
  tended : ∀ caller, Tended desk.jobs (desk.callers caller)

theorem begin_tended {repo : MemoryRepository Cpu Mem} (keyed : repo.Keyed) (workerID : String) :
    Tended repo (.recovering (Call.begin repo workerID)) := by
  obtain ⟨distinct, present⟩ := begin_pending keyed workerID
  exact ⟨⟨by simp [Call.begin], rfl⟩, distinct, present⟩

theorem start_orderly : Orderly (Desk.start : Desk Cpu Mem) :=
  ⟨Tables.keyed_empty Job.id, fun _ => trivial⟩

theorem update_orderly {desk : Desk Cpu Mem} {jobs : MemoryRepository Cpu Mem} {caller : Nat}
    {next : Caller Cpu Mem} (keyed : jobs.Keyed) (own : Tended jobs next)
    (others : ∀ other, other ≠ caller → Tended jobs (desk.callers other)) :
    Orderly ⟨jobs, Function.update desk.callers caller next⟩ := by
  refine ⟨keyed, fun other => ?_⟩
  by_cases same : other = caller
  · subst same
    simpa using own
  · simpa [same] using others other same

section Steps
variable [Zero Cpu] [LT Cpu] [DecidableLT Cpu] [Zero Mem] [LT Mem] [DecidableLT Mem]

/-- No step, apart from the call's own Update of the job, takes a job that a
LoseWorker call has still to update out of the states LoseWorker acts on. -/
def Undisturbed (desk : Desk Cpu Mem) (label : Label Cpu Mem) : Prop :=
  ∀ caller call id after, desk.callers caller = .recovering call → id ∈ call.pending →
    ¬ ((∃ now, label = .advance caller now) ∧ call.pending.head? = some id) →
    step desk label = some after → recoverableIn desk.jobs id → recoverableIn after.jobs id

theorem apply_awaiting {now : Time} {repo : MemoryRepository Cpu Mem} {op : Op Cpu Mem}
    {call : Call Cpu Mem} (awaiting : Awaiting repo call)
    (kept : ∀ id ∈ call.pending, recoverableIn (op.apply now repo) id) :
    Awaiting (op.apply now repo) call := by
  refine ⟨awaiting.distinct, fun id member => ?_⟩
  obtain ⟨job, found, active, assigned⟩ := awaiting.present id member
  obtain ⟨job', stored, still⟩ := kept id member
  refine ⟨job', stored, still, ?_⟩
  rw [apply_recoverable found active stored still]
  exact assigned

theorem apply_tended {now : Time} {repo : MemoryRepository Cpu Mem} {op : Op Cpu Mem}
    {caller : Caller Cpu Mem} (tended : Tended repo caller)
    (kept : ∀ call, caller = .recovering call → ∀ id ∈ call.pending,
      recoverableIn repo id → recoverableIn (op.apply now repo) id) :
    Tended (op.apply now repo) caller := by
  cases caller with
  | idle => trivial
  | returned call problem => exact tended
  | recovering call =>
      refine ⟨tended.1, apply_awaiting tended.2 fun id member => ?_⟩
      obtain ⟨job, found, active, _⟩ := tended.2.present id member
      exact kept call rfl id member ⟨job, found, active⟩

/-- The call's own Update: it finds the job it listed and changes it. -/
theorem next_tended {now : Time} {repo : MemoryRepository Cpu Mem} {call : Call Cpu Mem}
    {id : String} {rest : List String} (pending : call.pending = id :: rest)
    (tended : Tended repo (.recovering call))
    (kept : ∀ other ∈ rest, recoverableIn repo other →
      recoverableIn ((Op.recover call.workerID id).apply now repo) other) :
    Tended ((Op.recover call.workerID id).apply now repo) (call.next now repo).1 := by
  obtain ⟨clean, awaiting⟩ := tended
  obtain ⟨job, found, active, assigned⟩ := awaiting.present id (by simp [pending])
  obtain ⟨job', accepted⟩ : ∃ job', recoverUpdate now call.workerID job = .ok job' := ⟨_, rfl⟩
  have stored := update_stored found accepted
  have advanced : (call.next now repo).1 = .recovering { call with
      pending := rest
      recovered := call.recovered + 1
      updates := call.updates ++ [(job, job')] } := by
    simp [Call.next, pending, recover, stored, found]
  rw [advanced]
  refine ⟨⟨?_, by simp [clean.counted]⟩, apply_awaiting ⟨?_, ?_⟩ ?_⟩
  · -- The record is as listed, on the worker and in a state that the callback leaves.
    intro update member
    rcases List.mem_append.mp member with earlier | latest
    · exact clean.changed update earlier
    · obtain rfl := List.mem_singleton.mp latest
      exact ⟨recoverUpdate_changes accepted active, assigned⟩
  · have distinct := awaiting.distinct
    rw [pending] at distinct
    exact (List.nodup_cons.mp distinct).2
  · intro other member
    exact awaiting.present other (by simp [pending, member])
  · intro other member
    obtain ⟨record, known, alive, _⟩ := awaiting.present other (by simp [pending, member])
    exact kept other member ⟨record, known, alive⟩

/-- One Update of a call: the call itself goes on, and the calls of the others
still find their jobs as they listed them. -/
theorem update_step_orderly {desk : Desk Cpu Mem} {caller : Nat} {now : Time}
    {call : Call Cpu Mem} {id : String} {rest : List String} (orderly : Orderly desk)
    (undisturbed : Undisturbed desk (.advance caller now))
    (busy : desk.callers caller = .recovering call) (pending : call.pending = id :: rest) :
    Orderly ⟨(call.next now desk.jobs).2,
      Function.update desk.callers caller (call.next now desk.jobs).1⟩ := by
  have own := orderly.tended caller
  rw [busy] at own
  have jobs : (call.next now desk.jobs).2 =
      (Op.recover call.workerID id).apply now desk.jobs := by
    simp only [Call.next, pending, Op.apply]
    split <;> simp_all
  have stepped : step desk (.advance caller now) =
      some ⟨(Op.recover call.workerID id).apply now desk.jobs,
        Function.update desk.callers caller (call.next now desk.jobs).1⟩ := by
    simp [step, busy, jobs]
  rw [jobs]
  refine update_orderly (apply_keyed orderly.keyed now _) ?_ fun other apart => ?_
  · have distinct := own.2.distinct
    rw [pending] at distinct
    refine next_tended pending own fun waiting member alive => ?_
    refine undisturbed caller call waiting _ busy (by simp [pending, member]) ?_ stepped alive
    rintro ⟨_, first⟩
    simp only [pending, List.head?_cons, Option.some.injEq] at first
    exact (List.nodup_cons.mp distinct).1 (first ▸ member)
  · refine apply_tended (orderly.tended other) fun waiting known id' member alive => ?_
    refine undisturbed other waiting id' _ known member ?_ stepped alive
    rintro ⟨⟨instant, label⟩, _⟩
    cases label
    exact apart rfl

theorem step_orderly (desk : Desk Cpu Mem) (label : Label Cpu Mem) (after : Desk Cpu Mem)
    (orderly : Orderly desk) (undisturbed : Undisturbed desk label)
    (stepped : step desk label = some after) : Orderly after := by
  cases label with
  | lose caller workerID =>
      have started : after = { desk with
          callers := Function.update desk.callers caller
            (.recovering (Call.begin desk.jobs workerID)) } := by
        simp only [step] at stepped
        split at stepped <;> simp_all
      rw [started]
      exact update_orderly orderly.keyed (begin_tended orderly.keyed workerID)
        fun other _ => orderly.tended other
  | advance caller now =>
      cases busy : desk.callers caller with
      | idle => simp [step, busy] at stepped
      | returned call problem => simp [step, busy] at stepped
      | recovering call =>
          simp only [step, busy, Option.some.injEq] at stepped
          subst stepped
          cases pending : call.pending with
          | nil =>
              -- The loop is done: the call returns and the records are as they were.
              have own := orderly.tended caller
              rw [busy] at own
              simp only [Call.next, pending]
              exact update_orderly orderly.keyed own.1 fun other _ => orderly.tended other
          | cons id rest => exact update_step_orderly orderly undisturbed busy pending
  | apply now op =>
      simp only [step, Option.some.injEq] at stepped
      subst stepped
      refine ⟨apply_keyed orderly.keyed now op, fun caller =>
        apply_tended (orderly.tended caller) ?_⟩
      intro call busy id member alive
      exact undisturbed caller call id _ busy member (by simp) rfl alive

end Steps

/-- The call modified no record of a job that was not on its worker. -/
def OnlyOwn (call : Call Cpu Mem) : Prop :=
  ∀ update ∈ call.updates, update.1 ≠ update.2 → call.workerID ∈ update.1.assignedWorkerIDs

def modified [DecidableEq Cpu] [DecidableEq Mem] (call : Call Cpu Mem) : Nat :=
  (call.updates.filter fun update => update.1 ≠ update.2).length

theorem clean_exact [DecidableEq Cpu] [DecidableEq Mem] {call : Call Cpu Mem} (clean : Clean call) :
    OnlyOwn call ∧ call.recovered = modified call := by
  refine ⟨fun update member _ => (clean.changed update member).2, ?_⟩
  rw [modified, List.filter_eq_self.mpr, clean.counted]
  intro update member
  simpa using (clean.changed update member).1

section Results
variable [Zero Cpu] [LT Cpu] [DecidableLT Cpu] [DecidableEq Cpu]
variable [Zero Mem] [LT Mem] [DecidableLT Mem] [DecidableEq Mem]

theorem undisturbed_loseWorker_exact (labels : List (Label Cpu Mem)) (desk : Desk Cpu Mem)
    (ran : run step Desk.start labels = some desk)
    (undisturbed : Along step Undisturbed Desk.start labels) (caller : Nat) (call : Call Cpu Mem) :
    (desk.callers caller = .recovering call → OnlyOwn call) ∧
      ∀ problem, desk.callers caller = .returned call problem →
        OnlyOwn call ∧ call.recovered = modified call := by
  have orderly : Orderly desk := guarded_invariant step_orderly ran undisturbed start_orderly
  have own := orderly.tended caller
  constructor
  · intro busy
    rw [busy] at own
    exact (clean_exact own.1).1
  · intro problem done
    rw [done] at own
    exact clean_exact own

end Results

def placedLabels : List (Label Int Int) :=
  [.apply 1 (.submit "job-1" (submission ⟨1, 0, 2, 1024⟩)),
    .apply 2 (.assignToWorkers "job-1" ["worker-1"]), .apply 3 (.start "job-1"), .lose 0 "worker-1"]

def calmLabels : List (Label Int Int) :=
  placedLabels ++ [.apply 4 (.cancel "job-1"), .advance 0 5, .advance 0 6]

/-- With caller 0 alone at work, its pending jobs are all there is to check. -/
theorem alone_undisturbed {desk : Desk Int Int} {label : Label Int Int} {call : Call Int Int}
    (alone : desk.callers = Function.update (fun _ => .idle) 0 (.recovering call))
    (kept : ∀ id ∈ call.pending, ¬ ((∃ now, label = .advance 0 now) ∧
      call.pending.head? = some id) → ∀ after, step desk label = some after →
        recoverableIn after.jobs id) : Undisturbed desk label := by
  intro caller other id after busy member foreign stepped _
  rw [alone] at busy
  by_cases same : caller = 0
  · subst same
    obtain rfl : call = other := by simpa using busy
    exact kept id member foreign after stepped
  · simp [same] at busy

theorem calmLabels_undisturbed : Along step Undisturbed Desk.start calmLabels := by
  have quiet : ∀ (desk : Desk Int Int) label, (∀ caller, desk.callers caller = .idle) →
      Undisturbed desk label := by
    intro desk label idle caller call id after busy
    simp [idle caller] at busy
  refine ⟨quiet _ _ fun _ => rfl, ?_⟩
  rintro _ ⟨⟩
  refine ⟨quiet _ _ fun _ => rfl, ?_⟩
  rintro _ ⟨⟩
  refine ⟨quiet _ _ fun _ => rfl, ?_⟩
  rintro _ ⟨⟩
  refine ⟨quiet _ _ fun _ => rfl, ?_⟩
  rintro _ ⟨⟩
  refine ⟨alone_undisturbed rfl ?_, ?_⟩
  · intro id member _ after stepped
    obtain rfl := List.mem_singleton.mp member
    cases stepped
    exact ⟨_, rfl, rfl⟩
  rintro _ ⟨⟩
  refine ⟨alone_undisturbed rfl ?_, ?_⟩
  · intro id member foreign
    obtain rfl := List.mem_singleton.mp member
    exact absurd ⟨⟨5, rfl⟩, rfl⟩ foreign
  rintro _ ⟨⟩
  refine ⟨alone_undisturbed (Function.update_idem _ _ _) ?_, ?_⟩
  · intro id member
    cases member
  · rintro _ ⟨⟩
    trivial

theorem calmLabels_exact :
    ∃ desk call, run step Desk.start calmLabels = some desk ∧
      desk.callers 0 = .returned call none ∧ call.recovered = 1 ∧ OnlyOwn call ∧
      call.recovered = modified call := by
  obtain ⟨desk, ran⟩ : ∃ desk, run step Desk.start calmLabels = some desk := ⟨_, rfl⟩
  obtain ⟨call, done, counted⟩ : ∃ call, desk.callers 0 = .returned call none ∧
      call.recovered = 1 := by
    cases ran
    exact ⟨_, rfl, rfl⟩
  exact ⟨desk, call, ran, done, counted,
    (undisturbed_loseWorker_exact calmLabels desk ran calmLabels_undisturbed 0 call).2 none done⟩

def staleLabels : List (Label Int Int) :=
  placedLabels ++ [.apply 4 (.fail "job-1" "exit 1"), .apply 5 (.assignToWorkers "job-1" ["worker-2"]),
    .advance 0 6, .advance 0 7]

def finishedLabels : List (Label Int Int) :=
  placedLabels ++ [.apply 4 (.complete "job-1"), .advance 0 5, .advance 0 6]

/-- Between the listing and the Update the job moved to another worker, or ended:
the first is charged a failure all the same, the second is counted as recovered. -/
theorem loseWorker_takes_foreign_job :
    (∃ desk call, run step Desk.start staleLabels = some desk ∧
      desk.callers 0 = .returned call none ∧ call.workerID = "worker-1" ∧
      ∃ update ∈ call.updates, update.1 ≠ update.2 ∧
        update.1.assignedWorkerIDs = ["worker-2"]) ∧
    ∃ desk call, run step Desk.start finishedLabels = some desk ∧
      desk.callers 0 = .returned call none ∧ call.recovered = 1 ∧ modified call = 0 := by
  refine ⟨⟨_, _, rfl, rfl, rfl, _, List.mem_singleton.mpr rfl, ?_, rfl⟩,
    ⟨_, _, rfl, rfl, rfl, ?_⟩⟩
  · decide
  · decide

end OrionQueue.Recovery
