import OrionQueue.JobLifecycle

/-!
The retry budget over whole histories. `Audit` runs the service and keeps, next
to the repository, how many failures were charged to each job since it was
created and how many of those put it back into the queue. The counters are ghost
state: no operation reads them.
-/

namespace OrionQueue.RetryBudget

open Jobs JobStore MemoryRepository JobService JobLifecycle

variable {Cpu Mem : Type}

structure Account where
  failures : Nat
  requeues : Nat

/-- `job` is the record after the step. -/
def Account.post (account : Account) (job : Option (Job Cpu Mem)) : Entry → Account
  | .untouched => account
  | .creation => ⟨0, 0⟩
  | .failure =>
      ⟨account.failures + 1,
        account.requeues + if job.any (fun job => job.state = .queued) then 1 else 0⟩

structure Audit (Cpu Mem : Type) where
  repo : MemoryRepository Cpu Mem
  accounts : String → Account

section Audited
variable [Zero Cpu] [LT Cpu] [DecidableLT Cpu] [Zero Mem] [LT Mem] [DecidableLT Mem]

def Audit.step (audit : Audit Cpu Mem) (now : Time) (op : Op Cpu Mem) : Audit Cpu Mem where
  repo := op.apply now audit.repo
  accounts id :=
    (audit.accounts id).post ((op.apply now audit.repo).find id) (entry audit.repo op id)

def Audit.start : Audit Cpu Mem := ⟨empty, fun _ => ⟨0, 0⟩⟩

def Audit.run (audit : Audit Cpu Mem) (history : List (Time × Op Cpu Mem)) : Audit Cpu Mem :=
  history.foldl (fun current event => current.step event.1 event.2) audit

/-- Auditing does not change what the service does. -/
theorem run_repo (audit : Audit Cpu Mem) (history : List (Time × Op Cpu Mem)) :
    (audit.run history).repo = execute audit.repo history := by
  induction history generalizing audit with
  | nil => rfl
  | cons event rest ih => exact ih (audit.step event.1 event.2)

end Audited

/-- The inductive form: a FAILED job has spent its attempts. -/
structure Balanced (account : Account) (job : Job Cpu Mem) : Prop where
  attempt : job.currentAttempt = 1 + account.requeues
  within : job.currentAttempt ≤ max 1 job.retryLimit
  failures : account.failures = account.requeues + if job.state = .failed then 1 else 0
  spent : job.state = .failed → job.retryLimit ≤ job.currentAttempt

theorem move_balanced {now : Time} {charged : Bool} {account : Account} {job job' : Job Cpu Mem}
    (moved : Move now charged job job') (balanced : Balanced account job) :
    Balanced (account.post (some job') (if charged then .failure else .untouched)) job' := by
  obtain ⟨attempt, within, failures, spent⟩ := balanced
  cases moved with
  | cancel idle =>
      have alive : job.state ≠ .failed := by rcases idle with h | h | h <;> simp [h]
      exact ⟨attempt, within, by simpa [Account.post, alive] using failures, by simp⟩
  | requestCancel active =>
      have alive : job.state ≠ .failed := by rcases active with h | h <;> simp [h]
      exact ⟨attempt, within, by simpa [Account.post, alive] using failures, by simp⟩
  | start placed => exact ⟨attempt, within, by simpa [Account.post, placed] using failures, by simp⟩
  | complete running =>
      exact ⟨attempt, within, by simpa [Account.post, running] using failures, by simp⟩
  | requeue reason active left =>
      have alive : job.state ≠ .failed := by rcases active with h | h <;> simp [h]
      -- The counter and the account go up together, and an attempt was left.
      refine ⟨?_, ?_, ?_, by simp⟩
      · simp only [Account.post, if_true, Option.any_some, decide_true]
        push_cast
        omega
      · dsimp only
        omega
      · simpa [Account.post, alive] using failures
  | exhaust reason active gone =>
      have alive : job.state ≠ .failed := by rcases active with h | h <;> simp [h]
      exact ⟨by simpa [Account.post] using attempt, within,
        by simpa [Account.post, alive] using failures, fun _ => gone⟩
  | confirmCancel stopping =>
      exact ⟨attempt, within, by simpa [Account.post, stopping] using failures, by simp⟩
  | confirmPreempt stopping =>
      exact ⟨attempt, within, by simpa [Account.post, stopping] using failures, by simp⟩
  | preempt reason running allowed =>
      exact ⟨attempt, within, by simpa [Account.post, running] using failures, by simp⟩
  | retry failed left =>
      -- A FAILED job has spent its attempts, so Retry refuses it.
      have gone := spent failed
      omega

def Reconciled (audit : Audit Cpu Mem) : Prop :=
  ∀ id job, audit.repo.find id = some job → Balanced (audit.accounts id) job

theorem start_reconciled : Reconciled (Audit.start : Audit Cpu Mem) := by
  intro id job found
  simp [Audit.start] at found

section Steps
variable [Zero Cpu] [LT Cpu] [DecidableLT Cpu] [Zero Mem] [LT Mem] [DecidableLT Mem]

theorem step_reconciled {audit : Audit Cpu Mem} (reconciled : Reconciled audit) (now : Time)
    (op : Op Cpu Mem) : Reconciled (audit.step now op) := by
  intro id record found
  simp only [Audit.step] at found ⊢
  rw [found]
  cases apply_change now audit.repo op with
  | none same account =>
      rw [account id]
      exact reconciled id record ((same id).symm.trans found)
  | @move changed job job' charged before moved stored account =>
      rw [account id]
      rcases stores_cases stored found with ⟨rfl, rfl⟩ | ⟨other, known⟩
      · simpa using move_balanced moved (reconciled id job before)
      · simpa [other, Account.post] using reconciled id record known
  | @place placed workerIDs job isPlace before queued stored =>
      subst isPlace
      rcases stores_cases stored found with ⟨rfl, rfl⟩ | ⟨_, known⟩
      · obtain ⟨attempt, within, failures, spent⟩ := reconciled id job before
        exact ⟨attempt, within, by simpa [entry, Account.post, queued] using failures, by simp⟩
      · exact reconciled id record known
  | @create created input isCreate valid stored account =>
      rw [account id]
      rcases stores_cases stored found with ⟨rfl, rfl⟩ | ⟨other, known⟩
      · exact ⟨by simp [newJob, Account.post], by simp [newJob], by simp [newJob, Account.post],
          by simp [newJob]⟩
      · simpa [other, Account.post] using reconciled id record known

theorem run_reconciled {audit : Audit Cpu Mem} (reconciled : Reconciled audit)
    (history : List (Time × Op Cpu Mem)) : Reconciled (audit.run history) := by
  induction history generalizing audit with
  | nil => exact reconciled
  | cons event rest ih => exact ih (step_reconciled reconciled event.1 event.2)

end Steps

/-- What the account says about the record. -/
structure Budget (account : Account) (job : Job Cpu Mem) : Prop where
  attempt : job.currentAttempt = 1 + account.requeues
  bounds : 1 ≤ job.currentAttempt ∧ job.currentAttempt ≤ max 1 job.retryLimit
  charged : (account.failures : Int) ≤ max 1 job.retryLimit
  failed : job.state = .failed ↔ (account.failures : Int) = max 1 job.retryLimit
  exhausted : job.state = .failed → job.currentAttempt = max 1 job.retryLimit

theorem balanced_budget {account : Account} {job : Job Cpu Mem}
    (balanced : Balanced account job) : Budget account job := by
  obtain ⟨attempt, within, failures, spent⟩ := balanced
  by_cases failed : job.state = .failed
  · have gone := spent failed
    rw [if_pos failed] at failures
    exact ⟨attempt, by omega, by omega, by simp [failed]; omega, fun _ => by omega⟩
  · rw [if_neg failed] at failures
    exact ⟨attempt, by omega, by omega, by simp [failed]; omega, fun ended => absurd ended failed⟩

def RetryRefused (repo : MemoryRepository Cpu Mem) (id : String) : Prop :=
  ∃ problem, retry repo id = (.error problem, repo) ∧
    (problem = .notFound ∨ (∃ detail, problem = .invalidState detail) ∨
      ∃ detail, problem = .retryLimitExceeded detail)

theorem retry_refused {audit : Audit Cpu Mem} (reconciled : Reconciled audit) (id : String) :
    RetryRefused audit.repo id := by
  cases found : audit.repo.find id with
  | none => exact ⟨.notFound, update_missing found retryUpdate, Or.inl rfl⟩
  | some job =>
      by_cases failed : job.state = .failed
      · have gone := (reconciled id job found).spent failed
        have refused : retryUpdate job = .error (.retryLimitExceeded
            ("attempt " ++ toString job.currentAttempt ++ " of " ++ toString job.retryLimit)) := by
          rw [retryUpdate, if_pos failed, if_neg (by omega)]
        exact ⟨_, update_refused found refused, Or.inr (Or.inr ⟨_, rfl⟩)⟩
      · have refused : retryUpdate job = .error (requires "RetryJob" .failed job) := by
          rw [retryUpdate, if_neg failed]
        exact ⟨_, update_refused found refused, Or.inr (Or.inl ⟨_, rfl⟩)⟩

section Results
variable [Zero Cpu] [LT Cpu] [DecidableLT Cpu] [Zero Mem] [LT Mem] [DecidableLT Mem]

/-- Only a failure, or the creation of another job under the ID, touches the
attempt counter: Preempt, ReportStopped and the recovery of a PREEMPTED job do
not. -/
theorem untouched_attempt {audit : Audit Cpu Mem} (reconciled : Reconciled audit) {id : String}
    {job after : Job Cpu Mem} (found : audit.repo.find id = some job) {now : Time}
    {op : Op Cpu Mem} (untouched : entry audit.repo op id = .untouched)
    (stored : (op.apply now audit.repo).find id = some after) :
    after.currentAttempt = job.currentAttempt := by
  have before := (reconciled id job found).attempt
  have next := (step_reconciled reconciled now op id after stored).attempt
  simp only [Audit.step, untouched, Account.post] at next
  rw [next, before]

theorem retry_budget (history : List (Time × Op Cpu Mem)) :
    let audit := (Audit.start : Audit Cpu Mem).run history
    audit.repo = execute empty history ∧
      (∀ id job, audit.repo.find id = some job → Budget (audit.accounts id) job ∧
        ∀ now op after, entry audit.repo op id = .untouched →
          (op.apply now audit.repo).find id = some after →
          after.currentAttempt = job.currentAttempt) ∧
      ∀ id, RetryRefused audit.repo id := by
  intro audit
  have reconciled : Reconciled audit := run_reconciled start_reconciled history
  refine ⟨run_repo Audit.start history, fun id job found => ⟨?_, ?_⟩, retry_refused reconciled⟩
  · exact balanced_budget (reconciled id job found)
  · intro now op after untouched stored
    exact untouched_attempt reconciled found untouched stored

end Results

end OrionQueue.RetryBudget
