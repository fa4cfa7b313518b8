import OrionQueue.Api
import OrionQueue.Runs

/-!
The jobs a worker says it is running. They come in a repeated field, which reaches
the server as a nil slice when it is empty, and Heartbeat reads nil as "unchanged".
A run is a sequence of WorkerHeartbeat requests of one worker that were answered;
`shown` is the list of the last one.
-/

namespace OrionQueue.RunningJobs

open Jobs Workers Workers.MemoryRepository Api Runs

variable {Cpu Mem : Type}

structure Call (Cpu Mem : Type) where
  env : Environment
  gpus : List (Pb.GPU Cpu Mem)
  runningJobIDs : List String

structure Seen (Cpu Mem : Type) where
  server : Server Cpu Mem
  shown : List String

def step (workerID : String) (seen : Seen Cpu Mem) (call : Call Cpu Mem) : Option (Seen Cpu Mem) :=
  match workerHeartbeat call.env seen.server ⟨workerID, call.gpus, call.runningJobIDs⟩ with
  | (.ok _, server) => some ⟨server, call.runningJobIDs⟩
  | (.error _, _) => none

/-- The record has the list of the last request. -/
def Current (workerID : String) (seen : Seen Cpu Mem) : Prop :=
  ∃ worker, seen.server.workers.find workerID = some worker ∧ worker.runningJobIDs = seen.shown

/-- The request names a job, or there is none to take off the record. -/
def Clears (seen : Seen Cpu Mem) (call : Call Cpu Mem) : Prop :=
  call.runningJobIDs ≠ [] ∨ seen.shown = []

instance (seen : Seen Cpu Mem) (call : Call Cpu Mem) : Decidable (Clears seen call) :=
  inferInstanceAs (Decidable (_ ∨ _))

theorem decodeRepeated_getD {Item : Type} (items before : List Item) :
    (decodeRepeated items).getD before = if items = [] then before else items := by
  cases items <;> rfl

theorem heartbeat_running {repo : MemoryRepository Cpu Mem} {workerID : String}
    {worker : Worker Cpu Mem} (found : repo.find workerID = some worker) (now : Time)
    (renewed : Bool) (leaseID : LeaseID) (gpus : Option (List (GPU Cpu Mem)))
    (runningJobIDs : Option (List String)) :
    ∃ worker', (heartbeat repo now renewed leaseID workerID gpus runningJobIDs).2.find workerID =
        some worker' ∧ worker'.runningJobIDs = runningJobIDs.getD worker.runningJobIDs := by
  simp only [heartbeat, MemoryRepository.get, found]
  generalize (if worker.leaseID.isSome && renewed then none else some leaseID) = newLeaseID
  rcases repo.update_cases workerID (heartbeatUpdate now newLeaseID gpus runningJobIDs) with
    ⟨problem, same⟩ | ⟨before, updated, known, accepted, _, stored⟩
  · simp [update, found, heartbeatUpdate] at same
  · obtain rfl := Option.some.inj (found.symm.trans known)
    refine ⟨updated, by rw [stored, if_pos rfl], ?_⟩
    rw [← Except.ok.inj accepted, heard]

/-- What an answered heartbeat leaves in the record of its worker. -/
theorem step_record {workerID : String} {seen next : Seen Cpu Mem} {call : Call Cpu Mem}
    {worker : Worker Cpu Mem} (found : seen.server.workers.find workerID = some worker)
    (stepped : step workerID seen call = some next) :
    next.shown = call.runningJobIDs ∧ ∃ worker', next.server.workers.find workerID = some worker' ∧
      worker'.runningJobIDs =
        if call.runningJobIDs = [] then worker.runningJobIDs else call.runningJobIDs := by
  have stored := heartbeat_running found call.env.now call.env.renewed call.env.leaseID
    (gpusToDomain (decodeRepeated call.gpus)) (decodeRepeated call.runningJobIDs)
  rw [decodeRepeated_getD] at stored
  unfold step workerHeartbeat at stepped
  split at stepped
  · rename_i response server answered
    cases stepped
    refine ⟨rfl, ?_⟩
    split at answered
    · cases answered
    · split at answered <;> cases answered
      rename_i beaten
      rwa [beaten] at stored
  · cases stepped

theorem step_current (workerID : String) (seen : Seen Cpu Mem) (call : Call Cpu Mem)
    (next : Seen Cpu Mem) (current : Current workerID seen)
    (stepped : step workerID seen call = some next) :
    Current workerID next ↔ Clears seen call := by
  obtain ⟨worker, found, isShown⟩ := current
  obtain ⟨shown, worker', found', running⟩ := step_record found stepped
  rw [isShown] at running
  constructor
  · rintro ⟨other, known, same⟩
    obtain rfl := Option.some.inj (found'.symm.trans known)
    rw [running, shown] at same
    by_cases empty : call.runningJobIDs = []
    · rw [if_pos empty, empty] at same
      exact Or.inr same
    · exact Or.inl empty
  · intro clears
    refine ⟨worker', found', ?_⟩
    rw [running, shown]
    rcases clears with named | nothing
    · rw [if_neg named]
    · rw [nothing]
      split <;> simp_all

/-- The record follows the requests exactly as long as an empty list only comes
after an empty one. -/
theorem running_jobs_follow_iff (workerID : String) (start final : Seen Cpu Mem)
    (calls : List (Call Cpu Mem)) (current : Current workerID start)
    (ran : run (step workerID) start calls = some final) :
    Always (step workerID) (Current workerID) start calls ↔
      Along (step workerID) Clears start calls :=
  always_iff_along (step_current workerID) ran current

/-- worker-1 has just registered. -/
def joined : Seen Int Int where
  server := (serve ⟨0, "worker-1", 1, true⟩ (⟨.empty, .empty, 20000000000⟩ : Server Int Int)
    (.registerWorker ⟨"node-1", 8, 64, [], "1.0", []⟩)).2
  shown := []

def beat (now : Time) (runningJobIDs : List String) : Call Int Int :=
  ⟨⟨now, "", 0, true⟩, [], runningJobIDs⟩

theorem joined_current : Current "worker-1" joined := ⟨_, rfl, rfl⟩

theorem busy_worker_followed :
    Always (step "worker-1") (Current "worker-1") joined
      [beat 1 [], beat 2 ["job-1"], beat 3 ["job-1", "job-2"]] := by
  refine (running_jobs_follow_iff "worker-1" joined _ _ joined_current rfl).mpr ?_
  have checked : check (step "worker-1") (fun seen call => decide (Clears seen call)) joined
      [beat 1 [], beat 2 ["job-1"], beat 3 ["job-1", "job-2"]] = true := by decide
  exact along_mono (fun _ _ => of_decide_eq_true) (check_along checked)

/-- The job has ended, and the worker says so. -/
theorem finished_job_stays : ∃ seen worker,
    run (step "worker-1") joined [beat 1 ["job-1"], beat 2 []] = some seen ∧ seen.shown = [] ∧
      seen.server.workers.find "worker-1" = some worker ∧ worker.runningJobIDs = ["job-1"] :=
  ⟨_, _, rfl, rfl, rfl, rfl⟩

end OrionQueue.RunningJobs
