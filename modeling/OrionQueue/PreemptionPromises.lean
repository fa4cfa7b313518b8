import Mathlib.Tactic.Abel
import OrionQueue.PreemptionTurns

/-!
What a pass promises on one worker to several pending jobs. The books of the pass
take off what is stopped and never put on what it was stopped for, so a later job
may count on capacity that an earlier one was promised. This cannot happen on a
worker where only one job can be served.
-/

namespace OrionQueue.PreemptionPromises

open Jobs Workers Planner PlannerCapacity PreemptionPass PreemptionTurns Ledger

variable {Cpu Mem Amount : Type}

section Turns
variable {turns earlier later : List (Turn Cpu Mem)} {turn : Turn Cpu Mem} {workerID : String}

end Turns

section Dimensions
variable [AddCommGroup Cpu] [LinearOrder Cpu] [AddCommGroup Mem] [LinearOrder Mem]
variable [AddCommGroup Amount] [LinearOrder Amount]
variable (dimension : Dimension Cpu Mem Amount)

variable (now : Time) (activeJobs : List (Job Cpu Mem)) (activeWorkers : List (Worker Cpu Mem))
variable (placed : List Assignment) (worker : Worker Cpu Mem)

variable {now activeJobs activeWorkers placed worker}

end Dimensions

section Promises
variable [AddCommGroup Cpu] [LinearOrder Cpu] [IsOrderedAddMonoid Cpu]
variable [AddCommGroup Mem] [LinearOrder Mem] [IsOrderedAddMonoid Mem]
variable (now : Time) (activeJobs : List (Job Cpu Mem)) (activeWorkers : List (Worker Cpu Mem))
variable (placed : List Assignment) (worker : Worker Cpu Mem)

variable {now activeJobs activeWorkers placed worker}

end Promises

end OrionQueue.PreemptionPromises
