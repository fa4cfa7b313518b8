import OrionQueue.Api
import OrionQueue.LeaseHolding

/-!
Heartbeats against the clock. The machine of `Leases` runs beside the heartbeat loop of
one agent; time passes between any two steps, and etcd gives up a lease only when its
time to live has passed since the Grant or the last renewal. How long the agent sleeps
and how long the lease lives is what the service, the RegisterWorker answer, the agent
and EtcdManager make of one leaseTTL, in nanoseconds. `int64(d.Seconds())` is taken as
exact, which it is for less than 2^23 seconds.
-/

namespace OrionQueue.HeartbeatTiming

open Jobs Workers MemoryRepository LeaseHolding Runs
open Leases (Beat leaseKey)

variable {Cpu Mem : Type}

/-! ### The durations -/

def second : Nat := 1000000000

def wholeSeconds (duration : Int) : Int := duration.tdiv second

def defaultLeaseTTL : Int := 20 * second

/-- What EtcdManager.Grant asks etcd for. -/
def grantSeconds (ttl : Int) : Int :=
  if wholeSeconds ttl < 1 then 1 else wholeSeconds ttl

/-- `heartbeat_interval_seconds` of the RegisterWorker answer, as the agent takes it. -/
def agentSeconds (leaseTTL : Int) : Int := max (wholeSeconds (heartbeatInterval leaseTTL)) 1

def sleepChunk : Nat := 200000000

/-- The sleeps of `_sleep_in_chunks`, none of them empty. -/
def sleepInChunks : Nat → Nat → List Nat
  | 0, _ => []
  | fuel + 1, remaining =>
      if 0 < remaining then
        min sleepChunk remaining :: sleepInChunks fuel (remaining - min sleepChunk remaining)
      else []

theorem sleepInChunks_sum {fuel remaining : Nat} (enough : remaining ≤ fuel) :
    (sleepInChunks fuel remaining).sum = remaining := by
  induction fuel generalizing remaining with
  | zero =>
      obtain rfl : remaining = 0 := Nat.le_zero.mp enough
      rfl
  | succ fuel ih =>
      unfold sleepInChunks
      split
      case isTrue positive =>
        have chunk : 0 < min sleepChunk remaining := Nat.lt_min.mpr ⟨by decide, positive⟩
        have smaller : min sleepChunk remaining ≤ remaining := Nat.min_le_right _ _
        rw [List.sum_cons, ih (by omega)]
        omega
      case isFalse done => simp only [List.sum_nil]; omega

/-- The least time between two heartbeats. -/
def pause (leaseTTL : Int) : Nat :=
  let nanoseconds := (agentSeconds leaseTTL).toNat * second
  (sleepInChunks nanoseconds nanoseconds).sum

/-- The least time a lease lives after its Grant or a renewal. -/
def lifetime (leaseTTL : Int) : Nat := (grantSeconds leaseTTL).toNat * second

theorem pause_eq (leaseTTL : Int) : pause leaseTTL = (agentSeconds leaseTTL).toNat * second :=
  sleepInChunks_sum le_rfl

/-- From four seconds on a lease outlives four pauses. -/
theorem four_pauses {leaseTTL : Int} (long : 4 * second ≤ leaseTTL) :
    4 * pause leaseTTL ≤ lifetime leaseTTL := by
  rw [pause_eq, lifetime]
  unfold agentSeconds grantSeconds heartbeatInterval wholeSeconds heartbeatFractionOfTTL second at *
  have positive : 0 ≤ leaseTTL := by omega
  have interval : max (leaseTTL.tdiv 4) 1000000000 = leaseTTL / 4 := by
    rw [Int.tdiv_eq_ediv_of_nonneg positive]
    omega
  rw [interval, Int.tdiv_eq_ediv_of_nonneg positive, Int.tdiv_eq_ediv_of_nonneg (by omega)]
  split <;> omega

/-! ### The machine -/

/-- Where the agent stands, since when, and how many heartbeats in a row were not renewals. -/
inductive Loop where
  | outside
  | registering (since : Nat)
  | asleep (since missed : Nat)
  | calling (since missed : Nat) (renewed : Bool)
  /-- The registration failed, or the agent was shut down. -/
  | retired

structure State (Cpu Mem : Type) where
  world : Leases.State Cpu Mem
  now : Nat
  deadline : LeaseID → Nat
  loop : Loop

def State.start : State Cpu Mem := ⟨.start, 0, fun _ => 0, .outside⟩

inductive Label (Cpu Mem : Type) where
  | wait (elapsed : Nat)
  /-- The server, etcd or another worker takes a step. A heartbeat of this worker may
  reach the server at any time, or never. -/
  | world (label : Leases.Label Cpu Mem)
  | join (call : Nat) (input : RegisterInput Cpu Mem)
  | joined
  | refused
  | wake
  /-- The heartbeat is answered, or ends with a grpc.RpcError. -/
  | answered
  | shutdown

/-- The lease that etcd starts or prolongs by a step. -/
def touched (world : Leases.State Cpu Mem) : Leases.Label Cpu Mem → Option LeaseID
  | .advance call _ =>
      match world.calls call with
      | .read _ _ current => current.leaseID.filter fun id => world.etcd.Alive id
      | .granting _ _ => some (world.etcd.nextID + 1)
      | _ => none
  | _ => none

/-- A step by which a heartbeat of the worker renews its lease. -/
def renews (workerID : String) (world : Leases.State Cpu Mem) : Leases.Label Cpu Mem → Bool
  | .advance call _ =>
      match world.calls call with
      | .read other _ current =>
          other = workerID && current.leaseID.any fun id => world.etcd.Alive id
      | _ => false
  | _ => false

def Loop.noting (renewal : Bool) : Loop → Loop
  | .calling since missed renewed => .calling since missed (renewed || renewal)
  | loop => loop

/-- A lease does not expire early. MarkLost is called by WatchExpirations alone, and the ID
of the worker is the one that its agent is registered under. -/
def permitted (workerID : String) (state : State Cpu Mem) : Leases.Label Cpu Mem → Bool
  | .expire id => state.deadline id ≤ state.now
  | .markLost _ => false
  | .register _ id _ => id ≠ workerID
  | _ => true

section Machine
variable [Zero Cpu] [LT Cpu] [DecidableLT Cpu] [Zero Mem] [LT Mem] [DecidableLT Mem]
  (leaseTTL : Int) (workerID : String)

def prolong (state : State Cpu Mem) (label : Leases.Label Cpu Mem) : LeaseID → Nat :=
  match touched state.world label with
  | some id => Function.update state.deadline id (state.now + lifetime leaseTTL)
  | none => state.deadline

def step (state : State Cpu Mem) : Label Cpu Mem → Option (State Cpu Mem)
  | .wait elapsed => some { state with now := state.now + elapsed }
  | .world label =>
      if permitted workerID state label then
        (Leases.step state.world label).map fun world => { state with
          world := world
          deadline := prolong leaseTTL state label
          loop := state.loop.noting (renews workerID state.world label) }
      else none
  | .join call input =>
      match state.loop with
      | .outside => (Leases.step state.world (.register call workerID input)).map fun world =>
          { state with world := world, loop := .registering state.now }
      | _ => none
  | .joined =>
      match state.loop with
      | .registering _ =>
          if (state.world.records.find workerID).isSome then
            some { state with loop := .asleep state.now 0 }
          else none
      | _ => none
  | .refused =>
      match state.loop with
      | .registering _ => some { state with loop := .retired }
      | _ => none
  | .wake =>
      match state.loop with
      | .asleep since missed =>
          if since + pause leaseTTL ≤ state.now then
            some { state with loop := .calling state.now missed false }
          else none
      | _ => none
  | .answered =>
      match state.loop with
      | .calling _ missed renewed =>
          some { state with loop := .asleep state.now (if renewed then 0 else missed + 1) }
      | _ => none
  | .shutdown => some { state with loop := .retired }

end Machine

/-! ### A punctual agent -/

/-- Sleeping takes at most `slack` more than it should, an RPC at most `patience`, and
no more than `misses` heartbeats in a row are not renewals. -/
structure Schedule where
  leaseTTL : Int
  slack : Nat
  patience : Nat
  misses : Nat

def Schedule.round (schedule : Schedule) : Nat :=
  pause schedule.leaseTTL + schedule.slack + schedule.patience

/-- The lease outlives the missed rounds, the one that renews it and the RPC before them. -/
def Schedule.Fits (schedule : Schedule) : Prop :=
  schedule.patience + (schedule.misses + 1) * schedule.round < lifetime schedule.leaseTTL

def Schedule.punctual (schedule : Schedule) (state : State Cpu Mem) : Label Cpu Mem → Bool
  | .wait elapsed =>
      match state.loop with
      | .registering since | .calling since _ _ => state.now + elapsed ≤ since + schedule.patience
      | .asleep since _ => state.now + elapsed ≤ since + pause schedule.leaseTTL + schedule.slack
      | .outside | .retired => true
  | .answered =>
      match state.loop with
      | .calling _ missed renewed => renewed || missed < schedule.misses
      | _ => true
  | _ => true

/-- The lease the worker holds, and how far off its end is. -/
def Kept (schedule : Schedule) (workerID : String) (state : State Cpu Mem) : Prop :=
  match state.loop with
  | .outside => Unclaimed state.world workerID ∧ workerID ∉ state.world.issuedIDs
  | .registering since => since ≤ state.now ∧ state.now ≤ since + schedule.patience ∧
      (Unclaimed state.world workerID ∨ ∃ id, Holds False state.world workerID id ∧
        since + lifetime schedule.leaseTTL ≤ state.deadline id)
  | .asleep since missed => since ≤ state.now ∧
      state.now ≤ since + pause schedule.leaseTTL + schedule.slack ∧ missed ≤ schedule.misses ∧
      ∃ id, Holds True state.world workerID id ∧ since + lifetime schedule.leaseTTL ≤
        state.deadline id + schedule.patience + missed * schedule.round
  | .calling since missed renewed => since ≤ state.now ∧ state.now ≤ since + schedule.patience ∧
      missed ≤ schedule.misses ∧
      ∃ id, Holds True state.world workerID id ∧ since + lifetime schedule.leaseTTL ≤
        state.deadline id + if renewed then 0 else (missed + 1) * schedule.round
  | .retired => True

section Permitted
variable {workerID : String} {state : State Cpu Mem} {label : Leases.Label Cpu Mem}

theorem permitted_unexpired (may : permitted workerID state label = true) {id : LeaseID}
    (early : state.now < state.deadline id) : label ≠ .expire id := by
  rintro rfl
  exact absurd (of_decide_eq_true may) (Nat.not_le.mpr early)

theorem permitted_watched (may : permitted workerID state label = true) (other : String) :
    label ≠ .markLost other := by
  rintro rfl
  cases may

theorem permitted_other (may : permitted workerID state label = true) (call : Nat)
    (input : RegisterInput Cpu Mem) : label ≠ .register call workerID input := by
  rintro rfl
  simp [permitted] at may

theorem touched_prolong {leaseTTL : Int} {id : LeaseID} (touches : touched state.world label = some id) :
    prolong leaseTTL state label id = state.now + lifetime leaseTTL := by
  rw [prolong, touches]
  exact Function.update_self ..

theorem prolong_cases (leaseTTL : Int) (state : State Cpu Mem) (label : Leases.Label Cpu Mem)
    (id : LeaseID) : prolong leaseTTL state label id = state.deadline id ∨
      prolong leaseTTL state label id = state.now + lifetime leaseTTL := by
  cases touches : touched state.world label with
  | none => exact Or.inl (by rw [prolong, touches])
  | some other =>
      by_cases same : other = id
      · exact Or.inr (touched_prolong (touches.trans (congrArg some same)))
      · rw [prolong, touches]
        exact Or.inl (Function.update_of_ne (Ne.symm same) _ _)

/-- The worker renews the lease it holds. -/
theorem renews_prolong {recorded : Prop} {leaseTTL : Int} {id : LeaseID}
    (holds : Holds recorded state.world workerID id) (renewal : renews workerID state.world label = true) :
    prolong leaseTTL state label id = state.now + lifetime leaseTTL := by
  refine touched_prolong ?_
  unfold renews at renewal
  split at renewal
  case h_2 => cases renewal
  case h_1 call time =>
    split at renewal
    case h_2 => cases renewal
    case h_1 other beat current known =>
      obtain ⟨own, -⟩ := Bool.and_eq_true_iff.mp renewal
      have lease := holds.calls call
      rw [known] at lease
      have named : current.leaseID = some id := lease (congrArg some (of_decide_eq_true own))
      simp [touched, known, named, Option.filter, holds.alive]

end Permitted

section Facts
variable {schedule : Schedule} {workerID : String} {state : State Cpu Mem}

theorem start_kept : Kept schedule workerID (State.start : State Cpu Mem) :=
  ⟨start_unclaimed workerID, List.not_mem_nil⟩

theorem missed_rounds {missed : Nat} (few : missed ≤ schedule.misses) :
    missed * schedule.round ≤ schedule.misses * schedule.round :=
  Nat.mul_le_mul_right _ few

/-- Two heartbeats in a row may fail, if the delays stay below a quarter of the interval. -/
theorem two_misses_fit {leaseTTL : Int} (long : 4 * second ≤ leaseTTL) {slack patience : Nat}
    (prompt : 4 * (slack + patience) < pause leaseTTL) :
    (⟨leaseTTL, slack, patience, 2⟩ : Schedule).Fits := by
  have outlives := four_pauses long
  unfold Schedule.Fits Schedule.round
  simp only
  omega

/-- Once the agent has its answer, the worker has a record. -/
theorem joined_holds {world : Leases.State Cpu Mem} {id : LeaseID}
    (holds : Holds False world workerID id) (found : (world.records.find workerID).isSome = true) :
    Holds True world workerID id :=
  { holds with stored := fun _ => found }

/-- The agent is registered and sends its heartbeats. -/
def Loop.beats : Loop → Bool
  | .asleep _ _ | .calling _ _ _ => true
  | _ => false

theorem kept_active (kept : Kept schedule workerID state) (beats : state.loop.beats = true) :
    ∃ worker id, state.world.records.find workerID = some worker ∧ worker.status = .active ∧
      worker.leaseID = some id ∧ state.world.etcd.Alive id := by
  obtain ⟨id, holds⟩ : ∃ id, Holds True state.world workerID id := by
    unfold Kept at kept
    split at kept
    case h_1 was | h_2 was | h_5 was =>
      rw [was] at beats
      cases beats
    case h_3 | h_4 =>
      obtain ⟨-, -, -, id, holds, -⟩ := kept
      exact ⟨id, holds⟩
  obtain ⟨worker, found⟩ := Option.isSome_iff_exists.mp (holds.stored trivial)
  obtain ⟨active, lease⟩ := holds.record worker found
  exact ⟨worker, id, found, active, lease, holds.alive⟩

end Facts

section Steps
variable [Zero Cpu] [LT Cpu] [DecidableLT Cpu] [Zero Mem] [LT Mem] [DecidableLT Mem]
  {schedule : Schedule} {workerID : String} {state : State Cpu Mem}

/-- The server, etcd and the other workers do not cost the worker its lease. -/
theorem world_kept (fits : schedule.Fits) (kept : Kept schedule workerID state)
    {label : Leases.Label Cpu Mem} (may : permitted workerID state label = true)
    {world : Leases.State Cpu Mem} (stepped : Leases.step state.world label = some world) :
    Kept schedule workerID { state with
      world := world
      deadline := prolong schedule.leaseTTL state label
      loop := state.loop.noting (renews workerID state.world label) } := by
  have watched := permitted_watched may
  unfold Schedule.Fits at fits
  unfold Kept at kept ⊢
  cases loop : state.loop with
  | outside =>
      simp only [loop] at kept
      obtain ⟨unclaimed, fresh⟩ := kept
      simp only [Loop.noting]
      refine ⟨?_, step_issuedIDs stepped fresh (permitted_other may)⟩
      rcases step_unclaimed unclaimed stepped watched with still | ⟨⟨call, time, input, -, granting⟩, -⟩
      · exact still
      · exact absurd (unclaimed.joining call (by rw [granting]; rfl)).1 fresh
  | registering since =>
      simp only [loop] at kept
      obtain ⟨began, soon, stage⟩ := kept
      simp only [Loop.noting]
      refine ⟨began, soon, ?_⟩
      rcases stage with unclaimed | ⟨id, holds, ends⟩
      · rcases step_unclaimed unclaimed stepped watched with
          still | ⟨⟨call, time, input, rfl, granting⟩, holds⟩
        · exact Or.inl still
        · have touches : touched state.world (.advance call time) =
              some (state.world.etcd.nextID + 1) := by
            simp only [touched, granting]
          refine Or.inr ⟨_, holds, ?_⟩
          rw [touched_prolong touches]
          omega
      · have early : state.now < state.deadline id := by omega
        refine Or.inr ⟨id, step_holds holds stepped (permitted_unexpired may early) watched, ?_⟩
        rcases prolong_cases schedule.leaseTTL state label id with same | later <;> omega
  | asleep since missed =>
      simp only [loop] at kept
      obtain ⟨began, soon, few, id, holds, ends⟩ := kept
      have rounds := missed_rounds few
      rw [Nat.succ_mul] at fits
      unfold Schedule.round at fits rounds ends
      have early : state.now < state.deadline id := by omega
      simp only [Loop.noting]
      refine ⟨began, soon, few, id, step_holds holds stepped (permitted_unexpired may early) watched, ?_⟩
      unfold Schedule.round
      rcases prolong_cases schedule.leaseTTL state label id with same | later <;> omega
  | calling since missed renewed =>
      simp only [loop] at kept
      obtain ⟨began, soon, few, id, holds, ends⟩ := kept
      have rounds := missed_rounds few
      rw [Nat.succ_mul] at fits
      have early : state.now < state.deadline id := by
        rw [Nat.succ_mul] at ends
        split at ends <;> omega
      simp only [Loop.noting]
      refine ⟨began, soon, few, id, step_holds holds stepped (permitted_unexpired may early) watched, ?_⟩
      cases renewal : renews workerID state.world label with
      | true =>
          rw [renews_prolong holds renewal]
          omega
      | false =>
          rw [Bool.or_false]
          rcases prolong_cases schedule.leaseTTL state label id with same | later
          · rw [same]
            exact ends
          · omega
  | retired => simp only [Loop.noting]

theorem step_kept (fits : schedule.Fits) (state : State Cpu Mem) (label : Label Cpu Mem)
    (next : State Cpu Mem) (kept : Kept schedule workerID state)
    (punctual : schedule.punctual state label = true)
    (stepped : step schedule.leaseTTL workerID state label = some next) : Kept schedule workerID next := by
  cases label with
  | world label =>
      simp only [step] at stepped
      split at stepped
      · rename_i may
        obtain ⟨world, moved, rfl⟩ := Option.map_eq_some_iff.mp stepped
        exact world_kept fits kept may moved
      · cases stepped
  | wait elapsed =>
      cases stepped
      unfold Kept Schedule.punctual at *
      cases loop : state.loop with
      | outside | retired =>
          simp only [loop] at kept
          exact kept
      | registering since =>
          simp only [loop, decide_eq_true_eq] at kept punctual
          exact ⟨kept.1.trans (Nat.le_add_right _ _), punctual, kept.2.2⟩
      | asleep since missed =>
          simp only [loop, decide_eq_true_eq] at kept punctual
          exact ⟨kept.1.trans (Nat.le_add_right _ _), punctual, kept.2.2⟩
      | calling since missed renewed =>
          simp only [loop, decide_eq_true_eq] at kept punctual
          exact ⟨kept.1.trans (Nat.le_add_right _ _), punctual, kept.2.2⟩
  | join call input =>
      simp only [step] at stepped
      split at stepped
      case h_2 => cases stepped
      case h_1 outside =>
        obtain ⟨world, moved, rfl⟩ := Option.map_eq_some_iff.mp stepped
        simp only [Kept, outside] at kept
        refine ⟨le_rfl, Nat.le_add_right _ _, Or.inl ?_⟩
        rcases step_unclaimed kept.1 moved nofun with still | ⟨⟨_, _, _, isAdvance, -⟩, -⟩
        · exact still
        · cases isAdvance
  | joined =>
      simp only [step] at stepped
      split at stepped
      case h_2 => cases stepped
      case h_1 since registering =>
        split at stepped <;> cases stepped
        rename_i found
        simp only [Kept, registering] at kept
        obtain ⟨began, soon, unclaimed | ⟨id, holds, ends⟩⟩ := kept
        · simp [unclaimed.absent] at found
        · refine ⟨le_rfl, ?_, Nat.zero_le _, id, joined_holds holds found, ?_⟩
          · show state.now ≤ state.now + pause schedule.leaseTTL + schedule.slack
            omega
          · simp only [Nat.zero_mul]
            omega
  | refused =>
      simp only [step] at stepped
      split at stepped <;> cases stepped
      trivial
  | shutdown =>
      cases stepped
      trivial
  | wake =>
      simp only [step] at stepped
      split at stepped
      case h_2 => cases stepped
      case h_1 since missed asleep =>
        split at stepped <;> cases stepped
        simp only [Kept, asleep] at kept
        obtain ⟨began, soon, few, id, holds, ends⟩ := kept
        refine ⟨le_rfl, Nat.le_add_right _ _, few, id, holds, ?_⟩
        simp only [Bool.false_eq_true, if_false, Nat.succ_mul]
        unfold Schedule.round at ends ⊢
        omega
  | answered =>
      simp only [step] at stepped
      split at stepped
      case h_2 => cases stepped
      case h_1 since missed renewed calling =>
        cases stepped
        simp only [Kept, calling] at kept
        simp only [Schedule.punctual, calling, Bool.or_eq_true, decide_eq_true_eq] at punctual
        obtain ⟨began, soon, few, id, holds, ends⟩ := kept
        have wide : state.now ≤ state.now + pause schedule.leaseTTL + schedule.slack := by omega
        cases renewed with
        | true =>
            refine ⟨le_rfl, wide, Nat.zero_le _, id, holds, ?_⟩
            simp only [if_true, Nat.zero_mul] at ends ⊢
            omega
        | false =>
            have less : missed < schedule.misses := punctual.resolve_left Bool.false_ne_true
            refine ⟨le_rfl, wide, less, id, holds, ?_⟩
            simp only [Bool.false_eq_true, if_false] at ends ⊢
            omega

/-- Whatever the other workers, the server and the expiration watch do in between: an
agent that is delayed by less than a quarter of its interval and of whose heartbeats no
three in a row fail keeps its worker ACTIVE, with the lease it was registered with alive. -/
theorem punctual_worker_stays_active (leaseTTL : Int) (long : 4 * second ≤ leaseTTL) (workerID : String)
    (slack patience : Nat) (prompt : 4 * (slack + patience) < pause leaseTTL)
    (labels : List (Label Cpu Mem)) (final : State Cpu Mem)
    (ran : run (step leaseTTL workerID) State.start labels = some final)
    (punctual : Along (step leaseTTL workerID) (fun state label =>
      (⟨leaseTTL, slack, patience, 2⟩ : Schedule).punctual state label = true) State.start labels)
    (beats : final.loop.beats = true) :
    ∃ worker id, final.world.records.find workerID = some worker ∧ worker.status = .active ∧
      worker.leaseID = some id ∧ final.world.etcd.Alive id := by
  have kept : Kept ⟨leaseTTL, slack, patience, 2⟩ workerID final :=
    guarded_invariant (step_kept (two_misses_fit long prompt)) ran punctual start_kept
  exact kept_active kept beats

end Steps

def joining (call : Nat) : List (Label Int Int) := List.replicate 3 (.world (.advance call 0))

/-- worker-1 joins and misses two heartbeats before its third one renews the lease. The
lease of worker-2, which sends none, expires after that. -/
def lateLabels : List (Label Int Int) :=
  [.join 0 plainNode.input, .world (.register 1 "worker-2" plainNode.input)] ++ joining 0 ++ joining 1 ++
    [.wait (second / 2), .joined, .wait (5 * second), .wake, .wait (second / 2), .answered,
      .wait (5 * second), .wake, .answered, .wait (5 * second + second / 2), .wake,
      .world (.heartbeat 0 "worker-1" ⟨none, none⟩), .world (.advance 0 0), .world (.advance 0 0),
      .answered, .wait (5 * second), .world (.expire 2), .world (.deliver (leaseKey "worker-2"))]

theorem lateLabels_active : ∃ final worker id,
    run (step defaultLeaseTTL "worker-1") State.start lateLabels = some final ∧
      final.world.records.find "worker-1" = some worker ∧ worker.status = .active ∧
      worker.leaseID = some id ∧ final.world.etcd.Alive id := by
  have reached : (run (step defaultLeaseTTL "worker-1") State.start lateLabels).any
      (fun final => final.loop.beats) = true := by
    decide +kernel
  have inTime : check (step defaultLeaseTTL "worker-1")
      (⟨defaultLeaseTTL, second / 2, second / 2, 2⟩ : Schedule).punctual State.start lateLabels = true := by
    decide +kernel
  have delays : 4 * (second / 2 + second / 2) < pause defaultLeaseTTL := by
    rw [pause_eq]
    decide
  obtain ⟨final, ran, beats⟩ := (Option.any_eq_true _ _).mp reached
  obtain ⟨worker, id, active⟩ := punctual_worker_stays_active defaultLeaseTTL (by decide) "worker-1"
    (second / 2) (second / 2) delays lateLabels final ran (check_along inTime) beats
  exact ⟨final, worker, id, ran, active⟩

/-- A third missed heartbeat in a row costs the worker its lease, without any delay. -/
example : (run (step defaultLeaseTTL "worker-1") State.start
    ([.join 0 plainNode.input] ++ joining 0 ++ [.joined] ++
      (List.replicate 3 [.wait (5 * second), .wake, .answered]).flatten ++
      [.wait (5 * second), .wake, .world (.expire 1), .world (.deliver (leaseKey "worker-1"))])).any
    (fun final => (final.world.records.find "worker-1").any fun worker =>
      final.loop.beats && worker.status = .lost) = true := by
  decide +kernel

end OrionQueue.HeartbeatTiming
