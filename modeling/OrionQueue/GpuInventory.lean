import OrionQueue.Liveness
import OrionQueue.Planner

/-!
The GPU inventories the scheduler places against. Register writes an inventory that
ValidateRegister has checked; Heartbeat writes the list it was called with, and
nothing checks that one. The calls are those of `Leases`, cut at every access to
etcd or to the repository, so that a write may come long after its call.
-/

namespace OrionQueue.GpuInventory

open Jobs Workers MemoryRepository Leases Runs
open Liveness (beaten find_heartbeat)

variable {Cpu Mem : Type}

section Checks
variable [Zero Mem] [LT Mem]

/-- What ValidateRegister asks of one entry. -/
structure ValidGPU (gpu : GPU Cpu Mem) : Prop where
  index : 0 ≤ gpu.deviceIndex
  total : ¬ gpu.totalMemoryBytes < 0
  allocated : ¬ gpu.allocatedMemoryBytes < 0
  within : ¬ gpu.totalMemoryBytes < gpu.allocatedMemoryBytes

/-- What ValidateRegister asks of the list. -/
structure ValidInventory (gpus : List (GPU Cpu Mem)) : Prop where
  few : gpus.length ≤ maxGPUCount
  each : ∀ gpu ∈ gpus, ValidGPU gpu
  distinct : (gpus.map GPU.deviceIndex).Nodup

variable [DecidableLT Mem]

instance (gpu : GPU Cpu Mem) : Decidable (ValidGPU gpu) :=
  decidable_of_iff (0 ≤ gpu.deviceIndex ∧ ¬ gpu.totalMemoryBytes < 0 ∧
      ¬ gpu.allocatedMemoryBytes < 0 ∧ ¬ gpu.totalMemoryBytes < gpu.allocatedMemoryBytes)
    ⟨fun all => ⟨all.1, all.2.1, all.2.2.1, all.2.2.2⟩,
      fun valid => ⟨valid.index, valid.total, valid.allocated, valid.within⟩⟩

instance (gpus : List (GPU Cpu Mem)) : Decidable (ValidInventory gpus) :=
  decidable_of_iff (gpus.length ≤ maxGPUCount ∧ (∀ gpu ∈ gpus, ValidGPU gpu) ∧
      (gpus.map GPU.deviceIndex).Nodup)
    ⟨fun all => ⟨all.1, all.2.1, all.2.2⟩, fun valid => ⟨valid.few, valid.each, valid.distinct⟩⟩

theorem gpuProblems_nil {index : Nat} {seen : List Int} {gpu : GPU Cpu Mem} :
    gpuProblems index seen gpu = [] ↔ ValidGPU gpu ∧ gpu.deviceIndex ∉ seen := by
  simp only [gpuProblems, List.append_eq_nil_iff, problemWhen_nil, decide_eq_false_iff_not, not_lt,
    List.contains_eq_mem]
  constructor
  · rintro ⟨⟨⟨⟨index, unseen⟩, total⟩, allocated⟩, within⟩
    exact ⟨⟨index, total, allocated, within⟩, unseen⟩
  · rintro ⟨valid, unseen⟩
    exact ⟨⟨⟨⟨valid.index, unseen⟩, valid.total⟩, valid.allocated⟩, valid.within⟩

theorem gpuListProblems_nil {index : Nat} {seen : List Int} {gpus : List (GPU Cpu Mem)} :
    gpuListProblems index seen gpus = [] ↔
      (∀ gpu ∈ gpus, ValidGPU gpu ∧ gpu.deviceIndex ∉ seen) ∧
        (gpus.map GPU.deviceIndex).Nodup := by
  induction gpus generalizing index seen with
  | nil => simp [gpuListProblems]
  | cons gpu rest ih =>
      rw [gpuListProblems, List.append_eq_nil_iff, gpuProblems_nil, ih]
      simp only [List.mem_cons, not_or, List.map_cons, List.nodup_cons, List.mem_map, not_exists,
        not_and, forall_eq_or_imp]
      constructor
      · rintro ⟨own, others, distinct⟩
        exact ⟨⟨own, fun other member => ⟨(others other member).1, (others other member).2.2⟩⟩,
          fun other member => (others other member).2.1, distinct⟩
      · rintro ⟨⟨own, others⟩, apart, distinct⟩
        exact ⟨own, fun other member => ⟨(others other member).1, apart other member,
          (others other member).2⟩, distinct⟩

theorem validateRegister_inventory [Zero Cpu] [LT Cpu] [DecidableLT Cpu]
    {input : RegisterInput Cpu Mem} (accepted : validateRegister input = .ok ()) :
    ValidInventory input.gpus := by
  have clean : registerProblems input = [] := by
    cases found : registerProblems input with
    | nil => rfl
    | cons problem rest => simp [validateRegister, found] at accepted
  simp only [registerProblems, List.append_eq_nil_iff, problemWhen_nil, decide_eq_false_iff_not,
    not_lt] at clean
  obtain ⟨each, distinct⟩ := gpuListProblems_nil.mp clean.2
  exact ⟨clean.1.2, fun gpu member => (each gpu member).1, distinct⟩

end Checks

/-- The heartbeat that the next access of a call writes. -/
def writtenBeat : Call Cpu Mem → Option (String × Beat Cpu Mem)
  | .bound workerID (.heartbeat beat) _ => some (workerID, beat)
  | .renewed workerID beat => some (workerID, beat)
  | _ => none

/-- The heartbeat that a step writes. -/
def beatOf (state : State Cpu Mem) : Label Cpu Mem → Option (String × Beat Cpu Mem)
  | .advance call _ => writtenBeat (state.calls call)
  | _ => none

theorem markLost_kept (records : MemoryRepository Cpu Mem) (workerID : String) :
    InventoryKept records (markLost records workerID) :=
  update_inventory fun _ _ accepted => markLost_inventory accepted

section Inventories
variable [Zero Mem] [LT Mem]

def AllValid (state : State Cpu Mem) : Prop :=
  ∀ id worker, state.records.find id = some worker → ValidInventory worker.gpus

/-- A heartbeat that is written comes without a GPU list, or with a valid one. -/
def BeatValid (state : State Cpu Mem) (label : Label Cpu Mem) : Prop :=
  ∀ written ∈ beatOf state label, ∀ gpus ∈ written.2.gpus, ValidInventory gpus

instance [DecidableLT Mem] (state : State Cpu Mem) (label : Label Cpu Mem) :
    Decidable (BeatValid state label) :=
  inferInstanceAs (Decidable (∀ written ∈ beatOf state label, ∀ gpus ∈ written.2.gpus,
    ValidInventory gpus))

/-- What a step does to the records, seen from the inventories. -/
inductive Write (state next : State Cpu Mem) (label : Label Cpu Mem) : Prop where
  | keeps (quiet : beatOf state label = none)
      (kept : InventoryKept state.records next.records)
  | registers {id : String} {worker : Worker Cpu Mem} (quiet : beatOf state label = none)
      (valid : ValidInventory worker.gpus)
      (stored : ∀ other, next.records.find other =
        if other = id then some worker else state.records.find other)
  | beats {id : String} {beat : Beat Cpu Mem} {worker worker' : Worker Cpu Mem}
      (isBeat : beatOf state label = some (id, beat)) (found : state.records.find id = some worker)
      (gpus : worker'.gpus = beat.gpus.getD worker.gpus)
      (stored : ∀ other, next.records.find other =
        if other = id then some worker' else state.records.find other)

theorem write_grows {state next : State Cpu Mem} {label : Label Cpu Mem}
    (write : Write state next label) {id : String} (known : (state.records.find id).isSome) :
    (next.records.find id).isSome := by
  obtain ⟨worker, found⟩ := Option.isSome_iff_exists.mp known
  cases write with
  | keeps quiet kept =>
      obtain ⟨worker', found', _⟩ := kept.forth id worker found
      simp [found']
  | registers quiet valid stored | beats isBeat known' gpus stored =>
      rw [stored]
      split <;> simp [known]

theorem update_beats {state next : State Cpu Mem} {label : Label Cpu Mem} {now : Time}
    {id : String} {lease : Option LeaseID} {beat : Beat Cpu Mem}
    (isBeat : beatOf state label = some (id, beat)) (known : (state.records.find id).isSome)
    (records : next.records =
      (state.records.update id (heartbeatUpdate now lease beat.gpus beat.runningJobIDs)).2) :
    Write state next label := by
  obtain ⟨worker, found⟩ := Option.isSome_iff_exists.mp known
  have brought : (beaten now lease beat worker).gpus = beat.gpus.getD worker.gpus := rfl
  refine .beats isBeat found brought fun other => ?_
  rw [records, find_heartbeat, found, Option.map_some]

/-- A write is harmless exactly if the list it may bring is valid. -/
theorem write_valid {state next : State Cpu Mem} {label : Label Cpu Mem} (valid : AllValid state)
    (write : Write state next label) : AllValid next ↔ BeatValid state label := by
  cases write with
  | keeps quiet kept =>
      refine iff_of_true (fun id worker found => ?_) (fun _ isBeat => by simp [quiet] at isBeat)
      obtain ⟨before, known, same⟩ := kept.back id worker found
      rw [← same.2.2.2]
      exact valid id before known
  | registers quiet checked stored =>
      refine iff_of_true (fun id worker found => ?_) (fun _ isBeat => by simp [quiet] at isBeat)
      rw [stored] at found
      split at found
      · cases found
        exact checked
      · exact valid id worker found
  | @beats id beat worker worker' isBeat found gpus stored =>
      constructor
      · intro after written isWritten list isList
        obtain rfl : (id, beat) = written := by simpa [isBeat] using isWritten
        have own := after id worker' (by rw [stored, if_pos rfl])
        rwa [gpus, Option.mem_def.mp isList, Option.getD_some] at own
      · intro brought key record known
        rw [stored] at known
        split at known
        · cases known
          rw [gpus]
          cases list : beat.gpus with
          | none => exact valid id worker found
          | some list' => exact brought (id, beat) isBeat list' list
        · exact valid key record known

end Inventories

section Machine
variable [Zero Cpu] [LT Cpu] [DecidableLT Cpu] [Zero Mem] [LT Mem] [DecidableLT Mem]

def TaskSound (records : MemoryRepository Cpu Mem) (workerID : String) : Task Cpu Mem → Prop
  | .registration input => validateRegister input = .ok ()
  | .heartbeat _ => (records.find workerID).isSome

/-- A registration under way has been checked, and a heartbeat has found its worker. -/
def CallSound (records : MemoryRepository Cpu Mem) : Call Cpu Mem → Prop
  | .idle => True
  | .read workerID _ _ | .renewed workerID _ => (records.find workerID).isSome
  | .granting workerID task | .granted workerID task _ | .bound workerID task _ =>
      TaskSound records workerID task

def CallsSound (state : State Cpu Mem) : Prop := ∀ call, CallSound state.records (state.calls call)

theorem callSound_grows {records records' : MemoryRepository Cpu Mem} {call : Call Cpu Mem}
    (sound : CallSound records call)
    (grows : ∀ id, (records.find id).isSome → (records'.find id).isSome) :
    CallSound records' call := by
  have task : ∀ {id : String} {task : Task Cpu Mem}, TaskSound records id task →
      TaskSound records' id task := by
    intro id task sound
    cases task with
    | registration input => exact sound
    | heartbeat beat => exact grows id sound
  cases call with
  | idle => trivial
  | read workerID beat current | renewed workerID beat => exact grows workerID sound
  | granting workerID under | granted workerID under lease | bound workerID under lease =>
      exact task sound

/-- A step that writes and moves at most one call on. -/
theorem callsSound_write {state next : State Cpu Mem} {label : Label Cpu Mem}
    (sound : CallsSound state) (write : Write state next label)
    (moved : ∀ call, next.calls call = state.calls call ∨
      CallSound state.records (next.calls call)) : CallsSound next := by
  intro call
  refine callSound_grows ?_ fun id => write_grows write
  rcases moved call with same | moved
  · rw [same]
    exact sound call
  · exact moved

theorem setCall_moved {state before : State Cpu Mem} {call : Nat} {next : Call Cpu Mem}
    (same : state.calls = before.calls) (moved : CallSound before.records next) (other : Nat) :
    (state.setCall call next).calls other = before.calls other ∨
      CallSound before.records ((state.setCall call next).calls other) := by
  rw [State.calls_setCall]
  split
  · exact Or.inr moved
  · exact Or.inl (by rw [same])

theorem advance_write {state next : State Cpu Mem} {call : Nat} {now : Time}
    (sound : CallsSound state) (stepped : advance state call now = some next) :
    Write state next (.advance call now) ∧ ∀ other, next.calls other = state.calls other ∨
      CallSound state.records (next.calls other) := by
  have own := sound call
  unfold advance at stepped
  split at stepped
  · cases stepped
  case h_2 workerID beat current reading =>
    rw [reading] at own
    have quiet : beatOf state (.advance call now) = none := by simp [beatOf, reading, writtenBeat]
    split at stepped
    · cases stepped
      exact ⟨.keeps quiet (inventory_refl _), setCall_moved rfl own⟩
    · split at stepped <;> cases stepped <;>
        exact ⟨.keeps quiet (inventory_refl _), setCall_moved rfl own⟩
  case h_3 workerID task granting =>
    rw [granting] at own
    have quiet : beatOf state (.advance call now) = none := by simp [beatOf, granting, writtenBeat]
    cases stepped
    exact ⟨.keeps quiet (inventory_refl _), setCall_moved rfl own⟩
  case h_4 workerID task lease granted =>
    rw [granted] at own
    have quiet : beatOf state (.advance call now) = none := by simp [beatOf, granted, writtenBeat]
    split at stepped <;> cases stepped
    · exact ⟨.keeps quiet (inventory_refl _), setCall_moved rfl trivial⟩
    · exact ⟨.keeps quiet (inventory_refl _), setCall_moved rfl own⟩
  case h_5 workerID task lease bound =>
    rw [bound] at own
    cases stepped
    refine ⟨?_, setCall_moved rfl trivial⟩
    cases task with
    | registration input =>
        have quiet : beatOf state (.advance call now) = none := by simp [beatOf, bound, writtenBeat]
        have checked : ValidInventory (registered now workerID lease input).gpus :=
          validateRegister_inventory own
        exact .registers quiet checked (find_create state.records _)
    | heartbeat beat =>
        exact update_beats (by simp [beatOf, bound, writtenBeat]) own rfl
  case h_6 workerID beat renewed =>
    rw [renewed] at own
    cases stepped
    exact ⟨update_beats (by simp [beatOf, renewed, writtenBeat]) own rfl, setCall_moved rfl trivial⟩

/-- Every step is one of the three writes, by calls that stay sound. -/
theorem step_write {state next : State Cpu Mem} {label : Label Cpu Mem} (sound : CallsSound state)
    (stepped : step state label = some next) :
    Write state next label ∧ ∀ other, next.calls other = state.calls other ∨
      CallSound state.records (next.calls other) := by
  have still : ∀ other, state.calls other = state.calls other ∨
      CallSound state.records (state.calls other) := fun _ => Or.inl rfl
  cases label with
  | advance call now => exact advance_write sound stepped
  | register call id input =>
      simp only [step] at stepped
      split at stepped
      · cases stepped
      · split at stepped
        · obtain ⟨_, rfl⟩ := whenIdle_some stepped
          exact ⟨.keeps rfl (inventory_refl _), still⟩
        · rename_i accepted
          obtain ⟨_, rfl⟩ := whenIdle_some stepped
          exact ⟨.keeps rfl (inventory_refl _), setCall_moved rfl accepted⟩
  | heartbeat call workerID beat =>
      simp only [step] at stepped
      split at stepped
      · obtain ⟨_, rfl⟩ := whenIdle_some stepped
        exact ⟨.keeps rfl (inventory_refl _), still⟩
      · rename_i current read
        obtain ⟨_, rfl⟩ := whenIdle_some stepped
        refine ⟨.keeps rfl (inventory_refl _), setCall_moved rfl ?_⟩
        unfold MemoryRepository.get at read
        split at read
        · cases read
        · rename_i found
          exact Option.isSome_iff_exists.mpr ⟨_, found⟩
  | abandon call =>
      cases stepped
      exact ⟨.keeps rfl (inventory_refl _), setCall_moved rfl trivial⟩
  | expire leaseID =>
      obtain ⟨key, _, rfl⟩ := Option.map_eq_some_iff.mp stepped
      exact ⟨.keeps rfl (inventory_refl _), still⟩
  | deliver key =>
      simp only [step] at stepped
      split at stepped <;> cases stepped
      refine ⟨.keeps rfl ?_, still⟩
      unfold watchExpirations
      split
      · exact inventory_refl _
      · exact markLost_kept _ _
  | markLost workerID =>
      cases stepped
      exact ⟨.keeps rfl (markLost_kept _ _), still⟩

theorem step_callsSound (state : State Cpu Mem) (label : Label Cpu Mem) (next : State Cpu Mem)
    (sound : CallsSound state) (stepped : step state label = some next) : CallsSound next := by
  obtain ⟨write, moved⟩ := step_write sound stepped
  exact callsSound_write sound write moved

/-- The stored inventories stay valid exactly as long as the heartbeats bring valid
lists, or none. -/
theorem inventories_valid_iff (labels : List (Label Cpu Mem)) (state : State Cpu Mem)
    (ran : run step State.start labels = some state) :
    Always step AllValid State.start labels ↔ Along step BeatValid State.start labels := by
  have exact_guard : ∀ (state : State Cpu Mem) label next, CallsSound state → AllValid state →
      step state label = some next → (AllValid next ↔ BeatValid state label) :=
    fun state label next sound valid stepped => write_valid valid (step_write sound stepped).1
  refine always_iff_along_under step_callsSound exact_guard ran (fun _ => trivial) ?_
  intro id worker found
  simp [State.start] at found

end Machine

/-- The worker registers with one device and reports it again. -/
def refreshLabels : List (Label Int Int) :=
  [.register 0 "worker-1" gpuNode.input, .advance 0 0, .advance 0 0, .advance 0 1,
    .heartbeat 0 "worker-1" ⟨some [device 0 8192], none⟩, .advance 0 2, .advance 0 3]

theorem refreshLabels_valid : Always step AllValid State.start refreshLabels := by
  refine (inventories_valid_iff refreshLabels _ rfl).mpr ?_
  have checked : check step (fun state label => decide (BeatValid state label)) State.start
      refreshLabels = true := by decide
  exact along_mono (fun _ _ => of_decide_eq_true) (check_along checked)

/-- It reports the one device twice. -/
def repeatedLabels : List (Label Int Int) :=
  [.register 0 "worker-1" gpuNode.input, .advance 0 0, .advance 0 0, .advance 0 1,
    .heartbeat 0 "worker-1" ⟨some [device 0 8192, device 0 8192], none⟩, .advance 0 2, .advance 0 3]

theorem repeated_device_counts_twice : ∃ state worker,
    run step State.start repeatedLabels = some state ∧
      state.records.find "worker-1" = some worker ∧ ¬ ValidInventory worker.gpus ∧
      Planner.freeGPUCount worker 80 0 = 2 := by
  refine ⟨_, _, rfl, rfl, ?_, rfl⟩
  decide

end OrionQueue.GpuInventory
