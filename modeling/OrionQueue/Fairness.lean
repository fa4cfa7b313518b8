import Mathlib.Data.String.Basic
import Mathlib.Order.Lex
import OrionQueue.JobService
import OrionQueue.Keyset
import OrionQueue.Planner

/-!
EffectivePriority and the order that sortByEffectivePriority puts queued jobs
in. As long as the sum fits an int32, a job gains one point for every full
interval it has waited, up to the cap. The cap decides which priorities ever
get past a fresh job of the highest one.
-/

namespace OrionQueue.Fairness

open Jobs Planner

variable {Cpu Mem : Type}

/-- What a job has gained by waiting. -/
def agingBonus (createdAt now : Time) : Int :=
  max 0 (min ((now - createdAt) / agingInterval) maxAgingBonus)

/-- The priorities that ValidateSubmit accepts. -/
def ValidPriority (priority : Int) : Prop := 0 ≤ priority ∧ priority ≤ maxPriority

theorem wrapInt32_small {value : Int} (low : -2 ^ 31 ≤ value) (high : value < 2 ^ 31) :
    wrapInt32 value = value :=
  Int.bmod_eq_of_le (by omega) (by omega)

/-- The whole intervals that a job has waited fit an int32. -/
theorem intervals_exact {waited : Int} (positive : 0 < waited) :
    wrapInt32 (min waited maxDuration / agingInterval) = min waited maxDuration / agingInterval := by
  unfold maxDuration agingInterval
  exact wrapInt32_small (by omega) (by omega)

theorem intervals_small {waited : Int} (positive : 0 < waited) :
    wrapInt32 (wrapInt32 (min waited maxDuration / agingInterval) * agingIncrement) =
      min waited maxDuration / agingInterval := by
  rw [agingIncrement, mul_one, intervals_exact positive, intervals_exact positive]

theorem agingBonus_bounds (createdAt now : Int) :
    0 ≤ agingBonus createdAt now ∧ agingBonus createdAt now ≤ maxAgingBonus := by
  unfold agingBonus maxAgingBonus
  omega

theorem effectivePriority_eq {priority : Int} (low : -2 ^ 31 ≤ priority)
    (high : priority + maxAgingBonus < 2 ^ 31) (createdAt now : Int) :
    effectivePriority priority createdAt now = priority + agingBonus createdAt now := by
  have bounds := agingBonus_bounds createdAt now
  unfold effectivePriority
  by_cases early : now ≤ createdAt
  · have none : agingBonus createdAt now = 0 := by
      unfold agingBonus agingInterval
      omega
    rw [if_pos early, none, add_zero]
  · have capped : (if maxAgingBonus < min (now - createdAt) maxDuration / agingInterval then
        maxAgingBonus else min (now - createdAt) maxDuration / agingInterval) =
          agingBonus createdAt now := by
      unfold agingBonus maxAgingBonus maxDuration agingInterval
      split <;> omega
    rw [if_neg early]
    simp only [intervals_small (Int.sub_pos_of_lt (not_le.mp early)), capped]
    exact wrapInt32_small (by omega) (by omega)

theorem valid_effectivePriority {priority : Int} (valid : ValidPriority priority)
    (createdAt now : Int) :
    effectivePriority priority createdAt now = priority + agingBonus createdAt now := by
  unfold ValidPriority maxPriority at valid
  exact effectivePriority_eq (by omega) (by unfold maxAgingBonus; omega) createdAt now

/-- A larger priority counts for more, up to the largest int32 that leaves room
for the bonus. -/
theorem effectivePriority_mono {lower higher : Int} (low : -2 ^ 31 ≤ lower)
    (below : lower ≤ higher) (high : higher + maxAgingBonus < 2 ^ 31) (createdAt now : Int) :
    effectivePriority lower createdAt now ≤ effectivePriority higher createdAt now := by
  rw [effectivePriority_eq low (by omega), effectivePriority_eq (by omega) high]
  omega

theorem effectivePriority_bounds {priority : Int} (valid : ValidPriority priority)
    (createdAt now : Int) :
    priority ≤ effectivePriority priority createdAt now ∧
      effectivePriority priority createdAt now ≤ priority + maxAgingBonus := by
  rw [valid_effectivePriority valid]
  have bounds := agingBonus_bounds createdAt now
  omega

theorem effectivePriority_later {priority : Int} (valid : ValidPriority priority)
    (createdAt : Int) {early late : Int} (ordered : early ≤ late) :
    effectivePriority priority createdAt early ≤ effectivePriority priority createdAt late := by
  rw [valid_effectivePriority valid, valid_effectivePriority valid]
  unfold agingBonus agingInterval maxAgingBonus
  omega

theorem effectivePriority_older {priority : Int} (valid : ValidPriority priority)
    {older younger : Int} (ordered : older ≤ younger) (now : Int) :
    effectivePriority priority younger now ≤ effectivePriority priority older now := by
  rw [valid_effectivePriority valid, valid_effectivePriority valid]
  unfold agingBonus agingInterval maxAgingBonus
  omega

/-- Once both jobs exist, the bonus of the older one runs ahead by at most one
more point than it did at any earlier instant. -/
theorem agingBonus_gap {older younger early late : Int} (created : older ≤ younger)
    (started : younger ≤ early) (ordered : early ≤ late) :
    agingBonus older late - agingBonus younger late ≤
      agingBonus older early - agingBonus younger early + 1 := by
  unfold agingBonus agingInterval maxAgingBonus
  omega

/-- The place of a job in the queue: effective priority first, then age, then ID. -/
def rank (now : Time) (job : Job Cpu Mem) : Intᵒᵈ ×ₗ Int ×ₗ String :=
  toLex (OrderDual.toDual (jobPriority now job), toLex (job.createdAt, job.id))

theorem jobPriority_le_of_rank {now : Time} {left right : Job Cpu Mem}
    (ranked : rank now left ≤ rank now right) : jobPriority now right ≤ jobPriority now left := by
  rw [rank, rank, Prod.Lex.toLex_le_toLex, OrderDual.toDual_lt_toDual, OrderDual.toDual_inj] at ranked
  rcases ranked with above | ⟨same, _⟩
  · exact above.le
  · exact same.ge

theorem priorityLess_iff (now : Time) (left right : Job Cpu Mem) :
    priorityLess now right left = false ↔ rank now left ≤ rank now right := by
  have aged : (if right.createdAt ≠ left.createdAt then decide (right.createdAt < left.createdAt)
      else decide (right.id < left.id)) = false ↔
        toLex (left.createdAt, left.id) ≤ toLex (right.createdAt, right.id) :=
    Keyset.lexLess_iff (by rw [decide_eq_false_iff_not, not_lt])
  -- A larger priority comes first, so the priorities are compared in the dual order.
  have decided : (if OrderDual.toDual (jobPriority now right) ≠ OrderDual.toDual (jobPriority now left)
      then decide (OrderDual.toDual (jobPriority now right) < OrderDual.toDual (jobPriority now left))
      else _) = false ↔ _ := Keyset.lexLess_iff aged
  exact decided

theorem sortByEffectivePriority_eq (now : Time) (queued : List (Job Cpu Mem)) :
    sortByEffectivePriority now queued = Keyset.sortBy (rank now) queued :=
  Keyset.insertionSort_eq_sortBy (priorityLess_iff now) queued

/-- Among jobs of one priority aging never turns the order around: the one that
stands first in the queue was created first, or at the same instant under a
smaller ID. -/
theorem age_of_rank {priority : Int} (valid : ValidPriority priority) {now : Time}
    {left right : Job Cpu Mem} (isLeft : left.priority = priority) (isRight : right.priority = priority)
    (ranked : rank now left ≤ rank now right) :
    toLex (left.createdAt, left.id) ≤ toLex (right.createdAt, right.id) := by
  rw [rank, rank, Prod.Lex.toLex_le_toLex, OrderDual.toDual_lt_toDual] at ranked
  rcases ranked with above | ⟨_, aged⟩
  · rw [jobPriority, jobPriority, isLeft, isRight] at above
    have older : left.createdAt < right.createdAt := by
      by_contra younger
      exact (effectivePriority_older valid (not_lt.mp younger) now).not_gt above
    exact Prod.Lex.toLex_le_toLex.mpr (.inl older)
  · exact aged

/-- The conversion to int32 comes before the cap, and loses nothing even where the
difference of the two instants is cut off at the longest duration. What a job
counts for stays within the cap, never falls as time passes, and never ranks a
younger job of the same priority first. -/
theorem aging_keeps_order (Cpu Mem : Type) {priority : Int} (valid : ValidPriority priority) :
    (∀ createdAt now : Int, createdAt < now →
      wrapInt32 (min (now - createdAt) maxDuration / agingInterval) =
        min (now - createdAt) maxDuration / agingInterval) ∧
    (∀ createdAt now : Int, priority ≤ effectivePriority priority createdAt now ∧
      effectivePriority priority createdAt now ≤ priority + maxAgingBonus) ∧
    (∀ createdAt early late : Int, early ≤ late →
      effectivePriority priority createdAt early ≤ effectivePriority priority createdAt late) ∧
    (∀ older younger now : Int, older ≤ younger →
      effectivePriority priority younger now ≤ effectivePriority priority older now) ∧
    (∀ (now : Time) (queued : List (Job Cpu Mem)),
      (sortByEffectivePriority now queued).Perm queued ∧
      ((sortByEffectivePriority now queued).filter (·.priority = priority)).Pairwise
        (fun left right => toLex (left.createdAt, left.id) ≤ toLex (right.createdAt, right.id))) := by
  refine ⟨?exact, effectivePriority_bounds valid, ?later, ?older, ?sorted⟩
  case exact =>
    intro createdAt now after
    exact intervals_exact (Int.sub_pos_of_lt after)
  case later =>
    intro createdAt early late ordered
    exact effectivePriority_later valid createdAt ordered
  case older =>
    intro older younger now ordered
    exact effectivePriority_older valid ordered now
  case sorted =>
    intro now queued
    rw [sortByEffectivePriority_eq]
    refine ⟨Keyset.sortBy_perm .., ?_⟩
    apply ((Keyset.sortBy_sorted _).filter _).imp_of_mem
    intro left right isLeft isRight ranked
    have samePriority {job : Job Cpu Mem}
        (kept : job ∈ (Keyset.sortBy (rank now) queued).filter (·.priority = priority)) :
        job.priority = priority :=
      of_decide_eq_true (List.mem_filter.mp kept).2
    exact age_of_rank valid (samePriority isLeft) (samePriority isRight) ranked

/-- The longest gap between two instants is cut off and still gives the full bonus. -/
theorem aging_keeps_order_saturated :
    ValidPriority 100 ∧ maxDuration < 10 ^ 27 ∧ effectivePriority 100 0 (10 ^ 27) = 120 ∧
      effectivePriority 100 0 (10 ^ 27) ≤ 100 + maxAgingBonus := by
  have valid : ValidPriority 100 := ⟨by decide, by decide⟩
  exact ⟨valid, by decide, by decide, ((aging_keeps_order Int Int valid).2.1 0 (10 ^ 27)).2⟩

/-- After some wait, a queued job of this priority stands before every job that is
submitted at that moment, whichever jobs are queued beside them. -/
def Overtakes (Cpu Mem : Type) (priority : Int) : Prop :=
  ∃ wait : Int, ∀ createdAt now : Int, createdAt + wait ≤ now →
    ∀ (queued : List (Job Cpu Mem)) (old fresh : Job Cpu Mem),
      (∀ job ∈ queued, job.state = .queued) → old ∈ queued → fresh ∈ queued →
      old.priority = priority → old.createdAt = createdAt →
      ValidPriority fresh.priority → fresh.createdAt = now →
      [old, fresh].Sublist (sortByEffectivePriority now queued)

theorem jobPriority_fresh {now : Time} {job : Job Cpu Mem} (fresh : job.createdAt = now) :
    jobPriority now job = job.priority :=
  if_pos fresh.ge

/-- A queued job that asks for nothing. -/
def idleJob [Zero Cpu] [Zero Mem] (id : String) (priority : Int) (createdAt : Time) : Job Cpu Mem :=
  { JobService.newJob createdAt id (submission ⟨0, 0, 0, 0⟩) with priority := priority }

theorem agingBonus_full {createdAt now : Int}
    (waited : createdAt + maxAgingBonus * agingInterval ≤ now) :
    agingBonus createdAt now = maxAgingBonus ∧ createdAt < now := by
  unfold agingBonus maxAgingBonus agingInterval at *
  omega

/-- After twenty intervals the bonus is full, and the older job wins a tie. -/
theorem overtakes_of_bonus {priority : Int} (valid : ValidPriority priority)
    (enough : maxPriority - maxAgingBonus ≤ priority) : Overtakes Cpu Mem priority := by
  refine ⟨maxAgingBonus * agingInterval, ?_⟩
  intro createdAt now waited queued old fresh _ listed listed' isPriority isCreated submitted created
  obtain ⟨full, older⟩ := agingBonus_full waited
  have grown : jobPriority now old = priority + maxAgingBonus := by
    rw [jobPriority, isPriority, isCreated, valid_effectivePriority valid, full]
  have level : jobPriority now fresh ≤ jobPriority now old := by
    rw [grown, jobPriority_fresh created]
    have most := submitted.2
    omega
  have ahead : rank now old < rank now fresh := by
    rw [rank, rank, Prod.Lex.toLex_lt_toLex, OrderDual.toDual_lt_toDual, OrderDual.toDual_inj,
      Prod.Lex.toLex_lt_toLex, isCreated, created]
    rcases lt_or_eq_of_le level with above | same
    · exact .inl above
    · exact .inr ⟨same.symm, .inl older⟩
  rw [sortByEffectivePriority_eq]
  exact Keyset.sortBy_before listed listed' ahead

/-- Below that, a fresh job of the highest priority comes first however long the
other one has waited. -/
theorem not_overtakes [Zero Cpu] [Zero Mem] {priority : Int} (valid : ValidPriority priority)
    (short : priority < maxPriority - maxAgingBonus) : ¬ Overtakes Cpu Mem priority := by
  rintro ⟨wait, overtakes⟩
  have highest : ValidPriority maxPriority := ⟨by decide, by decide⟩
  let now := max wait 0
  let old : Job Cpu Mem := idleJob "old" priority 0
  let fresh : Job Cpu Mem := idleJob "new" maxPriority now
  have before : [old, fresh].Sublist (sortByEffectivePriority now [old, fresh]) :=
    overtakes 0 now (by omega) [old, fresh] old fresh
      (by simp [old, fresh, idleJob, JobService.newJob]) (by simp) (by simp) rfl rfl
      highest rfl
  rw [sortByEffectivePriority_eq] at before
  have ranked : rank now old ≤ rank now fresh :=
    List.rel_of_pairwise_cons ((Keyset.sortBy_sorted _).sublist before) (List.mem_singleton.mpr rfl)
  have level := jobPriority_le_of_rank ranked
  have grown : jobPriority now old = priority + agingBonus 0 now := valid_effectivePriority valid 0 now
  have unchanged : jobPriority now fresh = maxPriority := jobPriority_fresh rfl
  have bonus := agingBonus_bounds 0 now
  omega

/-- Waiting is enough exactly for the priorities that the cap lifts to the highest one. -/
theorem overtakes_iff [Zero Cpu] [Zero Mem] {priority : Int} (valid : ValidPriority priority) :
    Overtakes Cpu Mem priority ↔ maxPriority - maxAgingBonus ≤ priority := by
  refine ⟨fun overtakes => ?_, overtakes_of_bonus valid⟩
  by_contra short
  exact not_overtakes valid (not_le.mp short) overtakes

theorem overtakes_eighty : ValidPriority 80 ∧ Overtakes Int Int 80 := by
  have valid : ValidPriority 80 := ⟨by decide, by decide⟩
  exact ⟨valid, (overtakes_iff valid).mpr (by decide)⟩

theorem lowest_starves : ValidPriority 0 ∧ ¬ Overtakes Int Int 0 := by
  have valid : ValidPriority 0 := ⟨by decide, by decide⟩
  exact ⟨valid, not_overtakes valid (by decide)⟩

end OrionQueue.Fairness
