import Mathlib.Data.List.Basic

/-!
Finite runs of a partial labelled machine. `step` refuses a label by returning
`none`; a run is a list of labels, each of which was accepted. `Along` states a
condition on every step of a run, evaluated in the state before that step.
Nothing here mentions a particular machine.
-/

namespace OrionQueue.Runs

universe u v
variable {State : Type u} {Label : Type v}

def run (step : State → Label → Option State) : State → List Label → Option State
  | state, [] => some state
  | state, label :: rest => (step state label).bind fun next => run step next rest

/-- Every accepted step of the run meets `guard` in the state it starts from. -/
def Along (step : State → Label → Option State) (guard : State → Label → Prop) :
    State → List Label → Prop
  | _, [] => True
  | state, label :: rest =>
      guard state label ∧ ∀ next, step state label = some next → Along step guard next rest

/-- Evaluates a decidable condition along a run. -/
def check (step : State → Label → Option State) (guard : State → Label → Bool) :
    State → List Label → Bool
  | _, [] => true
  | state, label :: rest =>
      guard state label && (step state label).all fun next => check step guard next rest

/-- Every state the run passes through satisfies `holds`. -/
def Always (step : State → Label → Option State) (holds : State → Prop) :
    State → List Label → Prop
  | state, [] => holds state
  | state, label :: rest =>
      holds state ∧ ∀ next, step state label = some next → Always step holds next rest

theorem run_cons {step : State → Label → Option State} {state final : State}
    {label : Label} {rest : List Label} :
    run step state (label :: rest) = some final ↔
      ∃ next, step state label = some next ∧ run step next rest = some final := by
  simp [run, Option.bind_eq_some_iff]

theorem run_append {step : State → Label → Option State} {state middle : State}
    {labels : List Label} (ran : run step state labels = some middle) (rest : List Label) :
    run step state (labels ++ rest) = run step middle rest := by
  induction labels generalizing state with
  | nil =>
      obtain rfl : state = middle := by simpa [run] using ran
      rfl
  | cons label tail ih =>
      obtain ⟨next, stepped, later⟩ := run_cons.mp ran
      rw [List.cons_append, run, stepped, Option.bind_some, ih later]

/-- A property kept by every step that meets the guard holds after every
guarded run. -/
theorem guarded_invariant {step : State → Label → Option State}
    {guard : State → Label → Prop} {Inv : State → Prop}
    (keeps : ∀ state label next, Inv state → guard state label →
      step state label = some next → Inv next)
    {state final : State} {labels : List Label}
    (ran : run step state labels = some final)
    (guarded : Along step guard state labels) (holds : Inv state) : Inv final := by
  induction labels generalizing state with
  | nil =>
      obtain rfl : state = final := by simpa [run] using ran
      exact holds
  | cons label rest ih =>
      obtain ⟨next, stepped, tail⟩ := run_cons.mp ran
      exact ih tail (guarded.2 next stepped) (keeps state label next holds guarded.1 stepped)

theorem along_mono {step : State → Label → Option State} {guard weaker : State → Label → Prop}
    (weakens : ∀ state label, guard state label → weaker state label) {state : State}
    {labels : List Label} (guarded : Along step guard state labels) :
    Along step weaker state labels := by
  induction labels generalizing state with
  | nil => trivial
  | cons label rest ih =>
      exact ⟨weakens state label guarded.1, fun next stepped => ih (guarded.2 next stepped)⟩

theorem along_of_labels {step : State → Label → Option State} {guard : State → Label → Prop}
    {labels : List Label} (all : ∀ label ∈ labels, ∀ state, guard state label) (state : State) :
    Along step guard state labels := by
  induction labels generalizing state with
  | nil => trivial
  | cons label rest ih =>
      exact ⟨all label List.mem_cons_self state,
        fun next _ => ih (fun other member => all other (List.mem_cons_of_mem _ member)) next⟩

theorem along_always {step : State → Label → Option State} {guard : State → Label → Prop}
    (always : ∀ state label, guard state label) (state : State) (labels : List Label) :
    Along step guard state labels :=
  along_of_labels (fun label _ state => always state label) state

theorem check_along {step : State → Label → Option State} {guard : State → Label → Bool}
    {state : State} {labels : List Label} (checked : check step guard state labels = true) :
    Along step (fun state label => guard state label = true) state labels := by
  induction labels generalizing state with
  | nil => trivial
  | cons label rest ih =>
      simp only [check, Bool.and_eq_true] at checked
      refine ⟨checked.1, fun next stepped => ih ?_⟩
      simpa [stepped] using checked.2

theorem always_start {step : State → Label → Option State} {holds : State → Prop} {state : State}
    {labels : List Label} (always : Always step holds state labels) : holds state := by
  cases labels with
  | nil => exact always
  | cons label rest => exact always.1

/-- Where the guard is exactly what a step needs to keep the property, the
guarded runs are exactly those that never leave it. What holds in every run may be
used to tell what a step needs. -/
theorem always_iff_along_under {step : State → Label → Option State}
    {guard : State → Label → Prop} {holds Inv : State → Prop}
    (keeps : ∀ state label next, Inv state → step state label = some next → Inv next)
    (exact_guard : ∀ state label next, Inv state → holds state → step state label = some next →
      (holds next ↔ guard state label))
    {state final : State} {labels : List Label} (ran : run step state labels = some final)
    (inv : Inv state) (initially : holds state) :
    Always step holds state labels ↔ Along step guard state labels := by
  induction labels generalizing state with
  | nil => exact ⟨fun _ => trivial, fun _ => initially⟩
  | cons label rest ih =>
      obtain ⟨next, stepped, tail⟩ := run_cons.mp ran
      have kept := exact_guard state label next inv initially stepped
      have later := keeps state label next inv stepped
      constructor
      · intro always
        have onward := always.2 next stepped
        have holdsNext := always_start onward
        refine ⟨kept.mp holdsNext, fun other same => ?_⟩
        obtain rfl := Option.some.inj (stepped.symm.trans same)
        exact (ih tail later holdsNext).mp onward
      · intro guarded
        refine ⟨initially, fun other same => ?_⟩
        obtain rfl := Option.some.inj (stepped.symm.trans same)
        exact (ih tail later (kept.mpr guarded.1)).mpr (guarded.2 next stepped)

theorem always_iff_along {step : State → Label → Option State} {guard : State → Label → Prop}
    {holds : State → Prop}
    (exact_guard : ∀ state label next, holds state → step state label = some next →
      (holds next ↔ guard state label))
    {state final : State} {labels : List Label} (ran : run step state labels = some final)
    (initially : holds state) : Always step holds state labels ↔ Along step guard state labels := by
  have anywhere : ∀ state label next, True → step state label = some next → True :=
    fun _ _ _ _ _ => trivial
  exact always_iff_along_under anywhere
    (fun state label next _ => exact_guard state label next) ran trivial initially

theorem run_invariant {step : State → Label → Option State} {Inv : State → Prop}
    (keeps : ∀ state label next, Inv state → step state label = some next → Inv next)
    {state final : State} {labels : List Label}
    (ran : run step state labels = some final) (holds : Inv state) : Inv final :=
  guarded_invariant (fun state label next inv _ stepped => keeps state label next inv stepped)
    ran (along_always (fun _ _ => trivial : ∀ _ _, True) state labels) holds

/-- What holds of the labels so far and the state they lead to, kept by each further step. -/
theorem run_history {step : State → Label → Option State} {start : State}
    {Inv : List Label → State → Prop} (initially : Inv [] start)
    (keeps : ∀ labels state label next, run step start labels = some state → Inv labels state →
      step state label = some next → Inv (labels ++ [label]) next)
    {labels : List Label} {final : State} (ran : run step start labels = some final) :
    Inv labels final := by
  have onward : ∀ (rest labels : List Label) (state : State),
      run step start labels = some state → Inv labels state → run step state rest = some final →
      Inv (labels ++ rest) final := by
    intro rest
    induction rest with
    | nil =>
        intro labels state _ holds ended
        obtain rfl : state = final := by simpa [run] using ended
        simpa using holds
    | cons label rest ih =>
        intro labels state reached holds ended
        obtain ⟨next, stepped, tail⟩ := run_cons.mp ended
        have further : run step start (labels ++ [label]) = some next := by
          rw [run_append reached]
          exact run_cons.mpr ⟨next, stepped, rfl⟩
        simpa using ih (labels ++ [label]) next further
          (keeps labels state label next reached holds stepped) tail
  simpa using onward labels [] start rfl initially ran

/-- Some run with allowed labels only goes from one state to the other. -/
def Leads (step : State → Label → Option State) (allowed : Label → Prop) (state final : State) :
    Prop :=
  ∃ labels, (∀ label ∈ labels, allowed label) ∧ run step state labels = some final

theorem Leads.refl {step : State → Label → Option State} {allowed : Label → Prop} (state : State) :
    Leads step allowed state state :=
  ⟨[], nofun, rfl⟩

theorem Leads.cons {step : State → Label → Option State} {allowed : Label → Prop}
    {state next final : State} {label : Label} (permitted : allowed label)
    (stepped : step state label = some next) (later : Leads step allowed next final) :
    Leads step allowed state final := by
  obtain ⟨labels, all, ran⟩ := later
  exact ⟨label :: labels, List.forall_mem_cons.mpr ⟨permitted, all⟩, run_cons.mpr ⟨next, stepped, ran⟩⟩

theorem Leads.trans {step : State → Label → Option State} {allowed : Label → Prop}
    {state middle final : State} (first : Leads step allowed state middle)
    (second : Leads step allowed middle final) : Leads step allowed state final := by
  obtain ⟨labels, all, ran⟩ := first
  obtain ⟨labels', all', ran'⟩ := second
  exact ⟨labels ++ labels', List.forall_mem_append.mpr ⟨all, all'⟩, (run_append ran labels').trans ran'⟩

end OrionQueue.Runs
