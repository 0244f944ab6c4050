import Mathlib.Tactic

/-! Finite runs of guarded step functions: a step answers `none` where the
label is not enabled. Invariants and histories are proved here once. -/

namespace VbanStream.Library

variable {State Label Output : Type*}

/-- Perform the labels in order, as long as every one is enabled. -/
def run (step : State → Label → Option State) : State → List Label → Option State
  | state, [] => some state
  | state, label :: rest => (step state label).bind fun next => run step next rest

/-- The states of runs from `start`. -/
def Reachable (step : State → Label → Option State) (start state : State) : Prop :=
  ∃ labels, run step start labels = some state

variable {step : State → Label → Option State}

@[simp] theorem run_nil (state : State) : run step state [] = some state := rfl

theorem run_cons {state final : State} {label : Label} {rest : List Label} :
    run step state (label :: rest) = some final ↔
      ∃ next, step state label = some next ∧ run step next rest = some final := by
  simp [run, Option.bind_eq_some_iff]

theorem run_append {state final : State} {front back : List Label} :
    run step state (front ++ back) = some final ↔
      ∃ middle, run step state front = some middle ∧ run step middle back = some final := by
  induction front generalizing state with
  | nil => simp
  | cons label rest ih =>
    simp only [List.cons_append, run_cons, ih]
    constructor
    · rintro ⟨next, first, middle, mid, last⟩
      exact ⟨middle, ⟨next, first, mid⟩, last⟩
    · rintro ⟨middle, ⟨next, first, mid⟩, last⟩
      exact ⟨next, first, middle, mid, last⟩

theorem run_invariant {Inv : State → Prop}
    (preserved : ∀ state label next, Inv state → step state label = some next → Inv next)
    {labels : List Label} {start final : State} (holds : Inv start)
    (success : run step start labels = some final) : Inv final := by
  induction labels generalizing start with
  | nil => cases success; exact holds
  | cons label rest ih =>
    obtain ⟨next, taken, later⟩ := run_cons.mp success
    exact ih (preserved start label next holds taken) later

/-- An invariant that only steps of one kind keep. -/
theorem run_invariant_of {Inv : State → Prop} {Allowed : Label → Prop}
    (preserved : ∀ state label next, Inv state → Allowed label → step state label = some next →
      Inv next)
    {labels : List Label} (allowed : ∀ label ∈ labels, Allowed label) {start final : State}
    (holds : Inv start) (success : run step start labels = some final) : Inv final := by
  induction labels generalizing start with
  | nil => cases success; exact holds
  | cons label rest ih =>
    obtain ⟨next, taken, later⟩ := run_cons.mp success
    obtain ⟨first, others⟩ := List.forall_mem_cons.mp allowed
    exact ih others (preserved start label next holds first taken) later

/-- Induction on a run from its end, with the labels performed so far. -/
theorem run_history (Inv : List Label → State → Prop) {start : State} (holds : Inv [] start)
    (preserved : ∀ labels state label next, run step start labels = some state →
      Inv labels state → step state label = some next → Inv (labels ++ [label]) next)
    {labels : List Label} {final : State} (success : run step start labels = some final) :
    Inv labels final := by
  induction labels using List.reverseRecOn generalizing final with
  | nil => cases success; exact holds
  | append_singleton front label ih =>
    obtain ⟨middle, before, last⟩ := run_append.mp success
    obtain ⟨next, taken, done⟩ := run_cons.mp last
    cases done
    exact preserved front middle label _ before (ih before) taken

/-- If another system answers every step with one of its own under the same label, it answers
every run. -/
theorem run_lockstep {Other : Type*} {answer : Other → Label → Option Other}
    (Coupled : State → Other → Prop)
    (matched : ∀ state label next other, Coupled state other → step state label = some next →
      ∃ other', answer other label = some other' ∧ Coupled next other')
    {labels : List Label} {start final : State} {other : Other} (coupled : Coupled start other)
    (success : run step start labels = some final) :
    ∃ other', run answer other labels = some other' ∧ Coupled final other' := by
  induction labels generalizing start other with
  | nil =>
    cases success
    exact ⟨other, rfl, coupled⟩
  | cons label rest ih =>
    obtain ⟨next, taken, later⟩ := run_cons.mp success
    obtain ⟨middle, answered, coupled'⟩ := matched start label next other coupled taken
    obtain ⟨last, answered', coupled''⟩ := ih coupled' later
    exact ⟨last, run_cons.mpr ⟨middle, answered, answered'⟩, coupled''⟩

/-- The run performs `label` in `state`. -/
def Performs (step : State → Label → Option State) (start : State) (labels : List Label)
    (state : State) (label : Label) : Prop :=
  ∃ front back, labels = front ++ label :: back ∧ run step start front = some state

theorem Performs.reachable {start state : State} {labels : List Label} {label : Label}
    (performed : Performs step start labels state label) : Reachable step start state := by
  obtain ⟨front, back, _, success⟩ := performed
  exact ⟨front, success⟩

/-- Induction on a run from its end, where every step is one that the run performs. -/
theorem run_performed (Inv : List Label → State → Prop) {labels : List Label} {start : State}
    (holds : Inv [] start)
    (preserved : ∀ front state label next, Inv front state →
      Performs step start labels state label → step state label = some next →
      Inv (front ++ [label]) next)
    {final : State} (success : run step start labels = some final) : Inv labels final := by
  refine run_history (fun front state => front <+: labels → Inv front state) (fun _ => holds)
    ?_ success (List.prefix_refl labels)
  rintro front state label next reached before taken ⟨back, whole⟩
  rw [List.append_assoc, List.singleton_append] at whole
  exact preserved front state label next (before ⟨_, whole⟩) ⟨front, back, whole.symm, reached⟩
    taken

/-- Steps of one kind are as few as a rank that they lower, and that no other step raises. -/
theorem run_rank (Inv : State → Prop) (rank : State → Nat) (own allowed : Label → Bool)
    (lowered : ∀ state label next, Inv state → allowed label = true →
      step state label = some next →
      Inv next ∧ rank next + (if own label then 1 else 0) ≤ rank state)
    {labels : List Label} {start final : State} (holds : Inv start)
    (kind : ∀ label ∈ labels, allowed label = true)
    (success : run step start labels = some final) :
    labels.countP own + rank final ≤ rank start := by
  induction labels generalizing start with
  | nil =>
    cases success
    exact Nat.le_of_eq (Nat.zero_add _)
  | cons label rest ih =>
    obtain ⟨next, taken, later⟩ := run_cons.mp success
    obtain ⟨first, others⟩ := List.forall_mem_cons.mp kind
    obtain ⟨holds', lower⟩ := lowered start label next holds first taken
    have fewer := ih holds' others later
    rw [List.countP_cons]
    omega

theorem Reachable.invariant {Inv : State → Prop}
    (preserved : ∀ state label next, Inv state → step state label = some next → Inv next)
    {start state : State} (holds : Inv start) (reached : Reachable step start state) :
    Inv state := by
  obtain ⟨labels, success⟩ := reached
  exact run_invariant preserved holds success

/-- Finite paths of a labelled relation, oldest label first. -/
inductive Path (relation : State → Label → State → Prop) (start : State) :
    List Label → State → Prop where
  | nil : Path relation start [] start
  | snoc {labels : List Label} {label : Label} {state next : State}
      (before : Path relation start labels state) (taken : relation state label next) :
      Path relation start (labels ++ [label]) next

namespace Path

variable {relation : State → Label → State → Prop}

theorem invariant {Inv : State → Prop}
    (preserved : ∀ state label next, Inv state → relation state label next → Inv next)
    {labels : List Label} {start final : State} (holds : Inv start)
    (path : Path relation start labels final) : Inv final := by
  induction path with
  | nil => exact holds
  | snoc _ taken ih => exact preserved _ _ _ ih taken

theorem single {start next : State} {label : Label} (taken : relation start label next) :
    Path relation start [label] next := .snoc .nil taken

theorem append {front back : List Label} {start middle final : State}
    (first : Path relation start front middle) (second : Path relation middle back final) :
    Path relation start (front ++ back) final := by
  induction second with
  | nil => rwa [List.append_nil]
  | snoc _ taken ih => rw [← List.append_assoc]; exact .snoc ih taken

end Path

end VbanStream.Library
