import VbanStream.Library.Run

/-! Observations along runs: the queue law of what goes in and comes out, and the
simulation of one system by another that answers a step with any number of steps. -/

namespace VbanStream.Library

variable {State Label Event Item : Type*}

/-- The events of a run, oldest first. -/
def observed (step : State → Label → Option State) (observe : State → Label → List Event) :
    State → List Label → List Event
  | _, [] => []
  | state, label :: rest =>
    observe state label ++ ((step state label).map fun next =>
      observed step observe next rest).getD []

/-- Every step that a run takes is allowed in the state it is taken in. -/
def allAlong (step : State → Label → Option State) (allowed : State → Label → Bool) :
    State → List Label → Bool
  | _, [] => true
  | state, label :: rest =>
    allowed state label && (step state label).all fun next => allAlong step allowed next rest

variable {step : State → Label → Option State} {observe : State → Label → List Event}

theorem observed_cons {state next : State} {label : Label} (taken : step state label = some next)
    (rest : List Label) :
    observed step observe state (label :: rest) =
      observe state label ++ observed step observe next rest := by
  rw [observed, taken, Option.map_some, Option.getD_some]

theorem allAlong_cons {allowed : State → Label → Bool} {state next : State} {label : Label}
    (taken : step state label = some next) {rest : List Label} :
    allAlong step allowed state (label :: rest) = true ↔
      allowed state label = true ∧ allAlong step allowed next rest = true := by
  rw [allAlong, taken, Option.all_some, Bool.and_eq_true]

theorem allAlong_performs {allowed : State → Label → Bool} {start state : State}
    {labels : List Label} {label : Label} (along : allAlong step allowed start labels = true)
    (performed : Performs step start labels state label) : allowed state label = true := by
  obtain ⟨front, back, rfl, success⟩ := performed
  induction front generalizing start with
  | nil =>
    cases success
    exact (Bool.and_eq_true_iff.mp along).1
  | cons first rest ih =>
    obtain ⟨next, taken, later⟩ := run_cons.mp success
    exact ih later ((allAlong_cons taken).mp along).2

theorem observed_append {start middle : State} {front : List Label}
    (success : run step start front = some middle) (back : List Label) :
    observed step observe start (front ++ back) =
      observed step observe start front ++ observed step observe middle back := by
  induction front generalizing start with
  | nil => cases success; rfl
  | cons label rest ih =>
    obtain ⟨next, taken, later⟩ := run_cons.mp success
    rw [List.cons_append, observed_cons taken, observed_cons taken, ih later, List.append_assoc]

/-- If every step changes a state's worth by what it takes in and gives out, so does a run. -/
theorem observed_balance (worth : State → Nat) (entering leaving : Event → Bool)
    (balanced : ∀ state label next, step state label = some next →
      worth state + (observe state label).countP entering =
        worth next + (observe state label).countP leaving)
    {labels : List Label} {start final : State} (success : run step start labels = some final) :
    worth start + (observed step observe start labels).countP entering =
      worth final + (observed step observe start labels).countP leaving := by
  induction labels generalizing start with
  | nil => cases success; rfl
  | cons label rest ih =>
    obtain ⟨next, taken, later⟩ := run_cons.mp success
    have first := balanced start label next taken
    have others := ih later
    rw [observed_cons taken, List.countP_append, List.countP_append]
    omega

theorem allAlong_of_kind {kind : Label → Bool} {labels : List Label}
    (of_kind : ∀ label ∈ labels, kind label = true) (start : State) :
    allAlong step (fun _ label => kind label) start labels = true := by
  induction labels generalizing start with
  | nil => rfl
  | cons label rest ih =>
    rw [allAlong, of_kind label List.mem_cons_self, Bool.true_and, Option.all_eq_true]
    intro next _
    exact ih (fun other member => of_kind other (List.mem_cons_of_mem _ member)) next

/-- What a system owes, what enters it and what leaves it are one queue along a run, if
every allowed step keeps them so. -/
theorem observed_queue {Inv : State → Prop} {allowed : State → Label → Bool}
    (owed : State → List Item) (entering leaving : Event → Option Item)
    (preserved : ∀ state label next, Inv state → allowed state label = true →
      step state label = some next → Inv next)
    (balanced : ∀ state label next, Inv state → allowed state label = true →
      step state label = some next →
      owed state ++ (observe state label).filterMap entering =
        (observe state label).filterMap leaving ++ owed next)
    {labels : List Label} {start final : State} (holds : Inv start)
    (along : allAlong step allowed start labels = true)
    (success : run step start labels = some final) :
    owed start ++ (observed step observe start labels).filterMap entering =
      (observed step observe start labels).filterMap leaving ++ owed final := by
  induction labels generalizing start with
  | nil =>
    cases success
    exact List.append_nil _
  | cons label rest ih =>
    obtain ⟨next, taken, later⟩ := run_cons.mp success
    obtain ⟨first, others⟩ := (allAlong_cons taken).mp along
    have tail := ih (preserved start label next holds first taken) others later
    rw [observed_cons taken, List.filterMap_append, List.filterMap_append, ← List.append_assoc,
      balanced start label next holds first taken, List.append_assoc, tail, List.append_assoc]

theorem observed_filterMap {Other : Type*} (keep : Event → Option Other) (start : State)
    (labels : List Label) :
    observed step (fun state label => (observe state label).filterMap keep) start labels =
      (observed step observe start labels).filterMap keep := by
  induction labels generalizing start with
  | nil => rfl
  | cons label rest ih =>
    rw [observed, observed, List.filterMap_append]
    cases step start label with
    | none => simp
    | some next => simp [ih]

/-- Some run over labels of one kind has exactly these events. -/
def Emits (step : State → Label → Option State) (observe : State → Label → List Event)
    (kind : Label → Bool) (start : State) (events : List Event) (final : State) : Prop :=
  ∃ labels : List Label, (∀ label ∈ labels, kind label = true) ∧
    run step start labels = some final ∧ observed step observe start labels = events

namespace Emits

variable {kind : Label → Bool}

theorem refl (state : State) : Emits step observe kind state [] state :=
  ⟨[], by simp, rfl, rfl⟩

theorem single {state next : State} {label : Label} (of_kind : kind label = true)
    (taken : step state label = some next) :
    Emits step observe kind state (observe state label) next := by
  refine ⟨[label], ?_, run_cons.mpr ⟨next, taken, rfl⟩, ?_⟩
  · intro other member
    rwa [List.mem_singleton.mp member]
  · rw [observed_cons taken, observed, List.append_nil]

theorem shown {state next : State} {label : Label} {events : List Event}
    (of_kind : kind label = true) (taken : step state label = some next)
    (seen : observe state label = events) : Emits step observe kind state events next :=
  seen ▸ single of_kind taken

theorem trans {start middle final : State} {front back : List Event}
    (first : Emits step observe kind start front middle)
    (second : Emits step observe kind middle back final) :
    Emits step observe kind start (front ++ back) final := by
  obtain ⟨labels, of_kind, ran, seen⟩ := first
  obtain ⟨others, of_kind', ran', seen'⟩ := second
  refine ⟨labels ++ others, ?_, run_append.mpr ⟨middle, ran, ran'⟩, ?_⟩
  · intro label member
    rcases List.mem_append.mp member with left | right
    · exact of_kind label left
    · exact of_kind' label right
  · rw [observed_append ran, seen, seen']

theorem invariant {Inv : State → Prop}
    (preserved : ∀ state label next, Inv state → step state label = some next → Inv next)
    {start final : State} {events : List Event} (holds : Inv start)
    (emits : Emits step observe kind start events final) : Inv final := by
  obtain ⟨_, _, ran, _⟩ := emits
  exact run_invariant preserved holds ran

/-- What a system owes, what enters it and what leaves it are one queue, if every
step keeps them so. -/
theorem queue {Inv : State → Prop} (owed : State → List Item)
    (entering leaving : Event → Option Item)
    (preserved : ∀ state label next, Inv state → kind label = true →
      step state label = some next → Inv next)
    (balanced : ∀ state label next, Inv state → kind label = true →
      step state label = some next →
      owed state ++ (observe state label).filterMap entering =
        (observe state label).filterMap leaving ++ owed next)
    {start final : State} {events : List Event} (holds : Inv start)
    (emits : Emits step observe kind start events final) :
    owed start ++ events.filterMap entering = events.filterMap leaving ++ owed final := by
  obtain ⟨labels, of_kind, ran, rfl⟩ := emits
  exact observed_queue owed entering leaving preserved balanced holds
    (allAlong_of_kind of_kind start) ran

/-- A run shows the part of its events that an observer keeps. -/
theorem narrowed {Other : Type*} (keep : Event → Option Other) {start final : State}
    {events : List Event} (emits : Emits step observe kind start events final) :
    Emits step (fun state label => (observe state label).filterMap keep) kind start
      (events.filterMap keep) final := by
  obtain ⟨labels, of_kind, ran, rfl⟩ := emits
  exact ⟨labels, of_kind, ran, observed_filterMap keep start labels⟩

end Emits

/-- If every allowed step of the first system is answered by a run of the second
with the same events, so is every run of allowed steps. -/
theorem simulated {Other Action : Type*} {answer : Other → Action → Option Other}
    {watch : Other → Action → List Event} {kind : Action → Bool}
    {allowed : State → Label → Bool} (Coupled : State → Other → Prop)
    (matched : ∀ state label next other, Coupled state other → allowed state label = true →
      step state label = some next →
      ∃ other', Emits answer watch kind other (observe state label) other' ∧ Coupled next other')
    {labels : List Label} {start final : State} {other : Other} (coupled : Coupled start other)
    (along : allAlong step allowed start labels = true)
    (success : run step start labels = some final) :
    ∃ other', Emits answer watch kind other (observed step observe start labels) other' ∧
      Coupled final other' := by
  induction labels generalizing start other with
  | nil =>
    cases success
    exact ⟨other, .refl other, coupled⟩
  | cons label rest ih =>
    obtain ⟨next, taken, later⟩ := run_cons.mp success
    obtain ⟨first, others⟩ := (allAlong_cons taken).mp along
    obtain ⟨middle, answered, coupled'⟩ := matched start label next other coupled first taken
    obtain ⟨last, answered', coupled''⟩ := ih coupled' others later
    rw [observed_cons taken]
    exact ⟨last, answered.trans answered', coupled''⟩

end VbanStream.Library
