import Mathlib.Data.List.Basic

/-!
# Machines that take one labelled step at a time

A machine is its step function: an event is enabled in a state when the step
leads somewhere. A run executes a list of events, a history collects what an
observer sees along it, and a condition holds along a run when every step meets
it. The invariant rules carry a fact of one step over a whole run.
-/

namespace Mqss.Machine
universe u v w x y

variable {State : Type u} {Event : Type v} {Seen : Type w}

/-- The state after executing every event in order; `none` when one is not enabled. -/
def run (step : State → Event → Option State) : State → List Event → Option State
  | s, [] => some s
  | s, e :: es => (step s e).bind (fun next => run step next es)

/-- What an observer of single steps sees along a run, in order. -/
def history (step : State → Event → Option State) (observe : State → Event → List Seen) :
    State → List Event → List Seen
  | _, [] => []
  | s, e :: es =>
    match step s e with
    | none => []
    | some next => observe s e ++ history step observe next es

/-- Every step of the run meets a condition on the state before it and its event. -/
def Along (step : State → Event → Option State) (condition : State → Event → Prop) : State → List Event → Prop
  | _, [] => True
  | s, e :: es => condition s e ∧ ∀ next, step s e = some next → Along step condition next es

/-- Every state of the run has a property, the first one included. -/
def Throughout (step : State → Event → Option State) (property : State → Prop) : State → List Event → Prop
  | s, [] => property s
  | s, e :: es => property s ∧ ∀ next, step s e = some next → Throughout step property next es

variable {step : State → Event → Option State} {observe : State → Event → List Seen}
  {condition : State → Event → Prop}

@[simp] theorem run_nil (s : State) : run step s [] = some s := rfl

theorem run_cons {s t : State} {e : Event} {es : List Event} :
    run step s (e :: es) = some t ↔ ∃ next, step s e = some next ∧ run step next es = some t := by
  simp [run, Option.bind_eq_some_iff]

theorem run_append {s t : State} {es fs : List Event} :
    run step s (es ++ fs) = some t ↔ ∃ middle, run step s es = some middle ∧ run step middle fs = some t := by
  induction es generalizing s with
  | nil => simp
  | cons e es ih =>
    rw [List.cons_append, run_cons]
    constructor
    · rintro ⟨next, stepped, rest⟩
      obtain ⟨middle, before, after⟩ := ih.mp rest
      exact ⟨middle, run_cons.mpr ⟨next, stepped, before⟩, after⟩
    · rintro ⟨middle, before, after⟩
      obtain ⟨next, stepped, rest⟩ := run_cons.mp before
      exact ⟨next, stepped, ih.mpr ⟨middle, rest, after⟩⟩

@[simp] theorem history_nil (s : State) : history step observe s [] = [] := rfl

theorem history_cons {s next : State} {e : Event} (stepped : step s e = some next) (es : List Event) :
    history step observe s (e :: es) = observe s e ++ history step observe next es := by
  simp [history, stepped]

theorem along_cons {s next : State} {e : Event} {es : List Event} (stepped : step s e = some next) :
    Along step condition s (e :: es) ↔ condition s e ∧ Along step condition next es := by
  simp [Along, stepped]

theorem along_append {s middle : State} {es fs : List Event} (before : run step s es = some middle) :
    Along step condition s (es ++ fs) ↔ Along step condition s es ∧ Along step condition middle fs := by
  induction es generalizing s with
  | nil =>
    have same : s = middle := Option.some.inj before
    simp [same, Along]
  | cons e es ih =>
    obtain ⟨next, stepped, rest⟩ := run_cons.mp before
    rw [List.cons_append, along_cons stepped, along_cons stepped, ih rest, and_assoc]

/-- The history of the events alone is the list of events. -/
theorem history_events {s t : State} {es : List Event} (ran : run step s es = some t) :
    history step (fun _ e => [e]) s es = es := by
  induction es generalizing s with
  | nil => rfl
  | cons e es ih =>
    obtain ⟨next, stepped, rest⟩ := run_cons.mp ran
    rw [history_cons stepped, ih rest, List.singleton_append]

/-- A history read through a function. -/
theorem history_map {Other : Type x} {f : Seen → Other} {observe' : State → Event → List Other}
    (reads : ∀ s e, observe' s e = (observe s e).map f) (s : State) (es : List Event) :
    history step observe' s es = (history step observe s es).map f := by
  induction es generalizing s with
  | nil => rfl
  | cons e es ih =>
    cases stepped : step s e with
    | none => simp [history, stepped]
    | some next => rw [history_cons stepped, history_cons stepped, reads, ih, List.map_append]

/-- A condition on what is seen of each step is a condition on the history. -/
theorem along_iff_history {P : Seen → Prop} (reads : ∀ s e, condition s e ↔ ∀ seen ∈ observe s e, P seen)
    {s t : State} {es : List Event} (ran : run step s es = some t) :
    Along step condition s es ↔ ∀ seen ∈ history step observe s es, P seen := by
  induction es generalizing s with
  | nil => simp [Along]
  | cons e es ih =>
    obtain ⟨next, stepped, rest⟩ := run_cons.mp ran
    rw [along_cons stepped, history_cons stepped, reads, ih rest, List.forall_mem_append]

/-- Where something seen stands in a trace that grows: in the old part or in the new one. -/
theorem split_append {trace more before after : List Seen} {seen : Seen}
    (split : trace ++ more = before ++ seen :: after) :
    (∃ rest, trace = before ++ seen :: rest ∧ after = rest ++ more) ∨
      ∃ first, before = trace ++ first ∧ more = first ++ seen :: after := by
  rcases List.append_eq_append_iff.mp split with ⟨first, same, rest⟩ | ⟨middle, same, rest⟩
  · exact .inr ⟨first, same, rest⟩
  · cases middle with
    | nil => exact .inr ⟨[], by rw [same, List.append_nil, List.append_nil], rest.symm⟩
    | cons first middle =>
      rw [List.cons_append, List.cons.injEq] at rest
      obtain ⟨rfl, rest⟩ := rest
      exact .inl ⟨middle, same, rest⟩

/-- A condition that every step meets holds along every run. -/
theorem along_of_forall (always : ∀ s e, condition s e) (s : State) (es : List Event) :
    Along step condition s es := by
  induction es generalizing s with
  | nil => trivial
  | cons e es ih => exact ⟨always s e, fun next _ => ih next⟩

/-- A condition on events alone. -/
theorem along_of_events {allowed : Event → Prop} {es : List Event} (events : ∀ e ∈ es, allowed e) (s : State) :
    Along step (fun _ e => allowed e) s es := by
  induction es generalizing s with
  | nil => trivial
  | cons e es ih =>
    exact ⟨events e List.mem_cons_self, fun next _ => ih (fun other member => events other (.tail _ member)) next⟩

theorem along_mono {weaker : State → Event → Prop} (weaken : ∀ s e, condition s e → weaker s e) {s : State}
    {es : List Event} (met : Along step condition s es) : Along step weaker s es := by
  induction es generalizing s with
  | nil => trivial
  | cons e es ih => exact ⟨weaken s e met.1, fun next stepped => ih (met.2 next stepped)⟩

theorem along_and {other : State → Event → Prop} {s : State} {es : List Event} :
    Along step (fun s e => condition s e ∧ other s e) s es ↔
      Along step condition s es ∧ Along step other s es := by
  induction es generalizing s with
  | nil => simp [Along]
  | cons e es ih =>
    simp only [Along, ih]
    constructor
    · rintro ⟨⟨here, too⟩, later⟩
      exact ⟨⟨here, fun next stepped => (later next stepped).1⟩, too, fun next stepped => (later next stepped).2⟩
    · rintro ⟨⟨here, later⟩, too, after⟩
      exact ⟨⟨here, too⟩, fun next stepped => ⟨later next stepped, after next stepped⟩⟩

/-- The rule of histories: a relation between what was seen and the state, kept
    by every step that meets the condition, is kept by every run whose steps do. -/
theorem history_invariant_from {Inv : List Seen → State → Prop}
    (keeps : ∀ seen s e next, Inv seen s → condition s e → step s e = some next → Inv (seen ++ observe s e) next)
    {s t : State} {es : List Event} {seen : List Seen} (start : Inv seen s) (met : Along step condition s es)
    (ran : run step s es = some t) : Inv (seen ++ history step observe s es) t := by
  induction es generalizing s seen with
  | nil =>
    have same : s = t := Option.some.inj ran
    simpa [← same] using start
  | cons e es ih =>
    obtain ⟨next, stepped, rest⟩ := run_cons.mp ran
    have kept := keeps seen s e next start met.1 stepped
    have final := ih kept (met.2 next stepped) rest
    rwa [List.append_assoc, ← history_cons stepped] at final

theorem history_invariant {Inv : List Seen → State → Prop}
    (keeps : ∀ seen s e next, Inv seen s → condition s e → step s e = some next → Inv (seen ++ observe s e) next)
    {s t : State} {es : List Event} (start : Inv [] s) (met : Along step condition s es)
    (ran : run step s es = some t) : Inv (history step observe s es) t := by
  simpa using history_invariant_from keeps start met ran

/-- The rule of refinement: when what is seen of every step reads as a run of an
    abstract machine between the abstractions of its states, so does a history. -/
theorem history_refines {Abstract : Type x} {Action : Type y} {act : Abstract → Action → Option Abstract}
    {reads : Seen → List Action} {abstraction : State → Abstract}
    (refines : ∀ s e next, step s e = some next →
      run act (abstraction s) ((observe s e).flatMap reads) = some (abstraction next))
    {s t : State} {es : List Event} (ran : run step s es = some t) :
    run act (abstraction s) ((history step observe s es).flatMap reads) = some (abstraction t) := by
  induction es generalizing s with
  | nil =>
    have same : s = t := Option.some.inj ran
    simp [same]
  | cons e es ih =>
    obtain ⟨next, stepped, rest⟩ := run_cons.mp ran
    rw [history_cons stepped, List.flatMap_append, run_append]
    exact ⟨abstraction next, refines s e next stepped, ih rest⟩

/-- The rule of invariants under a condition on the steps. -/
theorem invariant_along {Inv : State → Prop}
    (keeps : ∀ s e next, Inv s → condition s e → step s e = some next → Inv next)
    {s t : State} {es : List Event} (start : Inv s) (met : Along step condition s es)
    (ran : run step s es = some t) : Inv t := by
  induction es generalizing s with
  | nil =>
    have same : s = t := Option.some.inj ran
    exact same ▸ start
  | cons e es ih =>
    obtain ⟨next, stepped, rest⟩ := run_cons.mp ran
    exact ih (keeps s e next start met.1 stepped) (met.2 next stepped) rest

/-- The rule of invariants. -/
theorem invariant {Inv : State → Prop} (keeps : ∀ s e next, Inv s → step s e = some next → Inv next)
    {s t : State} {es : List Event} (start : Inv s) (ran : run step s es = some t) : Inv t :=
  invariant_along (fun s e next inv (_ : True) => keeps s e next inv) start
    (along_of_forall (fun _ _ => trivial) s es) ran

theorem throughout_start {property : State → Prop} {s : State} {es : List Event}
    (holds : Throughout step property s es) : property s := by
  cases es with
  | nil => exact holds
  | cons e es => exact holds.1

/-- The rule of exact conditions: when an invariant gives the property and every step
    keeps the invariant if and only if it meets the condition, the property holds
    throughout a run if and only if the condition holds along it. -/
theorem throughout_iff_along {Inv property : State → Prop} {allowed : Event → Prop}
    (gives : ∀ s, Inv s → property s)
    (keeps : ∀ s e next, Inv s → allowed e → condition s e → step s e = some next → Inv next)
    (detects : ∀ s e next, Inv s → allowed e → step s e = some next → property next → condition s e)
    {s t : State} {es : List Event} (start : Inv s) (events : ∀ e ∈ es, allowed e)
    (ran : run step s es = some t) :
    Throughout step property s es ↔ Along step condition s es := by
  induction es generalizing s with
  | nil => exact iff_of_true (gives s start) trivial
  | cons e es ih =>
    obtain ⟨next, stepped, rest⟩ := run_cons.mp ran
    have first := events e List.mem_cons_self
    have later : ∀ e ∈ es, allowed e := fun other member => events other (List.mem_cons_of_mem _ member)
    rw [along_cons stepped]
    constructor
    · rintro ⟨_, holds⟩
      have met := detects s e next start first stepped (throughout_start (holds next stepped))
      exact ⟨met, (ih (keeps s e next start first met stepped) later rest).mp (holds next stepped)⟩
    · rintro ⟨met, after⟩
      refine ⟨gives s start, ?_⟩
      intro other same
      obtain rfl : next = other := Option.some.inj (stepped.symm.trans same)
      exact (ih (keeps s e next start first met stepped) later rest).mpr after

end Mqss.Machine
