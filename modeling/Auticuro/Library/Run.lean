import Mathlib.Tactic.Common

namespace Run

variable {S A T B C : Type}

/-- A deterministic machine that may refuse an action. -/
def run (step : S → A → Option S) (start : S) (actions : List A) : Option S :=
  actions.foldlM step start

@[simp] theorem run_nil (step : S → A → Option S) (start : S) :
    run step start [] = some start := rfl

@[simp] theorem run_cons (step : S → A → Option S) (start : S) (action : A) (actions : List A) :
    run step start (action :: actions) =
      (step start action).bind (fun next => run step next actions) := rfl

theorem run_append (step : S → A → Option S) (start : S) (first second : List A) :
    run step start (first ++ second) =
      (run step start first).bind (fun middle => run step middle second) := by
  simp only [run, List.foldlM_append]
  rfl

variable {step : S → A → Option S} {start last : S} {actions : List A}

theorem run_cons_eq_some_iff {action : A} :
    run step start (action :: actions) = some last ↔
      ∃ next, step start action = some next ∧ run step next actions = some last := by
  rw [run_cons, Option.bind_eq_some_iff]

theorem run_append_eq_some_iff {first second : List A} :
    run step start (first ++ second) = some last ↔
      ∃ middle, run step start first = some middle ∧ run step middle second = some last := by
  rw [run_append, Option.bind_eq_some_iff]

/-- Every action of a run is taken in a state where the guard allows it. The
guard says nothing about what follows a refused action. -/
def Along (step : S → A → Option S) (guard : S → A → Prop) : S → List A → Prop
  | _, [] => True
  | start, action :: actions =>
    guard start action ∧ ∀ next, step start action = some next → Along step guard next actions

instance Along.decidable (step : S → A → Option S) (guard : S → A → Prop)
    [∀ state action, Decidable (guard state action)] :
    ∀ start actions, Decidable (Along step guard start actions)
  | _, [] => .isTrue trivial
  | start, action :: actions =>
    have : Decidable (∀ next, step start action = some next → Along step guard next actions) :=
      match step start action with
      | none => .isTrue (fun _ hnone => by cases hnone)
      | some next =>
        have := Along.decidable step guard next actions
        decidable_of_iff (Along step guard next actions)
          ⟨fun halong _ hsome => by cases hsome; exact halong, fun halong => halong next rfl⟩
    inferInstanceAs (Decidable (_ ∧ _))

variable {guard : S → A → Prop}

theorem along_of_forall (hguard : ∀ state action, guard state action) (start : S)
    (actions : List A) :
    Along step guard start actions := by
  induction actions generalizing start with
  | nil => exact trivial
  | cons action actions ih => exact ⟨hguard start action, fun next _ => ih next⟩

theorem along_append {start middle : S} {first second : List A}
    (halong : Along step guard start (first ++ second))
    (hrun : run step start first = some middle) :
    Along step guard start first ∧ Along step guard middle second := by
  induction first generalizing start with
  | nil =>
    cases hrun
    exact ⟨trivial, halong⟩
  | cons action first ih =>
    obtain ⟨hguard, hrest⟩ := halong
    obtain ⟨next, hnext, hfirst⟩ := run_cons_eq_some_iff.mp hrun
    obtain ⟨halongFirst, halongSecond⟩ := ih (hrest next hnext) hfirst
    refine ⟨⟨hguard, ?_⟩, halongSecond⟩
    intro other hother
    cases hnext.symm.trans hother
    exact halongFirst

/-- What guarded steps preserve holds at the end of every guarded run. -/
theorem run_invariant_along {Inv : S → Prop}
    (hstep : ∀ state action next, Inv state → guard state action →
      step state action = some next → Inv next)
    {start last : S} {actions : List A} (hinit : Inv start)
    (halong : Along step guard start actions) (hrun : run step start actions = some last) :
    Inv last := by
  induction actions generalizing start with
  | nil =>
    cases hrun
    exact hinit
  | cons action actions ih =>
    obtain ⟨next, hnext, hrest⟩ := run_cons_eq_some_iff.mp hrun
    exact ih (hstep start action next hinit halong.1 hnext) (halong.2 next hnext) hrest

/-- What every step preserves holds at the end of every run. -/
theorem run_invariant {Inv : S → Prop}
    (hstep : ∀ state action next, Inv state → step state action = some next → Inv next)
    {start last : S} {actions : List A} (hinit : Inv start)
    (hrun : run step start actions = some last) : Inv last := by
  have halong : Along step (fun _ _ => True) start actions :=
    along_of_forall (fun _ _ => trivial) start actions
  exact run_invariant_along (fun state action next hinv _ => hstep state action next hinv)
    hinit halong hrun

/-- When each step goes along with a run of the specification, each run does. The relation
may speak of the actions that the specification has taken so far. -/
theorem run_goes_along {spec : T → C → Option T} {R : S → List C → T → Prop}
    (hstep : ∀ state past abstract action next, R state past abstract →
      step state action = some next →
      ∃ more after, run spec abstract more = some after ∧ R next (past ++ more) after)
    {past : List C} {abstract : T} (hstart : R start past abstract)
    (hrun : run step start actions = some last) :
    ∃ more after, run spec abstract more = some after ∧ R last (past ++ more) after := by
  induction actions generalizing start past abstract with
  | nil =>
    cases hrun
    exact ⟨[], abstract, rfl, by rwa [List.append_nil]⟩
  | cons action actions ih =>
    obtain ⟨next, hnext, hrest⟩ := run_cons_eq_some_iff.mp hrun
    obtain ⟨first, middle, hfirst, hmiddle⟩ := hstep start past abstract action next hstart hnext
    obtain ⟨second, after, hsecond, hafter⟩ := ih hmiddle hrest
    rw [List.append_assoc] at hafter
    exact ⟨first ++ second, after, run_append_eq_some_iff.mpr ⟨middle, hfirst, hsecond⟩, hafter⟩

/-- What every step preserves, of the actions so far and the state, holds of every run. -/
theorem run_history (Inv : List A → S → Prop)
    (hstep : ∀ past state action next, Inv past state → step state action = some next →
      Inv (past ++ [action]) next) (hinit : Inv [] start)
    (hrun : run step start actions = some last) : Inv actions last := by
  have hpast : ∀ past state, Inv past state → run step state actions = some last →
      Inv (past ++ actions) last := by
    clear hinit hrun
    induction actions with
    | nil =>
      intro past state hinv hrun
      cases hrun
      rwa [List.append_nil]
    | cons action actions ih =>
      intro past state hinv hrun
      obtain ⟨next, hnext, hrest⟩ := run_cons_eq_some_iff.mp hrun
      have hafter := ih _ _ (hstep past state action next hinv hnext) hrest
      rwa [List.append_assoc] at hafter
  exact hpast [] start hinit hrun

/-- A property of every state that a run goes through. -/
def Throughout (step : S → A → Option S) (P : S → Prop) (start : S) (actions : List A) : Prop :=
  ∀ first last, first <+: actions → run step start first = some last → P last

/-- When a guard keeps an invariant and is needed for the property that the
invariant implies, the property holds throughout a run exactly when the guard
allows each of its actions. -/
theorem throughout_iff_along {Inv P : S → Prop} (hsound : ∀ state, Inv state → P state)
    (hkeep : ∀ state action next, Inv state → guard state action →
      step state action = some next → Inv next)
    (hneeded : ∀ state action next, Inv state → step state action = some next → P next →
      guard state action) (hinit : Inv start) (hrun : run step start actions = some last) :
    Throughout step P start actions ↔ Along step guard start actions := by
  constructor
  · intro hthroughout
    induction actions generalizing start with
    | nil => exact trivial
    | cons action actions ih =>
      obtain ⟨next, hnext, hrest⟩ := run_cons_eq_some_iff.mp hrun
      have hafter : P next := by
        refine hthroughout [action] next ⟨actions, rfl⟩ ?_
        rw [run_cons, hnext]
        rfl
      have hguard := hneeded start action next hinit hnext hafter
      refine ⟨hguard, ?_⟩
      intro other hother
      cases hnext.symm.trans hother
      refine ih (hkeep start action next hinit hguard hnext) hrest ?_
      rintro first reached ⟨second, rfl⟩ hfirst
      refine hthroughout (action :: first) reached ⟨second, rfl⟩ ?_
      rw [run_cons, hnext]
      exact hfirst
  · rintro halong first reached ⟨second, rfl⟩ hfirst
    exact hsound reached
      (run_invariant_along hkeep hinit (along_append halong hfirst).1 hfirst)

/-- When guarded steps commute with a view of the state, refusals included, so
do guarded runs: the machine refines the one that is run on the views. -/
theorem run_refines {Inv : S → Prop} (spec : T → C → Option T) (view : S → T) (label : A → C)
    (hstep : ∀ state action, Inv state → guard state action →
      (step state action).map view = spec (view state) (label action))
    (hinv : ∀ state action next, Inv state → guard state action →
      step state action = some next → Inv next) {start : S} (hinit : Inv start)
    (halong : Along step guard start actions) :
    (run step start actions).map view = run spec (view start) (actions.map label) := by
  induction actions generalizing start with
  | nil => rfl
  | cons action actions ih =>
    have hview := hstep start action hinit halong.1
    rw [List.map_cons, run_cons, run_cons, ← hview]
    cases hnext : step start action with
    | none => rfl
    | some next => exact ih (hinv start action next hinit halong.1 hnext) (halong.2 next hnext)

/-- When no step is refused and each goes along with one of the specification, no run
is refused and it ends where the specification does. -/
theorem run_simulates {spec : T → A → T} {R : S → T → Prop}
    (hstep : ∀ state abstract action, R state abstract →
      ∃ next, step state action = some next ∧ R next (spec abstract action)) {start : S}
    {abstract : T} (hstart : R start abstract) (actions : List A) :
    ∃ last, run step start actions = some last ∧ R last (actions.foldl spec abstract) := by
  induction actions generalizing start abstract with
  | nil => exact ⟨start, rfl, hstart⟩
  | cons action actions ih =>
    obtain ⟨next, hnext, hrelated⟩ := hstep start abstract action hstart
    obtain ⟨last, hlast, hend⟩ := ih hrelated
    exact ⟨last, run_cons_eq_some_iff.mpr ⟨next, hnext, hlast⟩, hend⟩

/-- A machine whose steps have answers, with the answers so far. -/
def answering (step : S → A → Option (S × B)) (state : S × List B) (action : A) :
    Option (S × List B) :=
  (step state.1 action).map fun next => (next.1, state.2 ++ [next.2])

def answered (spec : T → A → T × B) (state : T × List B) (action : A) : T × List B :=
  ((spec state.1 action).1, state.2 ++ [(spec state.1 action).2])

/-- When each step goes along with one of the specification and has its answer, so has
every step of every run. -/
theorem run_answers {step : S → A → Option (S × B)} {spec : T → A → T × B} {R : S → T → Prop}
    (hstep : ∀ state abstract action, R state abstract →
      ∃ next, step state action = some (next, (spec abstract action).2) ∧
        R next (spec abstract action).1)
    {start : S} {abstract : T} (hstart : R start abstract) (actions : List A) :
    ∃ last,
      run (answering step) (start, []) actions =
        some (last, (actions.foldl (answered spec) (abstract, [])).2) ∧
      R last (actions.foldl (answered spec) (abstract, [])).1 := by
  have hanswering : ∀ (state : S × List B) (abstract : T × List B) action,
      R state.1 abstract.1 ∧ state.2 = abstract.2 →
      ∃ next, answering step state action = some next ∧
        R next.1 (answered spec abstract action).1 ∧
        next.2 = (answered spec abstract action).2 := by
    rintro ⟨state, answers⟩ ⟨abstract, _⟩ action ⟨hrelated, rfl⟩
    obtain ⟨next, hnext, hafter⟩ := hstep state abstract action hrelated
    refine ⟨(next, answers ++ [(spec abstract action).2]), ?_, hafter, rfl⟩
    unfold answering
    rw [hnext]
    rfl
  have hempty : R (start, ([] : List B)).1 (abstract, ([] : List B)).1 ∧
      (start, ([] : List B)).2 = (abstract, ([] : List B)).2 := ⟨hstart, rfl⟩
  obtain ⟨⟨last, answers⟩, hlast, hrelated, rfl⟩ := run_simulates hanswering hempty actions
  exact ⟨last, hlast, hrelated⟩

end Run
