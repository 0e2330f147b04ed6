import Mathlib.Data.List.Forall2
import Mathlib.Tactic.Common

namespace Exec

variable {E S A B : Type}

@[simp] theorem toOption_eq_some_iff {ε α : Type} {x : Except ε α} {a : α} :
    x.toOption = some a ↔ x = .ok a := by
  cases x <;> simp [Except.toOption]

variable {x : Except E A} {f : A → Except E B}

theorem bind_eq_ok_iff {result : B} :
    (x >>= f) = .ok result ↔ ∃ value, x = .ok value ∧ f value = .ok result := by
  cases x <;> simp [Bind.bind, Except.bind]

theorem ok_bind (value : A) (f : A → Except E B) : (Except.ok value >>= f) = f value := rfl

theorem pure_eq_ok_iff {value result : A} :
    (pure value : Except E A) = .ok result ↔ value = result := by
  simp [pure, Except.pure]

theorem isOk_iff : x.isOk = true ↔ ∃ value, x = .ok value := by
  cases x <;> simp [Except.isOk, Except.toBool]

variable {inputs : List A} {results : List B}

/-- A fallible map succeeds exactly when it succeeds on each element. -/
theorem mapM_eq_ok_iff :
    inputs.mapM f = .ok results ↔
      List.Forall₂ (fun input result => f input = .ok result) inputs results := by
  induction inputs generalizing results with
  | nil =>
    rw [List.mapM_nil, pure_eq_ok_iff, List.forall₂_nil_left_iff]
    exact eq_comm
  | cons input inputs ih =>
    rw [List.mapM_cons, bind_eq_ok_iff, List.forall₂_cons_left_iff]
    constructor
    · rintro ⟨result, hresult, hrest⟩
      obtain ⟨results, hresults, hrest⟩ := bind_eq_ok_iff.mp hrest
      exact ⟨result, results, hresult, ih.mp hresults, (pure_eq_ok_iff.mp hrest).symm⟩
    · rintro ⟨result, results, hresult, hresults, rfl⟩
      refine ⟨result, hresult, ?_⟩
      rw [bind_eq_ok_iff]
      exact ⟨results, ih.mpr hresults, rfl⟩

variable {R : A → B → Prop}

theorem exists_input_of_mem (hresults : List.Forall₂ R inputs results) {result : B}
    (hmem : result ∈ results) : ∃ input ∈ inputs, R input result := by
  induction hresults with
  | nil => cases hmem
  | @cons input head inputs results hhead _ ih =>
    cases hmem with
    | head => exact ⟨input, List.mem_cons_self, hhead⟩
    | tail _ hmem =>
      obtain ⟨found, hfound, hok⟩ := ih hmem
      exact ⟨found, List.mem_cons_of_mem _ hfound, hok⟩

theorem map_eq_map_of_forall₂ {f : A → S} {g : B → S}
    (hR : ∀ input result, R input result → g result = f input)
    (hresults : List.Forall₂ R inputs results) : results.map g = inputs.map f := by
  induction hresults with
  | nil => rfl
  | cons hhead _ ih => rw [List.map_cons, List.map_cons, hR _ _ hhead, ih]

/-- What relates the inputs in pairs relates the results in pairs. -/
theorem pairwise_of_forall₂ {P : A → A → Prop} {Q : B → B → Prop}
    (hQ : ∀ first second left right, P first second → R first left → R second right → Q left right)
    (hresults : List.Forall₂ R inputs results) (hinputs : inputs.Pairwise P) :
    results.Pairwise Q := by
  induction hresults with
  | nil => exact .nil
  | @cons input result inputs results hhead hrest ih =>
    obtain ⟨hfirst, hinputs⟩ := List.pairwise_cons.mp hinputs
    refine List.pairwise_cons.mpr ⟨?_, ih hinputs⟩
    intro other hother
    obtain ⟨source, hsource, hR⟩ := exists_input_of_mem hrest hother
    exact hQ input source result other (hfirst source hsource) hhead hR

/-- A map that succeeds on each element succeeds. -/
theorem exists_forall₂ (hinputs : ∀ input ∈ inputs, ∃ result, R input result) :
    ∃ results, List.Forall₂ R inputs results := by
  induction inputs with
  | nil => exact ⟨[], .nil⟩
  | cons input inputs ih =>
    obtain ⟨result, hresult⟩ := hinputs input List.mem_cons_self
    obtain ⟨results, hresults⟩ :=
      ih fun other hother => hinputs other (List.mem_cons_of_mem _ hother)
    exact ⟨result :: results, .cons hresult hresults⟩

/-- A computation that does not fail with any of the given errors. -/
def Avoids (bad : E → Prop) (x : Except E A) : Prop :=
  ∀ error, x = .error error → ¬bad error

section Avoids

variable {bad : E → Prop}

theorem Avoids.ok (value : A) : Avoids bad (.ok value : Except E A) := by
  intro error herror
  cases herror

theorem Avoids.error {error : E} (hgood : ¬bad error) :
    Avoids bad (.error error : Except E A) := by
  intro other hother
  cases hother
  exact hgood

theorem Avoids.bind (hx : Avoids bad x) (hf : ∀ value, x = .ok value → Avoids bad (f value)) :
    Avoids bad (x >>= f) := by
  cases x with
  | error error => exact fun other hother => hx other (by cases hother; rfl)
  | ok value => exact hf value rfl

theorem Avoids.mapM (hf : ∀ input ∈ inputs, Avoids bad (f input)) : Avoids bad (inputs.mapM f) := by
  induction inputs with
  | nil => exact Avoids.ok []
  | cons input inputs ih =>
    rw [List.mapM_cons]
    refine (hf input List.mem_cons_self).bind fun result _ => ?_
    refine (ih fun other hmem => hf other (List.mem_cons_of_mem _ hmem)).bind fun results _ => ?_
    exact Avoids.ok _

end Avoids

/-- A computation whose value meets the postcondition and that does not fail
with any of the given errors. -/
def Ensures (bad : E → Prop) (post : A → Prop) : Except E A → Prop
  | .ok value => post value
  | .error error => ¬bad error

section Ensures

variable {bad : E → Prop} {post : A → Prop} {last : B → Prop}

theorem Ensures.of_ok {value : A} (hensures : Ensures bad post x) (hok : x = .ok value) :
    post value := by
  subst hok
  exact hensures

theorem Ensures.avoids (hensures : Ensures bad post x) : Avoids bad x := by
  intro error herror
  subst herror
  exact hensures

theorem Avoids.ensures (havoids : Avoids bad x) (hpost : ∀ value, x = .ok value → post value) :
    Ensures bad post x := by
  cases x with
  | error error => exact havoids error rfl
  | ok value => exact hpost value rfl

theorem Ensures.bind (hx : Ensures bad post x)
    (hf : ∀ value, post value → Ensures bad last (f value)) : Ensures bad last (x >>= f) := by
  cases x with
  | error error => exact hx
  | ok value => exact hf value hx

theorem Avoids.bind_ensures (hx : Avoids bad x)
    (hf : ∀ value, x = .ok value → Ensures bad last (f value)) : Ensures bad last (x >>= f) := by
  cases x with
  | error error => exact hx error rfl
  | ok value => exact hf value rfl

/-- The rule of consequence. -/
theorem Ensures.mono {weaker : A → Prop} (hensures : Ensures bad post x)
    (hweaker : ∀ value, post value → weaker value) : Ensures bad weaker x :=
  hensures.avoids.ensures fun value hok => hweaker value (hensures.of_ok hok)

end Ensures

/-- Run a fallible computation that mutates its state in place: the state is
returned also when the computation fails. -/
def exec (x : ExceptT E (StateM S) A) (state : S) : Except E A × S :=
  x.run.run state

theorem exec_get_bind (f : S → ExceptT E (StateM S) B) (state : S) :
    exec (get >>= f) state = exec (f state) state := rfl

/-- Continue with the value of a pure check, or fail with the state as it is. -/
def check (x : Except E A) (state : S) (next : A → Except E B × S) : Except E B × S :=
  match x with
  | .ok value => next value
  | .error error => (.error error, state)

theorem exec_lift_bind (x : Except E A) (f : A → ExceptT E (StateM S) B) (state : S) :
    exec ((liftM x : ExceptT E (StateM S) A) >>= f) state =
      check x state (fun value => exec (f value) state) := by
  cases x <;> rfl

theorem exec_bind_of_ok {x : ExceptT E (StateM S) A} {f : A → ExceptT E (StateM S) B}
    {state next : S} {value : A} (hx : exec x state = (.ok value, next)) :
    exec (x >>= f) state = exec (f value) next := by
  change StateT.run (ExceptT.run (x >>= f)) state = _
  rw [ExceptT.run_bind, StateT.run_bind]
  change StateT.run (ExceptT.run x) state = _ at hx
  rw [hx]
  rfl

end Exec
