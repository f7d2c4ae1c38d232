import Mathlib.Tactic

/-!
# Executable machines and their runs

A machine is a partial step function: every choice that the environment or a
scheduler makes is part of the label, and a label which is not enabled has no
successor.  A run is the list of labels that was executed, so a statement
about every run quantifies over every interleaving.

The induction rules below grow a run at its end.  They carry the executed
labels along with the state, because most invariants of a concurrent program
relate its state to what has already happened.
-/

namespace SocialNetwork.Machine

universe u v

variable {σ : Type u} {ℓ : Type v} {step : σ → ℓ → Option σ}

/-- Execute the labels in order; `none` when one of them is not enabled. -/
def run (step : σ → ℓ → Option σ) (start : σ) (labels : List ℓ) :
    Option σ :=
  labels.foldlM step start

def Reachable (step : σ → ℓ → Option σ) (start finish : σ) : Prop :=
  ∃ labels, run step start labels = some finish

@[simp] theorem run_nil (start : σ) : run step start [] = some start := rfl

@[simp] theorem run_cons (start : σ) (label : ℓ) (labels : List ℓ) :
    run step start (label :: labels) =
      (step start label).bind fun next => run step next labels := rfl

theorem run_append (start : σ) (before after : List ℓ) :
    run step start (before ++ after) =
      (run step start before).bind fun middle =>
        run step middle after := by
  unfold run
  rw [List.foldlM_append]
  rfl

theorem run_append_eq_some {start finish : σ} {before after : List ℓ} :
    run step start (before ++ after) = some finish ↔
      ∃ middle, run step start before = some middle ∧
        run step middle after = some finish := by
  rw [run_append, Option.bind_eq_some_iff]

/-- The machine reaches a state after every prefix of a run. -/
theorem exists_run_of_prefix {start finish : σ} {before labels : List ℓ}
    (hbefore : before <+: labels)
    (hrun : run step start labels = some finish) :
    ∃ middle, run step start before = some middle := by
  obtain ⟨after, rfl⟩ := hbefore
  obtain ⟨middle, hmiddle, -⟩ := run_append_eq_some.mp hrun
  exact ⟨middle, hmiddle⟩

theorem run_concat_eq_some {start finish : σ} {labels : List ℓ} {label : ℓ} :
    run step start (labels ++ [label]) = some finish ↔
      ∃ middle, run step start labels = some middle ∧
        step middle label = some finish := by
  rw [run_append_eq_some]
  simp

/-- What one step preserves together with the executed labels holds after
every run. -/
theorem run_induction {start : σ} {P : List ℓ → σ → Prop}
    (hstart : P [] start)
    (hstep : ∀ labels state label next,
      run step start labels = some state → P labels state →
        step state label = some next → P (labels ++ [label]) next) :
    ∀ {labels state}, run step start labels = some state →
      P labels state := by
  intro labels
  induction labels using List.reverseRecOn with
  | nil =>
      intro state hrun
      simp only [run_nil, Option.some.injEq] at hrun
      subst state
      exact hstart
  | append_singleton labels label ih =>
      intro next hrun
      obtain ⟨state, hbefore, hlast⟩ := run_concat_eq_some.mp hrun
      exact hstep labels state label next hbefore (ih hbefore) hlast

/-- The same rule for an invariant of the state alone. -/
theorem run_invariant {start : σ} {P : σ → Prop}
    (hstart : P start)
    (hstep : ∀ state label next,
      P state → step state label = some next → P next)
    {labels : List ℓ} {state : σ}
    (hrun : run step start labels = some state) : P state :=
  run_induction (P := fun _ state => P state) hstart
    (fun _ state label next _ hgood => hstep state label next hgood) hrun

/-- The rule for runs whose labels are all of one kind. -/
theorem run_induction_of_labels {start : σ} {P : List ℓ → σ → Prop}
    {allowed : ℓ → Prop} (hstart : P [] start)
    (hstep : ∀ labels state label next, allowed label → P labels state →
      step state label = some next → P (labels ++ [label]) next)
    {labels : List ℓ} {state : σ} (hallowed : ∀ label ∈ labels, allowed label)
    (hrun : run step start labels = some state) : P labels state := by
  have hgood : (∀ label ∈ labels, allowed label) → P labels state := by
    refine run_induction
      (P := fun labels state =>
        (∀ label ∈ labels, allowed label) → P labels state) ?_ ?_ hrun
    · intro _
      exact hstart
    · intro labels state label next _ ih hlast hall
      have hbefore := ih fun other hother =>
        hall other (List.mem_append_left _ hother)
      have hlabel := hall label
        (List.mem_append_right _ (List.mem_singleton_self label))
      exact hstep labels state label next hlabel hbefore hlast
  exact hgood hallowed

theorem exists_step_of_run {start finish : σ} {before after : List ℓ}
    {label : ℓ}
    (hrun : run step start (before ++ label :: after) = some finish) :
    ∃ state next, run step start before = some state ∧
      step state label = some next ∧
      run step next after = some finish := by
  obtain ⟨state, hbefore, hrest⟩ := run_append_eq_some.mp hrun
  rw [run_cons, Option.bind_eq_some_iff] at hrest
  obtain ⟨next, hnext, hafter⟩ := hrest
  exact ⟨state, next, hbefore, hnext, hafter⟩

/-- A run of a machine that drives a component is, seen from the component,
a run of it. -/
theorem run_project {τ κ : Type*} {componentStep : τ → κ → Option τ}
    (project : σ → τ) {command : ℓ → Option κ}
    (hstep : ∀ state label next, step state label = some next →
      match command label with
      | some c => componentStep (project state) c = some (project next)
      | none => project next = project state)
    {start finish : σ} {labels : List ℓ}
    (hrun : run step start labels = some finish) :
    run componentStep (project start) (labels.filterMap command) =
      some (project finish) := by
  induction labels generalizing start with
  | nil =>
      simp only [run_nil, Option.some.injEq] at hrun
      subst finish
      rfl
  | cons label labels ih =>
      rw [run_cons, Option.bind_eq_some_iff] at hrun
      obtain ⟨next, hfirst, hrest⟩ := hrun
      have hcommand := hstep start label next hfirst
      cases hlabel : command label with
      | none =>
          rw [hlabel] at hcommand
          rw [List.filterMap_cons_none hlabel, ← hcommand]
          exact ih hrest
      | some c =>
          rw [hlabel] at hcommand
          rw [List.filterMap_cons_some hlabel, run_cons, hcommand]
          exact ih hrest

/-- The same for a component which is only related to the machine. -/
theorem run_simulation {τ κ : Type*} {componentStep : τ → κ → Option τ}
    {R : σ → τ → Prop} {command : ℓ → Option κ} {allowed : ℓ → Prop}
    (hstep : ∀ state label next component, allowed label →
      R state component → step state label = some next →
      match command label with
      | some c => ∃ component',
          componentStep component c = some component' ∧ R next component'
      | none => R next component)
    {start finish : σ} {component : τ} {labels : List ℓ}
    (hallowed : ∀ label ∈ labels, allowed label)
    (hstart : R start component)
    (hrun : run step start labels = some finish) :
    ∃ component',
      run componentStep component (labels.filterMap command) =
        some component' ∧ R finish component' := by
  refine run_induction_of_labels
    (P := fun labels finish => ∃ component',
      run componentStep component (labels.filterMap command) =
        some component' ∧ R finish component') ?_ ?_ hallowed hrun
  · exact ⟨component, rfl, hstart⟩
  · intro labels state label next hlabel hgood hlast
    obtain ⟨middle, hmiddle, hrelated⟩ := hgood
    have hcommand := hstep state label next middle hlabel hrelated hlast
    rw [List.filterMap_append]
    cases hkind : command label with
    | none =>
        rw [hkind] at hcommand
        refine ⟨middle, ?_, hcommand⟩
        simpa [hkind] using hmiddle
    | some c =>
        rw [hkind] at hcommand
        obtain ⟨component', hc, hnext⟩ := hcommand
        refine ⟨component', ?_, hnext⟩
        rw [List.filterMap_cons_some hkind, List.filterMap_nil]
        exact run_concat_eq_some.mpr ⟨middle, hmiddle, hc⟩

end SocialNetwork.Machine
