import Mathlib.Data.List.Basic

/-!
Runs of a system that takes one event after another, any event at any time. A guard
says which events a state admits; in a guarded run every event was admitted where it
happened. What guarded steps preserve, guarded runs preserve.
-/
namespace Gittensory.GuardedRun

variable {State Event : Type*} (step : State → Event → State) (admits : State → Event → Prop)

def run (state : State) (events : List Event) : State := events.foldl step state

theorem run_append (state : State) (events more : List Event) :
    run step state (events ++ more) = run step (run step state events) more :=
  List.foldl_append

/-- What every step keeps, every run keeps. -/
theorem run_keeps {invariant : State → Prop}
    (hstep : ∀ state event, invariant state → invariant (step state event))
    (state : State) (events : List Event) (hstart : invariant state) :
    invariant (run step state events) := by
  induction events generalizing state with
  | nil => exact hstart
  | cons event rest ih => exact ih (step state event) (hstep state event hstart)

def Guarded : State → List Event → Prop
  | _, [] => True
  | state, event :: rest => admits state event ∧ Guarded (step state event) rest

instance decidableGuarded [∀ state event, Decidable (admits state event)] :
    (state : State) → (events : List Event) → Decidable (Guarded step admits state events)
  | _, [] => isTrue trivial
  | state, event :: rest =>
      have := decidableGuarded (step state event) rest
      inferInstanceAs (Decidable (_ ∧ _))

theorem guarded_append (state : State) (events more : List Event) :
    Guarded step admits state (events ++ more) ↔
      Guarded step admits state events ∧ Guarded step admits (run step state events) more := by
  induction events generalizing state with
  | nil => simp [Guarded, run]
  | cons event rest ih =>
    rw [List.cons_append, Guarded, Guarded, ih, and_assoc]
    rfl

/-- The invariant rule: what every admitted step keeps, every guarded run keeps. -/
theorem run_invariant {invariant : State → Prop}
    (hstep : ∀ state event, invariant state → admits state event → invariant (step state event))
    (state : State) (events : List Event) (hstart : invariant state)
    (hguarded : Guarded step admits state events) : invariant (run step state events) := by
  induction events generalizing state with
  | nil => exact hstart
  | cons event rest ih =>
    obtain ⟨hadmits, hrest⟩ := hguarded
    exact ih (step state event) (hstep state event hstart hadmits) hrest

/-- What every admitted step from an invariant state satisfies, every step of a guarded
run satisfies. -/
theorem guarded_of_invariant {invariant : State → Prop} {property : State → Event → Prop}
    (hstep : ∀ state event, invariant state → admits state event → invariant (step state event))
    (hproperty : ∀ state event, invariant state → admits state event → property state event)
    (state : State) (events : List Event) (hstart : invariant state)
    (hguarded : Guarded step admits state events) : Guarded step property state events := by
  induction events generalizing state with
  | nil => trivial
  | cons event rest ih =>
    obtain ⟨hadmits, hrest⟩ := hguarded
    have hnext : invariant (step state event) := hstep state event hstart hadmits
    exact ⟨hproperty state event hstart hadmits, ih (step state event) hnext hrest⟩

/-- Where every event keeps a property lost for good once an event is not admitted, the
property after a run says that it held at the start and that the run was guarded. -/
theorem holds_after_iff {always kept : State → Prop}
    (halways : ∀ state event, always state → always (step state event))
    (hstep : ∀ state event, always state →
      (kept (step state event) ↔ kept state ∧ admits state event))
    (state : State) (events : List Event) (hstart : always state) :
    kept (run step state events) ↔ kept state ∧ Guarded step admits state events := by
  induction events generalizing state with
  | nil => exact (and_iff_left trivial).symm
  | cons event rest ih =>
    have hnext : always (step state event) := halways state event hstart
    calc kept (run step state (event :: rest))
        ↔ kept (step state event) ∧ Guarded step admits (step state event) rest :=
          ih (step state event) hnext
      _ ↔ (kept state ∧ admits state event) ∧ Guarded step admits (step state event) rest :=
          and_congr_left fun _ => hstep state event hstart
      _ ↔ kept state ∧ Guarded step admits state (event :: rest) := and_assoc

/-- Where the admitted events are exactly those that keep a property, it holds all along a
run if and only if the run is guarded; `always` is what every event keeps. -/
theorem holds_throughout_iff {always kept : State → Prop}
    (halways : ∀ state event, always state → always (step state event))
    (hstep : ∀ state event, always state → kept state →
      (kept (step state event) ↔ admits state event))
    (state : State) (events : List Event) (hstart : always state) (hkept : kept state) :
    (∀ earlier, earlier <+: events → kept (run step state earlier)) ↔
      Guarded step admits state events := by
  induction events generalizing state with
  | nil =>
    refine ⟨fun _ => trivial, fun _ earlier hearlier => ?_⟩
    rw [List.prefix_nil.mp hearlier]
    exact hkept
  | cons event rest ih =>
    have hnext : always (step state event) := halways state event hstart
    constructor
    · intro h
      have hone : kept (step state event) := h [event] ⟨rest, rfl⟩
      refine ⟨(hstep state event hstart hkept).mp hone, (ih (step state event) hnext hone).mp ?_⟩
      intro earlier hearlier
      exact h (event :: earlier) (List.cons_prefix_cons.mpr ⟨rfl, hearlier⟩)
    · intro h
      obtain ⟨hadmits, hrest⟩ := h
      have hone := (hstep state event hstart hkept).mpr hadmits
      intro earlier hearlier
      rcases List.prefix_cons_iff.mp hearlier with rfl | ⟨tail, rfl, htail⟩
      · exact hkept
      · exact (ih (step state event) hnext hone).mpr hrest tail htail

end Gittensory.GuardedRun
