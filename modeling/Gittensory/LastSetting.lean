import Gittensory.GuardedRun
import Mathlib.Data.List.Induction
import Mathlib.Tactic.SplitIfs

/-!
A value that some events set and others clear. An event of the first kind puts its own value
in place of whatever is held; an event of the second kind clears the values it names and
leaves the others. What is held after a run is what was set last, if nothing cleared it since.
-/
namespace Gittensory.LastSetting

open GuardedRun

variable {Event Value : Type*} (sets : Event → Option Value) (clears : Event → Value → Prop)
  [∀ event value, Decidable (clears event value)]

def hold (held : Option Value) (event : Event) : Option Value :=
  match sets event with
  | some value => some value
  | none => held.filter fun value => ¬ clears event value

variable {sets clears} {event : Event}

theorem hold_of_sets (held : Option Value) {value : Value} (hset : sets event = some value) :
    hold sets clears held event = some value := by
  rw [hold, hset]

theorem hold_none (hset : sets event = none) : hold sets clears none event = none := by
  rw [hold, hset]
  rfl

theorem hold_some (hset : sets event = none) (value : Value) :
    hold sets clears (some value) event = if clears event value then none else some value := by
  rw [hold, hset, Option.filter_some]
  by_cases hclears : clears event value <;> simp [hclears]

theorem hold_of_idle (held : Option Value) (hset : sets event = none)
    (hkept : ∀ value, ¬ clears event value) : hold sets clears held event = held := by
  rcases held with _ | value
  · exact hold_none hset
  · rw [hold_some hset, if_neg (hkept value)]

variable (sets clears)

/-- A value was set, and no event after it set another or cleared it. -/
def LastSet (events : List Event) (value : Value) : Prop :=
  ∃ before event after, events = before ++ event :: after ∧ sets event = some value ∧
    ∀ later ∈ after, sets later = none ∧ ¬ clears later value

omit [∀ event value, Decidable (clears event value)] in
theorem lastSet_concat (events : List Event) (event : Event) (value : Value) :
    LastSet sets clears (events ++ [event]) value ↔
      sets event = some value ∨
        LastSet sets clears events value ∧ sets event = none ∧ ¬ clears event value := by
  constructor
  · rintro ⟨before, setter, after, hevents, hset, hafter⟩
    rcases List.eq_nil_or_concat' after with rfl | ⟨rest, last, rfl⟩
    · have hlast := (List.append_inj' hevents rfl).2
      rw [List.singleton_inj] at hlast
      exact Or.inl (hlast ▸ hset)
    · rw [← List.cons_append, ← List.append_assoc] at hevents
      obtain ⟨hfirst, hlast⟩ := List.append_inj' hevents rfl
      rw [List.singleton_inj] at hlast
      refine Or.inr ⟨⟨before, setter, rest, hfirst, hset, ?_⟩, ?_⟩
      · exact fun later hlater => hafter later (List.mem_append_left _ hlater)
      · exact hlast ▸ hafter last (List.mem_append_right _ List.mem_cons_self)
  · rintro (hset | ⟨⟨before, setter, after, rfl, hset, hafter⟩, hkept⟩)
    · exact ⟨events, event, [], rfl, hset, fun _ hlater => absurd hlater List.not_mem_nil⟩
    · refine ⟨before, setter, after ++ [event], ?_, hset, fun later hlater => ?_⟩
      · rw [List.append_assoc, List.cons_append]
      · rcases List.mem_append.mp hlater with hlater | hlater
        · exact hafter later hlater
        · exact List.mem_singleton.mp hlater ▸ hkept

/-- What is held after a run that starts with nothing. -/
theorem run_hold_eq_some_iff (events : List Event) (value : Value) :
    run (hold sets clears) none events = some value ↔ LastSet sets clears events value := by
  induction events using List.reverseRecOn with
  | nil =>
    refine iff_of_false (nofun) ?_
    rintro ⟨before, event, after, hevents, _⟩
    exact List.append_ne_nil_of_right_ne_nil before (List.cons_ne_nil event after) hevents.symm
  | append_singleton events event ih =>
    rw [run_append, lastSet_concat, ← ih]
    change hold sets clears (run (hold sets clears) none events) event = some value ↔ _
    rcases hset : sets event with _ | other
    · rcases run (hold sets clears) none events with _ | held
      · simp [hold_none hset]
      · rw [hold_some hset]
        split_ifs with hcleared
        · refine iff_of_false (nofun) ?_
          rintro (hnone | ⟨hheld, _, hkept⟩)
          · cases hnone
          · cases hheld
            exact hkept hcleared
        · constructor
          · intro hheld
            cases hheld
            exact Or.inr ⟨rfl, rfl, hcleared⟩
          · exact fun h => (h.resolve_left (nofun)).1
    · simp [hold_of_sets _ hset]

end Gittensory.LastSetting
