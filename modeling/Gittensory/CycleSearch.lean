import Mathlib.Data.Finset.Card
import Mathlib.Logic.Relation
import Mathlib.Order.WellFoundedSet

/-!
Three-colour depth-first search for a directed cycle. The colouring is shared by all
roots: white vertices are unseen, grey ones lie on the current path, black ones are
finished. The search answers `true` exactly when it runs into a grey vertex. Fuel counts
white vertices, so a search with as much fuel as there are vertices ends by itself.
-/
namespace Gittensory.CycleSearch

open Relation

inductive Colour where
  | white
  | grey
  | black
  deriving DecidableEq, Repr

variable {α : Type*} [DecidableEq α]

/-- An edge runs from a vertex to each of its successors. -/
def Edge (succs : α → List α) (a b : α) : Prop := b ∈ succs a

def Acyclic (succs : α → List α) : Prop := ∀ a, ¬ TransGen (Edge succs) a a

def paint (colour : α → Colour) (a : α) (shade : Colour) : α → Colour :=
  Function.update colour a shade

/-- The loop over the successors of a grey vertex. It ends at the first cycle, and a
white vertex outside the graph is passed over. -/
def visitAll (known : α → Bool) (visit : α → (α → Colour) → Option (Bool × (α → Colour))) :
    List α → (α → Colour) → Option (Bool × (α → Colour))
  | [], colour => some (false, colour)
  | a :: rest, colour =>
      match colour a with
      | .grey => some (true, colour)
      | .black => visitAll known visit rest colour
      | .white =>
          if known a then
            match visit a colour with
            | none => none
            | some (true, after) => some (true, after)
            | some (false, after) => visitAll known visit rest after
          else visitAll known visit rest colour

def visit (known : α → Bool) (succs : α → List α) :
    ℕ → α → (α → Colour) → Option (Bool × (α → Colour))
  | 0, _, _ => none
  | fuel + 1, a, colour =>
      match visitAll known (visit known succs fuel) (succs a) (paint colour a .grey) with
      | none => none
      | some (true, after) => some (true, after)
      | some (false, after) => some (false, paint after a .black)

/-- The loop over the roots; a root that is no longer white is passed over. -/
def searchFrom (visit : α → (α → Colour) → Option (Bool × (α → Colour))) :
    List α → (α → Colour) → Option Bool
  | [], _ => some false
  | a :: rest, colour =>
      if colour a = .white then
        match visit a colour with
        | none => none
        | some (true, _) => some true
        | some (false, after) => searchFrom visit rest after
      else searchFrom visit rest colour

section Colourings

theorem paint_self (colour : α → Colour) (a : α) (shade : Colour) :
    paint colour a shade a = shade := Function.update_self ..

theorem paint_of_ne {a b : α} (h : b ≠ a) (colour : α → Colour) (shade : Colour) :
    paint colour a shade b = colour b := Function.update_of_ne h ..

/-- What a search leaves of the colouring it was given: the grey path as it was, and
black vertices black. -/
structure Extends (before after : α → Colour) : Prop where
  grey : ∀ a, after a = .grey ↔ before a = .grey
  black : ∀ a, before a = .black → after a = .black

omit [DecidableEq α] in
theorem Extends.refl (colour : α → Colour) : Extends colour colour :=
  ⟨fun _ => Iff.rfl, fun _ h => h⟩

omit [DecidableEq α] in
theorem Extends.trans {first second third : α → Colour} (h : Extends first second)
    (h' : Extends second third) : Extends first third where
  grey a := (h'.grey a).trans (h.grey a)
  black a ha := h'.black a (h.black a ha)

/-- Black vertices have only black successors, apart from names outside the graph, and
lie on no cycle. -/
structure Settled (known : α → Bool) (succs : α → List α) (colour : α → Colour) : Prop where
  closed : ∀ a, colour a = .black → ∀ b ∈ succs a, colour b = .black ∨ known b = false
  acyclic : ∀ a, colour a = .black → ¬ TransGen (Edge succs) a a

/-- Every grey vertex leads to `a`: the grey vertices are the path of the search. -/
def PathTo (succs : α → List α) (colour : α → Colour) (a : α) : Prop :=
  ∀ b, colour b = .grey → ReflTransGen (Edge succs) b a

variable {known : α → Bool} {succs : α → List α} {colour : α → Colour}

theorem Settled.paint_grey (h : Settled known succs colour) {a : α} (hwhite : colour a = .white) :
    Settled known succs (paint colour a .grey) := by
  have hne : ∀ b, paint colour a .grey b = .black → b ≠ a ∧ colour b = .black := by
    intro b hb
    by_cases hba : b = a
    · rw [hba, paint_self] at hb
      cases hb
    · rw [paint_of_ne hba] at hb
      exact ⟨hba, hb⟩
  constructor
  · intro b hb c hc
    obtain ⟨_, hblack⟩ := hne b hb
    rcases h.closed b hblack c hc with h' | h'
    · have hca : c ≠ a := by
        intro heq
        rw [heq, hwhite] at h'
        cases h'
      exact Or.inl ((paint_of_ne hca ..).trans h')
    · exact Or.inr h'
  · intro b hb
    exact h.acyclic b (hne b hb).2

omit [DecidableEq α] in
/-- From a vertex whose successors are all black only black vertices and names outside
the graph can be reached. -/
theorem black_of_transGen (h : Settled known succs colour)
    (hknown : ∀ a, succs a ≠ [] → known a = true) {a b : α}
    (hsuccs : ∀ b ∈ succs a, colour b = .black ∨ known b = false)
    (hreach : TransGen (Edge succs) a b) : colour b = .black ∨ known b = false := by
  induction hreach with
  | single hedge => exact hsuccs _ hedge
  | tail _ hedge ih =>
    rcases ih with hblack | hunknown
    · exact h.closed _ hblack _ hedge
    · have := hknown _ (List.ne_nil_of_mem hedge)
      rw [this] at hunknown
      cases hunknown

/-- A grey vertex whose successors are done lies on no cycle, so it can be finished. -/
theorem Settled.paint_black (h : Settled known succs colour)
    (hknown : ∀ a, succs a ≠ [] → known a = true) {a : α} (hgrey : colour a = .grey)
    (hsuccs : ∀ b ∈ succs a, colour b = .black ∨ known b = false) :
    Settled known succs (paint colour a .black) := by
  have hkeep : ∀ b, colour b = .black → paint colour a .black b = .black := by
    intro b hb
    by_cases hba : b = a
    · rw [hba, paint_self]
    · rw [paint_of_ne hba, hb]
  have hacyclic : ¬ TransGen (Edge succs) a a := by
    intro hcycle
    obtain ⟨b, hedge, -⟩ := TransGen.head'_iff.mp hcycle
    rcases black_of_transGen h hknown hsuccs hcycle with hblack | hunknown
    · rw [hgrey] at hblack
      cases hblack
    · rw [hknown a (List.ne_nil_of_mem hedge)] at hunknown
      cases hunknown
  constructor
  · intro b hb c hc
    have hdone : colour c = .black ∨ known c = false := by
      by_cases hba : b = a
      · exact hsuccs c (hba ▸ hc)
      · rw [paint_of_ne hba] at hb
        exact h.closed b hb c hc
    exact hdone.imp_left (hkeep c)
  · intro b hb
    by_cases hba : b = a
    · exact hba ▸ hacyclic
    · rw [paint_of_ne hba] at hb
      exact h.acyclic b hb

theorem PathTo.paint_grey {a : α} (h : PathTo succs colour a) :
    PathTo succs (paint colour a .grey) a := by
  intro b hb
  by_cases hba : b = a
  · exact hba ▸ ReflTransGen.refl
  · rw [paint_of_ne hba] at hb
    exact h b hb

/-- A white vertex that was grey for the time of its visit and is finished after it. -/
theorem Extends.finish {middle : α → Colour} {a : α} (hwhite : colour a = .white)
    (h : Extends (paint colour a .grey) middle) : Extends colour (paint middle a .black) := by
  constructor
  · intro b
    by_cases hba : b = a
    · rw [hba, paint_self, hwhite]
      simp
    · rw [paint_of_ne hba, h.grey, paint_of_ne hba]
  · intro b hb
    by_cases hba : b = a
    · rw [hba, paint_self]
    · rw [paint_of_ne hba]
      exact h.black b ((paint_of_ne hba ..).trans hb)

end Colourings

section Correctness

variable {known : α → Bool} {succs : α → List α}

/-- The contract of a visit of `a`: `true` only if there is a cycle, `false` only with
`a` finished and nothing else disturbed. -/
def Visits (known : α → Bool) (succs : α → List α)
    (visit : α → (α → Colour) → Option (Bool × (α → Colour))) : Prop :=
  ∀ a colour cyclic after, visit a colour = some (cyclic, after) → colour a = .white →
    Settled known succs colour → PathTo succs colour a →
    (cyclic = true → ¬ Acyclic succs) ∧
    (cyclic = false → Settled known succs after ∧ Extends colour after ∧ after a = .black)

omit [DecidableEq α] in
theorem visitAll_spec {visit : α → (α → Colour) → Option (Bool × (α → Colour))}
    (hvisit : Visits known succs visit) {a : α} (targets : List α)
    (htargets : ∀ b ∈ targets, b ∈ succs a) {colour : α → Colour} {cyclic : Bool}
    {after : α → Colour} (hrun : visitAll known visit targets colour = some (cyclic, after))
    (hsettled : Settled known succs colour) (hpath : PathTo succs colour a) :
    (cyclic = true → ¬ Acyclic succs) ∧
    (cyclic = false → Settled known succs after ∧ Extends colour after ∧
      ∀ b ∈ targets, after b = .black ∨ known b = false) := by
  induction targets generalizing colour with
  | nil =>
    rw [visitAll, Option.some.injEq, Prod.mk.injEq] at hrun
    obtain ⟨rfl, rfl⟩ := hrun
    exact ⟨nofun, fun _ => ⟨hsettled, Extends.refl _, by simp⟩⟩
  | cons b rest ih =>
    have hedge : Edge succs a b := htargets b (List.mem_cons_self ..)
    have hrest : ∀ c ∈ rest, c ∈ succs a := fun c hc => htargets c (List.mem_cons_of_mem _ hc)
    rw [visitAll] at hrun
    cases hcolour : colour b with
    | grey =>
      -- a grey successor closes a cycle through the current path
      rw [hcolour] at hrun
      simp only [Option.some.injEq, Prod.mk.injEq] at hrun
      obtain ⟨rfl, rfl⟩ := hrun
      refine ⟨fun _ hacyclic => hacyclic b ?_, nofun⟩
      exact TransGen.tail' (hpath b hcolour) hedge
    | black =>
      rw [hcolour] at hrun
      obtain ⟨hyes, hno⟩ := ih hrest hrun hsettled hpath
      refine ⟨hyes, fun hfalse => ?_⟩
      obtain ⟨hset, hext, hall⟩ := hno hfalse
      exact ⟨hset, hext, List.forall_mem_cons.mpr ⟨Or.inl (hext.black b hcolour), hall⟩⟩
    | white =>
      rw [hcolour] at hrun
      dsimp only at hrun
      by_cases hknown : known b = true
      · rw [if_pos hknown] at hrun
        have hpathb : PathTo succs colour b := fun c hc => (hpath c hc).tail hedge
        cases hv : visit b colour with
        | none => rw [hv] at hrun; cases hrun
        | some result =>
          obtain ⟨found, middle⟩ := result
          rw [hv] at hrun
          obtain ⟨hyes, hno⟩ := hvisit b colour found middle hv hcolour hsettled hpathb
          cases found with
          | true =>
            simp only [Option.some.injEq, Prod.mk.injEq] at hrun
            obtain ⟨rfl, rfl⟩ := hrun
            exact ⟨hyes, nofun⟩
          | false =>
            obtain ⟨hset, hext, hblack⟩ := hno rfl
            have hpath' : PathTo succs middle a := fun c hc => hpath c ((hext.grey c).mp hc)
            obtain ⟨hyes', hno'⟩ := ih hrest hrun hset hpath'
            refine ⟨hyes', fun hfalse => ?_⟩
            obtain ⟨hset', hext', hall⟩ := hno' hfalse
            exact ⟨hset', hext.trans hext',
              List.forall_mem_cons.mpr ⟨Or.inl (hext'.black b hblack), hall⟩⟩
      · rw [if_neg hknown] at hrun
        obtain ⟨hyes, hno⟩ := ih hrest hrun hsettled hpath
        refine ⟨hyes, fun hfalse => ?_⟩
        obtain ⟨hset, hext, hall⟩ := hno hfalse
        have hunknown : known b = false := by simpa using hknown
        exact ⟨hset, hext, List.forall_mem_cons.mpr ⟨Or.inr hunknown, hall⟩⟩

theorem visit_spec (hknown : ∀ a, succs a ≠ [] → known a = true) (fuel : ℕ) :
    Visits known succs (visit known succs fuel) := by
  induction fuel with
  | zero =>
    intro a colour cyclic after hrun
    cases hrun
  | succ fuel ih =>
    intro a colour cyclic after hrun hwhite hsettled hpath
    rw [visit] at hrun
    cases hloop : visitAll known (visit known succs fuel) (succs a) (paint colour a .grey) with
    | none => rw [hloop] at hrun; cases hrun
    | some result =>
      obtain ⟨found, middle⟩ := result
      rw [hloop] at hrun
      obtain ⟨hyes, hno⟩ := visitAll_spec ih (succs a) (fun b hb => hb) hloop
        (hsettled.paint_grey hwhite) hpath.paint_grey
      cases found with
      | true =>
        simp only [Option.some.injEq, Prod.mk.injEq] at hrun
        obtain ⟨rfl, rfl⟩ := hrun
        exact ⟨hyes, nofun⟩
      | false =>
        simp only [Option.some.injEq, Prod.mk.injEq] at hrun
        obtain ⟨rfl, rfl⟩ := hrun
        obtain ⟨hset, hext, hall⟩ := hno rfl
        have hgrey : middle a = .grey := (hext.grey a).mpr (paint_self ..)
        exact ⟨nofun, fun _ => ⟨hset.paint_black hknown hgrey hall, hext.finish hwhite,
          paint_self ..⟩⟩

omit [DecidableEq α] in
/-- The roots end finished when no cycle was found. -/
theorem searchFrom_spec {visit : α → (α → Colour) → Option (Bool × (α → Colour))}
    (hvisit : Visits known succs visit) (roots : List α) {colour : α → Colour} {cyclic : Bool}
    (hrun : searchFrom visit roots colour = some cyclic)
    (hsettled : Settled known succs colour) (hgrey : ∀ a, colour a ≠ .grey) :
    (cyclic = true → ¬ Acyclic succs) ∧
    (cyclic = false → ∃ after, Settled known succs after ∧ Extends colour after ∧
      ∀ a ∈ roots, after a = .black) := by
  induction roots generalizing colour with
  | nil =>
    rw [searchFrom, Option.some.injEq] at hrun
    exact ⟨fun h => (by rw [h] at hrun; cases hrun),
      fun _ => ⟨colour, hsettled, Extends.refl _, by simp⟩⟩
  | cons a rest ih =>
    rw [searchFrom] at hrun
    by_cases hwhite : colour a = .white
    · rw [if_pos hwhite] at hrun
      have hpath : PathTo succs colour a := fun b hb => absurd hb (hgrey b)
      cases hv : visit a colour with
      | none => rw [hv] at hrun; cases hrun
      | some result =>
        obtain ⟨found, middle⟩ := result
        rw [hv] at hrun
        obtain ⟨hyes, hno⟩ := hvisit a colour found middle hv hwhite hsettled hpath
        cases found with
        | true =>
          simp only [Option.some.injEq] at hrun
          exact ⟨fun _ => hyes rfl, fun h => (by rw [h] at hrun; cases hrun)⟩
        | false =>
          obtain ⟨hset, hext, hblack⟩ := hno rfl
          have hgrey' : ∀ b, middle b ≠ .grey := fun b hb => hgrey b ((hext.grey b).mp hb)
          obtain ⟨hyes', hno'⟩ := ih hrun hset hgrey'
          refine ⟨hyes', fun hfalse => ?_⟩
          obtain ⟨after, hset', hext', hall⟩ := hno' hfalse
          refine ⟨after, hset', hext.trans hext', fun b hb => ?_⟩
          rcases List.mem_cons.mp hb with rfl | hb
          · exact hext'.black _ hblack
          · exact hall b hb
    · rw [if_neg hwhite] at hrun
      have hblack : colour a = .black := by
        cases hcolour : colour a with
        | white => exact absurd hcolour hwhite
        | grey => exact absurd hcolour (hgrey a)
        | black => rfl
      obtain ⟨hyes, hno⟩ := ih hrun hsettled hgrey
      refine ⟨hyes, fun hfalse => ?_⟩
      obtain ⟨after, hset, hext, hall⟩ := hno hfalse
      refine ⟨after, hset, hext, fun b hb => ?_⟩
      rcases List.mem_cons.mp hb with rfl | hb
      · exact hext.black _ hblack
      · exact hall b hb

/-- A finished search from all vertices tells exactly whether there is a cycle. -/
theorem searchFrom_iff (hknown : ∀ a, succs a ≠ [] → known a = true) (fuel : ℕ)
    (roots : List α) (hroots : ∀ a, succs a ≠ [] → a ∈ roots) {cyclic : Bool}
    (hrun : searchFrom (visit known succs fuel) roots (fun _ => .white) = some cyclic) :
    cyclic = false ↔ Acyclic succs := by
  have hsettled : Settled known succs (fun _ => .white) :=
    ⟨nofun, nofun⟩
  obtain ⟨hyes, hno⟩ := searchFrom_spec (visit_spec hknown fuel) roots hrun hsettled nofun
  constructor
  · intro hfalse a hcycle
    obtain ⟨after, hset, -, hall⟩ := hno hfalse
    obtain ⟨b, hedge, -⟩ := TransGen.head'_iff.mp hcycle
    exact hset.acyclic a (hall a (hroots a (List.ne_nil_of_mem hedge))) hcycle
  · intro hacyclic
    cases cyclic with
    | false => rfl
    | true => exact absurd hacyclic (hyes rfl)

end Correctness

section Termination

variable {known : α → Bool} {succs : α → List α}

def whites (vertices : Finset α) (colour : α → Colour) : Finset α :=
  vertices.filter (fun a => colour a = .white)

/-- A visit ends when the fuel covers the white vertices, and whitens nothing. -/
def Ends (vertices : Finset α) (fuel : ℕ)
    (visit : α → (α → Colour) → Option (Bool × (α → Colour))) : Prop :=
  ∀ a colour, a ∈ vertices → colour a = .white → (whites vertices colour).card ≤ fuel →
    ∃ cyclic after, visit a colour = some (cyclic, after) ∧
      ∀ b, after b = .white → colour b = .white

omit [DecidableEq α] in
theorem whites_card_le (vertices : Finset α) {before after : α → Colour}
    (h : ∀ a, after a = .white → before a = .white) :
    (whites vertices after).card ≤ (whites vertices before).card := by
  apply Finset.card_le_card
  intro a ha
  rw [whites, Finset.mem_filter] at ha ⊢
  exact ⟨ha.1, h a ha.2⟩

omit [DecidableEq α] in
theorem visitAll_ends {vertices : Finset α} {fuel : ℕ}
    {visit : α → (α → Colour) → Option (Bool × (α → Colour))}
    (hvertices : ∀ a, known a = true → a ∈ vertices) (hvisit : Ends vertices fuel visit)
    (targets : List α) (colour : α → Colour) (hfuel : (whites vertices colour).card ≤ fuel) :
    ∃ cyclic after, visitAll known visit targets colour = some (cyclic, after) ∧
      ∀ b, after b = .white → colour b = .white := by
  induction targets generalizing colour with
  | nil => exact ⟨false, colour, rfl, fun _ h => h⟩
  | cons a rest ih =>
    rw [visitAll]
    cases hcolour : colour a with
    | grey => exact ⟨true, colour, rfl, fun _ h => h⟩
    | black => exact ih colour hfuel
    | white =>
      dsimp only
      by_cases hknown : known a = true
      · rw [if_pos hknown]
        obtain ⟨found, middle, hv, hkeep⟩ := hvisit a colour (hvertices a hknown) hcolour hfuel
        rw [hv]
        cases found with
        | true => exact ⟨true, middle, rfl, hkeep⟩
        | false =>
          have hfuel' : (whites vertices middle).card ≤ fuel :=
            (whites_card_le vertices hkeep).trans hfuel
          obtain ⟨cyclic, after, hloop, hkeep'⟩ := ih middle hfuel'
          exact ⟨cyclic, after, hloop, fun b hb => hkeep b (hkeep' b hb)⟩
      · rw [if_neg hknown]
        exact ih colour hfuel

theorem visit_ends (vertices : Finset α) (hvertices : ∀ a, known a = true → a ∈ vertices)
    (fuel : ℕ) : Ends vertices fuel (visit known succs fuel) := by
  induction fuel with
  | zero =>
    intro a colour ha hwhite hfuel
    have hmem : a ∈ whites vertices colour := Finset.mem_filter.mpr ⟨ha, hwhite⟩
    have hpos : 0 < (whites vertices colour).card := Finset.card_pos.mpr ⟨a, hmem⟩
    omega
  | succ fuel ih =>
    intro a colour ha hwhite hfuel
    have hkeep : ∀ b, paint colour a .grey b = .white → colour b = .white ∧ b ≠ a := by
      intro b hb
      by_cases hba : b = a
      · rw [hba, paint_self] at hb
        cases hb
      · rw [paint_of_ne hba] at hb
        exact ⟨hb, hba⟩
    have hless : (whites vertices (paint colour a .grey)).card < (whites vertices colour).card := by
      apply Finset.card_lt_card
      refine ⟨fun b hb => ?_, fun hsub => ?_⟩
      · rw [whites, Finset.mem_filter] at hb ⊢
        exact ⟨hb.1, (hkeep b hb.2).1⟩
      · have hmem : a ∈ whites vertices colour := Finset.mem_filter.mpr ⟨ha, hwhite⟩
        exact (hkeep a (Finset.mem_filter.mp (hsub hmem)).2).2 rfl
    obtain ⟨found, middle, hloop, hwhites⟩ :=
      visitAll_ends hvertices ih (succs a) _ (Nat.le_of_lt_succ (hless.trans_le hfuel))
    rw [visit, hloop]
    cases found with
    | true => exact ⟨true, middle, rfl, fun b hb => (hkeep b (hwhites b hb)).1⟩
    | false =>
      refine ⟨false, _, rfl, fun b hb => ?_⟩
      by_cases hba : b = a
      · rw [hba]
        exact hwhite
      · rw [paint_of_ne hba] at hb
        exact (hkeep b (hwhites b hb)).1

omit [DecidableEq α] in
/-- The search from any roots ends when the fuel covers the vertices. -/
theorem searchFrom_ends {vertices : Finset α} {fuel : ℕ} (hfuel : vertices.card ≤ fuel)
    {visit : α → (α → Colour) → Option (Bool × (α → Colour))} (hvisit : Ends vertices fuel visit)
    (roots : List α) (hroots : ∀ a ∈ roots, a ∈ vertices) (colour : α → Colour) :
    ∃ cyclic, searchFrom visit roots colour = some cyclic := by
  induction roots generalizing colour with
  | nil => exact ⟨false, rfl⟩
  | cons a rest ih =>
    have hrest : ∀ b ∈ rest, b ∈ vertices := fun b hb => hroots b (List.mem_cons_of_mem _ hb)
    rw [searchFrom]
    by_cases hwhite : colour a = .white
    · rw [if_pos hwhite]
      have hcard : (whites vertices colour).card ≤ fuel :=
        (Finset.card_filter_le ..).trans hfuel
      obtain ⟨found, after, hv, -⟩ := hvisit a colour (hroots a (List.mem_cons_self ..)) hwhite hcard
      rw [hv]
      cases found with
      | true => exact ⟨true, rfl⟩
      | false => exact ih hrest after
    · rw [if_neg hwhite]
      exact ih hrest colour

end Termination

omit [DecidableEq α] in
/-- In a graph without cycles every non-empty finite set has a vertex none of whose
successors is in the set. -/
theorem exists_sink (succs : α → List α) (hacyclic : Acyclic succs) (vertices : Finset α)
    (hne : vertices.Nonempty) : ∃ a ∈ vertices, ∀ b ∈ vertices, b ∉ succs a := by
  have : IsStrictOrder α (fun a b => TransGen (Edge succs) b a) :=
    { irrefl := hacyclic, trans := fun _ _ _ hab hbc => hbc.trans hab }
  have hwf := Finset.wellFoundedOn (r := fun a b => TransGen (Edge succs) b a) vertices
  obtain ⟨a, ha, hmin⟩ := hwf.has_min (Set.univ : Set vertices) ⟨⟨hne.choose, hne.choose_spec⟩, trivial⟩
  refine ⟨a, a.2, fun b hb hedge => ?_⟩
  exact hmin ⟨b, hb⟩ trivial (TransGen.single hedge)

end Gittensory.CycleSearch
