import Mathlib.Data.List.Basic

/-!
Programs that await calls. A call returns its answer or throws, the world says which from
the calls made so far; a throw leaves the locals as they are and goes to the nearest
handler. A triple says what holds after a return and what holds after a throw.
-/
namespace Gittensory.AwaitedCalls

section Programs

variable {Call : Type} (Answer : Call → Type) (Thrown Locals : Type)

/-- A call and what it came to. -/
structure Made where
  call : Call
  outcome : Except Thrown (Answer call)

/-- The locals of a program, and its calls with the latest first. -/
structure Frame where
  locals : Locals
  made : List (Made Answer Thrown)

abbrev World := List (Made Answer Thrown) → (call : Call) → Except Thrown (Answer call)

def Program (α : Type) :=
  Frame Answer Thrown Locals → Except Thrown α × Frame Answer Thrown Locals

end Programs

section Model

variable {Call : Type} {Answer : Call → Type} {Thrown Locals α β : Type}

instance : Monad (Program Answer Thrown Locals) where
  pure value frame := (.ok value, frame)
  bind program next frame :=
    match program frame with
    | (.ok value, after) => next value after
    | (.error thrown, after) => (.error thrown, after)

instance : MonadExceptOf Thrown (Program Answer Thrown Locals) where
  throw thrown frame := (.error thrown, frame)
  tryCatch program handler frame :=
    match program frame with
    | (.ok value, after) => (.ok value, after)
    | (.error thrown, after) => handler thrown after

def await (world : World Answer Thrown) (call : Call) :
    Program Answer Thrown Locals (Answer call) := fun frame =>
  let outcome := world frame.made call
  (outcome, { frame with made := ⟨call, outcome⟩ :: frame.made })

def locals : Program Answer Thrown Locals Locals := fun frame => (.ok frame.locals, frame)

def assign (update : Locals → Locals) : Program Answer Thrown Locals Unit := fun frame =>
  (.ok (), { frame with locals := update frame.locals })

/-- The statement is executed where the condition holds. -/
def when (condition : Bool) (program : Program Answer Thrown Locals Unit) :
    Program Answer Thrown Locals Unit :=
  if condition then program else pure ()

/-- What a throw comes to is dropped. -/
def settled (program : Program Answer Thrown Locals α) : Program Answer Thrown Locals Unit :=
  tryCatch (do let _ ← program) fun _ => pure ()

/-- All of the programs are run; the first of them to throw makes the whole throw. -/
def together : List (Program Answer Thrown Locals Unit) → Program Answer Thrown Locals Unit
  | [] => pure ()
  | program :: rest => fun frame =>
      match program frame with
      | (.ok _, after) => together rest after
      | (.error thrown, after) => (.error thrown, (together rest after).2)

/-! ## Triples -/

variable {before before' thrown thrown' : Frame Answer Thrown Locals → Prop}
  {after after' : α → Frame Answer Thrown Locals → Prop}
  {afterNext : β → Frame Answer Thrown Locals → Prop}
  {program : Program Answer Thrown Locals α} {next : α → Program Answer Thrown Locals β}

/-- From a frame with `before`, the program returns with `after` or throws with `thrown`. -/
def Triple (before : Frame Answer Thrown Locals → Prop) (program : Program Answer Thrown Locals α)
    (after : α → Frame Answer Thrown Locals → Prop) (thrown : Frame Answer Thrown Locals → Prop) :
    Prop :=
  ∀ frame, before frame →
    (∀ value frame', program frame = (.ok value, frame') → after value frame') ∧
      ∀ error frame', program frame = (.error error, frame') → thrown frame'

theorem triple_pure (value : α) (h : ∀ frame, before frame → after value frame) :
    Triple before (pure value : Program Answer Thrown Locals α) after thrown := by
  intro frame hbefore
  refine ⟨fun value' frame' hrun => ?_, fun error frame' hrun => ?_⟩
  · obtain ⟨hvalue, rfl⟩ := Prod.mk.inj hrun
    obtain rfl := Except.ok.inj hvalue
    exact h frame hbefore
  · cases (Prod.mk.inj hrun).1

theorem triple_throw (error : Thrown) (h : ∀ frame, before frame → thrown frame) :
    Triple before (throw error : Program Answer Thrown Locals α) after thrown := by
  intro frame hbefore
  refine ⟨fun value frame' hrun => ?_, fun error' frame' hrun => ?_⟩
  · cases (Prod.mk.inj hrun).1
  · obtain ⟨-, rfl⟩ := Prod.mk.inj hrun
    exact h frame hbefore

theorem bind_apply (program : Program Answer Thrown Locals α)
    (next : α → Program Answer Thrown Locals β) (frame : Frame Answer Thrown Locals) :
    (program >>= next) frame =
      match program frame with
      | (.ok value, after) => next value after
      | (.error thrown, after) => (.error thrown, after) := rfl

theorem tryCatch_apply (program : Program Answer Thrown Locals α)
    (handler : Thrown → Program Answer Thrown Locals α) (frame : Frame Answer Thrown Locals) :
    (tryCatch program handler) frame =
      match program frame with
      | (.ok value, after) => (.ok value, after)
      | (.error thrown, after) => handler thrown after := rfl

theorem triple_bind (after : α → Frame Answer Thrown Locals → Prop)
    (hprogram : Triple before program after thrown)
    (hnext : ∀ value, Triple (after value) (next value) afterNext thrown) :
    Triple before (program >>= next) afterNext thrown := by
  intro frame hbefore
  obtain ⟨hok, herror⟩ := hprogram frame hbefore
  rw [bind_apply]
  rcases hrun : program frame with ⟨error | value, frame'⟩
  · refine ⟨fun _ _ h => ?_, fun _ _ h => ?_⟩
    · cases (Prod.mk.inj h).1
    · obtain ⟨-, rfl⟩ := Prod.mk.inj h
      exact herror error frame' hrun
  · exact hnext value frame' (hok value frame' hrun)

theorem triple_tryCatch (thrown : Frame Answer Thrown Locals → Prop)
    {handler : Thrown → Program Answer Thrown Locals α}
    (hprogram : Triple before program after thrown)
    (hhandler : ∀ error, Triple thrown (handler error) after thrown') :
    Triple before (tryCatch program handler) after thrown' := by
  intro frame hbefore
  obtain ⟨hok, herror⟩ := hprogram frame hbefore
  rw [tryCatch_apply]
  rcases hrun : program frame with ⟨error | value, frame'⟩
  · exact hhandler error frame' (herror error frame' hrun)
  · refine ⟨fun _ _ h => ?_, fun _ _ h => ?_⟩
    · obtain ⟨hvalue, rfl⟩ := Prod.mk.inj h
      obtain rfl := Except.ok.inj hvalue
      exact hok value frame' hrun
    · cases (Prod.mk.inj h).1

theorem Triple.weaken (h : Triple before program after thrown)
    (hbefore : ∀ frame, before' frame → before frame)
    (hafter : ∀ value frame, after value frame → after' value frame)
    (hthrown : ∀ frame, thrown frame → thrown' frame) :
    Triple before' program after' thrown' := fun frame hframe =>
  ⟨fun value frame' hrun => hafter value frame' ((h frame (hbefore frame hframe)).1 _ _ hrun),
    fun _ frame' hrun => hthrown frame' ((h frame (hbefore frame hframe)).2 _ _ hrun)⟩

theorem triple_ite {condition : Prop} [Decidable condition]
    {other : Program Answer Thrown Locals α}
    (hthen : condition → Triple before program after thrown)
    (helse : ¬ condition → Triple before other after thrown) :
    Triple before (if condition then program else other) after thrown := by
  split
  · exact hthen ‹_›
  · exact helse ‹_›

theorem triple_await (world : World Answer Thrown) (call : Call)
    {after : Answer call → Frame Answer Thrown Locals → Prop}
    (hok : ∀ frame answer, before frame → world frame.made call = .ok answer →
      after answer { frame with made := ⟨call, .ok answer⟩ :: frame.made })
    (herror : ∀ frame error, before frame → world frame.made call = .error error →
      thrown { frame with made := ⟨call, .error error⟩ :: frame.made }) :
    Triple before (await world call) after thrown := by
  intro frame hbefore
  refine ⟨fun answer frame' hrun => ?_, fun error frame' hrun => ?_⟩
  · obtain ⟨houtcome, rfl⟩ := Prod.mk.inj hrun
    rw [houtcome]
    exact hok frame answer hbefore houtcome
  · obtain ⟨houtcome, rfl⟩ := Prod.mk.inj hrun
    rw [houtcome]
    exact herror frame error hbefore houtcome

theorem triple_locals {after : Locals → Frame Answer Thrown Locals → Prop}
    (h : ∀ frame, before frame → after frame.locals frame) :
    Triple before (locals : Program Answer Thrown Locals Locals) after thrown := by
  intro frame hbefore
  refine ⟨fun value frame' hrun => ?_, fun error frame' hrun => ?_⟩
  · obtain ⟨hvalue, rfl⟩ := Prod.mk.inj hrun
    obtain rfl := Except.ok.inj hvalue
    exact h frame hbefore
  · cases (Prod.mk.inj hrun).1

theorem triple_assign {after : Unit → Frame Answer Thrown Locals → Prop} (update : Locals → Locals)
    (h : ∀ frame, before frame → after () { frame with locals := update frame.locals }) :
    Triple before (assign update) after thrown := by
  intro frame hbefore
  refine ⟨fun value frame' hrun => ?_, fun error frame' hrun => ?_⟩
  · obtain ⟨-, rfl⟩ := Prod.mk.inj hrun
    exact h frame hbefore
  · cases (Prod.mk.inj hrun).1

/-! ## What a program keeps -/

/-- What holds before holds after a return and after a throw. -/
def Keeps (kept : Frame Answer Thrown Locals → Prop) (program : Program Answer Thrown Locals α) :
    Prop :=
  Triple kept program (fun _ => kept) kept

variable {kept : Frame Answer Thrown Locals → Prop}

theorem keeps_pure (value : α) : Keeps kept (pure value : Program Answer Thrown Locals α) :=
  triple_pure value fun _ h => h

theorem keeps_bind (hprogram : Keeps kept program) (hnext : ∀ value, Keeps kept (next value)) :
    Keeps kept (program >>= next) :=
  triple_bind _ hprogram hnext

theorem keeps_locals : Keeps kept (locals : Program Answer Thrown Locals Locals) :=
  triple_locals fun _ h => h

theorem keeps_when {program : Program Answer Thrown Locals Unit} (condition : Bool)
    (h : Keeps kept program) : Keeps kept (when condition program) :=
  triple_ite (fun _ => h) fun _ => keeps_pure ()

theorem triple_settled (h : Triple before program (fun _ => thrown) thrown) :
    Triple before (settled program) (fun _ => thrown) thrown' :=
  triple_tryCatch thrown (triple_bind _ h fun _ => keeps_pure ()) fun _ =>
    triple_pure () fun _ h => h

theorem Keeps.final (h : Keeps kept program) {frame : Frame Answer Thrown Locals}
    (hframe : kept frame) : kept (program frame).2 := by
  obtain ⟨hok, herror⟩ := h frame hframe
  rcases hrun : program frame with ⟨error | value, frame'⟩
  · exact herror error frame' hrun
  · exact hok value frame' hrun

theorem keeps_together {programs : List (Program Answer Thrown Locals Unit)}
    (h : ∀ program ∈ programs, Keeps kept program) : Keeps kept (together programs) := by
  induction programs with
  | nil => exact keeps_pure ()
  | cons program rest ih =>
    obtain ⟨hprogram, hrest⟩ := List.forall_mem_cons.mp h
    intro frame hkept
    obtain ⟨hok, herror⟩ := hprogram frame hkept
    unfold together
    rcases hrun : program frame with ⟨error | value, frame'⟩
    · refine ⟨fun _ _ h => ?_, fun _ _ h => ?_⟩
      · cases (Prod.mk.inj h).1
      · obtain ⟨-, rfl⟩ := Prod.mk.inj h
        exact (ih hrest).final (herror error frame' hrun)
    · exact ih hrest frame' (hok value frame' hrun)

theorem keeps_settled (h : Keeps kept program) : Keeps kept (settled program) :=
  triple_settled h

end Model

end Gittensory.AwaitedCalls
