import Gittensory.JsValue

/-!
The hard-guardrail path check (`signals/change-guardrail.ts`). A path glob is
compiled to an anchored regular expression; a changed path that matches one of
the repository's globs keeps the pull request for a human.
-/
namespace Gittensory.ChangeGuardrail

open TextPattern

def notSlash : Pattern := .char ⟨true, [('/', '/')]⟩

/-- The loop over the glob's characters. `**` also swallows a slash after it, and
every character special to a regular expression is escaped, so it stands for itself. -/
def globBody : Text → Pattern
  | '*' :: '*' :: '/' :: rest => .seq (.star .dot) (globBody rest)
  | '*' :: '*' :: rest => .seq (.star .dot) (globBody rest)
  | '*' :: rest => .seq (.star notSlash) (globBody rest)
  | c :: rest => .seq (Pattern.exactly c) (globBody rest)
  | [] => .empty

def globToRegExp (glob : String) : Pattern :=
  .seq .start (.seq (globBody glob.toList) .stop)

def matchesAny (path : String) (globs : List String) : Bool :=
  globs.any (fun glob => test (globToRegExp glob) path.toList)

def changedPathsHittingGuardrail (changedPaths hardGuardrailGlobs : List String) :
    List String :=
  if hardGuardrailGlobs = [] then []
  else changedPaths.filter (fun path => path ≠ "" && matchesAny path hardGuardrailGlobs)

/-- A single changed path trips a guardrail. -/
def HitsGuardrail (path : String) (hardGuardrailGlobs : List String) : Prop :=
  path ≠ "" ∧ matchesAny path hardGuardrailGlobs = true

instance (path : String) (globs : List String) : Decidable (HitsGuardrail path globs) := by
  unfold HitsGuardrail
  infer_instance

theorem mem_changedPathsHittingGuardrail (path : String) (changedPaths globs : List String) :
    path ∈ changedPathsHittingGuardrail changedPaths globs ↔
      path ∈ changedPaths ∧ HitsGuardrail path globs := by
  unfold changedPathsHittingGuardrail
  by_cases hglobs : globs = []
  · simp [hglobs, HitsGuardrail, matchesAny]
  · simp [hglobs, HitsGuardrail]

theorem changedPathsHittingGuardrail_eq_nil_iff (changedPaths globs : List String) :
    changedPathsHittingGuardrail changedPaths globs = [] ↔
      ∀ path ∈ changedPaths, ¬ HitsGuardrail path globs := by
  rw [List.eq_nil_iff_forall_not_mem]
  constructor
  · intro h path hpath hhit
    exact h path ((mem_changedPathsHittingGuardrail path changedPaths globs).mpr ⟨hpath, hhit⟩)
  · intro h path hmem
    obtain ⟨hpath, hhit⟩ := (mem_changedPathsHittingGuardrail path changedPaths globs).mp hmem
    exact h path hpath hhit

/-- More changed paths can only trip more guardrails. -/
theorem changedPathsHittingGuardrail_mono {changedPaths more globs : List String}
    (h : ∀ path ∈ changedPaths, path ∈ more) {path : String}
    (hmem : path ∈ changedPathsHittingGuardrail changedPaths globs) :
    path ∈ changedPathsHittingGuardrail more globs := by
  rw [mem_changedPathsHittingGuardrail] at hmem ⊢
  exact ⟨h path hmem.1, hmem.2⟩

example : changedPathsHittingGuardrail
    ["src/index.ts", "scripts/deploy.sh"] [".github/workflows/**", "scripts/**"] =
      ["scripts/deploy.sh"] := by decide +kernel

end Gittensory.ChangeGuardrail
