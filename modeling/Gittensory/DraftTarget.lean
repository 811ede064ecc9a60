import Gittensory.DirectoryIndex

/-!
The target of a submitted draft (`services/draft.ts`, `slugify` and `buildTarget`): the slug,
the path of the file and the branch it is proposed on. A slug is words joined by dashes, cut
to length after the dashes at its ends are gone; the branch name is cut once more. Two
targets are told apart, and their slugs are slugs of themselves, exactly when neither cut
falls where it matters.
-/
namespace Gittensory.DraftTarget

open CodeUnits DuplicateSignals Frontmatter WordRuns
open DirectoryIndex (not_isSpace_of_isWordUnit)

/-! ## The code -/

/-- `text.replace(/^-+|-+$/g, "")` -/
def dropDashes (text : Units) : Units := stripped (fun unit => unit = dash) text

def isQuote (unit : ℕ) : Bool := unit = singleQuote || unit = doubleQuote

/-- The slug before it is cut to length. -/
def hyphenated (value : Units) : Units :=
  let lower := toLowerCase ((trim value).take 400)
  dropDashes (replaceRuns isWordUnit dash (lower.filter fun unit => !isQuote unit))

def slugify (value : Units) : Units := (hyphenated value).take 120

/-- The fields of a submission, as `String` prints them; a missing or null one is `none`. -/
structure SubmittedFields where
  category : Option Units
  slug : Option Units
  name : Option Units
  title : Option Units

structure TargetConfig where
  categories : List Units
  branchPrefix : Units

structure Target where
  category : Units
  slug : Units
  targetPath : Units
  branchName : Units
  deriving DecidableEq

def categoryOf (fields : SubmittedFields) : Units := toLowerCase (fields.category.getD [])

/-- `fields.slug ?? fields.name ?? fields.title` -/
def slugSource (fields : SubmittedFields) : Units :=
  ((fields.slug.or fields.name).or fields.title).getD []

def slugOf (fields : SubmittedFields) : Units := slugify (slugSource fields)

def targetPathOf (category slug : Units) : Units :=
  units "content/" ++ (category ++ slash :: (slug ++ units ".mdx"))

def branchNameOf (branchPrefix category slug : Units) : Units :=
  (branchPrefix ++ dash :: (category ++ dash :: slug)).take 100

def buildTarget (fields : SubmittedFields) (config : TargetConfig) : Except String Target :=
  let category := categoryOf fields
  let slug := slugOf fields
  if category ∉ config.categories then .error "Unsupported category."
  else if slug = [] then .error "Could not derive a slug from the submission."
  else
    .ok {
      category := category
      slug := slug
      targetPath := targetPathOf category slug
      branchName := branchNameOf config.branchPrefix category slug
    }

/-! ## Slugs -/

def isSlugUnit (unit : ℕ) : Bool := isWordUnit unit || unit = dash

theorem isSlugUnit_iff {unit : ℕ} :
    isSlugUnit unit = true ↔ (97 ≤ unit ∧ unit ≤ 122) ∨ (48 ≤ unit ∧ unit ≤ 57) ∨ unit = 45 := by
  rw [isSlugUnit, Bool.or_eq_true, decide_eq_true_iff]
  simp [isWordUnit, isDigit, dash, or_assoc]

/-- The words that a slug is made of. -/
def SlugWords (list : List Units) : Prop :=
  ∀ word ∈ list, word ≠ [] ∧ ∀ unit ∈ word, isWordUnit unit = true

def joinWords (list : List Units) : Units := [dash].intercalate list

theorem isWordUnit_dash : isWordUnit dash = false := by decide

theorem hyphenated_eq (value : Units) :
    ∃ list, SlugWords list ∧ hyphenated value = joinWords list :=
  ⟨_, fun _ hword => mem_words hword,
    stripped_replaceRuns isWordUnit_dash (fun _ => decide_eq_true_iff) _⟩

/-- Nothing in a text of words and dashes is trimmed, lowered or dropped. -/
theorem hyphenated_of_slugUnits {text : Units} (h : ∀ unit ∈ text, isSlugUnit unit = true)
    (hlength : text.length ≤ 400) : hyphenated text = joinWords (words isWordUnit text) := by
  have hspace : ∀ unit ∈ text, isSpace unit = false := by
    intro unit hunit
    rcases Bool.or_eq_true _ _ |>.mp (h unit hunit) with hword | hdash
    · exact not_isSpace_of_isWordUnit unit hword
    · rw [of_decide_eq_true hdash]
      decide
  have htrim : trim text = text := trim_eq_self_iff.mpr
    ⟨fun unit hunit => hspace unit (List.mem_of_mem_head? hunit),
      fun unit hunit => hspace unit (List.mem_of_mem_getLast? hunit)⟩
  have hlower : toLowerCase text = text := by
    have hkept : ∀ unit ∈ text, lowerUnit unit = [unit] := by
      intro unit hunit
      have hrange := isSlugUnit_iff.mp (h unit hunit)
      rw [lowerUnit, if_neg (by omega), if_neg (by omega), if_neg (by omega)]
    rw [toLowerCase, List.flatMap_congr hkept, List.flatMap_singleton']
  have hquotes : text.filter (fun unit => !isQuote unit) = text := by
    refine List.filter_eq_self.mpr fun unit hunit => ?_
    have hrange := isSlugUnit_iff.mp (h unit hunit)
    have hquote : ¬ (unit = singleQuote ∨ unit = doubleQuote) := by
      rw [singleQuote, doubleQuote]
      omega
    simpa [isQuote] using hquote
  rw [hyphenated, htrim, List.take_of_length_le hlength, hlower, hquotes]
  exact stripped_replaceRuns isWordUnit_dash (fun _ => decide_eq_true_iff) text

theorem slugUnits_joinWords {list : List Units} (h : SlugWords list) :
    ∀ unit ∈ joinWords list, isSlugUnit unit = true := by
  induction list with
  | nil => exact List.forall_mem_nil _
  | cons word list ih =>
    have hword : ∀ unit ∈ word, isSlugUnit unit = true := fun unit hunit =>
      Bool.or_eq_true _ _ |>.mpr (Or.inl ((h word (List.mem_cons_self ..)).2 unit hunit))
    cases list with
    | nil =>
      rw [joinWords, List.intercalate_singleton]
      exact hword
    | cons next rest =>
      have hrest := ih fun later hlater => h later (List.mem_cons_of_mem _ hlater)
      intro unit hunit
      rw [joinWords, List.intercalate_cons_cons, List.append_assoc] at hunit
      rcases List.mem_append.mp hunit with hunit | hunit
      · exact hword unit hunit
      · rcases List.mem_cons.mp hunit with rfl | hunit
        · rfl
        · exact hrest unit hunit

theorem joinWords_getLast? {list : List Units} (h : SlugWords list) :
    (joinWords list).getLast? ≠ some dash := by
  intro hdash
  have hword : isWordUnit dash = true := kept_ends_intercalate h (Or.inr hdash)
  rw [isWordUnit_dash] at hword
  cases hword

/-- The words of a cut slug are slugged to themselves. -/
theorem slugify_of_words {list : List Units} (h : SlugWords list) {text trail : Units}
    (htext : text = joinWords list ++ trail) (htrail : ∀ unit ∈ trail, unit = dash)
    (hlength : text.length ≤ 120) : slugify text = joinWords list := by
  have hunits : ∀ unit ∈ text, isSlugUnit unit = true := by
    intro unit hunit
    rw [htext] at hunit
    rcases List.mem_append.mp hunit with hunit | hunit
    · exact slugUnits_joinWords h unit hunit
    · rw [htrail unit hunit]
      rfl
  have hnot : ∀ unit ∈ trail, isWordUnit unit = false := by
    intro unit hunit
    rw [htrail unit hunit]
    exact isWordUnit_dash
  have hwords : words isWordUnit text = list := by
    rw [htext, words_append_of_not_right isWordUnit hnot]
    exact words_intercalate isWordUnit_dash h
  have hshort : (joinWords list).length ≤ 120 := by
    rw [htext, List.length_append] at hlength
    omega
  rw [slugify, hyphenated_of_slugUnits hunits (by omega), hwords, List.take_of_length_le hshort]

/-- A slug is a slug of itself if and only if it was not cut right behind a dash. -/
theorem slugify_slugify_iff (value : Units) :
    slugify (slugify value) = slugify value ↔ (hyphenated value)[119]? ≠ some dash := by
  obtain ⟨list, hlist, heq⟩ := hyphenated_eq value
  obtain ⟨front, hfront, hcut⟩ := take_intercalate hlist 120
  have hslug : slugify value = (joinWords list).take 120 := by rw [slugify, heq]
  have hlength : (slugify value).length ≤ 120 := List.length_take_le _ _
  have hunit : (hyphenated value)[119]? = (slugify value)[119]? := by
    rw [slugify, List.getElem?_take_of_lt (by decide)]
  rw [hunit]
  rcases hcut with hcut | ⟨-, hcut⟩
  · have hjoined : slugify value = joinWords front := hslug.trans hcut
    have hself : slugify (slugify value) = slugify value := by
      rw [slugify_of_words hfront (hjoined.trans (List.append_nil _).symm)
        (List.forall_mem_nil _) hlength, hjoined]
    refine iff_of_true hself ?_
    intro hdash
    have hfull : (slugify value).length = 120 := by
      have := (List.getElem?_eq_some_iff.mp hdash).1
      omega
    refine joinWords_getLast? hfront ?_
    rw [← hjoined, List.getLast?_eq_getElem?, hfull]
    exact hdash
  · have hjoined : slugify value = joinWords front ++ [dash] := hslug.trans hcut
    have hdropped : slugify (slugify value) = joinWords front :=
      slugify_of_words hfront hjoined (fun _ hunit => List.mem_singleton.mp hunit) hlength
    have hne : slugify (slugify value) ≠ slugify value := by
      rw [hdropped, hjoined]
      exact fun h => List.cons_ne_nil _ _ (List.self_eq_append_right.mp h)
    refine iff_of_false hne (not_not_intro ?_)
    have hfull : (slugify value).length = 120 := by
      by_contra hshort
      have hwhole : slugify value = joinWords list := by
        rw [hslug] at hshort ⊢
        rw [List.length_take] at hshort
        exact List.take_of_length_le (by omega)
      refine joinWords_getLast? hlist ?_
      rw [← hwhole, hjoined, List.getLast?_append]
      rfl
    have hlast : (slugify value).getLast? = some dash := by
      rw [hjoined, List.getLast?_append]
      rfl
    rw [List.getLast?_eq_getElem?, hfull] at hlast
    exact hlast

/-! ## Paths and branches -/

theorem slash_not_mem_slugify (value : Units) : slash ∉ slugify value := by
  obtain ⟨list, hlist, heq⟩ := hyphenated_eq value
  intro hslash
  rw [slugify, heq] at hslash
  have hunit := slugUnits_joinWords hlist slash (List.mem_of_mem_take hslash)
  exact absurd hunit (by decide)

/-- What follows the last of two equal marks is the same on both sides. -/
theorem append_mark_inj {mark : ℕ} {x y a b : Units} (ha : mark ∉ a) (hb : mark ∉ b) :
    x ++ mark :: a = y ++ mark :: b ↔ x = y ∧ a = b := by
  have hinner : ∀ {u v w z : Units}, mark ∉ z → mark :: z = w ++ mark :: v → w = [] := by
    intro u v w z hz h
    cases w with
    | nil => rfl
    | cons unit w =>
      have hmem : mark ∈ z := by
        rw [(List.cons.inj h).2]
        exact List.mem_append_right _ (List.mem_cons_self ..)
      exact absurd hmem hz
  constructor
  · intro h
    rcases List.append_eq_append_iff.mp h with ⟨w, rfl, hw⟩ | ⟨w, rfl, hw⟩
    · obtain rfl := hinner (u := []) ha hw
      exact ⟨(List.append_nil _).symm, (List.cons.inj hw).2⟩
    · obtain rfl := hinner (u := []) hb hw
      exact ⟨List.append_nil _, (List.cons.inj hw).2.symm⟩
  · rintro ⟨rfl, rfl⟩
    rfl

theorem targetPathOf_inj {category category' slug slug' : Units} (h : slash ∉ slug)
    (h' : slash ∉ slug') :
    targetPathOf category slug = targetPathOf category' slug' ↔
      category = category' ∧ slug = slug' := by
  have hslash : ∀ {slug : Units}, slash ∉ slug → slash ∉ slug ++ units ".mdx" := by
    intro slug hslug hmem
    rcases List.mem_append.mp hmem with hmem | hmem
    · exact hslug hmem
    · exact absurd hmem (by decide)
  rw [targetPathOf, targetPathOf, List.append_right_inj, append_mark_inj (hslash h) (hslash h'),
    List.append_left_inj]

/-- How many units of the category, a dash and the slug the branch name has room for. -/
def room (config : TargetConfig) : ℕ := 99 - config.branchPrefix.length

def nameOf (fields : SubmittedFields) : Units := categoryOf fields ++ dash :: slugOf fields

/-- Submissions of one category have one slug, or slugs that differ within the room the
category leaves; those of two categories differ within the room for category and slug. -/
def ToldApart (config : TargetConfig) (first second : SubmittedFields) : Prop :=
  if categoryOf first = categoryOf second then
    (slugOf first).take (room config - ((categoryOf first).length + 1)) =
      (slugOf second).take (room config - ((categoryOf first).length + 1)) →
        slugOf first = slugOf second
  else (nameOf first).take (room config) ≠ (nameOf second).take (room config)

instance (config : TargetConfig) (first second : SubmittedFields) :
    Decidable (ToldApart config first second) :=
  inferInstanceAs (Decidable (if categoryOf first = categoryOf second then
    (slugOf first).take _ = (slugOf second).take _ → slugOf first = slugOf second
  else (nameOf first).take _ ≠ (nameOf second).take _))

/-- The slug is not cut right behind a dash. -/
def CutClean (fields : SubmittedFields) : Prop :=
  (hyphenated (slugSource fields))[119]? ≠ some dash

instance (fields : SubmittedFields) : Decidable (CutClean fields) :=
  inferInstanceAs (Decidable (_ ≠ _))

theorem take_append_cons_inj {front : Units} {mark : ℕ} {a b : Units} {n : ℕ} :
    (front ++ mark :: a).take n = (front ++ mark :: b).take n ↔
      a.take (n - (front.length + 1)) = b.take (n - (front.length + 1)) := by
  rw [List.take_append, List.take_append, List.append_right_inj]
  by_cases hroom : n ≤ front.length
  · rw [Nat.sub_eq_zero_of_le hroom, Nat.sub_eq_zero_of_le (by omega)]
    exact iff_of_true rfl rfl
  · obtain ⟨m, rfl⟩ : ∃ m, n = front.length + (m + 1) := ⟨n - front.length - 1, by omega⟩
    rw [Nat.add_sub_cancel_left, show front.length + (m + 1) - (front.length + 1) = m by omega,
      List.take_succ_cons, List.take_succ_cons]
    exact ⟨fun h => (List.cons.inj h).2, fun h => by rw [h]⟩

theorem slugify_slugOf_iff (fields : SubmittedFields) :
    slugify (slugOf fields) = slugOf fields ↔ CutClean fields := by
  rw [slugOf, CutClean]
  exact slugify_slugify_iff (slugSource fields)

/-- A target is its fields' category, slug, path and branch. -/
theorem target_of_buildTarget {fields : SubmittedFields} {config : TargetConfig} {target : Target}
    (h : buildTarget fields config = .ok target) :
    target = ⟨categoryOf fields, slugOf fields, targetPathOf (categoryOf fields) (slugOf fields),
      branchNameOf config.branchPrefix (categoryOf fields) (slugOf fields)⟩ := by
  rw [buildTarget] at h
  split_ifs at h
  exact (Except.ok.inj h).symm

theorem slash_not_mem_slugOf (fields : SubmittedFields) : slash ∉ slugOf fields :=
  slash_not_mem_slugify _

theorem same_branch_iff {config : TargetConfig} {first second : SubmittedFields} :
    (branchNameOf config.branchPrefix (categoryOf first) (slugOf first) =
        branchNameOf config.branchPrefix (categoryOf second) (slugOf second) →
      targetPathOf (categoryOf first) (slugOf first) =
        targetPathOf (categoryOf second) (slugOf second)) ↔
    ToldApart config first second := by
  have hroom : 100 - (config.branchPrefix.length + 1) = room config := by
    rw [room]
    omega
  rw [branchNameOf, branchNameOf, targetPathOf_inj (slash_not_mem_slugOf first)
    (slash_not_mem_slugOf second), take_append_cons_inj, hroom, ToldApart]
  split_ifs with hcategory
  · rw [← hcategory, take_append_cons_inj]
    exact imp_congr_right fun _ => and_iff_right rfl
  · refine imp_congr_right fun _ => ?_
    exact iff_of_false (fun h => hcategory h.1) not_false

/-- Equal branches mean equal paths and both slugs are slugs of themselves, if and only if
the two are told apart within the branch name and neither slug is cut behind a dash. -/
theorem targets_canonical_iff (config : TargetConfig) (first second : SubmittedFields)
    {target other : Target} (hfirst : buildTarget first config = .ok target)
    (hsecond : buildTarget second config = .ok other) :
    ((target.branchName = other.branchName → target.targetPath = other.targetPath) ∧
      slugify target.slug = target.slug ∧ slugify other.slug = other.slug) ↔
    ToldApart config first second ∧ CutClean first ∧ CutClean second := by
  obtain rfl := target_of_buildTarget hfirst
  obtain rfl := target_of_buildTarget hsecond
  dsimp only
  rw [same_branch_iff, slugify_slugOf_iff, slugify_slugOf_iff]

/-- What `draftConfig` holds. -/
def draftConfig : TargetConfig where
  categories := [units "agents", units "mcp", units "skills", units "hooks", units "commands",
    units "rules", units "guides", units "collections", units "statuslines", units "tools"]
  branchPrefix := units "heyclaude/submit"

def toolNamed (name : Units) : SubmittedFields := ⟨some (units "Tools"), none, some name, none⟩

def toolTarget (slug : String) : Target where
  category := units "tools"
  slug := units slug
  targetPath := units "content/tools/" ++ units slug ++ units ".mdx"
  branchName := units "heyclaude/submit-tools-" ++ units slug

theorem tool_facts :
    (buildTarget (toolNamed (units "My Tool")) draftConfig).toOption =
        some (toolTarget "my-tool") ∧
      (buildTarget (toolNamed (units "\"Other\"!")) draftConfig).toOption =
        some (toolTarget "other") ∧
      ToldApart draftConfig (toolNamed (units "My Tool")) (toolNamed (units "\"Other\"!")) ∧
      CutClean (toolNamed (units "My Tool")) ∧ CutClean (toolNamed (units "\"Other\"!")) := by
  decide +kernel

theorem ok_of_toOption {α : Type} {result : Except String α} {value : α}
    (h : result.toOption = some value) : result = .ok value := by
  cases result with
  | error message => cases h
  | ok other => rw [Option.some.inj h]

theorem tool_canonical :
    ((toolTarget "my-tool").branchName = (toolTarget "other").branchName →
        (toolTarget "my-tool").targetPath = (toolTarget "other").targetPath) ∧
      slugify (toolTarget "my-tool").slug = (toolTarget "my-tool").slug ∧
      slugify (toolTarget "other").slug = (toolTarget "other").slug := by
  obtain ⟨hfirst, hsecond, htold, hclean, hclean'⟩ := tool_facts
  exact (targets_canonical_iff draftConfig _ _ (ok_of_toOption hfirst)
    (ok_of_toOption hsecond)).mpr ⟨htold, hclean, hclean'⟩

/-- Eighty letters and one more. -/
def longName (last : ℕ) : Units := List.replicate 80 97 ++ [last]

/-- Two names of 81 letters share a branch and not a path, and a name whose 120th letter is
a blank has a slug that ends in a dash. -/
theorem long_names_collide :
    (¬ ∀ (config : TargetConfig) (first second : SubmittedFields) (target other : Target),
      buildTarget first config = .ok target → buildTarget second config = .ok other →
        target.branchName = other.branchName → target.targetPath = other.targetPath) ∧
    ¬ ∀ (config : TargetConfig) (fields : SubmittedFields) (target : Target),
      buildTarget fields config = .ok target → slugify target.slug = target.slug := by
  have hfacts :
      (∃ target ∈ (buildTarget (toolNamed (longName 98)) draftConfig).toOption,
        ∃ other ∈ (buildTarget (toolNamed (longName 99)) draftConfig).toOption,
          target.branchName = other.branchName ∧ target.targetPath ≠ other.targetPath) ∧
      ∃ target ∈ (buildTarget (toolNamed (List.replicate 119 97 ++ units " b"))
        draftConfig).toOption, slugify target.slug ≠ target.slug := by
    decide +kernel
  obtain ⟨⟨target, htarget, other, hother, hbranch, hpath⟩, cut, hcut, hslug⟩ := hfacts
  constructor
  · intro h
    exact hpath (h draftConfig _ _ target other (ok_of_toOption htarget) (ok_of_toOption hother)
      hbranch)
  · intro h
    exact hslug (h draftConfig _ cut (ok_of_toOption hcut))

end Gittensory.DraftTarget
