import Gittensory.GuardedRun
import Gittensory.JsValue
import Mathlib.Data.List.Infix
import Mathlib.Data.List.Nodup

/-!
The one comment that holds the panel of an issue or a pull request (`github/comments.ts`). A pass
looks for it through the first pages of the thread and edits it, or writes a new one. Others
write new comments while it looks, and edit and delete comments between two passes; passes do
not overlap.
-/
namespace Gittensory.PanelComment

open GuardedRun JsValue

def PR_PANEL_COMMENT_MARKER : String := "<!-- gittensory-pr-panel:v1 -->"

def LEGACY_PR_INTELLIGENCE_COMMENT_MARKER : String := "<!-- gittensory-pr-intelligence -->"

def LEGACY_AGENT_COMMAND_COMMENT_MARKER : String := "<!-- gittensory-agent-command -->"

def COMMENT_SEARCH_PAGE_LIMIT : ℕ := 3

structure IssueComment where
  id : ℕ
  body : Option String
  userType : Option String
  userLogin : Option String
  deriving DecidableEq

/-- `text.includes(part)` -/
def includes (text part : String) : Bool := part.toList <:+: text.toList

def markerAliases : List String :=
  [PR_PANEL_COMMENT_MARKER, LEGACY_PR_INTELLIGENCE_COMMENT_MARKER,
    LEGACY_AGENT_COMMAND_COMMENT_MARKER]

section Passes

variable (botLogin : String)

def isGittensoryBotComment (comment : IssueComment) : Bool :=
  comment.userType = some "Bot" &&
    comment.userLogin.any fun login => toLowerCase login = toLowerCase botLogin

def isPanel (comment : IssueComment) : Bool :=
  isGittensoryBotComment botLogin comment &&
    markerAliases.any fun candidate => comment.body.any fun body => includes body candidate

/-- The search from a page on, and the thread after it; `arrivals page` are written before the
page is read. -/
def search (arrivals : ℕ → List IssueComment) :
    ℕ → ℕ → List IssueComment → Option IssueComment × List IssueComment
  | 0, _, thread => (none, thread)
  | budget + 1, page, thread =>
      let thread := thread ++ arrivals page
      let batch := (thread.drop (100 * (page - 1))).take 100
      match batch.find? (isPanel botLogin) with
      | some existing => (some existing, thread)
      | none =>
          if batch.length < 100 then (none, thread) else search arrivals budget (page + 1) thread

/-- The app writes as a bot. -/
def createdComment (id : ℕ) (body : String) : IssueComment :=
  ⟨id, some body, some "Bot", some botLogin⟩

def editComment (id : ℕ) (body : String) (thread : List IssueComment) : List IssueComment :=
  thread.map fun comment => if comment.id = id then { comment with body := some body } else comment

/-- `arrivals 0` are written between the search and the write; `freshId` is the id that a new
comment would get. -/
def createOrUpdateIssueCommentWithMarker (arrivals : ℕ → List IssueComment) (freshId : ℕ)
    (body : String) (createIfMissing : Bool) (thread : List IssueComment) : List IssueComment :=
  let (existing, read) := search botLogin arrivals COMMENT_SEARCH_PAGE_LIMIT 1 thread
  match existing with
  | some existing => editComment existing.id body (read ++ arrivals 0)
  | none =>
      if createIfMissing then read ++ arrivals 0 ++ [createdComment botLogin freshId body]
      else read ++ arrivals 0

/-! ## What the search finds -/

variable {botLogin}

theorem find?_append_arrivals {thread arrived : List IssueComment} (start size : ℕ)
    (harrived : ∀ comment ∈ arrived, isPanel botLogin comment = false) :
    (((thread ++ arrived).drop start).take size).find? (isPanel botLogin) =
      ((thread.drop start).take size).find? (isPanel botLogin) := by
  have hnone : (((arrived.drop (start - thread.length)).take
      (size - (thread.drop start).length))).find? (isPanel botLogin) = none := by
    rw [List.find?_eq_none]
    intro comment hcomment
    rw [harrived comment (List.mem_of_mem_drop (List.mem_of_mem_take hcomment))]
    exact Bool.false_ne_true
  rw [List.drop_append, List.take_append, List.find?_append, hnone, Option.or_none]

/-- What is written during a search does not disturb it: it finds the first panel of its pages,
and leaves the thread with some of the arrivals behind it. -/
theorem search_spec {arrivals : ℕ → List IssueComment}
    (harrivals : ∀ page, ∀ comment ∈ arrivals page, isPanel botLogin comment = false)
    (budget page : ℕ) (thread : List IssueComment) :
    (search botLogin arrivals budget (page + 1) thread).1 =
        ((thread.drop (100 * page)).take (100 * budget)).find? (isPanel botLogin) ∧
      ∃ arrived, (search botLogin arrivals budget (page + 1) thread).2 = thread ++ arrived ∧
        arrived.Sublist ((List.range' (page + 1) budget).flatMap arrivals) := by
  induction budget generalizing page thread with
  | zero => exact ⟨by simp [search], [], by simp [search], List.nil_sublist _⟩
  | succ budget ih =>
    let grown := thread ++ arrivals (page + 1)
    let batch := (grown.drop (100 * page)).take 100
    obtain ⟨hfound, arrived, hread, harrived⟩ := ih (page + 1) grown
    -- The pages to come start where this one ends.
    have hsplit : (grown.drop (100 * page)).take (100 * (budget + 1)) =
        batch ++ (grown.drop (100 * (page + 1))).take (100 * budget) := by
      rw [Nat.mul_add, Nat.mul_one, Nat.add_comm, List.take_add, List.drop_drop, Nat.mul_add,
        Nat.mul_one]
    have hgrown : ((thread.drop (100 * page)).take (100 * (budget + 1))).find? (isPanel botLogin) =
        (batch.find? (isPanel botLogin)).or
          (((grown.drop (100 * (page + 1))).take (100 * budget)).find? (isPanel botLogin)) := by
      rw [← find?_append_arrivals _ _ (harrivals (page + 1)),
        ← List.find?_append, ← hsplit]
    rw [hgrown, List.range'_succ, List.flatMap_cons]
    unfold search
    dsimp only
    rw [Nat.add_sub_cancel]
    change (match batch.find? (isPanel botLogin) with
        | some existing => (some existing, grown)
        | none => if batch.length < 100 then (none, grown)
            else search botLogin arrivals budget (page + 1 + 1) grown).1 = _ ∧
      ∃ arrived, (match batch.find? (isPanel botLogin) with
        | some existing => (some existing, grown)
        | none => if batch.length < 100 then (none, grown)
            else search botLogin arrivals budget (page + 1 + 1) grown).2 = _ ∧ _
    rcases hbatch : batch.find? (isPanel botLogin) with _ | existing
    · simp only
      split_ifs with hshort
      · have hnothing : grown.drop (100 * (page + 1)) = [] := by
          rw [List.drop_eq_nil_iff]
          simp only [batch, List.length_take, List.length_drop] at hshort
          omega
        exact ⟨by simp [hnothing], arrivals (page + 1), rfl, List.sublist_append_left _ _⟩
      · refine ⟨by simpa using hfound, arrivals (page + 1) ++ arrived, ?_, ?_⟩
        · rw [hread, List.append_assoc]
        · exact harrived.append_left _
    · exact ⟨rfl, arrivals (page + 1), rfl, List.sublist_append_left _ _⟩

/-! ## What a pass writes -/

/-- What is written during a pass, if it reads three pages. -/
def written (arrivals : ℕ → List IssueComment) : List IssueComment :=
  arrivals 1 ++ arrivals 2 ++ arrivals 3 ++ arrivals 0

/-- The panel that a pass will edit. -/
def found (botLogin : String) (thread : List IssueComment) : Option IssueComment :=
  (thread.take 300).find? (isPanel botLogin)

theorem createOrUpdate_eq {arrivals : ℕ → List IssueComment}
    (harrivals : ∀ page, ∀ comment ∈ arrivals page, isPanel botLogin comment = false)
    (freshId : ℕ) (body : String) (createIfMissing : Bool) (thread : List IssueComment) :
    ∃ arrived : List IssueComment, arrived.Sublist (written arrivals) ∧
      createOrUpdateIssueCommentWithMarker botLogin arrivals freshId body createIfMissing thread =
        match found botLogin thread with
        | some existing => editComment existing.id body (thread ++ arrived)
        | none =>
            if createIfMissing then thread ++ arrived ++ [createdComment botLogin freshId body]
            else thread ++ arrived := by
  obtain ⟨hfound, arrived, hread, harrived⟩ := search_spec harrivals COMMENT_SEARCH_PAGE_LIMIT 0
    thread
  refine ⟨arrived ++ arrivals 0, ?_, ?_⟩
  · have hpages : (List.range' 1 COMMENT_SEARCH_PAGE_LIMIT).flatMap arrivals =
        arrivals 1 ++ arrivals 2 ++ arrivals 3 := by
      simp [COMMENT_SEARCH_PAGE_LIMIT, List.range'_succ]
    exact (hpages ▸ harrived).append_right _
  · have hsame : (search botLogin arrivals COMMENT_SEARCH_PAGE_LIMIT 1 thread).1 =
        found botLogin thread := hfound
    unfold createOrUpdateIssueCommentWithMarker
    simp only [hsame, hread, List.append_assoc]

theorem isPanel_of_marker {id : ℕ} {body : String}
    (h : includes body PR_PANEL_COMMENT_MARKER = true) :
    isPanel botLogin (createdComment botLogin id body) = true := by
  simp [isPanel, isGittensoryBotComment, createdComment, markerAliases, h]

/-- An edit of a panel leaves a panel. -/
theorem isPanel_edited {comment : IssueComment} {body : String}
    (h : isPanel botLogin comment = true) (hbody : includes body PR_PANEL_COMMENT_MARKER = true) :
    isPanel botLogin { comment with body := some body } = true := by
  simp only [isPanel, Bool.and_eq_true] at h ⊢
  exact ⟨h.1, by simp [markerAliases, hbody]⟩

/-- The comments that are no panels. -/
def others (botLogin : String) (thread : List IssueComment) : List IssueComment :=
  thread.filter fun comment => !isPanel botLogin comment

def panels (botLogin : String) (thread : List IssueComment) : List IssueComment :=
  thread.filter (isPanel botLogin)

theorem mem_found {thread : List IssueComment} {existing : IssueComment}
    (h : found botLogin thread = some existing) :
    existing ∈ thread ∧ isPanel botLogin existing = true :=
  ⟨List.mem_of_mem_take (List.mem_of_find?_eq_some h), List.find?_some h⟩

/-- A panel is edited in its place, and no other comment of another id is. -/
theorem editComment_spec {thread : List IssueComment} {existing : IssueComment} {body : String}
    (hids : (thread.map IssueComment.id).Nodup) (hexisting : existing ∈ thread)
    (hpanel : isPanel botLogin existing = true)
    (hbody : includes body PR_PANEL_COMMENT_MARKER = true) :
    others botLogin (editComment existing.id body thread) = others botLogin thread ∧
      panels botLogin (editComment existing.id body thread) = (panels botLogin thread).map
        fun comment => if comment.id = existing.id then { comment with body := some body }
          else comment := by
  have hsame : ∀ comment ∈ thread, comment.id = existing.id → comment = existing :=
    fun comment hcomment hid => List.inj_on_of_nodup_map hids hcomment hexisting hid
  have hkept : ∀ comment ∈ thread, isPanel botLogin (if comment.id = existing.id then
      { comment with body := some body } else comment) = isPanel botLogin comment := by
    intro comment hcomment
    split_ifs with hid
    · obtain rfl := hsame comment hcomment hid
      rw [isPanel_edited hpanel hbody, hpanel]
    · rfl
  constructor
  · rw [others, others, editComment, List.filter_map]
    have hfilter : thread.filter ((fun comment => !isPanel botLogin comment) ∘ fun comment =>
        if comment.id = existing.id then { comment with body := some body } else comment) =
          thread.filter fun comment => !isPanel botLogin comment :=
      List.filter_congr fun comment hcomment => by
        rw [Function.comp_apply, hkept comment hcomment]
    rw [hfilter]
    refine (List.map_congr_left fun comment hcomment => ?_).trans (List.map_id _)
    obtain ⟨hmem, hother⟩ := List.mem_filter.mp hcomment
    refine if_neg fun hid => ?_
    rw [hsame comment hmem hid, hpanel] at hother
    cases hother
  · rw [panels, panels, editComment, List.filter_map]
    exact congrArg _ (List.filter_congr fun comment hcomment => hkept comment hcomment)

/-! ## A thread -/

/-- Comments, edits and deletions of others, and passes of the app. -/
inductive Event where
  | post (comment : IssueComment)
  | edit (id : ℕ) (body : String)
  | delete (id : ℕ)
  | publish (arrivals : ℕ → List IssueComment) (freshId : ℕ) (body : String)
      (createIfMissing : Bool)

variable (botLogin) in
def step (thread : List IssueComment) : Event → List IssueComment
  | .post comment => thread ++ [comment]
  | .edit id body => editComment id body thread
  | .delete id => thread.filter fun comment => comment.id ≠ id
  | .publish arrivals freshId body createIfMissing =>
      createOrUpdateIssueCommentWithMarker botLogin arrivals freshId body createIfMissing thread

variable (botLogin) in
/-- Others write no panels and leave them unedited; ids are not used twice; the app publishes
bodies with the marker, and only while no panel lies beyond the pages that it reads. -/
def Admits (thread : List IssueComment) : Event → Prop
  | .post comment =>
      isPanel botLogin comment = false ∧ comment.id ∉ thread.map IssueComment.id
  | .edit id body => ∀ comment ∈ thread, comment.id = id →
      isPanel botLogin comment = false ∧
        isPanel botLogin { comment with body := some body } = false
  | .delete _ => True
  | .publish arrivals freshId body _ =>
      (∀ page, ∀ comment ∈ arrivals page, isPanel botLogin comment = false) ∧
        ((thread ++ written arrivals).map IssueComment.id).Nodup ∧
        freshId ∉ (thread ++ written arrivals).map IssueComment.id ∧
        includes body PR_PANEL_COMMENT_MARKER = true ∧
        ∀ comment ∈ thread, isPanel botLogin comment = true → comment ∈ thread.take 300

/-- Ids are unique, and at most one comment is a panel. -/
structure Sound (botLogin : String) (thread : List IssueComment) : Prop where
  ids : (thread.map IssueComment.id).Nodup
  one : (panels botLogin thread).length ≤ 1

theorem map_id_editComment (id : ℕ) (body : String) (thread : List IssueComment) :
    (editComment id body thread).map IssueComment.id = thread.map IssueComment.id := by
  rw [editComment, List.map_map]
  refine List.map_congr_left fun comment _ => ?_
  rw [Function.comp_apply]
  split_ifs <;> rfl

theorem not_isPanel_of_mem_written {arrivals : ℕ → List IssueComment}
    (harrivals : ∀ page, ∀ comment ∈ arrivals page, isPanel botLogin comment = false)
    {comment : IssueComment} (h : comment ∈ written arrivals) :
    isPanel botLogin comment = false := by
  simp only [written, List.mem_append] at h
  rcases h with ((hone | htwo) | hthree) | hzero
  · exact harrivals 1 comment hone
  · exact harrivals 2 comment htwo
  · exact harrivals 3 comment hthree
  · exact harrivals 0 comment hzero

theorem others_append_arrived {arrived : List IssueComment}
    (h : ∀ comment ∈ arrived, isPanel botLogin comment = false) (thread : List IssueComment) :
    others botLogin (thread ++ arrived) = others botLogin thread ++ arrived := by
  have harrived : arrived.filter (fun comment => !isPanel botLogin comment) = arrived :=
    List.filter_eq_self.mpr fun comment hcomment => by rw [h comment hcomment]; rfl
  rw [others, List.filter_append, harrived, others]

theorem panels_append_arrived {arrived : List IssueComment}
    (h : ∀ comment ∈ arrived, isPanel botLogin comment = false) (thread : List IssueComment) :
    panels botLogin (thread ++ arrived) = panels botLogin thread := by
  have harrived : arrived.filter (isPanel botLogin) = [] :=
    List.filter_eq_nil_iff.mpr fun comment hcomment => by simp [h comment hcomment]
  rw [panels, List.filter_append, harrived, List.append_nil, panels]

theorem others_append_created (thread : List IssueComment) {freshId : ℕ} {body : String}
    (hbody : includes body PR_PANEL_COMMENT_MARKER = true) :
    others botLogin (thread ++ [createdComment botLogin freshId body]) =
      others botLogin thread := by
  rw [others, List.filter_append, List.filter_singleton, isPanel_of_marker hbody, others]
  simp

theorem panels_append_created (thread : List IssueComment) {freshId : ℕ} {body : String}
    (hbody : includes body PR_PANEL_COMMENT_MARKER = true) :
    panels botLogin (thread ++ [createdComment botLogin freshId body]) =
      panels botLogin thread ++ [createdComment botLogin freshId body] := by
  rw [panels, List.filter_append, List.filter_singleton, isPanel_of_marker hbody, panels]
  rfl

/-- Where no panel lies beyond the pages, one that is not found is not there. -/
theorem panels_eq_nil_of_found {thread : List IssueComment} (hfound : found botLogin thread = none)
    (hpages : ∀ comment ∈ thread, isPanel botLogin comment = true → comment ∈ thread.take 300) :
    panels botLogin thread = [] := by
  rw [panels, List.filter_eq_nil_iff]
  intro comment hcomment hpanel
  exact List.find?_eq_none.mp hfound comment (hpages comment hcomment hpanel) hpanel

/-- The only panel is the one found. -/
theorem panels_eq_singleton_of_found {thread : List IssueComment} {existing : IssueComment}
    (hone : (panels botLogin thread).length ≤ 1) (hfound : found botLogin thread = some existing) :
    panels botLogin thread = [existing] := by
  obtain ⟨hmem, hpanel⟩ := mem_found hfound
  have hin : existing ∈ panels botLogin thread := List.mem_filter.mpr ⟨hmem, hpanel⟩
  rcases hpanels : panels botLogin thread with _ | ⟨first, rest⟩
  · rw [hpanels] at hin
    cases hin
  · rw [hpanels] at hin hone
    obtain rfl : rest = [] := List.eq_nil_of_length_eq_zero (by simpa using hone)
    rw [List.mem_singleton.mp hin]

/-- What a pass of an admitted event leaves: the other comments as they were, with new ones of
others behind them, and one panel, of the body that it published. -/
theorem publish_spec {thread : List IssueComment} (h : Sound botLogin thread)
    {arrivals : ℕ → List IssueComment} {freshId : ℕ} {body : String} {createIfMissing : Bool}
    (hadmits : Admits botLogin thread (.publish arrivals freshId body createIfMissing)) :
    Sound botLogin (step botLogin thread (.publish arrivals freshId body createIfMissing)) ∧
      (∃ arrived : List IssueComment, arrived.Sublist (written arrivals) ∧
        others botLogin (step botLogin thread (.publish arrivals freshId body createIfMissing)) =
          others botLogin thread ++ arrived) ∧
      (panels botLogin (step botLogin thread
          (.publish arrivals freshId body createIfMissing))).map IssueComment.body =
        if panels botLogin thread = [] ∧ createIfMissing = false then [] else [some body] := by
  obtain ⟨harrivals, hids, hfresh, hbody, hpages⟩ := hadmits
  obtain ⟨arrived, hsub, heq⟩ :=
    createOrUpdate_eq harrivals freshId body createIfMissing thread
  have harrived : ∀ comment ∈ arrived, isPanel botLogin comment = false :=
    fun comment hcomment => not_isPanel_of_mem_written harrivals (hsub.subset hcomment)
  have hgrown : ((thread ++ arrived).map IssueComment.id).Nodup :=
    hids.sublist ((hsub.append_left thread).map IssueComment.id)
  have hothers := others_append_arrived harrived thread
  have hpanels := panels_append_arrived harrived thread
  rw [step, heq]
  rcases hfound : found botLogin thread with _ | existing
  · have hnone := panels_eq_nil_of_found hfound hpages
    rcases createIfMissing with _ | _
    · refine ⟨⟨hgrown, ?_⟩, ⟨arrived, hsub, hothers⟩, ?_⟩
      · simp [hpanels, hnone]
      · simp [hpanels, hnone]
    · simp only [if_true]
      have hcreated : panels botLogin
          (thread ++ arrived ++ [createdComment botLogin freshId body]) =
            [createdComment botLogin freshId body] := by
        rw [panels_append_created _ hbody, hpanels, hnone, List.nil_append]
      have hnew : freshId ∉ (thread ++ arrived).map IssueComment.id := fun hmem =>
        hfresh (((hsub.append_left thread).map IssueComment.id).subset hmem)
      refine ⟨⟨?_, ?_⟩, ⟨arrived, hsub, ?_⟩, ?_⟩
      · rw [List.map_append, List.map_singleton, ← List.concat_eq_append]
        exact hgrown.concat hnew
      · rw [hcreated]
        exact Nat.le_refl 1
      · rw [others_append_created _ hbody, hothers]
      · rw [hcreated]
        simp [createdComment]
  · have honly := panels_eq_singleton_of_found h.one hfound
    obtain ⟨hmem, hpanel⟩ := mem_found hfound
    obtain ⟨hothersEdited, hpanelsEdited⟩ :=
      editComment_spec hgrown (List.mem_append_left arrived hmem) hpanel hbody
    rw [hpanels, honly, List.map_singleton, if_pos rfl] at hpanelsEdited
    simp only
    refine ⟨⟨?_, ?_⟩, ⟨arrived, hsub, hothersEdited.trans hothers⟩, ?_⟩
    · rw [map_id_editComment]
      exact hgrown
    · rw [hpanelsEdited]
      exact Nat.le_refl 1
    · rw [hpanelsEdited, honly]
      simp

theorem sound_step {thread : List IssueComment} {event : Event} (h : Sound botLogin thread)
    (hadmits : Admits botLogin thread event) : Sound botLogin (step botLogin thread event) := by
  cases event with
  | post comment =>
    obtain ⟨hpanel, hid⟩ := hadmits
    refine ⟨?_, ?_⟩
    · rw [step, List.map_append, List.map_singleton, ← List.concat_eq_append]
      exact h.ids.concat hid
    · have hone := h.one
      simpa [step, panels, List.filter_append, hpanel] using hone
  | edit id body =>
    refine ⟨(map_id_editComment id body thread).symm ▸ h.ids, ?_⟩
    have hsame : panels botLogin (editComment id body thread) = panels botLogin thread := by
      rw [panels, editComment, List.filter_map]
      have hfilter : thread.filter (isPanel botLogin ∘ fun comment =>
          if comment.id = id then { comment with body := some body } else comment) =
            panels botLogin thread := List.filter_congr fun comment hcomment => by
        rw [Function.comp_apply]
        split_ifs with hid
        · rw [(hadmits comment hcomment hid).1, (hadmits comment hcomment hid).2]
        · rfl
      rw [hfilter]
      refine (List.map_congr_left fun comment hcomment => ?_).trans (List.map_id _)
      obtain ⟨hmem, hpanel⟩ := List.mem_filter.mp hcomment
      refine if_neg fun hid => ?_
      rw [(hadmits comment hmem hid).1] at hpanel
      cases hpanel
    rw [step, hsame]
    exact h.one
  | delete id =>
    refine ⟨h.ids.sublist (List.filter_sublist.map _), ?_⟩
    exact Nat.le_trans (List.filter_sublist.filter _).length_le h.one
  | publish arrivals freshId body createIfMissing => exact (publish_spec h hadmits).1

/-- In every run there is at most one panel; and a pass, whatever comments come while it reads,
leaves every comment but its panel as it was and its panel with the body that it published,
a new one only where there was none and one may be created. -/
theorem one_panel (botLogin : String) {events : List Event} {arrivals : ℕ → List IssueComment}
    {freshId : ℕ} {body : String} {createIfMissing : Bool}
    (hrun : Guarded (step botLogin) (Admits botLogin) []
      (events ++ [.publish arrivals freshId body createIfMissing])) :
    (panels botLogin (run (step botLogin) [] events)).length ≤ 1 ∧
      (∃ arrived : List IssueComment, arrived.Sublist (written arrivals) ∧
        others botLogin (run (step botLogin) []
          (events ++ [.publish arrivals freshId body createIfMissing])) =
            others botLogin (run (step botLogin) [] events) ++ arrived) ∧
      (panels botLogin (run (step botLogin) []
          (events ++ [.publish arrivals freshId body createIfMissing]))).map IssueComment.body =
        if panels botLogin (run (step botLogin) [] events) = [] ∧ createIfMissing = false then []
        else [some body] := by
  obtain ⟨hevents, hadmits, -⟩ := (guarded_append _ _ _ _ _).mp hrun
  have hstep : ∀ thread event, Sound botLogin thread → Admits botLogin thread event →
      Sound botLogin (step botLogin thread event) := fun _ _ => sound_step
  have hsound : Sound botLogin (run (step botLogin) [] events) :=
    run_invariant _ _ hstep [] events ⟨List.nodup_nil, Nat.zero_le 1⟩ hevents
  obtain ⟨-, hothers, hpanels⟩ := publish_spec hsound hadmits
  rw [run_append]
  exact ⟨hsound.one, hothers, hpanels⟩

end Passes

/-- Somebody writes while the first pass reads. -/
def annWrites (page : ℕ) : List IssueComment :=
  if page = 1 then [⟨1, some "hi", some "User", some "ann"⟩] else []

def firstPass : Event := .publish annWrites 2 PR_PANEL_COMMENT_MARKER true

theorem two_passes_admitted : Guarded (step "gittensory[bot]") (Admits "gittensory[bot]") []
    [firstPass, .publish (fun _ => []) 3 (PR_PANEL_COMMENT_MARKER ++ "!") true] := by
  refine ⟨⟨fun page comment hcomment => ?_, by decide, by decide, by decide, nofun⟩,
    ⟨nofun, by decide, by decide, by decide, by decide⟩, trivial⟩
  unfold annWrites at hcomment
  split_ifs at hcomment
  · rw [List.mem_singleton.mp hcomment]
    decide
  · cases hcomment

theorem two_passes_one_panel :
    (panels "gittensory[bot]" (run (step "gittensory[bot]") [] ([firstPass] ++
      [.publish (fun _ => []) 3 (PR_PANEL_COMMENT_MARKER ++ "!") true]))).map IssueComment.body =
        if panels "gittensory[bot]" (run (step "gittensory[bot]") [] [firstPass]) = [] ∧
          true = false then [] else [some (PR_PANEL_COMMENT_MARKER ++ "!")] :=
  (one_panel "gittensory[bot]" two_passes_admitted).2.2

end Gittensory.PanelComment
