import Gittensory.Capturing
import Gittensory.SettledComment

/-!
The marker that ties a reaction on a command's answer to that answer
(`buildAgentCommandFeedbackMarker` and `parseAgentCommandFeedbackContext` of
`github/commands.ts`). The redaction of a comment neither makes a marker nor moves one: the
markers of the redacted comment are those of the comment whose id holds no private phrase, in
the same order.
-/
namespace Gittensory.FeedbackMarker

open Capturing JsValue PatternOverlap PublicComment Redaction Rewriting SettledComment TextPattern

/-! ## The commands -/

/-- `GITTENSORY_MENTION_COMMAND_CATALOG` -/
inductive MentionCommand where
  | help
  | ask
  | preflight
  | blockers
  | duplicateCheck
  | minerContext
  | nextAction
  | reviewability
  | repoFit
  | packet
  | queueSummary
  | confirmedMiners
  | reviewNow
  | needsAuthor
  | duplicateClusters
  | burdenForecast
  | intakeHealth
  | outcomePatterns
  | noiseReport
  deriving DecidableEq, Repr

namespace MentionCommand

def name : MentionCommand → String
  | .help => "help"
  | .ask => "ask"
  | .preflight => "preflight"
  | .blockers => "blockers"
  | .duplicateCheck => "duplicate-check"
  | .minerContext => "miner-context"
  | .nextAction => "next-action"
  | .reviewability => "reviewability"
  | .repoFit => "repo-fit"
  | .packet => "packet"
  | .queueSummary => "queue-summary"
  | .confirmedMiners => "confirmed-miners"
  | .reviewNow => "review-now"
  | .needsAuthor => "needs-author"
  | .duplicateClusters => "duplicate-clusters"
  | .burdenForecast => "burden-forecast"
  | .intakeHealth => "intake-health"
  | .outcomePatterns => "outcome-patterns"
  | .noiseReport => "noise-report"

def all : List MentionCommand :=
  [.help, .ask, .preflight, .blockers, .duplicateCheck, .minerContext, .nextAction, .reviewability,
    .repoFit, .packet, .queueSummary, .confirmedMiners, .reviewNow, .needsAuthor,
    .duplicateClusters, .burdenForecast, .intakeHealth, .outcomePatterns, .noiseReport]

theorem mem_all (command : MentionCommand) : command ∈ all := by cases command <;> decide

/-- `COMMANDS`, read by name. -/
def ofName (name : Text) : Option MentionCommand := all.find? fun command => command.name.toList == name

end MentionCommand

/-! ## The marker -/

/-- `[A-Za-z0-9_.:-]` -/
def idSet : CharSet where
  negated := false
  ranges := [('A', 'Z'), ('a', 'z'), ('0', '9'), ('_', '_'), ('.', '.'), (':', ':'), ('-', '-')]

def markerName : String := "gittensory-agent-command-answer:"

def sanitizeFeedbackAnswerId (answerId : Text) : Text :=
  (answerId.filter idSet.accepts).take 120

def buildAgentCommandFeedbackMarker (answerId : Text) : Text :=
  "<!-- ".toList ++ (markerName.toList ++ (sanitizeFeedbackAnswerId answerId ++ " -->".toList))

/-- `/<!--\s*gittensory-agent-command-answer:([A-Za-z0-9_.:-]{8,120})\s*-->/` -/
def answerMarker : Capture where
  lead := .seqs [.literal "<!--", .star (.char spaceSet), .literal markerName]
  group := .seq (.times 8 (.char idSet)) (upTo 112 (.char idSet))
  trail := .seqs [.star (.char spaceSet), .literal "-->"]

/-- "Command:" and, between grave accents, the mention and a command; letters in either case. -/
def commandLine : Capture where
  lead := .seqs [.literalNoCase "Command:", .star (.char spaceSet),
    .literalNoCase "\u0060@gittensory", spaces]
  group := .plus (.char ⟨false, [('a', 'z'), ('A', 'Z'), ('-', '-')]⟩)
  trail := .exactly '\u0060'

structure AgentCommandFeedbackContext where
  answerId : Text
  command : Option MentionCommand
  deriving DecidableEq, Repr

/-- `null` and the empty body have no context. -/
def parseAgentCommandFeedbackContext (body : Option Text) : Option AgentCommandFeedbackContext := do
  let body ← body
  let answerId ← answerMarker.first body
  let command := (commandLine.first body).bind fun requested =>
    MentionCommand.ofName (requested.flatMap lowerChar)
  return { answerId, command }

/-! ## How a marker is spelled -/

theorem matches_times_char_iff {set : CharSet} {n : ℕ} {prev : Option Char} {m post : Text} :
    Matches (.times n (.char set)) prev m post ↔
      m.length = n ∧ ∀ c ∈ m, set.accepts c = true := by
  induction n generalizing prev m with
  | zero =>
    rw [Pattern.times, matches_empty_iff]
    constructor
    · rintro rfl
      exact ⟨rfl, fun c hc => absurd hc List.not_mem_nil⟩
    · exact fun h => List.length_eq_zero_iff.mp h.1
  | succ n ih =>
    rw [Pattern.times, matches_seq_iff]
    constructor
    · rintro ⟨x, y, rfl, hfirst, hrest⟩
      obtain ⟨c, rfl, hc⟩ := matches_char_iff.mp hfirst
      obtain ⟨hlength, hall⟩ := ih.mp hrest
      refine ⟨by rw [List.singleton_append, List.length_cons, hlength], ?_⟩
      exact List.forall_mem_cons.mpr ⟨hc, hall⟩
    · rintro ⟨hlength, hall⟩
      cases m with
      | nil => cases hlength
      | cons c m =>
        obtain ⟨hc, hrest⟩ := List.forall_mem_cons.mp hall
        exact ⟨[c], m, rfl, matches_char_iff.mpr ⟨c, rfl, hc⟩,
          ih.mpr ⟨Nat.succ.inj hlength, hrest⟩⟩

def IsSpace (text : Text) : Prop := ∀ c ∈ text, spaceSet.accepts c = true

/-- An id as the marker can hold it. -/
structure AnswerId (id : Text) : Prop where
  low : 8 ≤ id.length
  high : id.length ≤ 120
  letters : ∀ c ∈ id, idSet.accepts c = true

theorem matches_lead_iff {prev : Option Char} {l post : Text} :
    Matches answerMarker.lead prev l post ↔
      ∃ s, IsSpace s ∧ l = "<!--".toList ++ (s ++ markerName.toList) := by
  simp only [answerMarker, Pattern.seqs, List.foldr_cons, List.foldr_nil, matches_seq_iff,
    matches_literal_iff, matches_star_char_iff, matches_empty_iff]
  constructor
  · rintro ⟨x, y, rfl, rfl, s, z, rfl, hs, u, v, rfl, rfl, rfl⟩
    exact ⟨s, hs, by rw [List.append_nil]⟩
  · rintro ⟨s, hs, rfl⟩
    exact ⟨_, _, rfl, rfl, s, _, rfl, hs, markerName.toList, [], by rw [List.append_nil], rfl, rfl⟩

theorem matches_group_iff {prev : Option Char} {id post : Text} :
    Matches answerMarker.group prev id post ↔ AnswerId id := by
  simp only [answerMarker, matches_seq_iff, matches_times_char_iff, matches_upTo_iff]
  constructor
  · rintro ⟨x, y, rfl, ⟨hx, hallx⟩, hy, hally⟩
    refine ⟨?_, ?_, List.forall_mem_append.mpr ⟨hallx, hally⟩⟩
    · rw [List.length_append, hx]
      exact Nat.le_add_right 8 _
    · rw [List.length_append, hx]
      exact Nat.add_le_add_left hy 8
  · rintro ⟨hlow, hhigh, hall⟩
    refine ⟨id.take 8, id.drop 8, (List.take_append_drop 8 id).symm, ⟨?_, ?_⟩, ?_, ?_⟩
    · rw [List.length_take, Nat.min_eq_left hlow]
    · exact fun c hc => hall c (List.mem_of_mem_take hc)
    · rw [List.length_drop]
      exact Nat.sub_le_sub_right hhigh 8
    · exact fun c hc => hall c (List.mem_of_mem_drop hc)

theorem matches_trail_iff {prev : Option Char} {r post : Text} :
    Matches answerMarker.trail prev r post ↔ ∃ s, IsSpace s ∧ r = s ++ "-->".toList := by
  simp only [answerMarker, Pattern.seqs, List.foldr_cons, List.foldr_nil, matches_seq_iff,
    matches_literal_iff, matches_star_char_iff, matches_empty_iff]
  constructor
  · rintro ⟨s, x, rfl, hs, u, v, rfl, rfl, rfl⟩
    exact ⟨s, hs, by rw [List.append_nil]⟩
  · rintro ⟨s, hs, rfl⟩
    exact ⟨s, _, rfl, hs, _, [], by rw [List.append_nil], rfl, rfl⟩

theorem spells_answerMarker_iff {m id : Text} :
    answerMarker.Spells m id ↔ ∃ s s', IsSpace s ∧ IsSpace s' ∧ AnswerId id ∧
      m = ("<!--".toList ++ (s ++ markerName.toList)) ++ (id ++ (s' ++ "-->".toList)) := by
  simp only [Capture.Spells, matches_lead_iff, matches_group_iff, matches_trail_iff]
  constructor
  · rintro ⟨l, r, rfl, ⟨s, hs, rfl⟩, hid, s', hs', rfl⟩
    exact ⟨s, s', hs, hs', hid, rfl⟩
  · rintro ⟨s, s', hs, hs', hid, rfl⟩
    exact ⟨_, _, rfl, ⟨s, hs, rfl⟩, hid, s', hs', rfl⟩

theorem not_space_of_idSet {c : Char} (hc : idSet.accepts c = true) :
    spaceSet.accepts c = false := by
  cases hspace : spaceSet.accepts c with
  | false => rfl
  | true =>
    have hmeets := meets_of_accepts hc hspace
    have hapart : meets idSet spaceSet = false := by decide
    rw [hapart] at hmeets
    cases hmeets

/-- The letters of an id, and of what closes a comment if no space is between, end where
neither goes on. -/
theorem stretch_of_id {s id post : Text} (hs : IsSpace s) (hid : AnswerId id) :
    ∃ dashes rest, id ++ (s ++ ("-->".toList ++ post)) = (id ++ dashes) ++ rest ∧
      (∀ c ∈ id ++ dashes, idSet.accepts c = true) ∧ (∀ c ∈ rest.head?, idSet.accepts c = false) ∧
      dashes = if rest.head? = some '>' then "--".toList else [] := by
  cases s with
  | nil =>
    refine ⟨"--".toList, '>' :: post, by simp, ?_, ?_, by simp⟩
    · refine List.forall_mem_append.mpr ⟨hid.letters, ?_⟩
      exact List.all_eq_true.mp (by decide)
    · simp [idSet, CharSet.accepts]
  | cons c s =>
    have hc := hs c List.mem_cons_self
    refine ⟨[], c :: (s ++ ("-->".toList ++ post)), by simp, ?_, ?_, ?_⟩
    · rw [List.append_nil]
      exact hid.letters
    · intro d hd
      obtain rfl := Option.some.inj hd
      cases hidset : idSet.accepts c with
      | false => rfl
      | true =>
        rw [not_space_of_idSet hidset] at hc
        cases hc
    · rw [List.head?_cons, if_neg]
      rintro hsame
      rw [Option.some.inj hsame] at hc
      exact absurd hc (by decide)

theorem answerMarker_unique {m m' id id' post post' : Text} (h : answerMarker.Spells m id)
    (h' : answerMarker.Spells m' id') (htext : m ++ post = m' ++ post') : id = id' := by
  obtain ⟨s, r, hs, hr, hid, rfl⟩ := spells_answerMarker_iff.mp h
  obtain ⟨s', r', hs', hr', hid', rfl⟩ := spells_answerMarker_iff.mp h'
  simp only [List.append_assoc] at htext
  have hname : ∀ rest : Text, ∀ c ∈ (markerName.toList ++ rest).head?,
      spaceSet.accepts c = false := by
    intro rest c hc
    obtain rfl := Option.some.inj hc
    decide
  obtain ⟨-, hnamed⟩ := stretch_unique hs hs' (hname _) (hname _) (List.append_cancel_left htext)
  have hbody := List.append_cancel_left hnamed
  obtain ⟨dashes, rest, hsplit, hall, hstop, hdashes⟩ := @stretch_of_id r id post hr hid
  obtain ⟨dashes', rest', hsplit', hall', hstop', hdashes'⟩ :=
    @stretch_of_id r' id' post' hr' hid'
  rw [hsplit, hsplit'] at hbody
  obtain ⟨hids, rfl⟩ := stretch_unique hall hall' hstop hstop' hbody
  rw [hdashes, hdashes'] at hids
  exact List.append_cancel_right hids

theorem lawful_answerMarker : answerMarker.Lawful where
  lead := by decide
  group := by decide +kernel
  trail := by decide
  nonempty := by decide
  unique := answerMarker_unique

/-! ## What the redaction does to markers -/

/-- A marker whatever the length of its id. -/
def markerShape : Pattern :=
  .seqs [.literal "<!--", .star (.char spaceSet), .literal markerName, .plus (.char idSet),
    .star (.char spaceSet), .literal "-->"]

theorem matches_markerShape {m id : Text} (h : answerMarker.Spells m id) :
    Matches markerShape none m [] := by
  obtain ⟨s, s', hs, hs', hid, rfl⟩ := spells_answerMarker_iff.mp h
  obtain ⟨c, id, rfl⟩ : ∃ c rest, id = c :: rest :=
    List.exists_cons_of_length_pos (Nat.lt_of_lt_of_le (by decide) hid.low)
  obtain ⟨hc, hrest⟩ := List.forall_mem_cons.mp hid.letters
  simp only [markerShape, Pattern.seqs, Pattern.plus, List.foldr_cons, List.foldr_nil,
    matches_seq_iff, matches_literal_iff, matches_star_char_iff, matches_char_iff,
    matches_empty_iff]
  refine ⟨_, s ++ (markerName.toList ++ (c :: id ++ (s' ++ "-->".toList))), by simp, rfl, s, _,
    rfl, hs, _, _, rfl, rfl, c :: id, _, rfl, ⟨[c], id, rfl, ⟨c, rfl, hc⟩, hrest⟩, s', _, rfl, hs',
    _, [], by simp, rfl, rfl⟩

/-- A pattern that shares letters with a marker only within its id. -/
structure Unmarked (q : Pattern) : Prop where
  headed : headed q = true
  nonempty : nullable q = false
  anchorFree : anchorFree q = true
  opening : avoids '<' q = true
  lead : Unentered answerMarker.lead q
  dashes : Unentered q (.literal "--")
  last : ∀ tail ∈ tails q, nullable tail.2 = true → meets tail.1 spaceSet = false

instance (q : Pattern) : Decidable (Unmarked q) :=
  decidable_of_iff (Rewriting.headed q = true ∧ nullable q = false ∧
      TextPattern.anchorFree q = true ∧ avoids '<' q = true ∧ Unentered answerMarker.lead q ∧
      Unentered q (.literal "--") ∧
      ∀ tail ∈ tails q, nullable tail.2 = true → meets tail.1 spaceSet = false)
    ⟨fun h => ⟨h.1, h.2.1, h.2.2.1, h.2.2.2.1, h.2.2.2.2.1, h.2.2.2.2.2.1, h.2.2.2.2.2.2⟩,
      fun h => ⟨h.headed, h.nonempty, h.anchorFree, h.opening, h.lead, h.dashes, h.last⟩⟩

theorem markers_separated :
    (∀ q ∈ redactionPatterns, Unmarked q) ∧
      ∀ word ∈ plantedWords, Sealed markerShape (.literal word) ∧ '<' ∉ word.toList := by
  decide +kernel

theorem not_isWordChar_of_trail {s post : Text} (hs : IsSpace s) {c : Char}
    (hc : c ∈ (s ++ "-->".toList ++ post).head?) : isWordChar c = false := by
  cases s with
  | nil =>
    obtain rfl := Option.some.inj hc
    decide
  | cons d s =>
    obtain rfl := Option.some.inj hc
    have hspace := hs d List.mem_cons_self
    cases hword : isWordChar d with
    | false => rfl
    | true =>
      have hset : CharSet.accepts ⟨false, [('a', 'z'), ('A', 'Z'), ('0', '9'), ('_', '_')]⟩ d =
          true := by
        simp only [isWordChar, decide_eq_true_eq] at hword
        simp only [CharSet.accepts, List.any_cons, List.any_nil, Bool.or_false, Bool.bne_false,
          Bool.or_eq_true, decide_eq_true_eq]
        refine hword.imp_right (Or.imp_right (Or.imp_right ?_))
        rintro rfl
        exact ⟨le_refl _, le_refl _⟩
      have hmeets := meets_of_accepts hset hspace
      exact absurd hmeets (by decide)

theorem head_of_headed {q : Pattern} (hq : headed q = true) {prev : Option Char} {n post : Text}
    (h : Matches q prev n post) : ∃ c rest, n = c :: rest ∧ isWordChar c = true := by
  rcases Bool.or_eq_true_iff.mp hq with hedged | hstarts
  · exact (edge_of_edged hedged h).2
  · exact head_of_startsWord h hstarts

theorem front_of_lead {prev : Option Char} {l post : Text}
    (h : Matches answerMarker.lead prev l post) : ∃ front, l = front ++ [':'] := by
  obtain ⟨s, -, rfl⟩ := matches_lead_iff.mp h
  refine ⟨"<!--".toList ++ (s ++ "gittensory-agent-command-answer".toList), ?_⟩
  rw [List.append_assoc, List.append_assoc]
  rfl

section Marked

variable {q : Pattern} {seen l id : Text}

/-- A match at a place of an id is one of the id by itself. -/
theorem matches_in_id_iff (hq : anchorFree q = true) {s x n y post : Text} (hs : IsSpace s)
    (hl : ∃ front, l = front ++ [':']) :
    Matches q (before none (seen ++ (l ++ x))) n (y ++ (s ++ "-->".toList ++ post)) ↔
      Matches q (before none x) n y := by
  obtain ⟨front, rfl⟩ := hl
  have hleft : wordAt (before none (seen ++ ((front ++ [':']) ++ x))) = wordAt (before none x) := by
    rw [← List.append_assoc, before_append]
    refine wordAt_before_congr ?_ x
    rw [← List.append_assoc, before_append_singleton]
    rfl
  have hright : wordAt (y ++ (s ++ "-->".toList ++ post)).head? = wordAt y.head? := by
    nth_rewrite 2 [← List.append_nil y]
    refine wordAt_head_append_congr ?_ y
    cases hhead : (s ++ "-->".toList ++ post).head? with
    | none => rfl
    | some c => exact not_isWordChar_of_trail hs hhead
  exact ⟨fun h => h.congr_context hq hleft hright,
    fun h => h.congr_context hq hleft.symm hright.symm⟩

theorem not_space_before_id (hl : ∃ front, l = front ++ [':']) {x : Text}
    (hx : ∀ c ∈ x, idSet.accepts c = true) : before none (seen ++ (l ++ x)) ≠ some ' ' := by
  obtain ⟨front, rfl⟩ := hl
  intro hspace
  rcases List.eq_nil_or_concat x with rfl | ⟨x, c, rfl⟩
  · rw [List.append_nil, ← List.append_assoc, before_append_singleton] at hspace
    exact absurd hspace (by decide)
  · rw [List.concat_eq_append] at hspace hx
    rw [← List.append_assoc, ← List.append_assoc, before_append_singleton] at hspace
    have hc := hx c (List.mem_append_right _ (List.mem_singleton_self c))
    rw [Option.some.inj hspace] at hc
    exact absurd hc (by decide)

/-- What starts in an id ends in it. -/
theorem Unmarked.not_started_in_id (hq : Unmarked q) (hid : test q id = false)
    (hl : ∃ front, l = front ++ [':']) {s w x n post b : Text} (hs : IsSpace s)
    (hsplit : id = w ++ x) (hx : x ≠ []) (hmatch : Matches q (before none (seen ++ (l ++ w))) n post) :
    x ++ (s ++ "-->".toList ++ b) ≠ n ++ post := by
  intro htext
  have hn := ne_nil_of_matches hmatch hq.nonempty
  have hinside : ∀ y, x = n ++ y → post = y ++ (s ++ "-->".toList ++ b) → False := by
    rintro y rfl rfl
    have hfound := (test_iff q id).mpr ⟨w, n, y, hsplit,
      (matches_in_id_iff hq.anchorFree hs hl).mp hmatch⟩
    rw [hid] at hfound
    cases hfound
  rcases List.append_eq_append_iff.mp htext with ⟨y, rfl, hrest⟩ | ⟨y, hxy, hpost⟩
  · by_cases hy : y = []
    · exact hinside [] (by rw [hy, List.append_nil, List.append_nil])
        (by rw [hrest, hy, List.nil_append, List.nil_append])
    · have hspaces : ∀ z, s = y ++ z → False := by
        rintro z rfl
        obtain ⟨tail, htail, ⟨c, hlast, hc⟩, hleft⟩ :=
          exists_tail hmatch (List.append_nil _).symm hn
        have hmeets := hq.last tail htail (nullable_of_matches_nil hleft rfl)
        have hcy : c ∈ y := by
          rw [List.getLast?_append_of_ne_nil _ hy] at hlast
          exact List.mem_of_mem_getLast? hlast
        rw [meets_of_accepts hc (hs c (List.mem_append_left z hcy))] at hmeets
        cases hmeets
      rw [List.append_assoc] at hrest
      rcases List.append_eq_append_iff.mp hrest with ⟨z, rfl, hdashes⟩ | ⟨z, hz, -⟩
      · by_cases hz : z = []
        · exact hspaces [] (by rw [hz, List.append_nil, List.append_nil])
        · refine hq.dashes.not_inside hmatch (List.append_assoc x s z).symm
            (List.append_ne_nil_of_left_ne_nil hx s) hz (List.cons_ne_nil '-' ['-'])
            ((@matches_literal_iff none _ ('>' :: b) _).mpr rfl) ?_
          rw [← hdashes]
          rfl
      · exact hspaces z hz
  · exact hinside y hxy hpost

/-- Nothing that is searched for starts at a letter of a marker, if it is not in the id. -/
theorem Unmarked.not_started (hq : Unmarked q) {m u v n post b : Text}
    (hm : answerMarker.Spells m id) (hid : test q id = false) (hsplit : m = u ++ v) (hv : v ≠ [])
    (hmatch : Matches q (before none (seen ++ u)) n post) : v ++ b ≠ n ++ post := by
  intro htext
  have hn := ne_nil_of_matches hmatch hq.nonempty
  obtain ⟨l, r, rfl, hlead, hgroup, htrail⟩ := hm
  have hidne : id ≠ [] := List.ne_nil_of_length_pos
    (Nat.lt_of_lt_of_le (by decide) (matches_group_iff.mp hgroup).low)
  have hfront := front_of_lead hlead
  obtain ⟨c, n', hhead, hword⟩ := head_of_headed hq.headed hmatch
  obtain ⟨s, hs, rfl⟩ := matches_trail_iff.mp htrail
  -- No match starts in what closes the comment: no letter there is a word letter.
  have hclose : ∀ x, s ++ "-->".toList = x ++ v → False := by
    intro x hx
    obtain ⟨d, v, rfl⟩ := List.exists_cons_of_ne_nil hv
    rw [hhead, List.cons_append, List.cons_append] at htext
    obtain ⟨rfl, -⟩ := List.cons.inj htext
    have hspaceOr : d ∈ s ++ "-->".toList := by
      rw [hx]
      exact List.mem_append_right _ List.mem_cons_self
    rcases List.mem_append.mp hspaceOr with hd | hd
    · have hfalse := @not_isWordChar_of_trail [d] []
        (fun e he => hs e (by rwa [List.mem_singleton.mp he])) d rfl
      rw [hword] at hfalse
      cases hfalse
    · have hall : "-->".toList.all (fun e => !isWordChar e) = true := by decide
      have hnot := List.all_eq_true.mp hall d hd
      rw [hword] at hnot
      cases hnot
  rcases List.append_eq_append_iff.mp hsplit with ⟨w, rfl, hrest⟩ | ⟨w, hl, hw⟩
  · rcases List.append_eq_append_iff.mp hrest with ⟨x, hwx, hx⟩ | ⟨x, rfl, rfl⟩
    · exact hclose x hx
    · by_cases hx : x = []
      · exact hclose [] (by rw [hx, List.nil_append, List.nil_append])
      · rw [List.append_assoc] at htext
        exact hq.not_started_in_id hid hfront hs rfl hx hmatch htext
  · by_cases hwnil : w = []
    · rw [hwnil, List.append_nil] at hl
      rw [hw, hwnil, List.nil_append, List.append_assoc] at htext
      rw [← hl, ← List.append_nil l] at hmatch
      exact hq.not_started_in_id hid hfront hs (List.nil_append id).symm hidne hmatch htext
    · have hlead' := matches_of_plain hlead lawful_answerMarker.lead none
        (id ++ (s ++ "-->".toList) ++ b)
      rw [hw, List.append_assoc] at htext
      by_cases hu : u = []
      · rw [hu, List.nil_append] at hl
        obtain ⟨s', -, hopening⟩ := matches_lead_iff.mp hlead
        rw [← hl, hopening, hhead] at htext
        obtain ⟨rfl, -⟩ := List.cons.inj htext
        exact hmatch.not_mem_of_avoids hq.opening (by rw [hhead]; exact List.mem_cons_self)
      · exact hq.lead.not_inside hlead' hl hu hwnil hn hmatch htext

variable {free : Text → Text → Prop} {taken : Text → Text → Text → Prop} {word : String}
  {t t' : Text}

/-- A pattern whose matches are replaced, but for some that stand after a space. -/
structure Replaces (free : Text → Text → Prop) (taken : Text → Text → Text → Prop)
    (q : Pattern) : Prop where
  free : ∀ {seen m post}, free seen (m ++ post) → Matches q (before none seen) m post →
    before none seen = some ' '
  taken : ∀ {seen m post}, taken seen m post → Matches q (before none seen) m post

theorem captured_rewritten (hq : Unmarked q) (hreplaces : Replaces free taken q)
    (hword : word ∈ plantedWords) (h : Rewritten free taken word.toList seen t t') :
    (answerMarker.captured none t').toList =
      (answerMarker.captured none t).toList.filter fun id => !test q id := by
  have hlawful := lawful_answerMarker
  cases hafter : answerMarker.captured none t' with
  | some id =>
    obtain ⟨m, b', ht', hm⟩ := (captured_eq_some_iff hlawful).mp hafter
    have hsealed := (markers_separated.2 word hword).1
    have hnonempty : word.toList ≠ [] := by
      rcases List.mem_cons.mp hword with rfl | hword
      · decide
      · rw [List.mem_singleton.mp hword]
        decide
    obtain ⟨b, rfl, hplaces, -⟩ := h.kept_at ht' fun u v z hsplit hv =>
      entered_of_sealed hsealed hnonempty (matches_of_plain (matches_markerShape hm) rfl none b')
        hsplit hv
    have hbefore : answerMarker.captured none (m ++ b) = some id :=
      (captured_eq_some_iff hlawful).mpr ⟨m, b, rfl, hm⟩
    have hclean : test q id = false := by
      by_contra htest
      rw [Bool.not_eq_false, test_iff] at htest
      obtain ⟨x, n, y, rfl, hmatch⟩ := htest
      obtain ⟨l, r, rfl, hlead, hgroup, htrail⟩ := hm
      obtain ⟨s, hs, rfl⟩ := matches_trail_iff.mp htrail
      have hn := ne_nil_of_matches hmatch hq.nonempty
      have hplace := hplaces (l ++ x) (n ++ (y ++ (s ++ "-->".toList)))
        (by simp only [List.append_assoc]) (List.append_ne_nil_of_left_ne_nil hn _)
      rw [List.append_assoc, List.append_assoc] at hplace
      have hspace := hreplaces.free hplace
        ((matches_in_id_iff hq.anchorFree hs (front_of_lead hlead)).mpr hmatch)
      exact not_space_before_id (front_of_lead hlead)
        (fun c hc => (matches_group_iff.mp hgroup).letters c (List.mem_append_left _ hc)) hspace
    rw [hbefore, Option.toList_some, List.filter_cons_of_pos (by rw [hclean]; rfl), List.filter_nil]
  | none =>
    cases hbefore : answerMarker.captured none t with
    | none => rfl
    | some id =>
      cases hclean : test q id with
      | true =>
        rw [Option.toList_none, Option.toList_some, List.filter_cons_of_neg (by simp [hclean]),
          List.filter_nil]
      | false =>
        obtain ⟨m, b, ht, hm⟩ := (captured_eq_some_iff hlawful).mp hbefore
        obtain ⟨b', rfl, -⟩ := h.stays_at ht fun u v n post hsplit hv htaken =>
          hq.not_started hm hclean hsplit hv (hreplaces.taken htaken)
        rw [(captured_eq_some_iff hlawful).mpr ⟨m, b', rfl, hm⟩] at hafter
        cases hafter

theorem found_append_of_not_mem {a : Text} (ha : '<' ∉ a) (b : Text) :
    answerMarker.found (a ++ b) = answerMarker.found b := by
  induction a with
  | nil => rfl
  | cons c a ih =>
    rw [List.mem_cons, not_or] at ha
    have hnone : answerMarker.captured none (c :: (a ++ b)) = none := by
      rw [captured_eq_none_iff lawful_answerMarker]
      intro m post id htext hm
      obtain ⟨s, s', -, -, -, rfl⟩ := spells_answerMarker_iff.mp hm
      exact ha.1 (List.cons.inj htext).1.symm
    rw [List.cons_append, found_cons lawful_answerMarker, hnone, Option.toList_none,
      List.nil_append, ih ha.2]

/-- Replacing takes away the markers with a match in the id, and no other. -/
theorem found_rewritten (hq : Unmarked q) (hreplaces : Replaces free taken q)
    (hword : word ∈ plantedWords) (h : Rewritten free taken word.toList seen t t') :
    answerMarker.found t' = (answerMarker.found t).filter fun id => !test q id := by
  generalize hplanted : word.toList = planted at h
  induction h with
  | nil =>
    rw [found_nil lawful_answerMarker]
    rfl
  | @keep seen c rest rest' hfree hrest ih =>
    subst hplanted
    rw [found_cons lawful_answerMarker, found_cons lawful_answerMarker, List.filter_append,
      captured_rewritten hq hreplaces hword (Rewritten.keep hfree hrest), ih]
  | @plant seen m post post' htaken _ ih =>
    subst hplanted
    have hm := (hreplaces.taken htaken).not_mem_of_avoids hq.opening
    rw [found_append_of_not_mem (markers_separated.2 word hword).2, found_append_of_not_mem hm,
      ih]

end Marked

theorem replaces_of_free (q : Pattern) : Replaces (Free q) (Taken q) q where
  free hfree hmatch := absurd hmatch (hfree _ _ rfl)
  taken htaken := htaken.matches

theorem space_of_followsMention {seen : Text} (h : followsMention seen = true) :
    before none seen = some ' ' := by
  rw [followsMention, List.isSuffixOf_iff_suffix] at h
  obtain ⟨front, hfront⟩ := h
  have hlast := congrArg List.getLast? hfront
  rw [List.getLast?_append_of_ne_nil _ (by decide), List.getLast?_map] at hlast
  obtain ⟨c, hc, hlower⟩ := Option.map_eq_some_iff.mp (hlast.symm.trans (by decide +kernel :
    mention.getLast? = some ' '))
  have hspace : c = ' ' := by
    unfold Pattern.lowerOf at hlower
    split_ifs at hlower with hupper
    · have hcapital : ∀ n ≤ 90, 65 ≤ n → Char.ofNat (n + 32) ≠ ' ' := by decide
      exact absurd hlower (hcapital c.toNat hupper.2 hupper.1)
    · exact hlower
  rw [← hspace]
  refine before_of_getLast? ?_
  rw [List.getLast?_drop] at hc
  split_ifs at hc
  exact hc

theorem replaces_reviewability : Replaces FreeTerm TakenTerm reviewability where
  free hfree hmatch := space_of_followsMention (hfree _ _ rfl hmatch)
  taken htaken := htaken.1

/-- No private phrase is found in the id. -/
def kept (id : Text) : Bool := redactionPatterns.all fun q => !test q id

theorem found_replaceAll {q : Pattern} (hq : q ∈ redactionPatterns) {word : String}
    (hword : word ∈ plantedWords) (text : Text) :
    answerMarker.found (replaceAll q word.toList text) =
      (answerMarker.found text).filter fun id => !test q id :=
  found_rewritten (markers_separated.1 q hq) (replaces_of_free q) hword
    (rewritten_replaceAll (markers_separated.1 q hq).nonempty word.toList text)

/-- The markers of a redacted text are those of the text that hold nothing private. -/
theorem found_sanitizePublicComment (value : Text) :
    answerMarker.found (sanitizePublicComment value) =
      (answerMarker.found value).filter kept := by
  have hcontext : "private context" ∈ plantedWords := List.mem_cons_self
  have hfold : ∀ (list : List Pattern) (text : Text), (∀ q ∈ list, q ∈ redactionPatterns) →
      answerMarker.found (list.foldl (fun text q => replaceAll q privateContext text) text) =
        (answerMarker.found text).filter fun id => list.all fun q => !test q id := by
    intro list
    induction list with
    | nil => exact fun text _ => by simp
    | cons q list ih =>
      intro text hall
      obtain ⟨hq, hrest⟩ := List.forall_mem_cons.mp hall
      have hstep : answerMarker.found (replaceAll q privateContext text) =
          (answerMarker.found text).filter fun id => !test q id :=
        found_replaceAll hq hcontext text
      rw [List.foldl_cons, ih _ hrest, hstep, List.filter_filter]
      refine List.filter_congr fun id _ => ?_
      rw [List.all_cons, Bool.and_comm]
  have hphrases : ∀ q ∈ privatePhrases ++ [residualScores], q ∈ redactionPatterns := by
    intro q hq
    rw [redactionPatterns, List.append_cons]
    exact List.mem_append_left _ hq
  have hmem : ∀ q ∈ [likelyDuplicate, reviewability, placeholderList], q ∈ redactionPatterns := by
    intro q hq
    rw [redactionPatterns, List.append_cons]
    exact List.mem_append_right _ hq
  obtain ⟨hduplicate, hterm, hlists⟩ :
      likelyDuplicate ∈ redactionPatterns ∧ reviewability ∈ redactionPatterns ∧
        placeholderList ∈ redactionPatterns :=
    ⟨hmem _ (by simp), hmem _ (by simp), hmem _ (by simp)⟩
  have hpasses := hfold (privatePhrases ++ [residualScores]) value hphrases
  have hnote := @found_replaceAll _ hduplicate "possible overlap with existing work"
    (List.mem_cons_of_mem _ (List.mem_singleton_self _))
    ((privatePhrases ++ [residualScores]).foldl (fun text q => replaceAll q privateContext text)
      value)
  have hreviewability := found_rewritten (markers_separated.1 _ hterm) replaces_reviewability
    hcontext (rewritten_sanitizeReviewabilityTerm (redactPhrases value))
  have hlist := found_replaceAll hlists hcontext (sanitizeReviewabilityTerm (redactPhrases value))
  have hredacted : answerMarker.found (redactPhrases value) = _ := hnote
  have hall : answerMarker.found (sanitizePublicComment value) = _ := hlist
  rw [hall, hreviewability, hredacted, hpasses, List.filter_filter, List.filter_filter,
    List.filter_filter]
  refine List.filter_congr fun id _ => ?_
  simp only [kept, redactionPatterns, List.all_append, List.all_cons, List.all_nil, Bool.and_true]
  ac_rfl

end Gittensory.FeedbackMarker
