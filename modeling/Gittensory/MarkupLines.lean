import Gittensory.CodeUnits

/-!
Quoted markup: the lines of a text as Markdown parts them, the carriage returns that part a
line on their own, and texts whose angle brackets are those of given tags. A text that is
quoted line feed by line feed is quoted in each of its lines exactly when it has no carriage
return alone.
-/
namespace Gittensory.MarkupLines

open CodeUnits

def carriageReturn : ℕ := 13

def lessThan : ℕ := 60

def greaterThan : ℕ := 62

/-! ## Lines -/

section Lines

/-- The lines of a text that ends its lines with a line feed, a carriage return, or both. -/
def markdownLines : Units → List Units
  | [] => [[]]
  | unit :: rest =>
      if unit = newline then [] :: markdownLines rest
      else if unit = carriageReturn ∧ rest.head? ≠ some newline then [] :: markdownLines rest
      else if unit = carriageReturn then markdownLines rest
      else (markdownLines rest).modifyHead (unit :: ·)

/-- Some carriage return is not followed by a line feed; `next` is what follows the text. -/
def loneReturn (next : Option ℕ) : Units → Bool
  | [] => false
  | unit :: rest =>
      (unit = carriageReturn && (rest.head?.or next) ≠ some newline) || loneReturn next rest

theorem loneReturn_append (next : Option ℕ) (left right : Units) :
    loneReturn next (left ++ right) =
      (loneReturn (right.head?.or next) left || loneReturn next right) := by
  induction left with
  | nil => rfl
  | cons unit rest ih =>
    rw [List.cons_append, loneReturn, loneReturn, ih, List.head?_append, Option.or_assoc,
      Bool.or_assoc]

theorem loneReturn_of_not_mem {text : Units} (h : carriageReturn ∉ text) (next : Option ℕ) :
    loneReturn next text = false := by
  induction text with
  | nil => rfl
  | cons unit rest ih =>
    rw [List.mem_cons, not_or] at h
    rw [loneReturn, ih h.2, decide_eq_false (Ne.symm h.1), Bool.false_and, Bool.false_or]

/-- What follows a text counts only behind a carriage return at its end. -/
theorem loneReturn_of_last {text : Units} (h : text.getLast? ≠ some carriageReturn)
    (next : Option ℕ) : loneReturn next text = loneReturn none text := by
  induction text with
  | nil => rfl
  | cons unit rest ih =>
    rw [loneReturn.eq_2, loneReturn.eq_2]
    cases rest with
    | nil =>
      have hunit : ¬unit = carriageReturn := fun heq => h (by rw [heq]; rfl)
      rw [decide_eq_false hunit, Bool.false_and, Bool.false_and]
      rfl
    | cons first more =>
      rw [List.getLast?_cons_cons] at h
      rw [ih h]
      rfl

/-- Only a line feed behind a text makes a difference. -/
theorem loneReturn_some {unit : ℕ} (hunit : unit ≠ newline) (text : Units) :
    loneReturn (some unit) text = loneReturn none text := by
  induction text with
  | nil => rfl
  | cons first rest ih =>
    rw [loneReturn.eq_2, loneReturn.eq_2, ih]
    cases rest with
    | nil =>
      have hsome : some unit ≠ some newline := fun heq => hunit (Option.some.inj heq)
      have hnone : (none : Option ℕ) ≠ some newline := by decide
      rw [List.head?_nil, Option.none_or, Option.none_or, decide_eq_true hsome,
        decide_eq_true hnone]
    | cons second more => rfl

theorem loneReturn_trim (next : Option ℕ) (text : Units) :
    loneReturn next (trim text) = loneReturn none (trim text) :=
  loneReturn_of_last (fun hlast => absurd (getLast?_trim hlast) (by decide)) next

theorem loneReturn_cons {unit : ℕ} (hunit : unit ≠ carriageReturn) (next : Option ℕ)
    (rest : Units) : loneReturn next (unit :: rest) = loneReturn next rest := by
  rw [loneReturn, decide_eq_false hunit, Bool.false_and, Bool.false_or]

/-- Rows of a text count one by one, each but the last before a line feed. -/
theorem loneReturn_intercalate {separator : Units} (hfeed : separator.head? = some newline)
    (hreturn : carriageReturn ∉ separator) (next : Option ℕ) (rows : List Units) (last : Units) :
    loneReturn next (separator.intercalate (rows ++ [last])) =
      (rows.any (loneReturn (some newline)) || loneReturn next last) := by
  induction rows with
  | nil => rw [List.nil_append, List.intercalate_singleton, List.any_nil, Bool.false_or]
  | cons row rest ih =>
    rw [List.cons_append, List.intercalate_cons_of_ne_nil (by simp), loneReturn_append,
      loneReturn_append, ih, List.any_cons, hfeed, loneReturn_of_not_mem hreturn, Option.some_or,
      Bool.or_false, Bool.or_assoc]

/-- Before a line feed, all rows count alike. -/
theorem loneReturn_rows (rows : List Units) :
    loneReturn (some newline) ([newline].intercalate rows) =
      rows.any (loneReturn (some newline)) := by
  rcases List.eq_nil_or_concat rows with rfl | ⟨rest, last, rfl⟩
  · rfl
  · rw [List.concat_eq_append, loneReturn_intercalate rfl (by decide),
      List.any_append, List.any_cons, List.any_nil, Bool.or_false]

/-- Texts that do not end in a carriage return count one by one, whatever joins them. -/
theorem loneReturn_joined {separator : Units} (hreturn : carriageReturn ∉ separator)
    {rows : List Units} (h : ∀ row ∈ rows, row.getLast? ≠ some carriageReturn)
    (next : Option ℕ) :
    loneReturn next (separator.intercalate rows) = rows.any (loneReturn none) := by
  induction rows with
  | nil => rfl
  | cons row rest ih =>
    obtain ⟨hrow, hrest⟩ := List.forall_mem_cons.mp h
    cases rest with
    | nil =>
      rw [List.intercalate_singleton, loneReturn_of_last hrow, List.any_cons, List.any_nil,
        Bool.or_false]
    | cons second more =>
      rw [List.intercalate_cons_cons, loneReturn_append, loneReturn_append, ih hrest,
        loneReturn_of_not_mem hreturn, loneReturn_of_last hrow, Bool.or_false]
      rfl

/-- A text between others without a carriage return, the one behind it not with a line feed. -/
theorem loneReturn_enclosed {before behind : Units} (hbefore : carriageReturn ∉ before)
    (hbehind : carriageReturn ∉ behind) {unit : ℕ} (hhead : behind.head? = some unit)
    (hunit : unit ≠ newline) (next : Option ℕ) (text : Units) :
    loneReturn next (before ++ (text ++ behind)) = loneReturn none text := by
  rw [loneReturn_append, loneReturn_append, hhead, Option.some_or, loneReturn_some hunit,
    loneReturn_of_not_mem hbefore, loneReturn_of_not_mem hbehind, Bool.false_or, Bool.or_false]

theorem loneReturn_behind {before : Units} (hbefore : carriageReturn ∉ before) (next : Option ℕ)
    (text : Units) : loneReturn next (before ++ text) = loneReturn next text := by
  rw [loneReturn_append, loneReturn_of_not_mem hbefore, Bool.false_or]

end Lines

/-! ## Quoted lines -/

section Quoted

/-- After a line feed stands the sign of a quote, and after a carriage return alone it does not. -/
def Guarded : Units → Prop
  | [] => True
  | unit :: rest =>
      (unit = newline → rest.head? = some greaterThan) ∧
        (unit = carriageReturn → rest.head? ≠ some greaterThan) ∧ Guarded rest

theorem markdownLines_ne_nil (text : Units) : markdownLines text ≠ [] := by
  induction text with
  | nil => exact List.cons_ne_nil _ _
  | cons unit rest ih =>
    unfold markdownLines
    split_ifs
    · exact List.cons_ne_nil _ _
    · exact List.cons_ne_nil _ _
    · exact ih
    · rwa [Ne, List.modifyHead_eq_nil_iff]

def IsQuoted (line : Units) : Prop := line.head? = some greaterThan

theorem not_isQuoted_nil : ¬IsQuoted [] := fun h => by cases h

/-- The first line starts as the text does. -/
theorem isQuoted_head_iff {text : Units} {first : Units} {rest : List Units}
    (h : markdownLines text = first :: rest) :
    IsQuoted first ↔ text.head? = some greaterThan := by
  cases text with
  | nil =>
    obtain rfl := (List.cons.inj h).1
    exact Iff.rfl
  | cons unit more =>
    unfold markdownLines at h
    have hbreak : unit = newline ∨ unit = carriageReturn → unit ≠ greaterThan := by
      rintro (rfl | rfl) <;> decide
    split_ifs at h with hfeed hlone hreturn
    · obtain rfl := (List.cons.inj h).1
      exact iff_of_false not_isQuoted_nil
        fun heq => hbreak (Or.inl hfeed) (Option.some.inj heq)
    · obtain rfl := (List.cons.inj h).1
      exact iff_of_false not_isQuoted_nil
        fun heq => hbreak (Or.inr hlone.1) (Option.some.inj heq)
    · have hmore : more.head? = some newline := by
        by_contra hnot
        exact hlone ⟨hreturn, hnot⟩
      cases more with
      | nil => cases hmore
      | cons next more =>
        obtain rfl : next = newline := Option.some.inj hmore
        rw [markdownLines, if_pos rfl] at h
        obtain rfl := (List.cons.inj h).1
        exact iff_of_false not_isQuoted_nil
          fun heq => hbreak (Or.inr hreturn) (Option.some.inj heq)
    · cases hlines : markdownLines more with
      | nil => exact absurd hlines (markdownLines_ne_nil more)
      | cons line lines =>
        rw [hlines, List.modifyHead_cons] at h
        obtain rfl := (List.cons.inj h).1
        exact Iff.rfl

/-- All lines behind the first are quoted exactly when no carriage return parts one. -/
theorem tail_quoted_iff {text : Units} (h : Guarded text) :
    (∀ line ∈ (markdownLines text).tail, IsQuoted line) ↔ loneReturn none text = false := by
  induction text with
  | nil => exact iff_of_true (fun line hline => absurd hline List.not_mem_nil) rfl
  | cons unit rest ih =>
    obtain ⟨hfeed, hreturn, hrest⟩ := h
    obtain ⟨first, lines, hlines⟩ := List.exists_cons_of_ne_nil (markdownLines_ne_nil rest)
    have hfirst := isQuoted_head_iff hlines
    have hih := ih hrest
    rw [hlines, List.tail_cons] at hih
    have hall : (∀ line ∈ markdownLines rest, IsQuoted line) ↔
        rest.head? = some greaterThan ∧ loneReturn none rest = false := by
      rw [hlines, List.forall_mem_cons, hfirst, hih]
    unfold markdownLines
    by_cases hnewline : unit = newline
    · have hne : unit ≠ carriageReturn := by
        rw [hnewline]
        decide
      rw [if_pos hnewline, List.tail_cons, hall, loneReturn_cons hne,
        and_iff_right (hfeed hnewline)]
    · rw [if_neg hnewline]
      by_cases hcarriage : unit = carriageReturn
      · by_cases hnext : rest.head? = some newline
        · have hpair : ¬(unit = carriageReturn ∧ rest.head? ≠ some newline) := fun h => h.2 hnext
          rw [if_neg hpair, if_pos hcarriage, hlines, List.tail_cons, hih, loneReturn,
            Option.or_none,
            decide_eq_false (not_not.mpr hnext), Bool.and_false, Bool.false_or]
        · rw [if_pos ⟨hcarriage, hnext⟩, List.tail_cons, hall, loneReturn, Option.or_none,
            decide_eq_true hcarriage, decide_eq_true hnext]
          exact iff_of_false (fun h => hreturn hcarriage h.1) Bool.true_eq_false.mp
      · rw [if_neg fun h => hcarriage h.1, if_neg hcarriage, hlines, List.modifyHead_cons,
          List.tail_cons, hih, loneReturn_cons hcarriage]

/-- Every line of a guarded text is quoted exactly when no carriage return stands alone in it. -/
theorem all_quoted_iff {text : Units} (h : Guarded text) (hhead : text.head? = some greaterThan) :
    (∀ line ∈ markdownLines text, IsQuoted line) ↔ loneReturn none text = false := by
  obtain ⟨first, lines, hlines⟩ := List.exists_cons_of_ne_nil (markdownLines_ne_nil text)
  rw [← tail_quoted_iff h, hlines, List.forall_mem_cons, List.tail_cons,
    and_iff_right ((isQuoted_head_iff hlines).mpr hhead)]

end Quoted

/-! ## Tags -/

section Tags

/-- Tags and their texts: an angle bracket, letters, and an angle bracket. -/
structure TagTexts (Tag : Type*) where
  text : Tag → Units
  head : ∀ tag, (text tag).head? = some lessThan
  breakless : ∀ tag, newline ∉ text tag ∧ carriageReturn ∉ text tag

variable {Tag : Type*} {texts : TagTexts Tag}

/-- A text with the given tags in their order, and no other angle bracket. -/
inductive Tagged (texts : TagTexts Tag) : Units → List Tag → Prop
  | nil : Tagged texts [] []
  | unit {unit : ℕ} {rest : Units} {tags : List Tag} : unit ≠ lessThan → unit ≠ greaterThan →
      Tagged texts rest tags → Tagged texts (unit :: rest) tags
  | tag {rest : Units} {tags : List Tag} (tag : Tag) : Tagged texts rest tags →
      Tagged texts (texts.text tag ++ rest) (tag :: tags)

theorem Tagged.append {left right : Units} {leftTags rightTags : List Tag}
    (hleft : Tagged texts left leftTags) (hright : Tagged texts right rightTags) :
    Tagged texts (left ++ right) (leftTags ++ rightTags) := by
  induction hleft with
  | nil => exact hright
  | unit hless hgreater _ ih => exact Tagged.unit hless hgreater ih
  | tag tag _ ih =>
    rw [List.append_assoc]
    exact Tagged.tag tag ih

/-- Without an angle bracket. -/
def Plain (text : Units) : Prop := ∀ unit ∈ text, unit ≠ lessThan ∧ unit ≠ greaterThan

instance decidablePlain (text : Units) : Decidable (Plain text) :=
  inferInstanceAs (Decidable (∀ unit ∈ text, _ ∧ _))

theorem Plain.append {left right : Units} (hleft : Plain left) (hright : Plain right) :
    Plain (left ++ right) := fun unit hunit =>
  (List.mem_append.mp hunit).elim (hleft unit) (hright unit)

theorem Plain.intercalate {separator : Units} {rows : List Units} (hseparator : Plain separator)
    (hrows : ∀ row ∈ rows, Plain row) : Plain (separator.intercalate rows) := fun unit hunit => by
  rcases mem_intercalate hunit with hmem | ⟨row, hrow, hmem⟩
  · exact hseparator unit hmem
  · exact hrows row hrow unit hmem

theorem Plain.tagged {text : Units} (h : Plain text) : Tagged texts text [] := by
  induction text with
  | nil => exact Tagged.nil
  | cons unit rest ih =>
    obtain ⟨⟨hless, hgreater⟩, hrest⟩ := List.forall_mem_cons.mp h
    exact Tagged.unit hless hgreater (ih hrest)

theorem Tagged.of_tag (tag : Tag) : Tagged texts (texts.text tag) [tag] := by
  have h : Tagged texts (texts.text tag ++ []) [tag] := Tagged.tag tag Tagged.nil
  rwa [List.append_nil] at h

/-- Rows with their tags one after the other. -/
inductive RowsTagged (texts : TagTexts Tag) : List Units → List Tag → Prop
  | nil : RowsTagged texts [] []
  | cons {row : Units} {rows : List Units} {rowTags tags : List Tag} : Tagged texts row rowTags →
      RowsTagged texts rows tags → RowsTagged texts (row :: rows) (rowTags ++ tags)

theorem RowsTagged.of_tagged {row : Units} {tags : List Tag} (h : Tagged texts row tags) :
    RowsTagged texts [row] tags := by
  have hrow := RowsTagged.cons h RowsTagged.nil
  rwa [List.append_nil] at hrow

theorem RowsTagged.of_plain {rows : List Units} (h : ∀ row ∈ rows, Plain row) :
    RowsTagged texts rows [] := by
  induction rows with
  | nil => exact RowsTagged.nil
  | cons row rest ih =>
    obtain ⟨hrow, hrest⟩ := List.forall_mem_cons.mp h
    exact RowsTagged.cons hrow.tagged (ih hrest)

theorem RowsTagged.append {left right : List Units} {leftTags rightTags : List Tag}
    (hleft : RowsTagged texts left leftTags) (hright : RowsTagged texts right rightTags) :
    RowsTagged texts (left ++ right) (leftTags ++ rightTags) := by
  induction hleft with
  | nil => exact hright
  | cons hrow _ ih =>
    rw [List.append_assoc]
    exact RowsTagged.cons hrow ih

theorem RowsTagged.map {change : Units → Units}
    (hchange : ∀ row rowTags, Tagged texts row rowTags → Tagged texts (change row) rowTags)
    {rows : List Units} {tags : List Tag} (h : RowsTagged texts rows tags) :
    RowsTagged texts (rows.map change) tags := by
  induction h with
  | nil => exact RowsTagged.nil
  | cons hrow _ ih => exact RowsTagged.cons (hchange _ _ hrow) ih

theorem RowsTagged.mem {rows : List Units} {tags : List Tag} (h : RowsTagged texts rows tags)
    {row : Units} (hrow : row ∈ rows) : ∃ rowTags, Tagged texts row rowTags := by
  induction h with
  | nil => exact absurd hrow List.not_mem_nil
  | cons hfirst _ ih =>
    rcases List.mem_cons.mp hrow with rfl | hmem
    · exact ⟨_, hfirst⟩
    · exact ih hmem

/-- Rows that are joined by plain text keep their tags. -/
theorem RowsTagged.intercalate {separator : Units} (hseparator : Plain separator)
    {rows : List Units} {tags : List Tag} (h : RowsTagged texts rows tags) :
    Tagged texts (separator.intercalate rows) tags := by
  induction h with
  | nil => exact Tagged.nil
  | @cons row rows rowTags tags hrow hrows ih =>
    cases rows with
    | nil =>
      cases hrows
      rw [List.intercalate_singleton, List.append_nil]
      exact hrow
    | cons next more =>
      have hjoined := (hrow.append hseparator.tagged).append ih
      rw [List.append_nil] at hjoined
      rwa [List.intercalate_cons_cons]

theorem Tagged.head? {text : Units} {tags : List Tag} (h : Tagged texts text tags) :
    text.head? ≠ some greaterThan := by
  cases h with
  | nil => exact fun heq => by cases heq
  | unit hless hgreater => exact fun heq => hgreater (Option.some.inj heq)
  | tag tag =>
    rw [List.head?_append, texts.head, Option.some_or]
    decide

end Tags

/-! ## Quoting -/

section Quoting

variable {Tag : Type*} {texts : TagTexts Tag}

theorem not_mem_of_mem_splitOn {text row : Units} {unit : ℕ} (h : row ∈ text.splitOn unit) :
    unit ∉ row := by
  induction text generalizing row with
  | nil =>
    rw [List.splitOn_nil] at h
    rw [List.mem_singleton.mp h]
    exact List.not_mem_nil
  | cons first rest ih =>
    rw [List.splitOn_cons_eq_if_modifyHead] at h
    obtain ⟨line, lines, hlines⟩ := List.exists_cons_of_ne_nil (List.splitOn_ne_nil unit rest)
    rw [hlines] at h ih
    split_ifs at h with heq
    · rcases List.mem_cons.mp h with rfl | hmem
      · exact List.not_mem_nil
      · exact ih hmem
    · rw [List.modifyHead_cons] at h
      rcases List.mem_cons.mp h with rfl | hmem
      · rw [List.mem_cons, not_or]
        exact ⟨fun hunit => heq (by rw [hunit, beq_self_eq_true]), ih (List.mem_cons_self ..)⟩
      · exact ih (List.mem_cons_of_mem _ hmem)

theorem splitOn_append_of_not_mem {lead : Units} (h : newline ∉ lead) (rest : Units) :
    (lead ++ rest).splitOn newline = (rest.splitOn newline).modifyHead (lead ++ ·) := by
  induction lead with
  | nil =>
    rw [List.nil_append]
    cases rest.splitOn newline <;> rfl
  | cons unit lead ih =>
    rw [List.mem_cons, not_or] at h
    rw [List.cons_append, List.splitOn_cons_eq_if_modifyHead,
      if_neg (by simpa using Ne.symm h.1), ih h.2]
    cases rest.splitOn newline <;> rfl

/-- The rows of a tagged text have its tags one after the other. -/
theorem Tagged.rows {text : Units} {tags : List Tag} (h : Tagged texts text tags) :
    RowsTagged texts (text.splitOn newline) tags := by
  -- what stands in front of the first row without a line feed
  have hlead : ∀ {lead rest : Units} {leadTags restTags : List Tag}, newline ∉ lead →
      (∀ row rowTags, Tagged texts row rowTags →
        Tagged texts (lead ++ row) (leadTags ++ rowTags)) →
      RowsTagged texts (rest.splitOn newline) restTags →
      RowsTagged texts ((lead ++ rest).splitOn newline) (leadTags ++ restTags) := by
    intro lead rest leadTags restTags hfeed hjoin hrest
    have hne := List.splitOn_ne_nil newline rest
    rw [splitOn_append_of_not_mem hfeed]
    generalize rest.splitOn newline = rows at hrest hne ⊢
    cases hrest with
    | nil => exact absurd rfl hne
    | cons hfirst hmore =>
      rw [List.modifyHead_cons, ← List.append_assoc]
      exact RowsTagged.cons (hjoin _ _ hfirst) hmore
  induction h with
  | nil => exact RowsTagged.cons Tagged.nil RowsTagged.nil
  | @unit unit rest tags hless hgreater _ ih =>
    by_cases hfeed : unit = newline
    · rw [hfeed, List.splitOn_cons_eq_if_modifyHead, if_pos (beq_self_eq_true _)]
      exact RowsTagged.cons Tagged.nil ih
    · exact @hlead [unit] rest [] tags (fun hmem => hfeed (List.mem_singleton.mp hmem).symm)
        (fun row rowTags hrow => Tagged.unit hless hgreater hrow) ih
  | @tag rest tags tag _ ih =>
    exact @hlead (texts.text tag) rest [tag] tags (texts.breakless tag).1
      (fun row rowTags hrow => Tagged.tag tag hrow) ih

theorem guarded_append {lead : Units} (hfeed : newline ∉ lead) (hreturn : carriageReturn ∉ lead)
    {behind : Units} (h : Guarded behind) : Guarded (lead ++ behind) := by
  induction lead with
  | nil => exact h
  | cons unit rest ih =>
    rw [List.mem_cons, not_or] at hfeed hreturn
    exact ⟨fun heq => absurd heq.symm hfeed.1, fun heq => absurd heq.symm hreturn.1,
      ih hfeed.2 hreturn.2⟩

/-- No carriage return stands before the sign of a quote in a row with tags. -/
theorem Tagged.guarded_append {row : Units} {tags : List Tag} (h : Tagged texts row tags)
    (hfeed : newline ∉ row) {behind : Units} (hbehind : Guarded behind)
    (hhead : behind.head? ≠ some greaterThan) : Guarded (row ++ behind) := by
  induction h with
  | nil => exact hbehind
  | @unit unit rest tags hless hgreater hrest ih =>
    rw [List.mem_cons, not_or] at hfeed
    refine ⟨fun heq => absurd heq.symm hfeed.1, fun _ => ?_, ih hfeed.2⟩
    change (rest ++ behind).head? ≠ some greaterThan
    rw [List.head?_append]
    intro heq
    rcases Option.or_eq_some_iff.mp heq with hsome | ⟨-, hsome⟩
    · exact hrest.head? hsome
    · exact hhead hsome
  | tag tag _ ih =>
    rw [List.mem_append, not_or] at hfeed
    rw [List.append_assoc]
    exact MarkupLines.guarded_append (texts.breakless tag).1 (texts.breakless tag).2 (ih hfeed.2)

/-- Rows behind the sign of a quote. -/
def quoteRows (rows : List Units) : Units := [newline].intercalate (rows.map (greaterThan :: ·))

theorem guarded_quoteRows {rows : List Units}
    (h : ∀ row ∈ rows, newline ∉ row ∧ ∃ tags, Tagged texts row tags) :
    Guarded (quoteRows rows) := by
  unfold quoteRows
  induction rows with
  | nil => trivial
  | cons row rest ih =>
    obtain ⟨⟨hfeed, tags, htagged⟩, hrest⟩ := List.forall_mem_cons.mp h
    have hsign : ∀ {text : Units}, Guarded text → Guarded (greaterThan :: text) := fun htext =>
      ⟨fun heq => absurd heq (by decide), fun heq => absurd heq (by decide), htext⟩
    cases rest with
    | nil =>
      have hrow : Guarded (row ++ []) :=
        htagged.guarded_append hfeed trivial fun heq => by cases heq
      rw [List.append_nil] at hrow
      rw [List.map_singleton, List.intercalate_singleton]
      exact hsign hrow
    | cons next more =>
      have hbreak : Guarded (newline ::
          [newline].intercalate ((next :: more).map (greaterThan :: ·))) := by
        refine ⟨fun _ => ?_, fun heq => absurd heq (by decide), ih hrest⟩
        rw [List.map_cons]
        cases more <;> rfl
      rw [List.map_cons, List.intercalate_cons_of_ne_nil (by simp), List.append_assoc]
      exact hsign (htagged.guarded_append hfeed hbreak fun heq =>
        absurd (Option.some.inj heq) (by decide))

theorem loneReturn_map (next : Option ℕ) {change : Units → Units}
    (h : ∀ next row, loneReturn next (change row) = loneReturn next row) (rows : List Units) :
    loneReturn next ([newline].intercalate (rows.map change)) =
      loneReturn next ([newline].intercalate rows) := by
  rcases List.eq_nil_or_concat rows with rfl | ⟨rest, last, rfl⟩
  · rfl
  · rw [List.concat_eq_append, List.map_append, List.map_singleton,
      loneReturn_intercalate rfl (by decide), loneReturn_intercalate rfl (by decide), List.any_map,
      h]
    congr 2
    funext row
    exact h _ row

theorem loneReturn_quoteRows (rows : List Units) :
    loneReturn none (quoteRows rows) = loneReturn none ([newline].intercalate rows) :=
  loneReturn_map none (fun next row => loneReturn_cons (by decide) next row) rows

end Quoting

end Gittensory.MarkupLines
