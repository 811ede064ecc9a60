import Gittensory.DriftExplanation

/-!
The canonical text of a JSON value stands for the value up to the order of object members
(`upstream/ruleset.ts`, `stableStringify`). One text gives back a value's parts one by one,
an object's members in some order; and members that are only reordered are sorted alike,
since no two of them have one key.
-/
namespace Gittensory.CanonicalEquality

open CanonicalText CodeUnits DriftExplanation JsValue JsonRecord UpstreamFetch UpstreamRuleset
  UpstreamSources

/-! ## Values up to the order of members -/

mutual

/-- Equal up to the order of object members, at every level. -/
inductive Alike : JsonValue → JsonValue → Prop
  | null : Alike .null .null
  | bool (value : Bool) : Alike (.bool value) (.bool value)
  | number (value : JsNumber) : Alike (.number value) (.number value)
  | string (text : Units) : Alike (.string text) (.string text)
  | array {items items' : List JsonValue} (h : AlikeItems items items') :
      Alike (.array items) (.array items')
  | object {fields ordered fields' : Record} (hperm : fields.Perm ordered)
      (h : AlikeFields ordered fields') : Alike (.object fields) (.object fields')

inductive AlikeItems : List JsonValue → List JsonValue → Prop
  | nil : AlikeItems [] []
  | cons {item item' : JsonValue} {rest rest' : List JsonValue} (h : Alike item item')
      (hrest : AlikeItems rest rest') : AlikeItems (item :: rest) (item' :: rest')

inductive AlikeFields : Record → Record → Prop
  | nil : AlikeFields [] []
  | cons {key : String} {value value' : JsonValue} {rest rest' : Record}
      (h : Alike value value') (hrest : AlikeFields rest rest') :
      AlikeFields ((key, value) :: rest) ((key, value') :: rest')

end

mutual

/-- What JSON can be read as: finite numbers, and objects with one member a key. -/
def IsJson : JsonValue → Prop
  | .number value => ∃ finite, value = .finite finite
  | .array items => AreJson items
  | .object fields => (fields.map Prod.fst).Nodup ∧ MembersAreJson fields
  | _ => True

def AreJson : List JsonValue → Prop
  | [] => True
  | item :: rest => IsJson item ∧ AreJson rest

def MembersAreJson : Record → Prop
  | [] => True
  | (_, value) :: rest => IsJson value ∧ MembersAreJson rest

end

/-- A total order in which only equal texts compare as equal. -/
structure TotalOrder (compare : Units → Units → Ordering) : Prop where
  eq_iff : ∀ left right, compare left right = .eq ↔ left = right
  swap : ∀ left right, compare right left = (compare left right).swap
  trans : ∀ left middle right, compare left middle ≠ .gt → compare middle right ≠ .gt →
    compare left right ≠ .gt

variable {platform : Platform}

/-! ## From values to texts -/

section Texts

/-- The keys of members in an order, behind their texts. -/
def KeyLe (platform : Platform) (left right : String × Units) : Prop :=
  platform.localeCompare (units left.1) (units right.1) ≠ .gt

instance : DecidableRel (KeyLe platform) := fun left right =>
  inferInstanceAs (Decidable (platform.localeCompare (units left.1) (units right.1) ≠ .gt))

theorem pairwise_sortedFields (horder : TotalOrder platform.localeCompare) (fields : Record) :
    (sortedFields platform fields).Pairwise (KeyLe platform) := by
  have htotal : Std.Total (KeyLe platform) := ⟨fun left right => by
    unfold KeyLe
    rw [horder.swap (units left.1) (units right.1)]
    cases platform.localeCompare (units left.1) (units right.1) <;> decide⟩
  have htrans : IsTrans _ (KeyLe platform) := ⟨fun _ _ _ h h' => horder.trans _ _ _ h h'⟩
  exact List.pairwise_insertionSort (KeyLe platform) _

/-- Two members of one list that are in both orders are the same. -/
theorem eq_of_keyLe (horder : TotalOrder platform.localeCompare) {members : List (String × Units)}
    (hkeys : (members.map Prod.fst).Nodup) {left right : String × Units} (hleft : left ∈ members)
    (hright : right ∈ members) (h : KeyLe platform left right) (h' : KeyLe platform right left) :
    left = right := by
  have hsame : platform.localeCompare (units left.1) (units right.1) = .eq := by
    unfold KeyLe at h h'
    rw [horder.swap (units left.1) (units right.1)] at h'
    cases hcompare : platform.localeCompare (units left.1) (units right.1) <;>
      simp_all [Ordering.swap]
  exact List.inj_on_of_nodup_map hkeys hleft hright (units_inj ((horder.eq_iff _ _).mp hsame))

/-- Reordered members are sorted alike. -/
theorem sortedFields_of_perm (horder : TotalOrder platform.localeCompare) {fields fields' : Record}
    (hkeys : (fields.map Prod.fst).Nodup)
    (h : (stringifyFields platform fields).Perm (stringifyFields platform fields')) :
    sortedFields platform fields = sortedFields platform fields' := by
  have hperm : (sortedFields platform fields).Perm (sortedFields platform fields') :=
    (perm_sortedFields fields).trans (h.trans (perm_sortedFields fields').symm)
  have hnodup : ((stringifyFields platform fields).map Prod.fst).Nodup := by
    rwa [stringifyFields_eq, List.map_map]
  refine hperm.eq_of_pairwise (fun left right hleft hright => eq_of_keyLe horder hnodup ?_ ?_)
    (pairwise_sortedFields horder fields) (pairwise_sortedFields horder fields')
  · exact (perm_sortedFields fields).subset hleft
  · exact h.symm.subset ((perm_sortedFields fields').subset hright)

theorem membersAreJson_iff {fields : Record} :
    MembersAreJson fields ↔ ∀ field ∈ fields, IsJson field.2 := by
  induction fields with
  | nil => exact iff_of_true trivial fun _ h => absurd h List.not_mem_nil
  | cons field rest ih => rw [MembersAreJson, List.forall_mem_cons, ih]

theorem membersAreJson_perm {fields ordered : Record} (h : fields.Perm ordered) :
    MembersAreJson fields ↔ MembersAreJson ordered := by
  rw [membersAreJson_iff, membersAreJson_iff]
  exact forall_congr' fun field => imp_congr_left h.mem_iff

theorem perm_stringifyFields {fields ordered : Record} (h : fields.Perm ordered) :
    (stringifyFields platform fields).Perm (stringifyFields platform ordered) := by
  rw [stringifyFields_eq, stringifyFields_eq]
  exact h.map _

mutual

theorem text_of_alike (horder : TotalOrder platform.localeCompare) :
    ∀ {x y : JsonValue}, Alike x y → IsJson x →
      stableStringify platform x = stableStringify platform y
  | _, _, .null, _ => rfl
  | _, _, .bool _, _ => rfl
  | _, _, .number _, _ => rfl
  | _, _, .string _, _ => rfl
  | _, _, .array h, hjson => by
      rw [stableStringify_array, stableStringify_array, texts_of_alike horder h hjson]
  | _, _, .object hperm h, hjson => by
      have hmembers := members_of_alike horder h ((membersAreJson_perm hperm).mp hjson.2)
      have hsorted := sortedFields_of_perm horder hjson.1
        ((perm_stringifyFields hperm).trans (List.Perm.of_eq hmembers))
      rw [stableStringify_object, stableStringify_object, hsorted]

theorem texts_of_alike (horder : TotalOrder platform.localeCompare) :
    ∀ {items items' : List JsonValue}, AlikeItems items items' → AreJson items →
      stringifyItems platform items = stringifyItems platform items'
  | _, _, .nil, _ => rfl
  | _, _, .cons h hrest, hjson => by
      rw [stringifyItems, stringifyItems, text_of_alike horder h hjson.1,
        texts_of_alike horder hrest hjson.2]

theorem members_of_alike (horder : TotalOrder platform.localeCompare) :
    ∀ {fields fields' : Record}, AlikeFields fields fields' → MembersAreJson fields →
      stringifyFields platform fields = stringifyFields platform fields'
  | _, _, .nil, _ => rfl
  | _, _, .cons h hrest, hjson => by
      rw [stringifyFields, stringifyFields, text_of_alike horder h hjson.1,
        members_of_alike horder hrest hjson.2]

end

end Texts

/-! ## From texts to values -/

section Values

/-- The first unit of a value's text tells what kind of value it is. -/
def kindOf : JsonValue → ℕ
  | .null => 0
  | .bool _ => 1
  | .number _ => 2
  | .string _ => 3
  | .array _ => 4
  | .object _ => 5

def kindOfUnit (unit : ℕ) : ℕ :=
  if unit = 110 then 0
  else if unit = 116 ∨ unit = 102 then 1
  else if unit = 34 then 3
  else if unit = 91 then 4
  else if unit = 123 then 5
  else 2

theorem kindOf_text (hnumbers : NumberTexts platform) {value : JsonValue} (hjson : IsJson value) :
    ∃ unit rest, stableStringify platform value = unit :: rest ∧ kindOfUnit unit = kindOf value := by
  cases value with
  | null => exact ⟨_, _, rfl, rfl⟩
  | bool value => cases value <;> exact ⟨_, _, rfl, rfl⟩
  | number value =>
    obtain ⟨number, rfl⟩ := hjson
    cases htext : platform.numberText number with
    | nil => exact absurd htext (hnumbers.nonempty number)
    | cons unit rest =>
      have hunit := hnumbers.letters number unit (by rw [htext]; exact List.mem_cons_self ..)
      refine ⟨unit, rest, htext, ?_⟩
      unfold kindOfUnit
      change _ = 2
      split_ifs <;> omega
  | string text => exact ⟨_, _, rfl, rfl⟩
  | array items => exact ⟨91, _, stableStringify_array items, rfl⟩
  | object fields => exact ⟨123, _, stableStringify_object fields, rfl⟩

theorem kindOf_eq (hnumbers : NumberTexts platform) {x y : JsonValue} (hx : IsJson x)
    (hy : IsJson y) (h : stableStringify platform x = stableStringify platform y) :
    kindOf x = kindOf y := by
  obtain ⟨unit, rest, htext, hkind⟩ := kindOf_text hnumbers hx
  obtain ⟨unit', rest', htext', hkind'⟩ := kindOf_text hnumbers hy
  rw [htext, htext'] at h
  rw [← hkind, ← hkind', (List.cons.inj h).1]

theorem alikeItems_of_forall₂ {items items' : List JsonValue}
    (h : List.Forall₂ Alike items items') : AlikeItems items items' := by
  induction h with
  | nil => exact .nil
  | cons h _ ih => exact .cons h ih

/-- Members with equal keys and alike values. -/
def AlikeMember (field field' : String × JsonValue) : Prop :=
  field.1 = field'.1 ∧ Alike field.2 field'.2

theorem alikeFields_of_forall₂ {fields fields' : Record}
    (h : List.Forall₂ AlikeMember fields fields') : AlikeFields fields fields' := by
  induction h with
  | nil => exact .nil
  | @cons field field' _ _ h _ ih =>
    obtain ⟨key, value⟩ := field
    obtain ⟨hkey, hvalue⟩ := h
    obtain rfl : key = field'.1 := hkey
    exact .cons hvalue ih

/-- Lists whose images are equal are related place by place. -/
theorem forall₂_of_map_eq {α β : Type*} {text : α → β} {related : α → α → Prop} {items items' : List α}
    (h : items.map text = items'.map text)
    (hrelated : ∀ item ∈ items, ∀ item' ∈ items', text item = text item' → related item item') :
    List.Forall₂ related items items' := by
  induction items generalizing items' with
  | nil =>
    obtain rfl := List.map_eq_nil_iff.mp h.symm
    exact .nil
  | cons item rest ih =>
    cases items' with
    | nil => cases h
    | cons item' rest' =>
      obtain ⟨hitem, hrest⟩ := List.cons.inj h
      exact .cons (hrelated item (List.mem_cons_self ..) item' (List.mem_cons_self ..) hitem)
        (ih hrest fun item hmem item' hmem' =>
          hrelated item (List.mem_cons_of_mem _ hmem) item' (List.mem_cons_of_mem _ hmem'))

/-- A permutation of images comes from a permutation. -/
theorem exists_perm_of_perm_map {α β : Type*} {text : α → β} {items items' : List α}
    (h : (items.map text).Perm (items'.map text)) :
    ∃ ordered, items.Perm ordered ∧ ordered.map text = items'.map text := by
  have hsame : List.Forall₂ (fun image item => image = text item) (items.map text) items :=
    List.forall₂_map_left_iff.mpr (List.forall₂_same.mpr fun _ _ => rfl)
  obtain ⟨ordered, himages, hperm⟩ := List.perm_comp_forall₂ h.symm hsame
  refine ⟨ordered, hperm.symm, ?_⟩
  rw [← List.forall₂_eq_eq_eq]
  exact (List.forall₂_map_right_iff.mpr himages).flip.imp fun _ _ => Eq.symm

theorem areJson_iff {items : List JsonValue} : AreJson items ↔ ∀ item ∈ items, IsJson item := by
  induction items with
  | nil => exact iff_of_true trivial fun _ h => absurd h List.not_mem_nil
  | cons item rest ih => rw [AreJson, List.forall_mem_cons, ih]

mutual

theorem alike_of_text (hnumbers : NumberTexts platform) : ∀ x : JsonValue, IsJson x →
    ∀ y, IsJson y → stableStringify platform x = stableStringify platform y → Alike x y
  | .null => fun hx y hy h => by
      have hkind := kindOf_eq hnumbers hx hy h
      cases y <;> first | exact Alike.null | cases hkind
  | .bool value => fun hx y hy h => by
      have hkind := kindOf_eq hnumbers hx hy h
      cases y with
      | bool value' => rw [bool_inj h]; exact .bool value'
      | _ => cases hkind
  | .number value => fun hx y hy h => by
      have hkind := kindOf_eq hnumbers hx hy h
      cases y with
      | number value' =>
        obtain ⟨number, rfl⟩ := hx
        obtain ⟨number', rfl⟩ := hy
        rw [number_inj hnumbers h]
        exact .number _
      | _ => cases hkind
  | .string text => fun hx y hy h => by
      have hkind := kindOf_eq hnumbers hx hy h
      cases y with
      | string text' => rw [string_inj h]; exact .string text'
      | _ => cases hkind
  | .array items => fun hx y hy h => by
      have hkind := kindOf_eq hnumbers hx hy h
      cases y with
      | array items' =>
        exact .array (alikeItems_of_forall₂ (forall₂_of_map_eq (array_texts hnumbers h)
          fun item hitem item' hitem' =>
            alike_items_of_text hnumbers items hx item hitem item' (areJson_iff.mp hy item' hitem')))
      | _ => cases hkind
  | .object fields => fun hx y hy h => by
      have hkind := kindOf_eq hnumbers hx hy h
      cases y with
      | object fields' =>
        obtain ⟨ordered, hperm, hmembers⟩ := exists_perm_of_perm_map (object_members hnumbers h)
        refine .object hperm (alikeFields_of_forall₂ (forall₂_of_map_eq hmembers
          fun field hfield field' hfield' htext => ⟨(Prod.mk.inj htext).1, ?_⟩))
        exact alike_members_of_text hnumbers fields hx.2 field (hperm.mem_iff.mpr hfield) field'.2
          (membersAreJson_iff.mp hy.2 field' hfield') (Prod.mk.inj htext).2
      | _ => cases hkind

theorem alike_items_of_text (hnumbers : NumberTexts platform) : ∀ items : List JsonValue,
    AreJson items → ∀ item ∈ items, ∀ y, IsJson y →
      stableStringify platform item = stableStringify platform y → Alike item y
  | [] => fun _ _ h => absurd h List.not_mem_nil
  | item :: rest => fun hjson other hother => by
      rcases List.mem_cons.mp hother with heq | hrest
      · rw [heq]
        exact alike_of_text hnumbers item hjson.1
      · exact alike_items_of_text hnumbers rest hjson.2 other hrest

theorem alike_members_of_text (hnumbers : NumberTexts platform) : ∀ fields : Record,
    MembersAreJson fields → ∀ field ∈ fields, ∀ y, IsJson y →
      stableStringify platform field.2 = stableStringify platform y → Alike field.2 y
  | [] => fun _ _ h => absurd h List.not_mem_nil
  | (key, value) :: rest => fun hjson other hother => by
      rcases List.mem_cons.mp hother with heq | hrest
      · rw [heq]
        exact alike_of_text hnumbers value hjson.1
      · exact alike_members_of_text hnumbers rest hjson.2 other hrest

end

end Values

/-! ## Both ways -/

section Main

/-- The hash tells the texts of two values apart. -/
def NoCollision (platform : Platform) (x y : JsonValue) : Prop :=
  sha256Hex platform (stableStringify platform x) = sha256Hex platform (stableStringify platform y) →
    stableStringify platform x = stableStringify platform y

/-- Two JSON values have one text exactly if they are equal up to the order of members, and one
hash as well, unless the hash collides on them. -/
theorem stableStringify_eq_iff (hnumbers : NumberTexts platform)
    (horder : TotalOrder platform.localeCompare) {x y : JsonValue} (hx : IsJson x) (hy : IsJson y) :
    (stableStringify platform x = stableStringify platform y ↔ Alike x y) ∧
      (NoCollision platform x y →
        (sha256Hex platform (stableStringify platform x) =
          sha256Hex platform (stableStringify platform y) ↔ Alike x y)) := by
  have hiff : stableStringify platform x = stableStringify platform y ↔ Alike x y :=
    ⟨alike_of_text hnumbers x hx y hy, fun h => text_of_alike horder h hx⟩
  exact ⟨hiff, fun hapart => ⟨fun h => hiff.mp (hapart h), fun h => by rw [hiff.mpr h]⟩⟩

/-- The constants of a ruleset, in the order they were read in. -/
def readConstants : JsonValue :=
  .object [("scale", .number (.finite 2)), ("flags", .array [.bool true, .null])]

/-- The same constants the other way round. -/
def sortedConstants : JsonValue :=
  .object [("flags", .array [.bool true, .null]), ("scale", .number (.finite 2))]

theorem totalOrder_textPlatform : TotalOrder textPlatform.localeCompare where
  eq_iff left right := by
    change (if left = right then Ordering.eq else if left < right then .lt else .gt) = .eq ↔ _
    split_ifs <;> simp_all
  swap left right := by
    change (if right = left then Ordering.eq else if right < left then .lt else .gt) =
      Ordering.swap (if left = right then Ordering.eq else if left < right then .lt else .gt)
    rcases lt_trichotomy left right with hlt | rfl | hgt
    · rw [if_neg hlt.ne', if_neg hlt.not_gt, if_neg hlt.ne, if_pos hlt]
      rfl
    · rw [if_pos rfl]
      rfl
    · rw [if_neg hgt.ne, if_pos hgt, if_neg hgt.ne', if_neg hgt.not_gt]
      rfl
  trans left middle right h h' := by
    have hle : ∀ a b : Units, textPlatform.localeCompare a b ≠ .gt ↔ a ≤ b := by
      intro a b
      change (if a = b then Ordering.eq else if a < b then .lt else .gt) ≠ .gt ↔ a ≤ b
      rw [le_iff_lt_or_eq]
      split_ifs <;> simp_all
    rw [hle] at h h' ⊢
    exact h.trans h'

theorem constants_alike :
    stableStringify textPlatform readConstants = stableStringify textPlatform sortedConstants ↔
      Alike readConstants sortedConstants := by
  have hnumbers : NumberTexts textPlatform :=
    ⟨decimalText_injective, decimalText_ne_nil, decimalText_letters⟩
  have hread : IsJson readConstants := ⟨by decide, ⟨_, rfl⟩, ⟨trivial, trivial, trivial⟩, trivial⟩
  have hsorted : IsJson sortedConstants :=
    ⟨by decide, ⟨trivial, trivial, trivial⟩, ⟨_, rfl⟩, trivial⟩
  exact (stableStringify_eq_iff hnumbers totalOrder_textPlatform hread hsorted).1

end Main

end Gittensory.CanonicalEquality
