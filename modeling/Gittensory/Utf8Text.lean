import Mathlib.Data.List.Basic

/-!
Texts as bytes of UTF-8, written and read the way an encoder and a decoder of the web platform
do: a byte order mark in front is taken off on reading.
-/
namespace Gittensory.Utf8Text

def textEncode (text : String) : List UInt8 := text.toByteArray.data.toList

/-- A byte order mark in front is taken off. -/
def dropMark (text : String) : String :=
  match text.toList with
  | '\uFEFF' :: rest => String.ofList rest
  | _ => text

/-- `malformed` is what the decoder makes of bytes that are no UTF-8. -/
def textDecode (malformed : List UInt8 → String) (bytes : List UInt8) : String :=
  match String.fromUTF8? ⟨bytes.toArray⟩ with
  | some text => dropMark text
  | none => malformed bytes

theorem textDecode_textEncode (malformed : List UInt8 → String) (text : String) :
    textDecode malformed (textEncode text) = dropMark text := by
  have hbytes : (⟨(textEncode text).toArray⟩ : ByteArray) = text.toByteArray := by
    simp [textEncode]
  have hread : String.fromUTF8? text.toByteArray = some text := by
    rw [String.fromUTF8?, dif_pos text.isValidUTF8]
    rfl
  rw [textDecode, hbytes, hread]

theorem dropMark_eq_iff {text : String} :
    dropMark text = text ↔ text.toList.head? ≠ some '\uFEFF' := by
  unfold dropMark
  split
  · next rest htext =>
    constructor
    · intro h
      have hlist := congrArg String.toList h
      rw [String.toList_ofList, htext] at hlist
      have hlength := congrArg List.length hlist
      simp at hlength
    · intro h
      rw [htext] at h
      exact absurd rfl h
  · next hother =>
    refine ⟨fun _ hhead => ?_, fun _ => rfl⟩
    rcases htext : text.toList with _ | ⟨first, rest⟩
    · rw [htext] at hhead
      cases hhead
    · rw [htext] at hhead
      obtain rfl := Option.some.inj hhead
      exact hother rest htext

theorem textDecode_textEncode_of_head {malformed : List UInt8 → String} {text : String} {c : Char}
    (h : text.toList.head? = some c) (hmark : c ≠ '\uFEFF') :
    textDecode malformed (textEncode text) = text := by
  rw [textDecode_textEncode, dropMark_eq_iff, h]
  exact fun heq => hmark (Option.some.inj heq)

end Gittensory.Utf8Text
