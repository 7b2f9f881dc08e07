import Mathlib.Data.List.Forall2
import FilterScope.Json.Grammar
import FilterScope.Json.Writer
import FilterScope.Proofs.Text.Pieces

/-!
# What is written is one of the spellings

The plain way of writing strings, lists and objects is derived by the grammar, so whatever is
written is also read back. Items and members are related to their texts one by one; of a member, the
text is that of its value, because its key is written along with it (`IsWrittenMember`).
-/

namespace FilterScope.Json

open Text

/-! ## Strings -/

/-- A digit that is written is read back. -/
theorem hexDigit?_hexDigit {n : Nat} (h : n < 16) : hexDigit? (hexDigit n) = some n := by
  revert n
  decide

/-- A control character is written in four digits. -/
theorem isUnit_control {n : Nat} (h : n < 0x20) :
    IsUnit ['0', '0', hexDigit (n / 16), hexDigit (n % 16)] n := by
  have hdigits : ((0 * 16 + 0) * 16 + n / 16) * 16 + n % 16 = n := by omega
  have hunit : IsUnit ['0', '0', hexDigit (n / 16), hexDigit (n % 16)]
      (((0 * 16 + 0) * 16 + n / 16) * 16 + n % 16) :=
    .intro rfl rfl (hexDigit?_hexDigit (by omega)) (hexDigit?_hexDigit (by omega))
  rwa [hdigits] at hunit

/-- A character that is written spells itself. -/
theorem isCharacter_written (c : Char) : IsCharacter (written c) c := by
  unfold written
  split
  · exact .short rfl
  · exact .short rfl
  · exact .short rfl
  · exact .short rfl
  · exact .short rfl
  · exact .short rfl
  · exact .short rfl
  · next hquote hescape _ _ _ _ _ =>
    split
    · next hcontrol => exact .unit (isUnit_control hcontrol)
    · next hcontrol => exact .plain hquote hescape (Char.not_lt.mp hcontrol)

theorem isCharacters_flatMap (cs : List Char) : IsCharacters (cs.flatMap written) cs := by
  induction cs with
  | nil => exact .nil
  | cons c cs ih => exact .cons (isCharacter_written c) ih

/-- A text that is written spells itself. -/
theorem isString_writeString (s : String) : IsString (writeString s) s := by
  have hstring := IsString.intro (isCharacters_flatMap s.toList)
  rwa [String.ofList_toList] at hstring

/-! ## Lists and objects -/

theorem isSpace_nil : IsSpace [] :=
  fun _ hc => absurd hc List.not_mem_nil

theorem isMoreItems_flatMap {texts : List (List Char)} {vs : List Value}
    (h : List.Forall₂ IsValue texts vs) : IsMoreItems (texts.flatMap (',' :: ·)) vs := by
  induction h with
  | nil => exact .nil
  | cons hvalue _ ih => exact .cons isSpace_nil isSpace_nil hvalue ih

/-- A list of written values spells the list of the values. -/
theorem isValue_writeList {texts : List (List Char)} {vs : List Value}
    (h : List.Forall₂ IsValue texts vs) : IsValue (writeList texts) (.list vs) := by
  cases h with
  | nil => exact .emptyList isSpace_nil
  | cons hfirst hmore =>
    have hlist := IsValue.list isSpace_nil hfirst (isMoreItems_flatMap hmore) isSpace_nil
    rw [writeList, intercalate_cons]
    simpa using hlist

theorem isValue_writeList_map {α : Type} {write : α → List Char} {value : α → Value}
    (h : ∀ a, IsValue (write a) (value a)) (as : List α) :
    IsValue (writeList (as.map write)) (.list (as.map value)) :=
  isValue_writeList <| List.forall₂_map_left_iff.mpr <| List.forall₂_map_right_iff.mpr <|
    List.forall₂_same.mpr fun a _ => h a

/-- A member that is written with its key, and the text of its value. -/
inductive IsWrittenMember : String × List Char → String × Value → Prop where
  /-- the same key, and a text that spells the value -/
  | intro (key : String) {text : List Char} {v : Value} (hvalue : IsValue text v) :
      IsWrittenMember (key, text) (key, v)

/-- A written member spells its key and its value. -/
theorem isMember_write {member : String × List Char} {entry : String × Value}
    (h : IsWrittenMember member entry) :
    IsMember (writeString member.1 ++ ':' :: member.2) entry := by
  obtain ⟨key, hvalue⟩ := h
  have hmember := IsMember.intro (isString_writeString key) isSpace_nil isSpace_nil hvalue
  simpa using hmember

theorem isMoreMembers_flatMap {members : List (String × List Char)}
    {entries : List (String × Value)} (h : List.Forall₂ IsWrittenMember members entries) :
    IsMoreMembers (members.flatMap fun member => ',' :: (writeString member.1 ++ ':' :: member.2))
      entries := by
  induction h with
  | nil => exact .nil
  | cons hmember _ ih =>
    have hmembers := IsMoreMembers.cons isSpace_nil isSpace_nil (isMember_write hmember) ih
    simpa using hmembers

/-- An object of written members spells the object of the members. -/
theorem isValue_writeObject {members : List (String × List Char)}
    {entries : List (String × Value)} (h : List.Forall₂ IsWrittenMember members entries) :
    IsValue (writeObject members) (.object entries) := by
  cases h with
  | nil => exact .emptyObject isSpace_nil
  | cons hfirst hmore =>
    have hobject := IsValue.object isSpace_nil (isMember_write hfirst)
      (isMoreMembers_flatMap hmore) isSpace_nil
    rw [writeObject, List.map_cons, intercalate_cons, List.flatMap_map]
    simpa using hobject

end FilterScope.Json
