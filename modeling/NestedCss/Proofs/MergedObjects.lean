import Mathlib.Data.List.Induction
import NestedCss.Json.Reader

namespace NestedCss

namespace Entries

variable {α : Type}

theorem mem_keys_insert {key other : String} {value : α} {entries : Entries α} :
    other ∈ (insert key value entries).map Prod.fst ↔ other = key ∨ other ∈ entries.map Prod.fst := by
  induction entries with
  | nil => simp [insert]
  | cons entry rest ih =>
    rw [insert]
    split
    · rename_i same
      simp [same]
    · rw [List.map_cons, List.mem_cons, ih, List.map_cons, List.mem_cons]
      exact or_left_comm

/-- A key that is there already is set in its place, so that no key comes to stand twice. -/
theorem nodup_insert {key : String} {value : α} {entries : Entries α} (once : (entries.map Prod.fst).Nodup) :
    ((insert key value entries).map Prod.fst).Nodup := by
  induction entries with
  | nil => simp [insert]
  | cons entry rest ih =>
    rw [List.map_cons, List.nodup_cons] at once
    rw [insert]
    split
    · rename_i same
      rw [List.map_cons, ← same, List.nodup_cons]
      exact once
    · rename_i other
      rw [List.map_cons, List.nodup_cons, mem_keys_insert, not_or]
      exact ⟨⟨other, once.1⟩, ih once.2⟩

/-- What is there after a key was set was there before, or is that key with its value. -/
theorem eq_or_mem_of_mem_insert {key : String} {value : α} {entries : Entries α} {entry : String × α}
    (inside : entry ∈ insert key value entries) : entry = (key, value) ∨ entry ∈ entries := by
  induction entries with
  | nil => exact .inl (List.mem_singleton.mp inside)
  | cons first rest ih =>
    rw [insert] at inside
    split at inside
    · exact (List.mem_cons.mp inside).imp_right (List.mem_cons_of_mem _)
    · rcases List.mem_cons.mp inside with rfl | later
      · exact .inr (List.mem_cons_self ..)
      · exact (ih later).imp_right (List.mem_cons_of_mem _)

theorem ofList_snoc (pairs : List (String × α)) (pair : String × α) :
    ofList (pairs ++ [pair]) = insert pair.1 pair.2 (ofList pairs) :=
  List.foldl_append

/-- However often a key is repeated among the pairs, it stands once in the entries. -/
theorem nodup_ofList (pairs : List (String × α)) : ((ofList pairs).map Prod.fst).Nodup := by
  induction pairs using List.reverseRecOn with
  | nil => exact .nil
  | append_singleton pairs pair ih =>
    rw [ofList_snoc]
    exact nodup_insert ih

/-- No value is made up: each entry is one of the pairs that were set. -/
theorem mem_of_mem_ofList {pairs : List (String × α)} {entry : String × α} (inside : entry ∈ ofList pairs) :
    entry ∈ pairs := by
  induction pairs using List.reverseRecOn with
  | nil => exact inside
  | append_singleton pairs pair ih =>
    rw [ofList_snoc] at inside
    rcases eq_or_mem_of_mem_insert inside with rfl | earlier
    · simp
    · exact List.mem_append_left _ (ih earlier)

end Entries

namespace Json

/-- Every object in the value holds each key once. -/
inductive Merged : Json → Prop
  | null : Merged .null
  | bool (value : Bool) : Merged (.bool value)
  | number (value : Float) : Merged (.number value)
  | text (content : String) : Merged (.text content)
  | array {items : List Json} : (∀ item ∈ items, Merged item) → Merged (.array items)
  | object {members : List (String × Json)} : (members.map Prod.fst).Nodup → (∀ entry ∈ members, Merged entry.2) →
      Merged (.object members)

/-- The reader returns merged values only. -/
def Reader.Merges (value : Reader) : Prop :=
  ∀ {chars json rest}, value chars = some (json, rest) → json.Merged

theorem readWord_merges {word : List Char} {value : Json} (merged : value.Merged) :
    Reader.Merges (readWord word value) := by
  intro chars json rest read
  rw [readWord] at read
  split at read
  · cases read
    exact merged
  · cases read

theorem readScalar_merges : readScalar.Merges := by
  intro chars json rest read
  unfold readScalar at read
  split at read
  · obtain ⟨⟨content, after⟩, -, same⟩ := Option.map_eq_some_iff.mp read
    cases same
    exact .text content
  · exact readWord_merges .null read
  · exact readWord_merges (.bool _) read
  · exact readWord_merges (.bool _) read
  · obtain ⟨⟨x, after⟩, -, same⟩ := Option.map_eq_some_iff.mp read
    cases same
    exact .number x

section Containers
variable {value : Reader} {bound : Nat} {chars rest : List Char}

/-- The items of an array are all read by the same reader, up to the closing bracket. -/
theorem readItems_merge (merges : value.Merges) {items : List Json}
    (read : readItems value bound chars = some (items, rest)) : ∀ item ∈ items, item.Merged := by
  induction bound generalizing chars items with
  | zero => cases read
  | succ bound ih =>
    simp only [readItems, Option.bind_eq_bind, Option.bind_eq_some_iff, Prod.exists] at read
    obtain ⟨item, after, first, read⟩ := read
    split at read
    · cases read
      exact List.forall_mem_singleton.mpr (merges first)
    · obtain ⟨⟨others, left⟩, later, same⟩ := Option.bind_eq_some_iff.mp read
      cases same
      exact List.forall_mem_cons.mpr ⟨merges first, ih later⟩
    · cases read

theorem readMembers_merge (merges : value.Merges) {members : List (String × Json)}
    (read : readMembers value bound chars = some (members, rest)) : ∀ entry ∈ members, entry.2.Merged := by
  induction bound generalizing chars members with
  | zero => cases read
  | succ bound ih =>
    simp only [readMembers, Option.bind_eq_bind] at read
    split at read
    · simp only [Option.bind_eq_some_iff, Prod.exists] at read
      obtain ⟨key, colon, -, read⟩ := read
      split at read
      · simp only [Option.bind_eq_some_iff, Prod.exists] at read
        obtain ⟨item, after, first, read⟩ := read
        split at read
        · cases read
          exact List.forall_mem_singleton.mpr (merges first)
        · obtain ⟨⟨others, left⟩, later, same⟩ := Option.bind_eq_some_iff.mp read
          cases same
          exact List.forall_mem_cons.mpr ⟨merges first, ih later⟩
        · cases read
      · cases read
    · cases read

theorem readArray_merges (merges : value.Merges) : Reader.Merges (readArray value) := by
  intro chars json rest read
  rw [readArray] at read
  split at read
  · cases read
    exact .array nofun
  · obtain ⟨⟨items, after⟩, items, same⟩ := Option.map_eq_some_iff.mp read
    cases same
    exact .array (readItems_merge merges items)

/-- The members are read as they stand in the text, and their repeated keys are merged afterwards. -/
theorem readObject_merges (merges : value.Merges) : Reader.Merges (readObject value) := by
  intro chars json rest read
  rw [readObject] at read
  split at read
  · cases read
    exact .object .nil nofun
  · obtain ⟨⟨members, after⟩, members, same⟩ := Option.map_eq_some_iff.mp read
    cases same
    exact .object (Entries.nodup_ofList _) fun entry inside =>
      readMembers_merge merges members entry (Entries.mem_of_mem_ofList inside)

end Containers

/-- However deep arrays and objects are nested, the values in them are merged. -/
theorem readValue_merges (depth : Nat) : (readValue depth).Merges := by
  induction depth with
  | zero => exact readScalar_merges
  | succ depth ih =>
    intro chars json rest read
    simp only [readValue] at read
    split at read
    · exact readArray_merges ih read
    · exact readObject_merges ih read
    · exact readScalar_merges read

/-- In all that is read from a text every object holds each key once, at the place where it came first. -/
theorem merged_of_parse {text : String} {json : Json} (parsed : parse text = some json) : json.Merged := by
  simp only [parse, Option.bind_eq_bind, Option.bind_eq_some_iff, Prod.exists] at parsed
  obtain ⟨value, rest, read, whole⟩ := parsed
  split at whole
  · cases whole
    exact readValue_merges deepest read
  · cases whole

end Json

end NestedCss
