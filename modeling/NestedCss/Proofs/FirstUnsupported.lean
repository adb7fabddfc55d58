import Mathlib
import NestedCss.Proofs.MergedObjects
import NestedCss.Style.Loading

namespace NestedCss

variable {B : Type}

mutual

/-- The JSON value stands for the value of a style description: strings and numbers for themselves, booleans for their
names, and objects for nodes. -/
inductive Json.StandsFor : Json → Value B → Prop
  | text (content : String) : StandsFor (.text content) (.text content)
  | number (content : Float) : StandsFor (.number content) (.number content)
  | yes : StandsFor (.bool true) (.text "true")
  | no : StandsFor (.bool false) (.text "false")
  | object {members : List (String × Json)} {node : Node B} :
      Json.MembersStandFor members node → StandsFor (.object members) (.node node)

/-- The members stand for the entries with the same keys, one by one. -/
inductive Json.MembersStandFor : List (String × Json) → Node B → Prop
  | nil : MembersStandFor [] []
  | cons (key : String) {member : Json} {value : Value B} {rest : List (String × Json)} {node : Node B} :
      Json.StandsFor member value → MembersStandFor rest node →
      MembersStandFor ((key, member) :: rest) ((key, value) :: node)

end

namespace Json

mutual

/-- All values in a JSON value: itself first, and then those inside it, item by item and key by key. -/
def parts : Json → List Json
  | .array items => .array items :: partsOfItems items
  | .object members => .object members :: partsOfMembers members
  | json => [json]

def partsOfItems : List Json → List Json
  | [] => []
  | item :: rest => item.parts ++ partsOfItems rest

def partsOfMembers : List (String × Json) → List Json
  | [] => []
  | (_, member) :: rest => member.parts ++ partsOfMembers rest

end

/-- Why a value is not supported, whatever is inside it. -/
def fault? : Json → Option Unsupported
  | .null => some .null
  | .array _ => some .array
  | _ => none

/-- The reason against the first part that is not supported. -/
def firstFault? (json : Json) : Option Unsupported :=
  json.parts.findSome? fault?

/-- The reason against a value that has to be an object at its place. -/
def faultAt? (place : Unsupported) : Json → Option Unsupported
  | .object members => firstFault? (.object members)
  | _ => some place

end Json

/-- What a conversion comes to: which results it can have, and with what error it ends, if there is one. -/
structure Conversion {ε α : Type} (result : Except ε α) (meaning : α → Prop) (fault? : Option ε) : Prop where
  ok_iff : ∀ a, result = .ok a ↔ meaning a
  error_iff : ∀ fault, result = .error fault ↔ fault? = some fault

namespace Conversion

variable {ε ε' α β : Type} {result : Except ε α} {meaning : α → Prop} {fault? : Option ε}

theorem succeed {a : α} (means : meaning a) (unique : ∀ b, meaning b → a = b) :
    Conversion (.ok a : Except ε α) meaning none :=
  ⟨fun b => ⟨fun same => Except.ok.inj same ▸ means, fun other => congrArg _ (unique b other)⟩, by simp⟩

theorem refuse (fault : ε) (noMeaning : ∀ a, ¬ meaning a) : Conversion (.error fault) meaning (some fault) :=
  ⟨by simp [noMeaning], by simp⟩

theorem not_meaning {fault : ε} (conversion : Conversion (.error fault) meaning fault?) (a : α) : ¬ meaning a :=
  fun means => nomatch (conversion.ok_iff a).mpr means

theorem fault_eq_none {a : α} (conversion : Conversion (.ok a) meaning fault?) : fault? = none :=
  Option.eq_none_iff_forall_ne_some.mpr fun fault some => nomatch (conversion.error_iff fault).mpr some

theorem exists_ok_iff (conversion : Conversion result meaning fault?) : (∃ a, result = .ok a) ↔ fault? = none := by
  cases result with
  | error fault => simp [(conversion.error_iff fault).mp rfl]
  | ok a => simp [conversion.fault_eq_none]

theorem imp {other : α → Prop} (conversion : Conversion result meaning fault?) (same : ∀ a, meaning a ↔ other a) :
    Conversion result other fault? :=
  ⟨fun a => (conversion.ok_iff a).trans (same a), conversion.error_iff⟩

theorem mapError (conversion : Conversion result meaning fault?) (f : ε → ε') :
    Conversion (result.mapError f) meaning (fault?.map f) := by
  cases result with
  | error fault =>
    rw [(conversion.error_iff fault).mp rfl]
    exact refuse (f fault) conversion.not_meaning
  | ok a =>
    rw [conversion.fault_eq_none]
    exact succeed ((conversion.ok_iff a).mp rfl) fun b means => Except.ok.inj ((conversion.ok_iff b).mpr means)

/-- The error of the first step that fails is the error of both. -/
theorem bind {next : α → Except ε β} {further : α → β → Prop} {later? : Option ε}
    (first : Conversion result meaning fault?) (second : ∀ a, Conversion (next a) (further a) later?) :
    Conversion (result >>= next) (fun b => ∃ a, meaning a ∧ further a b) (fault?.or later?) := by
  cases result with
  | error fault =>
    rw [(first.error_iff fault).mp rfl]
    exact refuse fault fun b ⟨a, means, _⟩ => first.not_meaning a means
  | ok a =>
    rw [first.fault_eq_none, Option.none_or]
    exact (second a).imp fun b => by simp [← first.ok_iff]

theorem bind_pure (conversion : Conversion result meaning fault?) (f : α → β) :
    Conversion (result >>= fun a => pure (f a)) (fun b => ∃ a, meaning a ∧ f a = b) fault? := by
  rw [← Option.or_none (o := fault?)]
  exact conversion.bind fun a => succeed rfl fun _ => id

/-- A list is converted item by item, up to the first that fails. -/
theorem mapM {f : α → Except ε β} {meaning : α → β → Prop} {fault? : α → Option ε}
    (each : ∀ a, Conversion (f a) (meaning a) (fault? a)) (list : List α) :
    Conversion (list.mapM f) (List.Forall₂ meaning list) (list.findSome? fault?) := by
  induction list with
  | nil => exact succeed .nil fun results none => (List.forall₂_nil_left_iff.mp none).symm
  | cons a rest ih =>
    have both := (each a).bind fun b => ih.bind_pure (b :: ·)
    have first : (a :: rest).findSome? fault? = (fault? a).or (rest.findSome? fault?) := by
      rw [List.findSome?_cons]
      cases fault? a <;> rfl
    rw [List.mapM_cons, first]
    refine both.imp fun results => ?_
    rw [List.forall₂_cons_left_iff]
    constructor
    · rintro ⟨b, means, others, rests, rfl⟩
      exact ⟨b, others, means, rests, rfl⟩
    · rintro ⟨b, others, means, rests, rfl⟩
      exact ⟨b, means, others, rests, rfl⟩

end Conversion

namespace Json

@[simp] theorem parts_object (members : List (String × Json)) :
    (Json.object members).parts = .object members :: partsOfMembers members := by
  rw [parts]

/-- An object is no fault itself; the first one inside it is that of its members. -/
theorem firstFault?_object (members : List (String × Json)) :
    (Json.object members).firstFault? = (partsOfMembers members).findSome? fault? := by
  rw [firstFault?, parts_object, List.findSome?_cons]
  rfl

mutual

/-- A value is converted exactly if no part of it is a fault, and the first one in the order of the text decides
the error. -/
theorem ofJson_conversion : ∀ json : Json, Conversion (Value.ofJson (B := B) json) json.StandsFor json.firstFault?
  | .text content => .succeed (.text content) fun value => by rintro ⟨⟩; rfl
  | .number content => .succeed (.number content) fun value => by rintro ⟨⟩; rfl
  | .bool true => .succeed .yes fun value => by rintro ⟨⟩; rfl
  | .bool false => .succeed .no fun value => by rintro ⟨⟩; rfl
  | .null => .refuse _ fun _ => nofun
  | .array _ => .refuse _ fun _ => nofun
  | .object members => by
    rw [Value.ofJson, firstFault?_object]
    refine ((ofMembers_conversion members).bind_pure Value.node).imp fun value => ?_
    constructor
    · rintro ⟨node, stands, rfl⟩
      exact .object stands
    · rintro ⟨⟩
      rename_i stands
      exact ⟨_, stands, rfl⟩

theorem ofMembers_conversion : ∀ members : List (String × Json),
    Conversion (Node.ofMembers (B := B) members) (MembersStandFor members) ((partsOfMembers members).findSome? fault?)
  | [] => .succeed .nil fun node => by rintro ⟨⟩; rfl
  | (key, member) :: rest => by
    have both := (ofJson_conversion member).bind fun value => (ofMembers_conversion rest).bind_pure ((key, value) :: ·)
    rw [Node.ofMembers, partsOfMembers, List.findSome?_append]
    refine both.imp fun node => ?_
    constructor
    · rintro ⟨value, stands, others, rests, rfl⟩
      exact .cons key stands rests
    · intro members
      cases members with
      | cons _ stands rests => exact ⟨_, stands, _, rests, rfl⟩

end

/-- Null and arrays are the only faults. -/
theorem fault?_eq_none_iff (json : Json) : json.fault? = none ↔ json ≠ .null ∧ ∀ items, json ≠ .array items := by
  cases json <;> simp [fault?]

/-- The value is an object, and nowhere in it is null or an array. -/
def Supported (json : Json) : Prop :=
  (∃ members, json = .object members) ∧ ∀ part ∈ json.parts, part ≠ .null ∧ ∀ items, part ≠ .array items

theorem faultAt?_eq_none_iff (place : Unsupported) (json : Json) : json.faultAt? place = none ↔ json.Supported := by
  cases json <;> simp [faultAt?, firstFault?, Supported, fault?_eq_none_iff]

theorem object_conversion (members : List (String × Json)) (place : Unsupported) :
    Conversion (Node.ofMembers (B := B) members) (fun node => (Json.object members).StandsFor (.node node))
      ((Json.object members).faultAt? place) := by
  rw [faultAt?, firstFault?_object]
  refine (ofMembers_conversion members).imp fun node => ⟨.object, ?_⟩
  rintro ⟨⟩
  assumption

theorem root_conversion (json : Json) :
    Conversion (Node.ofJson (B := B) json) (fun node => json.StandsFor (.node node)) (json.faultAt? .root) := by
  cases json with
  | object members => exact object_conversion members .root
  | _ => exact .refuse Unsupported.root (by rintro _ ⟨⟩)

theorem item_conversion (json : Json) :
    Conversion (Node.ofItem (B := B) json) (fun node => json.StandsFor (.node node)) (json.faultAt? .item) := by
  cases json with
  | object members => exact object_conversion members .item
  | _ => exact .refuse Unsupported.item (by rintro _ ⟨⟩)

end Json

theorem Node.load_of_parse {α : Type} {text : String} {json : Json} (parsed : Json.parse text = some json)
    (convert : Json → Except Unsupported α) : load convert text = (convert json).mapError .unsupported := by
  rw [load, parsed]

/-- Loading fails exactly on unsupported values and reports the first. What is read holds each key once. Alone it has
to be an object without null and arrays, and its node has the same keys in the same order at every level. One object
counts as a list of one node. In an array the items have to be such objects, and the first bad one decides the error.
-/
theorem loading_reports_the_first_unsupported {text : String} {json : Json} (parsed : Json.parse text = some json) :
    json.Merged ∧
    Conversion (Node.fromText (B := B) text) (fun node => json.StandsFor (.node node))
      ((json.faultAt? .root).map .unsupported) ∧
    ((∃ node : Node B, Node.fromText text = .ok node) ↔ json.Supported) ∧
    (match json with
    | .object _ => Node.listFromText (B := B) text = (Node.fromText text).map fun node => [node]
    | .array items =>
      Conversion (Node.listFromText (B := B) text)
        (List.Forall₂ (fun item node => item.StandsFor (.node node)) items)
        ((items.findSome? (Json.faultAt? .item)).map .unsupported) ∧
      ((∃ nodes : List (Node B), Node.listFromText text = .ok nodes) ↔ ∀ item ∈ items, item.Supported)
    | _ => Node.listFromText (B := B) text = .error (.unsupported .root)) ∧
    Unsupported.root.kind = "non-object root" ∧ Unsupported.item.kind = "non-object list item" := by
  have alone := (json.root_conversion (B := B)).mapError LoadError.unsupported
  rw [← Node.load_of_parse parsed] at alone
  refine ⟨Json.merged_of_parse parsed, alone, ?_, ?_, rfl, rfl⟩
  · rw [Node.fromText, alone.exists_ok_iff, Option.map_eq_none_iff, Json.faultAt?_eq_none_iff]
  · rw [Node.listFromText, Node.load_of_parse parsed, Node.fromText, Node.load_of_parse parsed]
    cases json with
    | object members =>
      simp only [Node.listOfJson, Node.ofJson]
      cases Node.ofMembers (B := B) members <;> rfl
    | array items =>
      have list := (Conversion.mapM (Json.item_conversion (B := B)) items).mapError LoadError.unsupported
      refine ⟨list, list.exists_ok_iff.trans ?_⟩
      simp [Json.faultAt?_eq_none_iff]
    | _ => rfl

/-- In the first item the last value of the repeated key takes the place of the array, and in the second one null
comes before the array. -/
theorem loading_reports_the_first_unsupported_merged :
    let text := "[\x7b\"a\":[],\"b\":true,\"a\":\"x\"\x7d,\x7b\"m\":\x7b\"n\":null\x7d,\"o\":[]\x7d,\"s\"]"
    let first : Json := .object [("a", .text "x"), ("b", .bool true)]
    let second : Json := .object [("m", .object [("n", .null)]), ("o", .array [])]
    Json.parse text = some (.array [first, second, .text "s"]) ∧
      Node.fromText (B := Unit) text = .error (.unsupported .root) ∧
      Node.listFromText (B := Unit) text = .error (.unsupported .null) := by
  intro text first second
  have parsed : Json.parse text = some (.array [first, second, .text "s"]) := by cbv
  obtain ⟨-, alone, -, ⟨list, -⟩, -⟩ := loading_reports_the_first_unsupported (B := Unit) parsed
  exact ⟨parsed, (alone.error_iff _).mpr rfl, (list.error_iff _).mpr rfl⟩

end NestedCss
