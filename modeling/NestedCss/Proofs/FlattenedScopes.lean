import Mathlib.Logic.Function.Basic
import NestedCss.Proofs.StackedLevels

namespace NestedCss

variable {B : Type}

/-- A definition is a small frame that is merged. -/
theorem Frame.define_eq_merge (frame : Frame B) (name : String) (entry : Macro B) :
    frame.define name entry = frame.merge ⟨[(name, entry)], none⟩ := rfl

/-- So is a token rule with the chain that it is put in front of. -/
theorem Frame.putRule_eq_merge (frame : Frame B) (enclosing : Scope B) (rule : TokenRule) :
    frame.putRule enclosing rule = frame.merge ⟨[], some (rule :: Scope.chain (frame :: enclosing))⟩ := rfl

namespace Scope

/-- A flattened scope has taken over its frames one after another, the outermost first. -/
theorem flatten_eq_merged (scope : Scope B) : scope.flatten =
    [⟨(scope.foldr (fun frame outer => outer.merge frame) Frame.empty).definitions, some scope.chain⟩] := by
  have definitions : scope.flatMap Frame.definitions =
      (scope.foldr (fun frame outer => outer.merge frame) Frame.empty).definitions := by
    induction scope with
    | nil => rfl
    | cons frame rest ih => rw [List.flatMap_cons, ih, List.foldr_cons, Frame.merge]
  rw [flatten, definitions]

/-- A scope that is flattened already stays as it is. -/
theorem flatten_flatten (scope : Scope B) : scope.flatten.flatten = scope.flatten :=
  flatten_congr (by simp [flatten]) (chain_flatten scope)

end Scope

/-- Frames on top of a frame: its child frames, their child frames, and so on. A place names the children on the
way to a frame by their numbers, the frame itself first; `[]` is the place at the bottom. What was never opened is
an empty frame. -/
structure FrameTree (B : Type) where
  frames : List Nat → Frame B
  /-- What lies around the frame at the bottom. -/
  enclosing : Scope B

namespace FrameTree

/-- The nearest frame of a scope with nothing on top. -/
def ofScope (scope : Scope B) : FrameTree B :=
  ⟨fun place => if place = [] then scope.head?.getD Frame.empty else Frame.empty, scope.tail⟩

def around (tree : FrameTree B) : List Nat → Scope B
  | [] => tree.enclosing
  | _ :: parent => tree.frames parent :: tree.around parent

/-- The frames that can be seen from a place. -/
def scope (tree : FrameTree B) (place : List Nat) : Scope B :=
  tree.frames place :: tree.around place

def set (tree : FrameTree B) (place : List Nat) (frame : Frame B) : FrameTree B :=
  { tree with frames := Function.update tree.frames place frame }

/-- What is put on top of a frame. -/
inductive Addition (B : Type) where
  /-- Opens a child frame. -/
  | child (number : Nat) (parent : List Nat)
  | define (place : List Nat) (name : String) (body : Option B) (captures : Bool)
  | putRule (place : List Nat) (rule : TokenRule)
  /-- Merges a child frame into the frame at a place. The frame at the bottom is merged into no other: it is what all
  this is put on, and flattened it holds the definitions of the frames around it as its own. -/
  | merge (number : Nat) (parent place : List Nat)
  /-- Merges a frame that stands on some other scope. -/
  | take (exported : Frame B) (place : List Nat)

def add (tree : FrameTree B) : Addition B → FrameTree B
  | .child number parent => tree.set (number :: parent) Frame.empty
  | .define place name body captures =>
    let captured := if captures then some (tree.scope place).flatten else none
    tree.set place ((tree.frames place).define name ⟨body, captured⟩)
  | .putRule place rule => tree.set place ((tree.frames place).putRule (tree.around place) rule)
  | .merge number parent place =>
    if place = number :: parent then tree
    else tree.set place ((tree.frames place).merge (tree.frames (number :: parent)))
  | .take exported place => tree.set place ((tree.frames place).merge exported)

def addAll (tree : FrameTree B) (additions : List (Addition B)) : FrameTree B :=
  additions.foldl add tree

/-- The same frames on top of scopes that differ only in how what they show is spread over frames. -/
structure Matches (flat live : FrameTree B) : Prop where
  above : ∀ number parent, flat.frames (number :: parent) = live.frames (number :: parent)
  bottom : (flat.scope []).flatten = (live.scope []).flatten

theorem flatten_scope_ofScope (scope : Scope B) : ((ofScope scope).scope []).flatten = scope.flatten := by
  cases scope with
  | nil => exact Scope.flatten_empty_cons []
  | cons frame enclosing => rfl

theorem matches_ofScope (scope : Scope B) : Matches (ofScope scope.flatten) (ofScope scope) where
  above _ _ := rfl
  bottom := by rw [flatten_scope_ofScope, flatten_scope_ofScope, Scope.flatten_flatten]

namespace Matches

variable {flat live : FrameTree B}

theorem scope (same : Matches flat live) (place : List Nat) :
    (flat.scope place).flatten = (live.scope place).flatten := by
  induction place with
  | nil => exact same.bottom
  | cons number parent ih =>
    calc (flat.scope (number :: parent)).flatten
      _ = Scope.flatten (live.frames (number :: parent) :: flat.scope parent) := by rw [← same.above]; rfl
      _ = Scope.flatten (live.frames (number :: parent) :: live.scope parent) := Scope.flatten_cons ih _
      _ = (live.scope (number :: parent)).flatten := rfl

theorem set_above (same : Matches flat live) (number : Nat) (parent : List Nat) (frame : Frame B) :
    Matches (flat.set (number :: parent) frame) (live.set (number :: parent) frame) where
  above other ancestors := by
    simp only [set, Function.update_apply]
    split
    · rfl
    · exact same.above other ancestors
  bottom := by simpa [set, FrameTree.scope, around] using same.bottom

/-- Trees that match go on to match when the same definitions and the same chain are taken over in both. -/
theorem takeOver (same : Matches flat live) (place : List Nat) (exported : Frame B) :
    Matches (flat.set place ((flat.frames place).merge exported))
      (live.set place ((live.frames place).merge exported)) := by
  cases place with
  | cons number parent =>
    rw [same.above]
    exact same.set_above number parent _
  | nil =>
    refine ⟨fun number parent => ?_, ?_⟩
    · simpa [set] using same.above number parent
    · have merged (tree : FrameTree B) : ((tree.set [] ((tree.frames []).merge exported)).scope []).flatten =
          Scope.flatten (exported :: tree.scope []) := by
        simpa [set, FrameTree.scope, around] using Scope.flatten_merge (tree.frames []) exported tree.enclosing
      rw [merged, merged]
      exact Scope.flatten_cons same.bottom exported

/-- Whatever is put on top of the one and of the other, they go on to show the same. -/
theorem add (same : Matches flat live) (addition : Addition B) : Matches (flat.add addition) (live.add addition) := by
  cases addition with
  | child number parent => exact same.set_above number parent _
  | define place name body captures =>
    simp only [FrameTree.add, Frame.define_eq_merge, same.scope place]
    exact same.takeOver place _
  | putRule place rule =>
    have chain : Scope.chain (flat.frames place :: flat.around place) =
        Scope.chain (live.frames place :: live.around place) := Scope.chain_congr (same.scope place)
    simp only [FrameTree.add, Frame.putRule_eq_merge, chain]
    exact same.takeOver place _
  | merge number parent place =>
    simp only [FrameTree.add, same.above]
    split
    · exact same
    · exact same.takeOver place _
  | take exported place => exact same.takeOver place exported

theorem addAll (same : Matches flat live) (additions : List (Addition B)) :
    Matches (flat.addAll additions) (live.addAll additions) := by
  induction additions generalizing flat live with
  | nil => exact same
  | cons addition rest ih => exact ih (same.add addition)

end Matches

end FrameTree

/-- Flattening agrees with walking. A flattened scope is one frame, into which the frames of the scope were merged
from the outermost on. Every name has the macro in it that is found on the way outwards, or none, and the chain is the
one that is visible. This stays so in every place when the same frames are opened, the same macros defined, the same
rules put in front and the same frames merged on top of both; what would be captured there is the same too. -/
theorem flattening_agrees_with_walking (scope : Scope B) :
    scope.flatten =
        [⟨(scope.foldr (fun frame outer => outer.merge frame) Frame.empty).definitions, some scope.chain⟩] ∧
      (∀ name, scope.flatten.find? name = scope.find? name) ∧ scope.flatten.chain = scope.chain ∧
      ∀ (additions : List (FrameTree.Addition B)) (place : List Nat),
        let flat := ((FrameTree.ofScope scope.flatten).addAll additions).scope place
        let live := ((FrameTree.ofScope scope).addAll additions).scope place
        (∀ name, flat.find? name = live.find? name) ∧ flat.chain = live.chain ∧ flat.flatten = live.flatten := by
  refine ⟨scope.flatten_eq_merged, scope.find?_flatten, scope.chain_flatten, fun additions place => ?_⟩
  have same := ((FrameTree.matches_ofScope scope).addAll additions).scope place
  exact ⟨Scope.find?_congr same, Scope.chain_congr same, same⟩

/-- A child frame captures what it sees, the nearer `m` of two, and is merged into the flattened frame. -/
example :
    let scope : Scope String :=
      [Frame.empty.define "m" ⟨some "near", none⟩, Frame.empty.define "m" ⟨some "far", none⟩]
    let tree := (FrameTree.ofScope scope.flatten).addAll
      [.child 0 [], .define [0] "n" (some "new") true, .merge 0 [] []]
    (tree.scope [0]).find? "m" = some ⟨some "near", none⟩ ∧
      (tree.scope []).find? "n" = some ⟨some "new", some scope.flatten⟩ := ⟨rfl, rfl⟩

end NestedCss
