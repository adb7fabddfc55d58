import Mathlib
import NestedCss.Proofs.CompilationDepth
import NestedCss.Proofs.KeyRoles
import NestedCss.Style.Template

namespace NestedCss

variable {B : Type}

namespace Node

/-- The blocks of a node with their keys. -/
def blocks (node : Node B) : List (String × Node B) :=
  node.filterMap fun (key, value) => value.node?.map (key, ·)

/-- A node stands in another one, the given number of levels below it. -/
inductive Inside : Nat → Node B → Node B → Prop
  | self (node : Node B) : Inside 0 node node
  | block {levels : Nat} {key : String} {inner block node : Node B} :
      (key, block) ∈ blocks node → Inside levels inner block → Inside (levels + 1) inner node

/-- The keys that open a block in a node the given number of levels below, in the order of the text. -/
def blockKeys : Nat → Node B → List String
  | 0, node => (blocks node).map Prod.fst
  | levels + 1, node => (blocks node).flatMap fun (_, block) => blockKeys levels block

/-- No key of the node, at any level, starts with the sigils of definitions and token rules. -/
def Plain (node : Node B) : Prop :=
  ∀ levels inner, Inside levels inner node → ∀ entry ∈ inner, ¬ ['$', '$'] <+: entry.1.toList

theorem blocks_cons (entry : String × Value B) (rest : Node B) :
    blocks (entry :: rest) = blocks [entry] ++ blocks rest := by
  simp [blocks, ← List.filterMap_append]

theorem blockKeys_cons (levels : Nat) (entry : String × Value B) (rest : Node B) :
    blockKeys levels (entry :: rest) = blockKeys levels [entry] ++ blockKeys levels rest := by
  cases levels <;> simp [blockKeys, blocks_cons entry rest]

theorem blockKeys_block (levels : Nat) (key : String) (block : Node B) :
    blockKeys (levels + 1) [(key, .node block)] = blockKeys levels block := by
  simp [blockKeys, blocks, Value.node?]

theorem blockKeys_of_no_block (levels : Nat) (key : String) {value : Value B} (noBlock : value.node? = none) :
    blockKeys levels [(key, value)] = [] := by
  cases levels <;> simp [blockKeys, blocks, noBlock]

/-- There is a node so many levels below exactly if some key on the level above it opens one. -/
theorem exists_inside_iff {levels : Nat} {node : Node B} :
    (∃ inner, Inside (levels + 1) inner node) ↔ blockKeys levels node ≠ [] := by
  induction levels generalizing node with
  | zero =>
    simp only [blockKeys, ne_eq, List.map_eq_nil_iff]
    constructor
    · rintro ⟨inner, ⟨⟩ | ⟨member, _⟩⟩
      exact List.ne_nil_of_mem member
    · intro some
      obtain ⟨⟨key, block⟩, member⟩ := List.exists_mem_of_ne_nil _ some
      exact ⟨block, .block member (.self block)⟩
  | succ levels ih =>
    simp only [blockKeys, ne_eq, List.flatMap_eq_nil_iff, Classical.not_forall]
    constructor
    · rintro ⟨inner, ⟨⟩ | ⟨member, inside⟩⟩
      exact ⟨_, member, ih.mp ⟨inner, inside⟩⟩
    · rintro ⟨⟨key, block⟩, member, some⟩
      obtain ⟨inner, inside⟩ := ih.mpr some
      exact ⟨inner, .block member inside⟩

theorem Inside.above {more levels : Nat} {inner node : Node B} (inside : Inside (levels + more) inner node) :
    ∃ between, Inside levels between node := by
  induction levels generalizing node with
  | zero => exact ⟨node, .self node⟩
  | succ levels ih =>
    rw [Nat.succ_add] at inside
    cases inside with
    | block member inside =>
      obtain ⟨between, inside⟩ := ih inside
      exact ⟨between, .block member inside⟩

/-- Blocks go no deeper than some level exactly if no key there opens one. -/
theorem inside_le_iff {bound : Nat} {node : Node B} :
    (∀ levels inner, Inside levels inner node → levels ≤ bound) ↔ blockKeys bound node = [] := by
  constructor
  · intro shallow
    refine Decidable.byContradiction fun some => ?_
    obtain ⟨inner, inside⟩ := exists_inside_iff.mpr some
    exact absurd (shallow _ inner inside) (Nat.not_succ_le_self bound)
  · intro none levels inner inside
    refine Nat.le_of_not_lt fun deep => ?_
    obtain ⟨more, rfl⟩ := Nat.exists_eq_add_of_lt deep
    obtain ⟨between, inside⟩ := (Nat.add_right_comm bound more 1 ▸ inside).above
    exact exists_inside_iff.mp ⟨between, inside⟩ none

theorem Plain.key {key : String} {value : Value B} {rest : Node B} (plain : Plain ((key, value) :: rest)) :
    ¬ ['$', '$'] <+: key.toList :=
  plain 0 _ (.self _) _ (List.mem_cons_self ..)

theorem Plain.block {key : String} {block rest : Node B} (plain : Plain ((key, .node block) :: rest)) : Plain block :=
  have opened : (key, block) ∈ blocks ((key, .node block) :: rest) := by simp [blocks, Value.node?]
  fun levels inner inside => plain (levels + 1) inner (.block opened inside)

theorem Plain.rest {entry : String × Value B} {rest : Node B} (plain : Plain (entry :: rest)) : Plain rest := by
  intro levels inner inside
  cases inside with
  | self => exact fun other member => plain 0 _ (.self _) other (List.mem_cons_of_mem _ member)
  | block member inside =>
    exact plain _ inner (.block (blocks_cons entry rest ▸ List.mem_append_right _ member) inside)

end Node

def Scope.Bare (scope : Scope B) : Prop := ∀ name, scope.find? name = none

theorem Scope.Bare.start {scope : Scope B} (bare : scope.Bare) : Scope.Bare (Frame.empty :: scope) := fun name => by
  rw [find?_cons, Frame.find?_empty, bare name, Option.or_none]

/-- The guard has stopped a compilation at the first of some keys; if there is none, the compilation has come to
a level with the given frame. -/
def Report.CutAt (frame : Frame B) (report : Report (Level B)) : List String → Prop
  | [] => ∃ level, report.outcome = .ok level ∧ level.frame = frame
  | key :: _ => report.outcome = .error (.tooDeep key)

namespace Report
variable {frame : Frame B} {report : Report (Level B)}

theorem CutAt.pure {level : Level B} (same : level.frame = frame) : CutAt frame (Pure.pure level) [] :=
  ⟨level, rfl, same⟩

/-- Of two steps the first that is stopped cuts both; if neither is, their keys are counted together. -/
theorem CutAt.bind {frame' : Frame B} {next : Level B → Report (Level B)} {keys more : List String}
    (first : CutAt frame report keys) (rest : ∀ level, level.frame = frame → CutAt frame' (next level) more) :
    CutAt frame' (report >>= next) (keys ++ more) := by
  cases keys with
  | nil =>
    obtain ⟨level, reached, same⟩ := first
    rw [List.nil_append]
    have cut := rest level same
    unfold CutAt at cut ⊢
    rwa [outcome_bind_of_ok reached]
  | cons key others => exact outcome_bind_error.mpr (.inl first)

end Report

namespace Level
variable [Expansion B] {policy : CapturePolicy} {levels : Nat} {selector key : String} {enclosing scope : Scope B}
  {level : Level B} {frame : Frame B} {value : Value B}

/-- The compiler of the level below is stopped at the first block that is too deep for it. -/
def CutBelow (B : Type) [Expansion B] (policy : CapturePolicy) (levels : Nat) : Prop :=
  ∀ lower, levels = lower + 1 → ∀ (block : Node B) (selector : String) (scope : Scope B), block.Plain → scope.Bare →
    Report.CutAt Frame.empty (Compiler.above policy lower block selector scope) (block.blockKeys lower)

/-- A key that opens a block is itself too deep at the deepest level; elsewhere the keys in the block are. -/
theorem CutBelow.block (below : CutBelow B policy levels) {block : Node B} (plain : block.Plain) (bare : scope.Bare)
    {finish : Level B → Report (Level B)} (finishes : ∀ inner, (finish inner).CutAt frame []) :
    Report.CutAt frame (do
      let compiler ← enter (Compiler.below policy levels) key
      let inner ← compiler block selector scope
      finish inner) (Node.blockKeys levels [(key, .node block)]) := by
  cases levels with
  | zero => rfl
  | succ levels =>
    rw [Node.blockKeys_block, ← List.append_nil (Node.blockKeys levels block)]
    simp only [enter, Compiler.below, pure_bind]
    exact (below levels rfl block selector scope plain bare).bind fun inner _ => finishes inner

/-- A plain at-rule is cut at its own key if no level is left for its block, and inside its block otherwise. -/
theorem atRule_cut (below : CutBelow B policy levels) {rest : Node B} (plain : Node.Plain ((key, value) :: rest))
    (bare : Scope.Bare (level.frame :: enclosing)) :
    Report.CutAt level.frame (level.atRule (Compiler.below policy levels) selector enclosing key value)
      (Node.blockKeys levels [(key, value)]) := by
  cases value with
  | node block =>
    refine below.block plain.block bare fun inner => .pure ?_
    split <;> rfl
  | text | number | callable | resolver =>
    rw [Node.blockKeys_of_no_block levels key rfl]
    exact ⟨_, rfl, rfl⟩

theorem nested_cut (below : CutBelow B policy levels) {rest : Node B} (plain : Node.Plain ((key, value) :: rest))
    (bare : Scope.Bare (level.frame :: enclosing)) :
    Report.CutAt level.frame (level.nested (Compiler.below policy levels) selector enclosing key value)
      (Node.blockKeys levels [(key, value)]) := by
  cases value with
  | node block => exact below.block plain.block bare fun inner => .pure rfl
  | text | number | callable | resolver =>
    rw [Node.blockKeys_of_no_block levels key rfl]
    exact ⟨_, rfl, rfl⟩

theorem step_cut (below : CutBelow B policy levels) {rest : Node B} (plain : Node.Plain ((key, value) :: rest))
    (bare : Scope.Bare (level.frame :: enclosing)) :
    Report.CutAt level.frame (level.step policy (Compiler.below policy levels) selector enclosing (key, value))
      (Node.blockKeys levels [(key, value)]) := by
  have role := Role.of_plain plain.key (level.frame :: enclosing) value
  rw [bare key] at role
  unfold step
  dsimp only at role ⊢
  rw [role]
  split_ifs with declares
  · have noBlock : value.node? = none := by
      cases value <;> simp_all [Value.isPrimitive, Value.node?]
    rw [Node.blockKeys_of_no_block levels key noBlock]
    exact ⟨_, rfl, rfl⟩
  · exact atRule_cut below plain bare
  · exact nested_cut below plain bare

/-- The keys of a plain node are cut at the first one that opens a block that is too deep. -/
theorem steps_cut (below : CutBelow B policy levels) {node : Node B} (plain : node.Plain)
    (bare : Scope.Bare (level.frame :: enclosing)) :
    Report.CutAt level.frame (level.steps policy (Compiler.below policy levels) selector enclosing node)
      (node.blockKeys levels) := by
  induction node generalizing level with
  | nil =>
    have none : Node.blockKeys levels ([] : Node B) = [] := by cases levels <;> rfl
    rw [none]
    exact .pure rfl
  | cons entry rest ih =>
    rw [steps_cons, Node.blockKeys_cons]
    exact (step_cut below plain bare).bind fun next same => same ▸ ih plain.rest (same ▸ bare)

/-- A style description without macros is cut at the blocks that are too deep. The induction is on the levels
that a compiler has below it. -/
theorem cut_below (policy : CapturePolicy) (levels : Nat) : CutBelow B policy levels := by
  induction levels with
  | zero => exact nofun
  | succ levels ih =>
    intro lower same block selector scope plain bare
    obtain rfl := Nat.succ.inj same
    rw [Compiler.above_eq]
    exact steps_cut ih plain bare.start

end Level

variable [Expansion B]

/-- Compiles a node that stands at the given depth; the outermost one stands at depth 0. -/
def Compiler.atDepth (policy : CapturePolicy) (depth : Nat) : Compiler B :=
  Compiler.above policy (Compiler.levels - depth)

/-- The guard cuts exactly and changes nothing else. Where it does not stop a compilation at some depth, the
whole report is the same at every lesser depth: the notices, and the fragment with the frame that is exported,
or the error. A style description in which nothing is defined, in a scope without macros, compiles exactly if
its blocks go no deeper than the levels there are, and the only error is that of the first key in the order of
the text that opens a block further down. -/
theorem guard_cuts_exactly (policy : CapturePolicy) (node : Node B) (selector : String) (scope : Scope B) :
    (∀ depth deeper, depth ≤ deeper → ¬ (Compiler.atDepth policy deeper node selector scope).TooDeep →
      Compiler.atDepth policy depth node selector scope = Compiler.atDepth policy deeper node selector scope) ∧
    (node.Plain → scope.Bare →
      ((∃ level, (compile policy node selector scope).outcome = .ok level) ↔
        ∀ levels inner, Node.Inside levels inner node → levels ≤ Compiler.levels) ∧
      ∀ e, (compile policy node selector scope).outcome = .error e ↔
        ∃ key, (node.blockKeys Compiler.levels).head? = some key ∧ e = .tooDeep key) := by
  constructor
  · intro depth deeper bound fits
    have levels : Compiler.levels - deeper ≤ Compiler.levels - depth := Nat.sub_le_sub_left bound _
    exact ((Compiler.above_deepens policy levels node selector scope).eq fits).symm
  · intro plain bare
    have cut : Report.CutAt Frame.empty (compile policy node selector scope) (node.blockKeys Compiler.levels) :=
      Level.cut_below policy _ Compiler.levels rfl node selector scope plain bare
    rw [Node.inside_le_iff]
    cases keys : node.blockKeys Compiler.levels with
    | nil =>
      rw [keys] at cut
      obtain ⟨level, reached, -⟩ := cut
      simp [reached]
    | cons key others =>
      rw [keys] at cut
      have stopped : (compile policy node selector scope).outcome = .error (.tooDeep key) := cut
      simp [stopped, eq_comm]

/-- Blocks may go as deep as there are levels, and the key that opens one more is too deep. An expansion with
just one level left for it is what it is further out. -/
theorem guard_cuts_exactly_nested :
    let tower : Nat → Node Closure := fun count => [("a", Template.wrap "a" (.text "x") count)]
    let pad : Value Closure := .callable .captured (.mk (.node [(.text "padding", .argument 0)]) [])
    let node : Node Closure := [("$$pad", pad), ("pad", .text "1")]
    (∃ level, (compile .lowercase (tower 256) ".x" []).outcome = .ok level) ∧
      (compile .lowercase (tower 257) ".x" []).outcome = .error (.tooDeep "a") ∧
      compile .lowercase node ".x" [] = Compiler.atDepth .lowercase 255 node ".x" [] := by
  intro tower pad node
  have plain : ∀ count, (tower count).Plain := by
    intro count
    induction count with
    | zero =>
      intro levels inner inside
      cases inside with
      | self => simp [tower]
      | block member => simp [tower, Node.blocks, Template.wrap, Value.node?] at member
    | succ count ih =>
      intro levels inner inside
      cases inside with
      | self => simp [tower]
      | @block _ key _ block _ member inside =>
        have opened : key = "a" ∧ block = tower count := by
          simpa [tower, Node.blocks, Template.wrap, Value.node?] using member
        exact ih _ inner (opened.2 ▸ inside)
  have keys : ∀ count, Node.blockKeys count (tower count) = [] ∧ Node.blockKeys count (tower (count + 1)) = ["a"] := by
    intro count
    induction count with
    | zero => exact ⟨rfl, rfl⟩
    | succ count ih => exact ⟨(Node.blockKeys_block count "a" _).trans ih.1, (Node.blockKeys_block count "a" _).trans ih.2⟩
  have bare : Scope.Bare ([] : Scope Closure) := fun _ => rfl
  obtain ⟨-, fits⟩ := guard_cuts_exactly .lowercase (tower 256) ".x" []
  obtain ⟨-, cut⟩ := guard_cuts_exactly .lowercase (tower 257) ".x" []
  obtain ⟨deepens, -⟩ := guard_cuts_exactly .lowercase node ".x" []
  refine ⟨(fits (plain 256) bare).1.mpr (Node.inside_le_iff.mpr (keys 256).1), ?_, deepens 0 255 (by decide) ?_⟩
  · exact ((cut (plain 257) bare).2 _).mpr ⟨"a", by rw [show Compiler.levels = 256 from rfl, (keys 256).2]; rfl, rfl⟩
  · have expands : (Compiler.atDepth .lowercase 255 node ".x" []).outcome.map (·.fragment) =
        .ok ⟨"padding:1;", ""⟩ := by cbv
    rintro ⟨key, stopped⟩
    rw [stopped] at expands
    cases expands

end NestedCss
