import NestedCss.Proofs.LevelSteps
import NestedCss.Proofs.ScopeAgreement
import NestedCss.Style.Template

namespace NestedCss

/-- The rules that were put, and the captured scope on whose chain they were put, if they were not put
on the chain that was visible. -/
structure ChainOrigin (B : Type) where
  news : ResolverChain
  base : Option (Scope B)

variable {B : Type}

namespace ChainOrigin

def unchanged : ChainOrigin B := ⟨[], none⟩

/-- The chain that the rules stand on where `scope` is what is visible. -/
def ground (origin : ChainOrigin B) (scope : Scope B) : ResolverChain :=
  (origin.base.getD scope).chain

def chainOver (origin : ChainOrigin B) (scope : Scope B) : ResolverChain :=
  origin.news ++ origin.ground scope

/-- What was put later and what was put before. A later captured scope hides what was before. -/
def after (later earlier : ChainOrigin B) : ChainOrigin B :=
  match later.base with
  | some scope => ⟨later.news, some scope⟩
  | none => ⟨later.news ++ earlier.news, earlier.base⟩

/-- What was put in the expansion of a macro that captured a scope. -/
def recalled (origin : ChainOrigin B) (scope : Scope B) : ChainOrigin B :=
  ⟨origin.news, some (origin.base.getD scope)⟩

/-- What becomes of a chain depends on the chain that was visible, and not on the frames that it was in. -/
theorem chainOver_congr (origin : ChainOrigin B) {one other : Scope B} (same : one.chain = other.chain) :
    origin.chainOver one = origin.chainOver other := by
  obtain ⟨news, base⟩ := origin
  cases base with
  | some => rfl
  | none => simp [chainOver, ground, same]

/-- The chain after two keys is that after the second one, on the chain that the first one has left. -/
theorem chainOver_after {later earlier : ChainOrigin B} {first second : Scope B}
    (between : second.chain = earlier.chainOver first) :
    (later.after earlier).chainOver first = later.chainOver second := by
  obtain ⟨news, base⟩ := later
  cases base with
  | some scope => rfl
  | none => simp [after, chainOver, ground, between]

/-- In the expansion of a macro that captures, the chain stands on the captured one, whatever is visible. -/
theorem chainOver_recalled (origin : ChainOrigin B) (captured visible : Scope B) :
    (origin.recalled captured).chainOver visible = origin.chainOver captured := rfl

/-- The visible chain is still there exactly if the ground ends with it, or if the rules that the
ground lacks were put again. -/
theorem suffix_chainOver_iff (origin : ChainOrigin B) (scope : Scope B) (chain : ResolverChain) :
    chain <:+ origin.chainOver scope ↔
      chain <:+ origin.ground scope ∨ ∃ again, again <:+ origin.news ∧ chain = again ++ origin.ground scope := by
  constructor
  · intro kept
    rcases List.suffix_or_suffix_of_suffix kept (List.suffix_append _ _) with inside | ⟨again, rest⟩
    · exact .inl inside
    · refine .inr ⟨again, ?_, rest.symm⟩
      rw [← rest] at kept
      exact List.suffix_append_self_iff.mp kept
  · rintro (inside | ⟨again, put, rfl⟩)
    · exact List.suffix_append_of_suffix inside
    · exact List.suffix_append_self_iff.mpr put

/-- The chain that was visible in a scope, and what has become of it. -/
structure Accounts (origin : ChainOrigin B) (before : Scope B) (after : ResolverChain) : Prop where
  chain : after = origin.chainOver before
  /-- Without a captured scope the chain has grown by the new rules. -/
  grown : origin.base = none → after = origin.news ++ before.chain
  /-- No rule is lost exactly if the captured chain still ends with the visible one, or if the rules
  that it lacks were put again. -/
  kept : before.chain <:+ after ↔ before.chain <:+ origin.ground before ∨
    ∃ again, again <:+ origin.news ∧ before.chain = again ++ origin.ground before

theorem accounts {origin : ChainOrigin B} {before : Scope B} {after : ResolverChain}
    (chain : after = origin.chainOver before) : origin.Accounts before after where
  chain := chain
  grown noBase := by simp only [chain, chainOver, ground, noBase, Option.getD_none]
  kept := chain ▸ origin.suffix_chainOver_iff before before.chain

end ChainOrigin

variable [Expansion B]

/-- The keys of a node taken one after another without an error, with the expansions that they open
at the level. The last argument says what becomes of the chain that is visible at first. -/
inductive ChainTrace (policy : CapturePolicy) (selector : String) :
    Nat → Scope B → Level B → Node B → Level B → ChainOrigin B → Prop
  | done {levels enclosing level} : ChainTrace policy selector levels enclosing level [] level .unchanged
  | rule {levels enclosing level key rule rest last origin} :
      Role.of (level.frame :: enclosing) key (.resolver rule : Value B) = .rule →
      ChainTrace policy selector levels enclosing (level.putRule enclosing rule) rest last origin →
      ChainTrace policy selector levels enclosing level ((key, .resolver rule) :: rest) last
        (origin.after ⟨[rule], none⟩)
  | quiet {levels enclosing level key value next rest last origin} :
      Role.of (level.frame :: enclosing) key value ≠ .rule →
      (∀ entry, Role.of (level.frame :: enclosing) key value ≠ .invoke entry) →
      (level.step policy (Compiler.below policy levels) selector enclosing (key, value)).outcome = .ok next →
      ChainTrace policy selector levels enclosing next rest last origin →
      ChainTrace policy selector levels enclosing level ((key, value) :: rest) last origin
  | shared {levels enclosing level key value body expansion inner rest last origin} :
      Role.of (level.frame :: enclosing) key value = .invoke ⟨some body, none⟩ →
      ChainTrace policy selector levels (level.frame :: enclosing) .start (Expansion.expand body value) expansion inner →
      ChainTrace policy selector (levels + 1) enclosing (level.absorb expansion) rest last origin →
      ChainTrace policy selector (levels + 1) enclosing level ((key, value) :: rest) last (origin.after inner)
  | silent {levels enclosing level key value body scope expansion inner rest last origin} :
      Role.of (level.frame :: enclosing) key value = .invoke ⟨some body, some scope⟩ →
      ChainTrace policy selector levels scope .start (Expansion.expand body value) expansion inner →
      expansion.frame.chain = none →
      ChainTrace policy selector (levels + 1) enclosing (level.absorb expansion) rest last origin →
      ChainTrace policy selector (levels + 1) enclosing level ((key, value) :: rest) last origin
  | captured {levels enclosing level key value body scope expansion inner rest last origin} :
      Role.of (level.frame :: enclosing) key value = .invoke ⟨some body, some scope⟩ →
      ChainTrace policy selector levels scope .start (Expansion.expand body value) expansion inner →
      expansion.frame.chain ≠ none →
      ChainTrace policy selector (levels + 1) enclosing (level.absorb expansion) rest last origin →
      ChainTrace policy selector (levels + 1) enclosing level ((key, value) :: rest) last
        (origin.after (inner.recalled scope))

/-- Every node that compiles has a trace. -/
theorem ChainTrace.of_steps {policy : CapturePolicy} {selector : String} {levels : Nat} {enclosing : Scope B}
    {level last : Level B} {node : Node B}
    (taken : (level.steps policy (Compiler.below policy levels) selector enclosing node).outcome = .ok last) :
    ∃ origin, ChainTrace policy selector levels enclosing level node last origin := by
  refine Level.steps_induction (motive := fun levels enclosing level node last =>
    ∃ origin, ChainTrace policy selector levels enclosing level node last origin) ?done ?own ?invoke taken
  case done => exact fun _ _ _ => ⟨_, .done⟩
  case own =>
    intro _ _ _ _ _ _ _ _ noInvoke stepped ⟨origin, trace⟩
    cases Level.step_ok stepped with
    | rule role => exact ⟨_, .rule role trace⟩
    | invoke role => exact absurd role (noInvoke _)
    | define role => exact ⟨_, .quiet (by simp [role]) noInvoke stepped trace⟩
    | declare role => exact ⟨_, .quiet (by simp [role]) noInvoke stepped trace⟩
    | atRule role => exact ⟨_, .quiet (by simp [role]) noInvoke stepped trace⟩
    | nested role => exact ⟨_, .quiet (by simp [role]) noInvoke stepped trace⟩
  case invoke =>
    intro _ _ _ _ _ _ captured expansion _ _ role ⟨inner, expanded⟩ ⟨origin, trace⟩
    cases captured with
    | none => exact ⟨_, .shared role expanded trace⟩
    | some scope =>
      by_cases put : expansion.frame.chain = none
      · exact ⟨_, .silent role expanded put trace⟩
      · exact ⟨_, .captured role expanded put trace⟩

/-- The keys of a node leave the chain that their trace says. -/
theorem ChainTrace.chain_eq {policy : CapturePolicy} {selector : String} {levels : Nat} {enclosing : Scope B}
    {level last : Level B} {node : Node B} {origin : ChainOrigin B}
    (trace : ChainTrace policy selector levels enclosing level node last origin) :
    Scope.chain (last.frame :: enclosing) = origin.chainOver (level.frame :: enclosing) := by
  induction trace with
  | done => rfl
  | rule role _ ih =>
    rw [ih]
    exact (ChainOrigin.chainOver_after (Scope.chain_putRule _ _ _)).symm
  | quiet noRule noInvoke stepped _ ih =>
    rw [ih]
    refine ChainOrigin.chainOver_congr _ ?_
    cases Level.step_ok stepped with
    | rule role => exact absurd role noRule
    | invoke role => exact absurd role (noInvoke _)
    | define => rw [Scope.chain_cons, Scope.chain_cons]; rfl
    | _ => rfl
  | @shared levels enclosing level key value body expansion inner rest last origin role _ _ inside ih =>
    have taken : Scope.chain ((level.absorb expansion).frame :: enclosing) = inner.chainOver (level.frame :: enclosing) :=
      (Scope.chain_merge _ _ _).trans (inside.trans (inner.chainOver_congr rfl))
    rw [ih, ChainOrigin.chainOver_after taken]
  | @silent levels enclosing level key value body scope expansion inner rest last origin role _ put _ _ ih =>
    rw [ih]
    refine ChainOrigin.chainOver_congr _ ?_
    rw [Level.absorb, Scope.chain_merge, Scope.chain_cons, put, Option.getD_none]
  | @captured levels enclosing level key value body scope expansion inner rest last origin role _ put _ inside ih =>
    have taken : Scope.chain ((level.absorb expansion).frame :: enclosing) =
        (inner.recalled scope).chainOver (level.frame :: enclosing) := by
      obtain ⟨chain, own⟩ := Option.ne_none_iff_exists'.mp put
      rw [Scope.chain_cons, own] at inside
      rw [ChainOrigin.chainOver_recalled, Level.absorb, Scope.chain_merge, Scope.chain_cons, own]
      exact inside.trans (inner.chainOver_congr rfl)
    rw [ih, ChainOrigin.chainOver_after taken]

/-- What a key does to the visible chain, and a compilation to the chain of the table that it exports
into. The chain grows, unless a macro that captured was expanded and its expansion put rules: then the
chain that was captured takes the place of the visible one, and what it lacks is lost. -/
theorem chain_kept_iff (policy : CapturePolicy) (levels : Nat) (selector : String) :
    (∀ {enclosing : Scope B} {level next : Level B} {entry : String × Value B},
      (level.step policy (Compiler.below policy levels) selector enclosing entry).outcome = .ok next →
        ∃ origin, ChainTrace policy selector levels enclosing level [entry] next origin ∧
          origin.Accounts (level.frame :: enclosing) (Scope.chain (next.frame :: enclosing))) ∧
    ∀ {table : Frame B} {node : Node B} {fragment : Fragment},
      (table.compile policy true node selector).2.outcome = .ok fragment →
        ∃ level origin, ChainTrace policy selector Compiler.levels [table] .start node level origin ∧
          origin.Accounts [table] (Scope.chain [(table.compile policy true node selector).1]) := by
  constructor
  · intro enclosing level next entry taken
    have alone : (level.steps policy (Compiler.below policy levels) selector enclosing [entry]).outcome = .ok next :=
      Level.steps_cons_ok.mpr ⟨next, taken, rfl⟩
    obtain ⟨origin, trace⟩ := ChainTrace.of_steps alone
    exact ⟨origin, trace, ChainOrigin.accounts trace.chain_eq⟩
  · intro table node fragment compiled
    obtain ⟨level, taken, _⟩ := Report.outcome_bind_ok.mp compiled
    have after : (table.compile policy true node selector).1 = table.merge level.frame := by
      simp only [Frame.compile, taken, if_true]
    rw [compile, Compiler.above_eq] at taken
    obtain ⟨origin, trace⟩ := ChainTrace.of_steps taken
    refine ⟨level, origin, trace, ChainOrigin.accounts ?_⟩
    rw [after, Scope.chain_merge, trace.chain_eq]
    exact origin.chainOver_congr rfl

/-- A rule that is put between the definition of a macro and its invocation is lost if the expansion
puts a rule of its own. -/
theorem chain_kept_iff_lost_rule :
    let body : Closure := .mk (.node [(.text "$$", .resolver [])]) []
    let between : TokenRule := fun _ _ => some "B"
    let level := (Level.start.define "m" ⟨some body, some (Scope.flatten [Frame.empty])⟩).putRule [] between
    ∃ next origin, (level.step .lowercase (Compiler.below .lowercase 1) ".x" [] ("m", .text "")).outcome = .ok next ∧
      ChainTrace .lowercase ".x" 1 [] level [("m", .text "")] next origin ∧
      origin.Accounts [level.frame] (Scope.chain [next.frame]) ∧
      ¬ Scope.chain [level.frame] <:+ Scope.chain [next.frame] := by
  intro body between level
  have taken : (level.step .lowercase (Compiler.below .lowercase 1) ".x" [] ("m", .text "")).outcome =
      .ok (level.absorb (Level.start.putRule (Scope.flatten [Frame.empty]) (Template.answer [.text ""] []))) := rfl
  obtain ⟨origin, trace, account⟩ := (chain_kept_iff .lowercase 1 ".x").1 taken
  refine ⟨_, origin, taken, trace, account, fun kept => ?_⟩
  have same : [between] = [Template.answer [.text ""] []] := kept.eq_of_length rfl
  have answers := congrArg (fun rules => rules.map fun rule => rule "" "") same
  cases answers

end NestedCss
