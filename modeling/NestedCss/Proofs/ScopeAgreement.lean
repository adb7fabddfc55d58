import NestedCss.Macro.Scope

namespace NestedCss

variable {B : Type}

/-- Macros that expand alike wherever they are invoked. They have the same body, and captured scopes
show the same chain and, under every name, macros that expand alike. -/
inductive Macro.Agrees : Macro B → Macro B → Prop
  | shared (body : Option B) : Agrees ⟨body, none⟩ ⟨body, none⟩
  | captured (body : Option B) {one other : Scope B} :
      one.chain = other.chain →
      (∀ name, (one.find? name).isSome = (other.find? name).isSome) →
      (∀ name a b, one.find? name = some a → other.find? name = some b → Agrees a b) →
      Agrees ⟨body, some one⟩ ⟨body, some other⟩

/-- Scopes that cannot be told apart from inside. -/
structure Scope.Agrees (one other : Scope B) : Prop where
  chain : one.chain = other.chain
  macros : ∀ name, Option.Rel Macro.Agrees (one.find? name) (other.find? name)

/-- Frames that can stand for each other in every scope. -/
structure Frame.Agrees (one other : Frame B) : Prop where
  chain : one.chain = other.chain
  macros : ∀ name, Option.Rel Macro.Agrees (one.find? name) (other.find? name)

theorem Macro.Agrees.of_scopes (body : Option B) {one other : Scope B} (agree : one.Agrees other) :
    Macro.Agrees ⟨body, some one⟩ ⟨body, some other⟩ := by
  refine .captured body agree.chain (fun name => ?_) (fun name a b foundOne foundOther => ?_)
  · have both := agree.macros name
    generalize one.find? name = foundOne, other.find? name = foundOther at both
    cases both <;> rfl
  · have both := agree.macros name
    rw [foundOne, foundOther] at both
    cases both with
    | some same => exact same

theorem Macro.Agrees.body_eq {one other : Macro B} (agree : Macro.Agrees one other) :
    one.body = other.body := by
  cases agree <;> rfl

theorem Macro.Agrees.scopes {one other : Macro B} (agree : Macro.Agrees one other) :
    Option.Rel Scope.Agrees one.captured other.captured := by
  cases agree with
  | shared => exact .none
  | @captured _ one other chain names macros =>
    refine .some ⟨chain, fun name => ?_⟩
    have same := names name
    cases foundOne : one.find? name with
    | none =>
      have missing : other.find? name = none := by simpa [foundOne] using same.symm
      rw [missing]
      exact .none
    | some a =>
      obtain ⟨b, foundOther⟩ := Option.isSome_iff_exists.mp (by simpa [foundOne] using same.symm)
      rw [foundOther]
      exact .some (macros name a b foundOne foundOther)

/-- The macros of a scope are smaller than the scope, so that a property of macros can be proved
from what their captured scopes show. -/
theorem Scope.sizeOf_find? {scope : Scope B} {name : String} {entry : Macro B}
    (found : scope.find? name = some entry) : sizeOf entry < sizeOf scope := by
  obtain ⟨frame, frameMem, inFrame⟩ := List.exists_of_findSome?_eq_some found
  obtain ⟨before, after, split, _⟩ := List.lookup_eq_some_iff.mp inFrame
  have inside : (name, entry) ∈ frame.definitions := by simp [split]
  have pairLt := List.sizeOf_lt_of_mem inside
  have frameLt := List.sizeOf_lt_of_mem frameMem
  obtain ⟨definitions, chain⟩ := frame
  simp only [Prod.mk.sizeOf_spec, Frame.mk.sizeOf_spec] at pairLt frameLt
  omega

/-- A macro expands like itself. The scope that it has captured is smaller than it, and so are the macros found
there. -/
theorem Macro.Agrees.refl (entry : Macro B) : Macro.Agrees entry entry := by
  obtain ⟨body, captured⟩ := entry
  cases captured with
  | none => exact .shared body
  | some scope =>
    refine .captured body rfl (fun _ => rfl) (fun name a b foundOne foundOther => ?_)
    have same := Option.some.inj (foundOne.symm.trans foundOther)
    subst same
    have smaller := Scope.sizeOf_find? foundOne
    exact Macro.Agrees.refl a
termination_by sizeOf entry
decreasing_by
  simp only [Definition.mk.sizeOf_spec, Option.some.sizeOf_spec]
  omega

theorem Macro.Agrees.refl_found (found : Option (Macro B)) : Option.Rel Macro.Agrees found found := by
  cases found with
  | none => exact .none
  | some entry => exact .some (Macro.Agrees.refl entry)

/-- Only what is seen counts, not how it is spread over frames. -/
theorem Scope.Agrees.of_view {one other : Scope B} (chain : one.chain = other.chain)
    (macros : ∀ name, one.find? name = other.find? name) : one.Agrees other :=
  ⟨chain, fun name => macros name ▸ Macro.Agrees.refl_found _⟩

theorem Scope.Agrees.refl (scope : Scope B) : scope.Agrees scope := .of_view rfl fun _ => rfl

theorem Frame.Agrees.refl (frame : Frame B) : frame.Agrees frame :=
  ⟨rfl, fun _ => Macro.Agrees.refl_found _⟩

/-- A flattened scope shows what the scope shows. -/
theorem Scope.find?_flatten (scope : Scope B) (name : String) :
    scope.flatten.find? name = scope.find? name := by
  have spread : (scope.flatMap Frame.definitions).lookup name = scope.find? name := by
    induction scope with
    | nil => rfl
    | cons frame rest ih =>
      rw [List.flatMap_cons, List.lookup_append, ih, Scope.find?_cons]
      rfl
  simpa [Scope.flatten, Scope.find?, Frame.find?] using spread

/-- The chain that is visible is that of the nearest frame, or of those behind it if it has put no rule. -/
theorem Scope.chain_cons (frame : Frame B) (scope : Scope B) :
    Scope.chain (frame :: scope) = frame.chain.getD scope.chain := by
  cases own : frame.chain <;> simp [Scope.chain, own]

/-- Where a merged frame defines a name, its definition is found first. -/
theorem Frame.find?_merge (frame exported : Frame B) (name : String) :
    (frame.merge exported).find? name = (exported.find? name).or (frame.find? name) := by
  simp [Frame.merge, Frame.find?, List.lookup_append]

theorem Scope.chain_merge (frame exported : Frame B) (scope : Scope B) :
    Scope.chain (frame.merge exported :: scope) = Scope.chain (exported :: frame :: scope) := by
  cases added : exported.chain <;> simp [Scope.chain_cons, Frame.merge, added]

/-- A rule that is put stands in front of what was visible. -/
theorem Scope.chain_putRule (frame : Frame B) (scope : Scope B) (rule : TokenRule) :
    Scope.chain (frame.putRule scope rule :: scope) = rule :: Scope.chain (frame :: scope) := rfl

theorem Macro.Agrees.or {one other nextOne nextOther : Option (Macro B)}
    (first : Option.Rel Macro.Agrees one other) (second : Option.Rel Macro.Agrees nextOne nextOther) :
    Option.Rel Macro.Agrees (one.or nextOne) (other.or nextOther) := by
  cases first with
  | none => simpa using second
  | some same => exact .some same

/-- Frames that agree, in front of scopes that agree, give scopes that agree. -/
theorem Scope.Agrees.cons {one other : Frame B} {oneScope otherScope : Scope B}
    (frames : one.Agrees other) (scopes : oneScope.Agrees otherScope) :
    Scope.Agrees (one :: oneScope) (other :: otherScope) where
  chain := by rw [Scope.chain_cons, Scope.chain_cons, frames.chain, scopes.chain]
  macros name := by
    rw [Scope.find?_cons, Scope.find?_cons]
    exact Macro.Agrees.or (frames.macros name) (scopes.macros name)

theorem Scope.Agrees.flatten {one other : Scope B} (agree : one.Agrees other) :
    one.flatten.Agrees other.flatten where
  chain := by rw [Scope.chain_flatten, Scope.chain_flatten, agree.chain]
  macros name := by
    rw [Scope.find?_flatten, Scope.find?_flatten]
    exact agree.macros name

theorem Frame.Agrees.define {one other : Frame B} {a b : Macro B} (frames : one.Agrees other)
    (name : String) (entries : Macro.Agrees a b) : (one.define name a).Agrees (other.define name b) where
  chain := frames.chain
  macros asked := by
    rw [Frame.find?_define, Frame.find?_define]
    split
    · exact .some entries
    · exact frames.macros asked

/-- Taking over frames that agree keeps the agreement. -/
theorem Frame.Agrees.merge {one other oneExport otherExport : Frame B} (frames : one.Agrees other)
    (exports : oneExport.Agrees otherExport) : (one.merge oneExport).Agrees (other.merge otherExport) where
  chain := by simp only [Frame.merge, frames.chain, exports.chain]
  macros name := by
    rw [Frame.find?_merge, Frame.find?_merge]
    exact Macro.Agrees.or (exports.macros name) (frames.macros name)

theorem Frame.Agrees.putRule {one other : Frame B} {oneScope otherScope : Scope B}
    (frames : one.Agrees other) (scopes : oneScope.Agrees otherScope) (rule : TokenRule) :
    (one.putRule oneScope rule).Agrees (other.putRule otherScope rule) where
  chain := by simp only [Frame.putRule, (Scope.Agrees.cons frames scopes).chain]
  macros := frames.macros

end NestedCss
