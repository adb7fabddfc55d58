namespace NestedCss

/-- A remark about a key that has no effect, or none yet, and is passed over. -/
inductive Notice where
  | uncallableMacro (name : String)
  | callableAtRule (key : String)
  | blocklessSelector (key : String)
  deriving DecidableEq

def Notice.message : Notice → String
  | uncallableMacro name => "macro '" ++ name ++ "' is defined with a non-callable value"
  | callableAtRule key => "ignoring at-rule '" ++ key ++ "' with a callable value"
  | blocklessSelector key => "ignoring selector '" ++ key ++ "' without a style block"

/-- Why a node cannot be compiled. -/
inductive CompileError where
  /-- What has to be called at this key cannot be. -/
  | notCallable (key : String)
  /-- Blocks and expansions are nested too deep at this key. -/
  | tooDeep (key : String)
  deriving DecidableEq

def CompileError.message : CompileError → String
  | notCallable key => "'" ++ key ++ "' is not callable"
  | tooDeep key => "nesting too deep at '" ++ key ++ "'"

/-- The notices of a compilation in order, and its result. Notices made before an error are kept. -/
structure Report (α : Type) where
  notices : List Notice
  outcome : Except CompileError α

namespace Report
variable {α β : Type}

/-- Goes on with the result, if there is one, and joins the notices. -/
def andThen (report : Report α) (next : α → Report β) : Report β :=
  match report.outcome with
  | .error e => ⟨report.notices, .error e⟩
  | .ok a =>
    let rest := next a
    ⟨report.notices ++ rest.notices, rest.outcome⟩

instance : Monad Report where
  pure a := ⟨[], .ok a⟩
  bind := andThen

def fail (e : CompileError) : Report α := ⟨[], .error e⟩

def note (n : Notice) : Report Unit := ⟨[n], .ok ()⟩

@[simp] theorem pure_eq (a : α) : (pure a : Report α) = ⟨[], .ok a⟩ := rfl

@[simp] theorem bind_eq (report : Report α) (next : α → Report β) :
    (report >>= next) = report.andThen next := rfl

instance : LawfulMonad Report := LawfulMonad.mk' Report
  (by
    rintro α ⟨notices, outcome⟩
    cases outcome <;> simp [Functor.map, andThen])
  (by
    intro α β a next
    simp [andThen])
  (by
    rintro α β γ ⟨notices, outcome⟩ next last
    cases outcome with
    | error e => simp [andThen]
    | ok a => cases middle : (next a).outcome <;> simp [andThen, middle])

end Report

end NestedCss
