namespace NestedCss

/-- The convention for macros that do not say themselves in which scope they are expanded. -/
inductive CapturePolicy where
  /-- Every macro captures the scope of its definition. -/
  | always
  /-- No macro captures the scope of its definition. -/
  | never
  /-- A macro captures unless its name starts with an ASCII capital. -/
  | lowercase
  /-- A macro captures if its name starts with an ASCII capital. -/
  | uppercase
  deriving DecidableEq

/-- The usual convention: names in camel case that start with a small letter capture. -/
instance : Inhabited CapturePolicy := ⟨.lowercase⟩

/-- True if a name starts with an ASCII capital. -/
def startsWithCapital (name : String) : Bool :=
  match name.toList with
  | [] => false
  | c :: _ => c.isUpper

/-- Whether the convention lets the macro of a name capture. -/
def CapturePolicy.captures (policy : CapturePolicy) (name : String) : Bool :=
  match policy with
  | always => true
  | never => false
  | lowercase => !startsWithCapital name
  | uppercase => startsWithCapital name

/-- Which macros the expansion of a macro can use: those visible where the macro was defined, those
visible where it is invoked, or what the convention says for its name. -/
inductive CaptureMode where
  | byName
  | captured
  | shared
  deriving DecidableEq

/-- Whether a macro of this mode captures under the given convention. -/
def CaptureMode.captures (mode : CaptureMode) (policy : CapturePolicy) (name : String) : Bool :=
  match mode with
  | captured => true
  | shared => false
  | byName => policy.captures name

end NestedCss
