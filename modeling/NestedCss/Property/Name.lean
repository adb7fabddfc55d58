namespace NestedCss.PropertyName

/-- Every ASCII capital becomes a hyphen and its small letter, also at the start of the name, where
the hyphen marks a vendor name. -/
def hyphenate : List Char → List Char
  | [] => []
  | c :: rest => if c.isUpper then '-' :: c.toLower :: hyphenate rest else c :: hyphenate rest

/-- The hyphenated form of a name in camel case. Style descriptions write names in camel case, and style sheets
write them with hyphens. -/
def hyphenated (name : String) : String :=
  String.ofList (hyphenate name.toList)

/-- The property that a key declares. One leading `$` marks a custom property. -/
def ofKey (key : String) : String :=
  match key.toList with
  | '$' :: name => "--" ++ String.ofList (hyphenate name)
  | name => String.ofList (hyphenate name)

/-- The reference to the custom property of a name. -/
def reference (name : String) : String :=
  "var(--" ++ hyphenated name ++ ")"

@[simp] theorem hyphenate_nil : hyphenate [] = [] := rfl

end NestedCss.PropertyName
