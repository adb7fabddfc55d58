namespace NestedCss

/-- Keys with their values, in the order in which the keys were first set. A key is meant to stand once. -/
abbrev Entries (α : Type) := List (String × α)

namespace Entries
variable {α : Type}

/-- Sets the value of a key. A key that is there already keeps its place. -/
def insert (key : String) (value : α) : Entries α → Entries α
  | [] => [(key, value)]
  | (other, previous) :: rest =>
    if other = key then (key, value) :: rest else (other, previous) :: insert key value rest

def get? (entries : Entries α) (key : String) : Option α :=
  entries.lookup key

/-- Sets keys one after another, starting with none. -/
def ofList (pairs : List (String × α)) : Entries α :=
  pairs.foldl (fun entries pair => insert pair.1 pair.2 entries) []

end Entries

end NestedCss
