import NestedCss.Style.Entries

namespace NestedCss

/-- A JSON value. As it is read, an object keeps every key at its first position with its last value. -/
inductive Json where
  | null
  | bool (value : Bool)
  | number (value : Float)
  | text (content : String)
  | array (items : List Json)
  | object (entries : List (String × Json))

end NestedCss
