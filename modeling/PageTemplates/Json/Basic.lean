/-!
# JSON values

The values of the JSON format, as they are written and as they are read. An object keeps its members in
order, and may have several of one name; what that means is for its reader to say.
-/

namespace PageTemplates

/-- A JSON value. The text of a string that was read is missing if an escape in it stands for half a character. -/
inductive Json where
  | null
  | bool (b : Bool)
  /-- A number, which nothing here looks at. -/
  | number
  | text (s : Option String)
  | array (items : List Json)
  | object (members : List (Option String × Json))

end PageTemplates
