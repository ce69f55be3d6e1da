/-!
# Page addresses and staleness tokens

The address of a page and the token that a loader hands out with its content. Both are texts, and never
mixed up.
-/

namespace PageTemplates

/-- The address of a page. -/
structure PageUri where
  /-- The text of the address. -/
  text : String
  deriving DecidableEq, Repr

/-- What a loader hands out with the content of a page, to judge later whether the content is still current. -/
structure Token where
  /-- The text of the token. -/
  text : String
  deriving DecidableEq, Repr

end PageTemplates
