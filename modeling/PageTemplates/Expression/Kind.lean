import PageTemplates.Text.Affix
import PageTemplates.Text.Blank

/-!
# The kind of a piece of attribute text

Text is plain, or holds a load-time expression (the whole of it, blanks aside, stands between a dollar sign
with an opening brace and a closing brace), or a run-time expression (somewhere a hash sign with an opening
brace is followed later by a closing brace). The load-time form is tried first.
-/

namespace PageTemplates

/-- What attribute text denotes. -/
inductive ExpressionKind where
  /-- Plain text, taken as a value of the declared type. -/
  | literal
  /-- Evaluated once while the component is built. -/
  | loadTime
  /-- Installed as a live binding. -/
  | runTime
  deriving DecidableEq, Repr

namespace ExpressionKind

def name : ExpressionKind → String
  | .literal => "Literal"
  | .loadTime => "LoadTime"
  | .runTime => "RunTime"

/-- How a load-time expression begins. -/
def loadTimeOpening : List Char := ['$', '\x7b']

/-- How a run-time expression begins. -/
def runTimeOpening : List Char := ['#', '\x7b']

/-- How every expression ends. -/
def closing : Char := '\x7d'

/-- The whole text, blanks aside, is a load-time expression. -/
def isLoadTime (cs : List Char) : Bool :=
  let inner := Text.trimChars cs
  (Text.after? loadTimeOpening inner).isSome && (Text.before? [closing] inner).isSome

/-- A run-time expression begins and ends somewhere in the text. -/
def isRunTime (cs : List Char) : Bool :=
  (Text.afterFirst? runTimeOpening cs).any fun rest => rest.contains closing

/-- The kind of a piece of text. -/
def classify (s : String) : ExpressionKind :=
  if isLoadTime s.toList then .loadTime
  else if isRunTime s.toList then .runTime
  else .literal

/-- The text is an expression of either kind. -/
def isExpression : ExpressionKind → Bool
  | .literal => false
  | .loadTime | .runTime => true

end ExpressionKind

end PageTemplates
