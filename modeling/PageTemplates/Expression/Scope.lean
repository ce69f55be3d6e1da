import PageTemplates.Decimal.Reading
import PageTemplates.Expression.Kind
import PageTemplates.NameMap
import PageTemplates.Value

/-!
# Scopes and the evaluation of expressions

A scope binds variables. An expression is a body between an opening and a closing delimiter; the body is a
quoted text, a keyword, a number, or else the name of a variable. Value bindings and callables keep the text
of an expression and evaluate it whenever they are asked. Other callables than these may be wired in any way.

An evaluator is whatever can do these three things; `Evaluator.ofScope` is the one described here.
-/

namespace PageTemplates

/-! ## §1 Errors -/

/-- Why an expression has no value. -/
inductive EvaluationError where
  /-- The text is not an expression. -/
  | invalid (expression message : String)
  /-- No variable has that name. -/
  | unresolvable (expression : String)
  /-- The value is of another kind than the expected one. -/
  | mistyped (expression : String) (expected : ValueType) (found : String)
  deriving DecidableEq, Repr

namespace EvaluationError

/-- The name of a cause. -/
def name : EvaluationError → String
  | .invalid .. => "Syntax"
  | .unresolvable _ => "Unresolvable"
  | .mistyped .. => "Type"

/-- The text of an error. -/
def message : EvaluationError → String
  | .invalid e m => "Invalid expression '" ++ e ++ "': " ++ m
  | .unresolvable e => "Cannot resolve '" ++ e ++ "'"
  | .mistyped e t f => "Expression '" ++ e ++ "' produced a " ++ f ++ ", expected " ++ t.name

end EvaluationError

/-! ## §2 Scopes -/

/-- The variables that an evaluation sees. -/
structure Scope where
  /-- Values by name. -/
  values : NameMap Value
  deriving Inhabited

namespace Scope

/-- The scope without variables. -/
def empty : Scope := ⟨.empty⟩

/-- The value of a variable. -/
def get? (s : Scope) (name : String) : Option Value := s.values.find? name

/-- Binds a variable, in place of an earlier binding. -/
def set (s : Scope) (name : String) (v : Value) : Scope := ⟨s.values.insert name v⟩

def remove (s : Scope) (name : String) : Scope := ⟨s.values.erase name⟩

end Scope

/-! ## §3 Evaluation -/

namespace Expression

/-- The trimmed text between the delimiters of an expression. -/
def bodyChars? (cs : List Char) : Option (List Char) :=
  let inner := Text.trimChars cs
  ((Text.after? ExpressionKind.loadTimeOpening inner).or
      (Text.after? ExpressionKind.runTimeOpening inner)).bind fun rest =>
    (Text.before? [ExpressionKind.closing] rest).map Text.trimChars

/-- The error for a text without delimiters. -/
def notDelimited (expression : String) : EvaluationError :=
  .invalid expression "expected $\x7b...\x7d or #\x7b...\x7d"

def body (expression : String) : Except EvaluationError (List Char) :=
  match bodyChars? expression.toList with
  | some cs => .ok cs
  | none => .error (notDelimited expression)

/-- The text between two single quotes. -/
def quoted? (cs : List Char) : Option (List Char) :=
  (Text.after? ['\''] cs).bind (Text.before? ['\''])

/-- The least and the greatest integer of 64 bits. -/
def intBounds : Int × Int := (-9223372036854775808, 9223372036854775807)

/-- The value that a body has by itself, whatever the scope. -/
def constant? (cs : List Char) : Option Value :=
  match quoted? cs with
  | some text => some (.text (String.ofList text))
  | none =>
    let word := String.ofList cs
    if word = "true" then some (.bool true)
    else if word = "false" then some (.bool false)
    else if word = "null" then some .null
    else match Text.integerIn? intBounds.1 intBounds.2 word with
      | some i => some (.int (Int64.ofInt i))
      | none => (Double.ofChars? cs).map .double

/-- Evaluates an expression in a scope. -/
def evaluate (expression : String) (scope : Scope) : Except EvaluationError Value :=
  match body expression with
  | .error e => .error e
  | .ok cs => match (constant? cs).or (scope.get? (String.ofList cs)) with
    | some v => .ok v
    | none => .error (.unresolvable expression)

end Expression

/-! ## §4 Bindings -/

/-- A live value: an expression, and the type its value should have. -/
structure LiveValue where
  /-- The text of the expression. -/
  expression : String
  /-- The type that the property expects. -/
  expected : ValueType
  deriving DecidableEq, Repr

namespace LiveValue

def value (b : LiveValue) (scope : Scope) : Except EvaluationError Value :=
  Expression.evaluate b.expression scope

end LiveValue

namespace Callable

def call (c : Callable) (scope : Scope) (arguments : List Value) : Except EvaluationError Value :=
  match c.manner with
  | .scoped => Expression.evaluate c.expression scope
  | .echo => .ok (.list arguments)
  | .count | .refusesOwner | .refusesComponent => .ok (.int (Int64.ofNat arguments.length))

/-- Wires a callable to a node. `none` means that it does not keep track of its owner. -/
def wireOwner (c : Callable) (owner : Owner) : Except EvaluationError (Option Callable) :=
  match c.manner with
  | .scoped => .ok (some { c with owner := some owner })
  | .echo | .count | .refusesComponent => .ok none
  | .refusesOwner => .error (.invalid c.expression ("no owner " ++ owner.tag))

/-- Wires a callable to a component of some type. `none` means that it does not keep track of it. -/
def wireComponent (c : Callable) (typeName : String) : Except EvaluationError (Option Callable) :=
  match c.manner with
  | .scoped => .ok (some { c with componentType := some typeName })
  | .echo | .count | .refusesOwner => .ok none
  | .refusesComponent => .error (.invalid c.expression ("cannot attach to " ++ typeName))

/-- Wires a callable to a node and to a component. One that keeps no track of either stays as it is. -/
def wire (c : Callable) (owner : Owner) (typeName : String) : Except EvaluationError Callable :=
  match c.wireOwner owner with
  | .error e => .error e
  | .ok owned => ((owned.getD c).wireComponent typeName).map fun wired => wired.getD (owned.getD c)

end Callable

/-- How callables are wired, whatever they are: what comes of giving one an owner, and of giving it a component of some
type. -/
structure Wiring where
  owner : Callable → Owner → Except EvaluationError (Option Callable)
  component : Callable → String → Except EvaluationError (Option Callable)

/-- Every callable is wired in its own manner. -/
def Wiring.byManner : Wiring := ⟨Callable.wireOwner, Callable.wireComponent⟩

/-! ## §5 Evaluators -/

/-- An expression language: it evaluates a text once, and makes live values and callables of texts. -/
structure Evaluator where
  /-- The value of an expression in a scope. -/
  evaluate : String → Scope → Except EvaluationError Value
  /-- A live value of an expected type. -/
  liveValue : String → ValueType → Except EvaluationError LiveValue
  callable : String → Except EvaluationError Callable

/-- The evaluator that looks names up in the scope. -/
def Evaluator.ofScope : Evaluator where
  evaluate := Expression.evaluate
  liveValue e t := (Expression.body e).map fun _ => ⟨e, t⟩
  callable e := (Expression.body e).map fun _ => .bare .scoped e

end PageTemplates
