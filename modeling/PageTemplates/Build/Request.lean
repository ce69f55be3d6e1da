import PageTemplates.Error
import PageTemplates.Definition
import PageTemplates.Program

/-!
# What a build asks for

Building a component asks its host for everything that is not in the template: a new component, the answer
of the gate to a check, the value of an expression, live values and callables, and each write. Building
itself only decides what is asked and in which order; so a statement about what is asked holds for every
component, every evaluator and every gate.
-/

namespace PageTemplates

/-- What a build asks of its host. -/
inductive BuildRequest where
  /-- A new component for a definition. -/
  | construct (definition : Definition)
  /-- The answer of the gate. -/
  | check (c : Check)
  /-- The value of an expression. -/
  | evaluate (expression : String)
  /-- A live value of an expected type. -/
  | bindValue (expression : String) (type : ValueType)
  | bindCallable (expression : String)
  /-- A callable wired to a node. -/
  | wireOwner (callable : Callable) (owner : Owner)
  /-- A callable wired to a component. -/
  | wireComponent (callable : Callable) (component : Instance)
  /-- A write on a component. -/
  | write (component : Instance) (w : Write)
  /-- The callable that a component stands for. -/
  | yielded (component : Instance)
  /-- A component as a value; it is not written to any more. -/
  | finish (component : Instance)
  /-- The page that a component includes is wired to it, if it can include one. -/
  | wirePage (component : Instance) (page : String)

def BuildRequest.Answer : BuildRequest → Type
  | .construct _ => Instance
  | .check _ => Except Violation Unit
  | .evaluate _ => Except EvaluationError Value
  | .bindValue .. => Except EvaluationError LiveValue
  | .bindCallable _ => Except EvaluationError Callable
  | .wireOwner .. => Except EvaluationError (Option Callable)
  | .wireComponent .. => Except EvaluationError (Option Callable)
  | .write .. => Except WriteError Unit
  | .yielded _ => Option Callable
  | .finish _ => Handle
  | .wirePage .. => Unit

/-- A computation that may put these requests, and may fail. -/
abbrev Build := ExceptT Error (Program BuildRequest.Answer)

namespace Build

/-- Puts a request that always has an answer. -/
def ask (r : BuildRequest) : Build r.Answer :=
  ExceptT.mk (.ask r fun answer => .done (.ok answer))

/-- Puts a request that may fail, and turns the failure into a cause. -/
def askOr {ε α : Type} (r : BuildRequest) (h : r.Answer = Except ε α) (cause : ε → Error) : Build α :=
  ExceptT.mk (.ask r fun answer => .done ((h ▸ answer).mapError cause))

def fail {α : Type} (e : Error) : Build α := ExceptT.mk (.done (.error e))

/-! ## §1 One request each -/

def construct (d : Definition) : Build Instance := ask (.construct d)

/-- Puts a check to the gate; a violation ends the build. -/
def check (c : Check) : Build Unit := askOr (.check c) rfl Error.security

/-- Evaluates the expression of a property. -/
def evaluate (property expression : String) : Build Value :=
  askOr (.evaluate expression) rfl fun e => .bindingResolution property expression e.message

/-- Makes a live value for a property. -/
def bindValue (property expression : String) (type : ValueType) : Build LiveValue :=
  askOr (.bindValue expression type) rfl fun e => .bindingResolution property expression e.message

/-- Makes a callable for a property. -/
def bindCallable (property expression : String) : Build Callable :=
  askOr (.bindCallable expression) rfl fun e => .bindingResolution property expression e.message

/-- Wires a callable to a node; one that does not keep track of its owner stays as it is. -/
def wireOwner (property : String) (c : Callable) (owner : Owner) : Build Callable := do
  let wired ← askOr (.wireOwner c owner) rfl fun e => .bindingResolution property c.expression e.message
  pure (wired.getD c)

/-- Wires a callable to a component; one that does not keep track of it stays as it is. -/
def wireComponent (property : String) (c : Callable) (i : Instance) : Build Callable := do
  let wired ← askOr (.wireComponent c i) rfl fun e => .bindingResolution property c.expression e.message
  pure (wired.getD c)

/-- Writes to a component on behalf of a property. -/
def write (property : String) (i : Instance) (w : Write) : Build Unit :=
  askOr (.write i w) rfl fun e => .reflection property i.typeName e

/-- The callable that a component stands for. -/
def yielded (i : Instance) : Build (Option Callable) := ask (.yielded i)

/-- A finished component as a value. -/
def finish (i : Instance) : Build Handle := ask (.finish i)

/-- Wires the page that a component includes. -/
def wirePage (i : Instance) (page : String) : Build Unit := ask (.wirePage i page)

end Build

end PageTemplates
