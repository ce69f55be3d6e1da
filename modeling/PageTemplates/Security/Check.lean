import PageTemplates.Component.Store
import PageTemplates.Page.Uri
import PageTemplates.Text.Quoted

/-!
# The security gate

Before a control is created, a value is written, or a binding is evaluated or installed, a check is put to a
gate. A gate answers with a violation or lets the check pass. Any function from checks to answers is a gate;
`Policy` describes those made of deny lists.
-/

namespace PageTemplates

/-! ## §1 Checks -/

/-- What a check is about. -/
structure Target where
  /-- The tag of the node. -/
  tag : String
  /-- The component, once there is one. -/
  component : Option Instance
  deriving DecidableEq, Repr

/-- A target in words. -/
def Target.text (t : Target) : String :=
  let component := match t.component with
    | some i => "Some(" ++ Text.quoted i.typeName ++ ")"
    | none => "None"
  "CheckTarget \x7b tag: " ++ Text.quoted t.tag ++ ", component: " ++ component ++ " \x7d"

/-- A question put to the gate. -/
inductive Check where
  /-- May a control be created for this tag? -/
  | create (uri : Option PageUri) (namespaceUri tag : String)
  /-- May this value be written? -/
  | write (target : Target) (property : String) (value : Value)
  /-- May this expression be evaluated? -/
  | loadTime (target : Target) (property expression : String)
  /-- May this live value be installed? -/
  | runTime (target : Target) (property : String) (binding : LiveValue)
  /-- May this callable be installed? -/
  | method (target : Target) (property : String) (callable : Callable)

/-- The kinds of checks. -/
inductive CheckKind where
  | create
  | write
  | loadTime
  | runTime
  | method
  deriving DecidableEq, Repr

def CheckKind.name : CheckKind → String
  | .create => "create control"
  | .write => "set property"
  | .loadTime => "load-time binding"
  | .runTime => "runtime binding"
  | .method => "method binding"

namespace Check

def kind : Check → CheckKind
  | .create .. => .create
  | .write .. => .write
  | .loadTime .. => .loadTime
  | .runTime .. => .runTime
  | .method .. => .method

/-- The tag that a check is about. -/
def tag : Check → String
  | .create _ _ tag => tag
  | .write t .. | .loadTime t .. | .runTime t .. | .method t .. => t.tag

/-- The property that a check is about; creation is about none. -/
def property? : Check → Option String
  | .create .. => none
  | .write _ p _ | .loadTime _ p _ | .runTime _ p _ | .method _ p _ => some p

end Check

/-! ## §2 Violations -/

/-- A check that did not pass. -/
structure Violation where
  check : CheckKind
  /-- The tag it was about. -/
  tag : String
  /-- The property it was about. -/
  property : Option String
  /-- Why it did not pass. -/
  reason : Option String
  deriving DecidableEq, Repr

namespace Violation

/-- The text of a violation. -/
def message (v : Violation) : String :=
  let property := match v.property with
    | some p => " property '" ++ p ++ "'"
    | none => ""
  "Security violation (" ++ v.check.name ++ ") on '" ++ v.tag ++ "'" ++ property ++ ": " ++ v.reason.getD "denied"

/-- The violation that a check amounts to when it does not pass. -/
def ofCheck (c : Check) (reason : Option String) : Violation := ⟨c.kind, c.tag, c.property?, reason⟩

end Violation

/-! ## §3 Gates -/

/-- Answers checks. -/
abbrev Gate := Check → Except Violation Unit

namespace Gate

def permissive : Gate := fun _ => .ok ()

/-- Refuses the checks that `vetoed` holds of, without a reason, and leaves the others to another gate. -/
def vetoing (vetoed : Check → Bool) (gate : Gate) : Gate := fun c =>
  if vetoed c then .error (.ofCheck c none) else gate c

end Gate

end PageTemplates
