import PageTemplates.Security.Check

/-!
# Deny-list policies

A policy denies tags by name, and properties by name or, for one tag only, by the tag and the name joined by
a point. It may also switch off each of the three kinds of bindings as a whole.
-/

namespace PageTemplates

/-- A deny-list policy. -/
structure Policy where
  /-- Tags that may not be created. -/
  deniedTags : List String
  /-- Properties that may not be touched, by name or by tag and name. -/
  deniedProperties : List String
  /-- Load-time expressions may be evaluated. -/
  allowsLoadTime : Bool
  /-- Live values may be installed. -/
  allowsRunTime : Bool
  allowsMethod : Bool
  deriving DecidableEq, Repr

namespace Policy

/-! ## §1 Making a policy -/

/-- The policy that denies nothing. -/
def allowAll : Policy := ⟨[], [], true, true, true⟩

def denyTag (p : Policy) (tag : String) : Policy := { p with deniedTags := tag :: p.deniedTags }

/-- Denies a property, given by its name or by a tag and its name. -/
def denyProperty (p : Policy) (property : String) : Policy :=
  { p with deniedProperties := property :: p.deniedProperties }

/-! ## §2 Deciding -/

/-- A property of one tag, as it is written in a policy. -/
def qualified (tag property : String) : String := tag ++ "." ++ property

def deniesProperty (p : Policy) (tag property : String) : Bool :=
  p.deniedProperties.contains property || p.deniedProperties.contains (qualified tag property)

/-- Decides a check about a property. -/
def decideProperty (p : Policy) (c : Check) (property : String) : Except Violation Unit :=
  if p.deniesProperty c.tag property then .error (.ofCheck c (some "property is not permitted")) else .ok ()

/-- Decides a check about a binding of a kind that may be switched off. -/
def decideBinding (p : Policy) (allowed : Bool) (c : Check) (property : String) : Except Violation Unit :=
  if allowed then p.decideProperty c property
  else .error (.ofCheck c (some "bindings of this kind are disabled"))

def gate (p : Policy) : Gate
  | c@(.create _ _ tag) =>
    if p.deniedTags.contains tag then .error (.ofCheck c (some "tag is not permitted")) else .ok ()
  | c@(.write _ property _) => p.decideProperty c property
  | c@(.loadTime _ property _) => p.decideBinding p.allowsLoadTime c property
  | c@(.runTime _ property _) => p.decideBinding p.allowsRunTime c property
  | c@(.method _ property _) => p.decideBinding p.allowsMethod c property

end Policy

end PageTemplates
