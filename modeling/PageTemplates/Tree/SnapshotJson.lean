import PageTemplates.Json.Pretty
import PageTemplates.Json.Reader
import PageTemplates.Tree.Snapshot

/-!
# Snapshots as JSON

A snapshot is written as an object with its fields in order; what is missing or empty is left out, apart
from the setters. It is read back from such an object, or from an array of the fields in order. Unknown
fields are passed over, a known field may be given once, and values may be nested to a fixed depth.
-/

namespace PageTemplates

/-! ## §1 Writing -/

def Json.ofString (s : String) : Json := .text (some s)

/-- A member of an object. -/
def Json.member (name : String) (v : Json) : Option String × Json := (some name, v)

def SetterSummary.toJson (s : SetterSummary) : Json :=
  .object [Json.member "name" (.ofString s.name), Json.member "kind" (.ofString s.kind),
    Json.member "value" (.ofString s.value)]

namespace Snapshot

/-- A member that is left out if its value is empty. -/
def omitIf (empty : Bool) (name : String) (v : Json) : List (Option String × Json) :=
  if empty then [] else [Json.member name v]

mutual

def toJson : Snapshot → Json
  | ⟨ns, tag, setters, loaded, children, facets⟩ =>
    .object ([Json.member "namespace_uri" (.ofString ns), Json.member "tag" (.ofString tag),
        Json.member "setters" (.array (setters.map SetterSummary.toJson))] ++
      ((loaded.map fun text => Json.member "loaded" (.ofString text)).toList ++
      (omitIf children.isEmpty "children" (.array (childrenJson children)) ++
      omitIf facets.isEmpty "facets" (.object (facetsJson facets)))))

/-- Snapshots as the items of an array. -/
def childrenJson : List Snapshot → List Json
  | [] => []
  | s :: rest => s.toJson :: childrenJson rest

/-- Named snapshots as the members of an object. -/
def facetsJson : List (String × Snapshot) → List (Option String × Json)
  | [] => []
  | (name, s) :: rest => Json.member name s.toJson :: facetsJson rest

end

def toText (s : Snapshot) : String := s.toJson.toText

end Snapshot

/-! ## §2 Reading setters -/

/-- The string that a value is. -/
def Json.string? : Json → Option String
  | .text s => s
  | _ => none

/-- One step further in; there is a greatest depth, which may not be reached. -/
def Json.deeper (depth : Nat) : Option Nat := if depth ≤ 1 then none else some (depth - 1)

/-- Notes the value of a field that has not been given before. -/
def Json.once {α : Type} (seen : Option α) (v : Option α) : Option (Option α) :=
  match seen, v with
  | none, some a => some (some a)
  | _, _ => none

namespace SetterSummary

/-- The fields that have been read so far. -/
structure Fields where
  name : Option String
  kind : Option String
  value : Option String

/-- Takes the members of an object one by one. -/
def readMembers (f : Fields) : List (Option String × Json) → Option Fields
  | [] => some f
  | (none, _) :: _ => none
  | (some key, v) :: rest =>
    if key = "name" then (Json.once f.name v.string?).bind fun s => readMembers { f with name := s } rest
    else if key = "kind" then (Json.once f.kind v.string?).bind fun s => readMembers { f with kind := s } rest
    else if key = "value" then (Json.once f.value v.string?).bind fun s => readMembers { f with value := s } rest
    else readMembers f rest

/-- Reads a setter summary. -/
def ofJson? (depth : Nat) (v : Json) : Option SetterSummary := do
  let _ ← Json.deeper depth
  match v with
  | .object ms =>
    let f ← readMembers ⟨none, none, none⟩ ms
    some ⟨← f.name, ← f.kind, ← f.value⟩
  | .array [name, kind, value] => some ⟨← name.string?, ← kind.string?, ← value.string?⟩
  | _ => none

/-- Reads an array of setter summaries. -/
def listOfJson? (depth : Nat) (v : Json) : Option (List SetterSummary) := do
  let depth ← Json.deeper depth
  match v with
  | .array vs => vs.mapM (ofJson? depth)
  | _ => none

end SetterSummary

/-! ## §3 Reading snapshots -/

namespace Snapshot

/-- The fields that have been read so far. -/
structure Fields where
  namespaceUri : Option String
  tag : Option String
  setters : Option (List SetterSummary)
  /-- Whether the control is built. -/
  loaded : Option (Option String)
  children : Option (List Snapshot)
  facets : Option (NameMap Snapshot)

/-- Nothing has been read. -/
def Fields.none : Fields := ⟨.none, .none, .none, .none, .none, .none⟩

/-- The snapshot of the fields, if none is missing that has to be given. -/
def Fields.complete? (f : Fields) : Option Snapshot :=
  match f.namespaceUri, f.tag, f.setters with
  | some ns, some tag, some setters =>
    some ⟨ns, tag, setters, f.loaded.getD .none, f.children.getD [], (f.facets.map (·.entries)).getD []⟩
  | _, _, _ => .none

/-- A string, or null for none. -/
def loadedOfJson? : Json → Option (Option String)
  | .null => some none
  | v => v.string?.map some

mutual

/-- Reads a snapshot that may be nested to a given depth. -/
def ofJson? (depth : Nat) : Json → Option Snapshot
  | .object ms =>
    match Json.deeper depth with
    | some depth => (readMembers depth .none ms).bind Fields.complete?
    | none => none
  | .array vs =>
    match Json.deeper depth with
    | some depth => (readItems depth vs).bind Fields.complete?
    | none => none
  | _ => none

/-- Takes the members of an object one by one. -/
def readMembers (depth : Nat) (f : Fields) : List (Option String × Json) → Option Fields
  | [] => some f
  | (none, _) :: _ => none
  | (some key, v) :: rest =>
    if key = "namespace_uri" then
      (Json.once f.namespaceUri v.string?).bind fun s => readMembers depth { f with namespaceUri := s } rest
    else if key = "tag" then
      (Json.once f.tag v.string?).bind fun s => readMembers depth { f with tag := s } rest
    else if key = "setters" then
      (Json.once f.setters (SetterSummary.listOfJson? depth v)).bind fun s =>
        readMembers depth { f with setters := s } rest
    else if key = "loaded" then
      (Json.once f.loaded (loadedOfJson? v)).bind fun s => readMembers depth { f with loaded := s } rest
    else if key = "children" then
      (Json.once f.children (childrenOfJson? depth v)).bind fun s => readMembers depth { f with children := s } rest
    else if key = "facets" then
      (Json.once f.facets (facetsOfJson? depth v)).bind fun s => readMembers depth { f with facets := s } rest
    else readMembers depth f rest

/-- Takes the fields in order. -/
def readItems (depth : Nat) : List Json → Option Fields
  | ns :: tag :: setters :: rest => do
    let f : Fields := { Fields.none with
      namespaceUri := some (← ns.string?), tag := some (← tag.string?)
      setters := some (← SetterSummary.listOfJson? depth setters) }
    match rest with
    | [] => some f
    | [loaded] => some { f with loaded := some (← loadedOfJson? loaded) }
    | [loaded, children] =>
      some { f with loaded := some (← loadedOfJson? loaded), children := some (← childrenOfJson? depth children) }
    | [loaded, children, facets] =>
      some { f with loaded := some (← loadedOfJson? loaded), children := some (← childrenOfJson? depth children)
                    facets := some (← facetsOfJson? depth facets) }
    | _ => none
  | _ => none

/-- Reads an array of snapshots. -/
def childrenOfJson? (depth : Nat) : Json → Option (List Snapshot)
  | .array vs =>
    match Json.deeper depth with
    | some depth => childItems depth vs
    | none => none
  | _ => none

/-- Reads the items of an array as snapshots. -/
def childItems (depth : Nat) : List Json → Option (List Snapshot)
  | [] => some []
  | v :: rest => do
    let s ← ofJson? depth v
    let more ← childItems depth rest
    some (s :: more)

/-- Reads an object of snapshots; of two members of one name the last counts. -/
def facetsOfJson? (depth : Nat) : Json → Option (NameMap Snapshot)
  | .object ms =>
    match Json.deeper depth with
    | some depth => facetMembers depth .empty ms
    | none => none
  | _ => none

/-- Reads the members of an object as named snapshots. -/
def facetMembers (depth : Nat) (read : NameMap Snapshot) : List (Option String × Json) → Option (NameMap Snapshot)
  | [] => some read
  | (none, _) :: _ => none
  | (some name, v) :: rest => do
    let s ← ofJson? depth v
    facetMembers depth (read.insert name s) rest

end

/-- Values are nested to less than this depth. -/
def depthLimit : Nat := 128

/-- The snapshot that a text writes. -/
def ofText? (s : String) : Option Snapshot := (Json.ofText? s).bind (ofJson? depthLimit)

end Snapshot

end PageTemplates
