/-!
# File trees

Directories, files and symbolic links under absolute paths, and how a path is followed. A path is a list of
steps from the root; a step names an entry, stays (`.` or nothing), or goes up (`..`). Following a path gives
the place where it leads, which is a path of names alone, without links.

A file keeps the moment of its last change, counted in changes of the tree.
-/

namespace PageTemplates

/-! ## §1 Entries -/

/-- A path from the root. -/
abbrev Path := List String

/-- What a place holds. -/
inductive FileEntry where
  | directory
  /-- A file with its bytes and the moment of its last change. -/
  | file (bytes : ByteArray) (changed : Nat)
  | link (target : String)

/-- Why a path cannot be followed, or a file not be used. -/
inductive FileProblem where
  | notFound
  | notDirectory
  | isDirectory
  | alreadyExists
  | nameTooLong
  | invalidName
  | tooManyLinks
  | notText
  deriving DecidableEq, Repr

/-- The problem in words. -/
def FileProblem.message : FileProblem → String
  | .notFound => "no such file or directory"
  | .notDirectory => "not a directory"
  | .isDirectory => "is a directory"
  | .alreadyExists => "file exists"
  | .nameTooLong => "file name too long"
  | .invalidName => "invalid file name"
  | .tooManyLinks => "too many levels of symbolic links"
  | .notText => "stream did not contain valid text"

/-- Entries by place. The root is a directory and needs no entry. -/
structure FileTree where
  entries : List (Path × FileEntry)
  /-- How many changes have been made. -/
  clock : Nat

namespace FileTree

/-- The tree of the root alone. -/
def empty : FileTree := ⟨[], 0⟩

/-- The tree of a host where nothing has been stored: a link leads from the directory of a process to the root, and
there is a file that is always empty. -/
def host : FileTree where
  entries := [(["proc"], .directory), (["proc", "self"], .directory), (["proc", "self", "root"], .link "/"),
    (["dev"], .directory), (["dev", "null"], .file ByteArray.empty 0)]
  clock := 0

/-- What a place holds. -/
def entry? (t : FileTree) (place : Path) : Option FileEntry :=
  if place = [] then some .directory else t.entries.lookup place

/-- The steps that a text of a path describes. -/
def steps (text : String) : Path := (text.toList.splitOn '/').map String.ofList

/-! ## §2 Following paths -/

/-- The longest name of an entry, in bytes. -/
def nameLimit : Nat := 255

/-- The longest text of a path, in bytes. -/
def pathLimit : Nat := 4095

/-- Refuses a path whose text cannot name anything, whatever the tree holds. -/
def checkText (path : Path) : Except FileProblem Unit :=
  if path.any fun step => step.toList.contains '\x00' then .error .invalidName
  else if pathLimit < path.foldl (fun bytes step => bytes + step.utf8ByteSize + 1) 0 then .error .nameTooLong
  else .ok ()

/-- Follows steps from a directory. `follow` goes on from a directory when a link has been met. -/
def walkWith (t : FileTree) (follow : Path → Path → Except FileProblem Path) (place : Path) :
    Path → Except FileProblem Path
  | [] => .ok place
  | step :: rest =>
    if step = "" ∨ step = "." then t.walkWith follow place rest
    else if step = ".." then t.walkWith follow place.dropLast rest
    else if nameLimit < step.utf8ByteSize then .error .nameTooLong
    else match t.entry? (place ++ [step]) with
      | none => .error .notFound
      | some .directory => t.walkWith follow (place ++ [step]) rest
      -- a file may only be the end of a path, even if the steps after it go nowhere
      | some (.file ..) => if rest = [] then .ok (place ++ [step]) else .error .notDirectory
      | some (.link target) =>
        follow (if target.startsWith "/" then [] else place) (steps target ++ rest)

/-- Follows steps from a directory, through a limited number of links. -/
def walk (t : FileTree) : (links : Nat) → (place steps : Path) → Except FileProblem Path
  | 0 => t.walkWith fun _ _ => .error .tooManyLinks
  | links + 1 => t.walkWith (walk t links)

/-- The number of links that may be met on the way. -/
def linkLimit : Nat := 40

/-- The place where a path leads, however long the path is. -/
def canonical (t : FileTree) (path : Path) : Except FileProblem Path :=
  if path.any fun step => step.toList.contains '\x00' then .error .invalidName else t.walk linkLimit [] path

/-- The place where a path leads that is to be used as it stands, and so has to keep the limit on its length. -/
def locate (t : FileTree) (path : Path) : Except FileProblem Path := do
  checkText path
  t.canonical path

/-! ## §3 Files -/

/-- What a path leads to. -/
def find (t : FileTree) (path : Path) : Except FileProblem FileEntry := do
  let place ← t.locate path
  match t.entry? place with
  | some e => .ok e
  | none => .error .notFound

/-- The bytes of the file to which a path leads, and the moment of its last change. -/
def file (t : FileTree) (path : Path) : Except FileProblem (ByteArray × Nat) := do
  match ← t.find path with
  | .file bytes changed => .ok (bytes, changed)
  | .directory | .link _ => .error .isDirectory

/-- The size of the file to which a path leads, and the moment of its last change. -/
def status (t : FileTree) (path : Path) : Except FileProblem (Nat × Nat) :=
  (t.file path).map fun f => (f.1.size, f.2)

/-- The text of the file to which a path leads. -/
def readText (t : FileTree) (path : Path) : Except FileProblem String := do
  let f ← t.file path
  match String.fromUTF8? f.1 with
  | some s => .ok s
  | none => .error .notText

/-! ## §4 Changes -/

def put (t : FileTree) (place : Path) (e : FileEntry) : FileTree :=
  { t with entries := (place, e) :: t.entries.filter fun x => x.1 != place }

/-- The place where a path leads, if that is a directory. -/
def directoryAt (t : FileTree) (path : Path) : Except FileProblem Path := do
  let place ← t.locate path
  match t.entry? place with
  | some .directory => .ok place
  | _ => .error .notDirectory

/-- Makes the directory at the end of a path, unless one is there already. The directory that is to hold it has to be
there. -/
def makeDirectory (t : FileTree) (path : Path) : Except FileProblem FileTree := do
  checkText path
  match path.reverse.dropWhile (· = "") with
  | [] => .ok t
  | name :: above =>
    let place ← t.directoryAt above.reverse
    if name = "." ∨ name = ".." then .ok t
    else if nameLimit < name.utf8ByteSize then .error .nameTooLong
    else match t.entry? (place ++ [name]) with
      | some .directory => .ok t
      | some (.file ..) => .error .alreadyExists
      -- a link will do if it leads to a directory
      | some (.link _) => if (t.directoryAt path).isOk then .ok t else .error .alreadyExists
      | none => .ok (t.put (place ++ [name]) .directory)

/-- The steps up to the last one that goes somewhere. -/
def settled (path : Path) : Path := (path.reverse.dropWhile fun step => step = "" ∨ step = ".").reverse

/-- The path above the last step that goes somewhere. -/
def parent (path : Path) : Path := settled (settled path).dropLast

/-- Leaving out the last steps that go nowhere never makes a path longer. -/
theorem length_settled_le (path : Path) : (settled path).length ≤ path.length := by
  rw [settled, List.length_reverse]
  exact Nat.le_trans (List.dropWhile_sublist _).length_le (by simp)

/-- The path above is shorter, so going up comes to an end at the root. -/
theorem length_parent_lt {path : Path} (h : path ≠ []) : (parent path).length < path.length := by
  have h₁ := length_settled_le (settled path).dropLast
  have h₂ := length_settled_le path
  have h₃ := List.length_pos_iff.mpr h
  simp only [List.length_dropLast] at h₁
  simp only [parent]
  omega

/-- An attempted change, and the tree that it leaves: the changed one, or after a failure the tree as it was. -/
def leaving (t : FileTree) : Except FileProblem FileTree → Except FileProblem Unit × FileTree
  | .ok changed => (.ok (), changed)
  | .error p => (.error p, t)

/-- Makes the directory at the end of a path and, where that is what is missing, the directories above it. Those that
have been made stay when one below them cannot be made. -/
def makeDirectories (t : FileTree) (path : Path) : Except FileProblem Unit × FileTree :=
  if path = [] then (.ok (), t)
  else match t.makeDirectory path with
    | .error .notFound => match t.makeDirectories (parent path) with
      | (.ok (), above) => above.leaving (above.makeDirectory path)
      | failed => failed
    | answer => t.leaving answer
termination_by path.length
decreasing_by exact length_parent_lt ‹_›

/-- Writes a file, which may exist already; its directory has to. -/
def write (t : FileTree) (path : Path) (bytes : ByteArray) : Except FileProblem FileTree := do
  checkText path
  -- a link at the end is not followed
  let place ← t.directoryAt path.dropLast
  let name := path.getLast?.getD ""
  if name = "" ∨ name = "." ∨ name = ".." then .error .isDirectory
  else if nameLimit < name.utf8ByteSize then .error .nameTooLong
  else match t.entry? (place ++ [name]) with
    | none | some (.file ..) =>
      .ok { t.put (place ++ [name]) (.file bytes (t.clock + 1)) with clock := t.clock + 1 }
    | some .directory | some (.link _) => .error .isDirectory

def remove (t : FileTree) (path : Path) : Except FileProblem FileTree := do
  let place ← t.locate path
  match t.entry? place with
  | some (.file ..) => .ok { t with entries := t.entries.filter fun x => x.1 != place }
  | _ => .error .isDirectory

end FileTree

end PageTemplates
