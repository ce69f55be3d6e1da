import PageTemplates.Files.FileTree
import PageTemplates.Proofs.Program.Outcome
import Mathlib.Data.List.Basic

/-!
# Following paths

Laws of following a path through directories and links. The place where a path leads is settled: it is a path of
names through directories (`Reached`), and following it again leads to itself (`walk_settled`, `walk_self`). A path
made of two parts is followed part by part (`walk_append`). A path that never goes up stays below the directory where
it begins until it meets a link (`walk_below`).
-/

namespace PageTemplates.FileTree

variable {t : FileTree}

/-! ## §1 Settled places -/

/-- The step names an entry. -/
structure IsName (step : String) : Prop where
  /-- It goes somewhere. -/
  moves : ¬ (step = "" ∨ step = ".")
  /-- It does not go up. -/
  down : step ≠ ".."
  /-- An entry may have this name. -/
  short : step.utf8ByteSize ≤ nameLimit

/-- The directories that are reached by names through directories. -/
inductive Reached (t : FileTree) : Path → Prop where
  | root : Reached t []
  /-- A directory in a directory. -/
  | step {place : Path} {step : String} (above : Reached t place) (name : IsName step)
      (entry : t.entry? (place ++ [step]) = some .directory) : Reached t (place ++ [step])

theorem Reached.dropLast {place : Path} (h : Reached t place) : Reached t place.dropLast := by
  cases h with
  | root => exact .root
  | step above name entry =>
    rw [List.dropLast_concat]
    exact above

/-- A place to which a path may lead: a directory, or a file in one. -/
inductive Settled (t : FileTree) : Path → Prop where
  | directory {place : Path} (h : Reached t place) : Settled t place
  /-- A file in a directory. -/
  | file {place : Path} {step : String} {bytes : ByteArray} {changed : Nat} (above : Reached t place)
      (name : IsName step) (entry : t.entry? (place ++ [step]) = some (.file bytes changed)) :
      Settled t (place ++ [step])

/-! ## §2 One step -/

/-- Where a walk goes on that has met a link in a directory. -/
def linkStart (place : Path) (target : String) : Path := if target.startsWith "/" then [] else place

variable {follow : Path → Path → Except FileProblem Path}

/-- What a name leads to, if the walk goes on from there to a place. -/
inductive Entered (t : FileTree) (follow : Path → Path → Except FileProblem Path) (place : Path) (step : String)
    (rest p : Path) : Prop where
  | directory (entry : t.entry? (place ++ [step]) = some .directory)
      (next : t.walkWith follow (place ++ [step]) rest = .ok p)
  /-- A file, where the walk ends. -/
  | file {bytes : ByteArray} {changed : Nat} (entry : t.entry? (place ++ [step]) = some (.file bytes changed))
      (last : rest = []) (found : p = place ++ [step])
  | link {target : String} (entry : t.entry? (place ++ [step]) = some (.link target))
      (next : follow (linkStart place target) (steps target ++ rest) = .ok p)

/-- How a walk leads to a place by its first step. -/
inductive Stepped (t : FileTree) (follow : Path → Path → Except FileProblem Path) (place : Path) (step : String)
    (rest p : Path) : Prop where
  | stay (stays : step = "" ∨ step = ".") (next : t.walkWith follow place rest = .ok p)
  | up (goesUp : step = "..") (next : t.walkWith follow place.dropLast rest = .ok p)
  /-- The step names an entry. -/
  | down (name : IsName step) (entered : Entered t follow place step rest p)

theorem walkWith_cons_eq_ok {place rest p : Path} {step : String} :
    t.walkWith follow place (step :: rest) = .ok p ↔ Stepped t follow place step rest p := by
  rw [walkWith]
  constructor
  · intro h
    split at h
    · exact .stay ‹_› h
    · split at h
      · exact .up ‹_› h
      · split at h
        · cases h
        · rename_i hmoves hdown hshort
          refine .down ⟨hmoves, hdown, Nat.not_lt.mp hshort⟩ ?_
          split at h
          · cases h
          · exact .directory ‹_› h
          · split at h
            · cases h
              exact .file ‹_› ‹_› rfl
            · cases h
          · exact .link ‹_› h
  · intro h
    -- each way of stepping picks its branch
    cases h with
    | stay stays next => rw [if_pos stays, next]
    | up goesUp next =>
      subst goesUp
      exact next
    | down name entered =>
      rw [if_neg name.moves, if_neg name.down, if_neg (Nat.not_lt.mpr name.short)]
      cases entered with
      | directory entry next => rw [entry, ← next]
      | file entry last found =>
        subst last found
        rw [entry]
        rfl
      | link entry next =>
        rw [entry]
        exact next

/-! ## §3 Laws of walks -/

theorem walkWith_settled (hfollow : ∀ {place steps p}, Reached t place → follow place steps = .ok p → Settled t p)
    {steps : Path} : ∀ {place p : Path}, Reached t place → t.walkWith follow place steps = .ok p → Settled t p := by
  induction steps with
  | nil =>
    intro place p hplace h
    cases h
    exact .directory hplace
  | cons step rest ih =>
    intro place p hplace h
    cases walkWith_cons_eq_ok.mp h with
    | stay stays next => exact ih hplace next
    | up goesUp next => exact ih hplace.dropLast next
    | down name entered =>
      cases entered with
      | directory entry next => exact ih (.step hplace name entry) next
      | file entry last found =>
        subst found
        exact .file hplace name entry
      | link entry next =>
        refine hfollow ?_ next
        -- a link leads on from the root or from the directory that it is in
        unfold linkStart
        split
        · exact .root
        · exact hplace

theorem walk_settled {links : Nat} {place steps p : Path} (hplace : Reached t place)
    (h : t.walk links place steps = .ok p) : Settled t p := by
  induction links generalizing place steps p with
  | zero =>
    -- no link may be met, so nothing is followed
    refine walkWith_settled ?_ hplace h
    intro place steps p _ h
    cases h
  | succ links ih => exact walkWith_settled (fun hplace h => ih hplace h) hplace h

/-- Names through directories lead to the directory that they name. -/
theorem Reached.walkWith_append {place : Path} (h : Reached t place)
    (follow : Path → Path → Except FileProblem Path) (rest : Path) :
    t.walkWith follow [] (place ++ rest) = t.walkWith follow place rest := by
  induction h generalizing rest with
  | root => rfl
  | step above name entry ih =>
    -- the last name leads from the directory above it to itself
    rw [List.append_assoc, ih, List.singleton_append, walkWith, if_neg name.moves, if_neg name.down,
      if_neg (Nat.not_lt.mpr name.short), entry]

/-- A settled place leads to itself. -/
theorem Settled.walkWith_self {place : Path} (h : Settled t place) : t.walkWith follow [] place = .ok place := by
  cases h with
  | directory h =>
    have hwalk := h.walkWith_append follow []
    rw [List.append_nil] at hwalk
    rw [hwalk]
    rfl
  | file above name entry =>
    rw [above.walkWith_append]
    exact walkWith_cons_eq_ok.mpr (.down name (.file entry rfl rfl))

theorem walk_self {place : Path} (h : Settled t place) (links : Nat) : t.walk links [] place = .ok place := by
  cases links <;> exact h.walkWith_self

/-! ### More links -/

theorem walkWith_mono {follow' : Path → Path → Except FileProblem Path}
    (hfollow : ∀ {place steps p}, follow place steps = .ok p → follow' place steps = .ok p) {steps : Path} :
    ∀ {place p : Path}, t.walkWith follow place steps = .ok p → t.walkWith follow' place steps = .ok p := by
  induction steps with
  | nil => exact fun h => h
  | cons step rest ih =>
    intro place p h
    refine walkWith_cons_eq_ok.mpr ?_
    cases walkWith_cons_eq_ok.mp h with
    | stay stays next => exact .stay stays (ih next)
    | up goesUp next => exact .up goesUp (ih next)
    | down name entered =>
      refine .down name ?_
      cases entered with
      | directory entry next => exact .directory entry (ih next)
      | file entry last found => exact .file entry last found
      | link entry next => exact .link entry (hfollow next)

theorem walk_succ {links : Nat} {place steps p : Path} (h : t.walk links place steps = .ok p) :
    t.walk (links + 1) place steps = .ok p := by
  induction links generalizing place steps p with
  | zero =>
    refine walkWith_mono ?_ h
    intro place steps p h
    cases h
  | succ links ih => exact walkWith_mono ih h

/-- A walk that comes to an end does so too if more links may be met. -/
theorem walk_mono {links more : Nat} {place steps p : Path} (h : t.walk links place steps = .ok p)
    (hle : links ≤ more) : t.walk more place steps = .ok p := by
  induction hle with
  | refl => exact h
  | step _ ih => exact walk_succ ih

/-! ### Parts of a path -/

theorem walkWith_append {links : Nat} (hwalk : t.walk links = t.walkWith follow)
    (hfollow : ∀ {place xs ys p}, follow place (xs ++ ys) = .ok p →
      ∃ q, ∃ left ≤ links, follow place xs = .ok q ∧ t.walk left q ys = .ok p) {xs ys : Path} :
    ∀ {place p : Path}, t.walkWith follow place (xs ++ ys) = .ok p →
      ∃ q, ∃ left ≤ links, t.walkWith follow place xs = .ok q ∧ t.walk left q ys = .ok p := by
  induction xs with
  | nil =>
    intro place p h
    exact ⟨place, links, Nat.le_refl _, rfl, by rwa [hwalk]⟩
  | cons step rest ih =>
    intro place p h
    rw [List.cons_append] at h
    cases walkWith_cons_eq_ok.mp h with
    | stay stays next =>
      obtain ⟨q, left, hle, hfirst, hsecond⟩ := ih next
      exact ⟨q, left, hle, walkWith_cons_eq_ok.mpr (.stay stays hfirst), hsecond⟩
    | up goesUp next =>
      obtain ⟨q, left, hle, hfirst, hsecond⟩ := ih next
      exact ⟨q, left, hle, walkWith_cons_eq_ok.mpr (.up goesUp hfirst), hsecond⟩
    | down name entered =>
      cases entered with
      | directory entry next =>
        obtain ⟨q, left, hle, hfirst, hsecond⟩ := ih next
        exact ⟨q, left, hle, walkWith_cons_eq_ok.mpr (.down name (.directory entry hfirst)), hsecond⟩
      | file entry last found =>
        -- nothing follows a file, so the second part is empty
        obtain ⟨rfl, rfl⟩ := List.append_eq_nil_iff.mp last
        refine ⟨p, links, Nat.le_refl _, walkWith_cons_eq_ok.mpr (.down name (.file entry rfl found)), ?_⟩
        rw [hwalk]
        rfl
      | link entry next =>
        -- the target of the link goes to the first part
        rw [← List.append_assoc] at next
        obtain ⟨q, left, hle, hfirst, hsecond⟩ := hfollow next
        exact ⟨q, left, hle, walkWith_cons_eq_ok.mpr (.down name (.link entry hfirst)), hsecond⟩

/-- A path of two parts leads where the second part leads from the place to which the first one leads. -/
theorem walk_append {links : Nat} {place xs ys p : Path} (h : t.walk links place (xs ++ ys) = .ok p) :
    ∃ q, ∃ left ≤ links, t.walk links place xs = .ok q ∧ t.walk left q ys = .ok p := by
  induction links generalizing place xs ys p with
  | zero =>
    refine walkWith_append rfl ?_ h
    intro place xs ys p h
    cases h
  | succ links ih =>
    refine walkWith_append rfl ?_ h
    intro place xs ys p h
    obtain ⟨q, left, hle, hfirst, hsecond⟩ := ih h
    exact ⟨q, left, Nat.le_succ_of_le hle, hfirst, hsecond⟩

/-! ## §4 Paths that do not go up -/

/-- The first link that is met on a path that does not go up: the directory where it is, where it leads, and the steps
that are left. -/
def firstLink (t : FileTree) (place : Path) : Path → Option (Path × String × Path)
  | [] => none
  | step :: rest =>
    if step = "" ∨ step = "." then t.firstLink place rest
    else match t.entry? (place ++ [step]) with
      | some .directory => t.firstLink (place ++ [step]) rest
      | some (.link target) => some (place, target, rest)
      | some (.file ..) | none => none

/-- A path that does not go up stays below the place where it begins, or leads where its first link does. -/
theorem walkWith_below {steps : Path} (hup : ".." ∉ steps) : ∀ {place p : Path},
    t.walkWith follow place steps = .ok p →
      match t.firstLink place steps with
      | none => place <+: p
      | some (directory, target, rest) =>
        follow (linkStart directory target) (FileTree.steps target ++ rest) = .ok p := by
  induction steps with
  | nil =>
    intro place p h
    cases h
    exact List.prefix_rfl
  | cons step rest ih =>
    intro place p h
    have hrest : ".." ∉ rest := fun hmem => hup (List.mem_cons_of_mem step hmem)
    rw [firstLink]
    cases walkWith_cons_eq_ok.mp h with
    | stay stays next =>
      rw [if_pos stays]
      exact ih hrest next
    -- no step goes up
    | up goesUp next => exact absurd (goesUp ▸ List.mem_cons_self) hup
    | down name entered =>
      rw [if_neg name.moves]
      cases entered with
      | directory entry next =>
        -- what is below the directory in which the walk goes on is below this one too
        rw [entry]
        dsimp only
        have hbelow := ih hrest next
        split at hbelow
        · exact (List.prefix_append place [step]).trans hbelow
        · exact hbelow
      | file entry last found =>
        rw [entry, found]
        exact List.prefix_append place [step]
      | link entry next =>
        rw [entry]
        exact next

theorem walk_below {links more : Nat} {place steps p : Path} (hup : ".." ∉ steps)
    (h : t.walk links place steps = .ok p) (hle : links ≤ more) :
    match t.firstLink place steps with
    | none => place <+: p
    | some (directory, target, rest) =>
      t.walk more (linkStart directory target) (FileTree.steps target ++ rest) = .ok p := by
  cases links with
  | zero =>
    have hbelow := walkWith_below hup h
    split at hbelow
    · exact hbelow
    · cases hbelow
  | succ links =>
    have hbelow := walkWith_below hup h
    split at hbelow
    · exact hbelow
    · exact walk_mono hbelow (Nat.le_of_succ_le hle)

end PageTemplates.FileTree
