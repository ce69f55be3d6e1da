import PageTemplates.Files.DirectoryLoader
import PageTemplates.Proofs.Files.Walk

/-!
# Pages stay in their directory

The file that is read for a page lies below the base directory of its loader, if the loader knows where that is. A
loader that was made before its base directory does not know; it refuses pages that go up, and relies on the rest
going down. A link in the base directory can lead anywhere, so such a loader may read a file outside, and
`load_confined_iff` says that it does so only by a link.

A loader that knows where its base directory was does not look again. If the base directory has come to lead elsewhere
since, the files that are read still lie below its former place, and the same theorem says when they lie below the
present one.
-/

namespace PageTemplates

namespace FileTree

variable {t : FileTree}

/-! ## §1 What is read -/

theorem canonical_eq_ok {path p : Path} :
    t.canonical path = .ok p ↔
      (path.any fun step => step.toList.contains '\x00') = false ∧ t.walk linkLimit [] path = .ok p := by
  unfold canonical
  split
  · rename_i hinvalid
    rw [hinvalid]
    exact ⟨nofun, fun h => nomatch h.1⟩
  · rename_i hvalid
    rw [Bool.eq_false_iff.mpr hvalid]
    exact ⟨fun h => ⟨rfl, h⟩, fun h => h.2⟩

theorem canonical_canonical {path p q : Path} (h : t.canonical path = .ok p) (hp : t.canonical p = .ok q) : q = p := by
  -- where a walk has ended there is no link left to follow
  have hsettled : Settled t p := walk_settled .root (canonical_eq_ok.mp h).2
  have hwalk := (canonical_eq_ok.mp hp).2
  rw [walk_self hsettled] at hwalk
  exact (Except.ok.inj hwalk).symm

theorem readText_eq_ok {path : Path} {s : String} (h : t.readText path = .ok s) :
    ∃ place bytes changed, t.canonical path = .ok place ∧ t.entry? place = some (.file bytes changed) ∧
      String.fromUTF8? bytes = some s := by
  obtain ⟨⟨bytes, changed⟩, hfile, htext⟩ := Outcome.bind_eq_ok.mp h
  obtain ⟨entry, hfind, hentry⟩ := Outcome.bind_eq_ok.mp hfile
  obtain ⟨place, hlocate, hplace⟩ := Outcome.bind_eq_ok.mp hfind
  obtain ⟨_, _, hcanonical⟩ := Outcome.bind_eq_ok.mp hlocate
  refine ⟨place, bytes, changed, hcanonical, ?_, ?_⟩
  · split at hplace
    · rename_i found hfound
      cases hplace
      cases entry with
      | file bytes' changed' =>
        cases hentry
        exact hfound
      | directory => cases hentry
      | link target => cases hentry
    · cases hplace
  · split at htext
    · rename_i text hdecoded
      cases htext
      exact hdecoded
    · cases htext

end FileTree

namespace DirectoryLoader

/-! ## §2 Places -/

/-- Where the base directory is: where it led when the loader was made or, if it was not there then, where it leads
now. -/
def basePlace (l : DirectoryLoader) (files : FileTree) : Option Path :=
  l.place.or (files.canonical l.base).toOption

/-- Where the file lies that is read for a page. -/
def readPlace (l : DirectoryLoader) (files : FileTree) (uri : PageUri) : Option Path :=
  (l.path? files uri).bind fun path => (files.canonical path).toOption

/-- A path that goes down from a directory meets a link, and what follows it leads out of the directory. -/
def LeadsOut (files : FileTree) (place steps : Path) : Prop :=
  ∃ directory target rest out, files.firstLink place steps = some (directory, target, rest) ∧
    files.walk FileTree.linkLimit (FileTree.linkStart directory target) (FileTree.steps target ++ rest) = .ok out ∧
    ¬ place <+: out

/-- Steps lead out of a directory: they go up, or meet a link if they do not. -/
inductive GoesOut (files : FileTree) (place steps : Path) : Prop where
  | up {out : Path} (hup : ".." ∈ steps) (hout : files.walk FileTree.linkLimit place steps = .ok out)
      (h : ¬ place <+: out)
  | link (hup : ".." ∉ steps) (h : LeadsOut files place steps)

variable {l : DirectoryLoader} {files : FileTree} {uri : PageUri}

/-- The path that is used for a page: the place to which its path leads, which is below the recorded place of the base
directory; or the path itself, which does not go up. -/
theorem path?_eq_some {path : Path} (h : l.path? files uri = some path) :
    (∃ b, l.place = some b ∧ b <+: path ∧ files.canonical (l.base ++ FileTree.steps (relative uri)) = .ok path) ∨
      (path = l.base ++ FileTree.steps (relative uri) ∧ ".." ∉ FileTree.steps (relative uri) ∧
        ∀ place, files.canonical path = .ok place → l.place = none) := by
  unfold path? at h
  dsimp only at h
  split at h
  · cases h
  · split at h
    · rename_i place b hwhole hb
      split at h
      · rename_i hprefix
        cases h
        exact .inl ⟨b, hb, List.isPrefixOf_iff_prefix.mp hprefix, hwhole⟩
      · cases h
    · rename_i hnot
      split at h
      · cases h
      · rename_i hup
        cases h
        refine .inr ⟨rfl, fun hmem => hup (List.contains_iff_mem.mpr hmem), fun place hplace => ?_⟩
        cases hrecorded : l.place with
        | none => rfl
        | some b => exact (hnot place b hplace hrecorded).elim

theorem load_eq_ok {page : PageContent} (h : l.load files uri = .ok page) :
    ∃ path, l.path? files uri = some path ∧ files.readText path = .ok page.content := by
  unfold load at h
  split at h
  · cases h
  · rename_i path hpath
    split at h
    · rename_i hstatus htext
      cases h
      exact ⟨path, hpath, htext⟩
    · cases h
    · cases h

section Bases

variable {base steps place : Path}

/-- The path of a page leads to the base directory first, and from there along the steps of the page. -/
theorem exists_walk_of_canonical (h : files.canonical (base ++ steps) = .ok place) :
    ∃ now, files.canonical base = .ok now ∧ ∃ left ≤ FileTree.linkLimit, files.walk left now steps = .ok place := by
  obtain ⟨hvalid, hwalk⟩ := FileTree.canonical_eq_ok.mp h
  obtain ⟨now, left, hle, hbase, hrest⟩ := FileTree.walk_append hwalk
  rw [List.any_append, Bool.or_eq_false_iff] at hvalid
  exact ⟨now, FileTree.canonical_eq_ok.mpr ⟨hvalid.1, hbase⟩, left, hle, hrest⟩

/-- Steps that do not go up lead below the directory where they begin, or where a link leads. -/
theorem prefix_iff_of_walk {b : Path} {left : Nat} (hup : ".." ∉ steps) (hle : left ≤ FileTree.linkLimit)
    (h : files.walk left b steps = .ok place) : b <+: place ↔ ¬ LeadsOut files b steps := by
  have hbelow := FileTree.walk_below hup h hle
  constructor
  · rintro hprefix ⟨directory, target, rest, out, hlink, hout, hne⟩
    -- the walk behind the link is the one that led to the file
    rw [hlink] at hbelow
    rw [hbelow] at hout
    cases hout
    exact hne hprefix
  · intro hnot
    split at hbelow
    · exact hbelow
    · rename_i directory target rest hlink
      by_contra hne
      exact hnot ⟨directory, target, rest, place, hlink, hbelow, hne⟩

/-- With steps that may go up, a walk ends outside just if it goes out. -/
theorem prefix_iff_not_goesOut {now : Path} {left : Nat} (hle : left ≤ FileTree.linkLimit)
    (h : files.walk left now steps = .ok place) : now <+: place ↔ ¬ GoesOut files now steps := by
  constructor
  · rintro hprefix (⟨hup, hout, hne⟩ | ⟨hup, hleads⟩)
    · rw [FileTree.walk_mono h hle] at hout
      cases hout
      exact hne hprefix
    · exact (prefix_iff_of_walk hup hle h).mp hprefix hleads
  · intro hnot
    by_contra hne
    by_cases hup : ".." ∈ steps
    · exact hnot (.up hup (FileTree.walk_mono h hle) hne)
    · exact hnot (.link hup (not_not.mp (mt (prefix_iff_of_walk hup hle h).mpr hne)))

end Bases

/-- **Which files are read**: what is loaded for a page is the text of a file, and this file lies below the base
directory unless the loader was made before that directory and the path of the page leads out of it by a link. The base
directory is meant as it was when the loader was made, if it was there. Below the place where it leads now the file lies
if that is the recorded place, and otherwise just if the steps of the page do not go out. -/
theorem load_confined_iff {made files : FileTree} {base : Path} {uri : PageUri} {page : PageContent}
    (h : (make made base).load files uri = .ok page) :
    ∃ b now place bytes changed, (make made base).basePlace files = some b ∧ files.canonical base = .ok now ∧
      (make made base).readPlace files uri = some place ∧ files.Settled place ∧
      files.entry? place = some (.file bytes changed) ∧ String.fromUTF8? bytes = some page.content ∧
      (b <+: place ↔
        ¬ ((make made base).place = none ∧ LeadsOut files b (FileTree.steps (relative uri)))) ∧
      (now <+: place ↔
        (make made base).place = some now ∨ ¬ GoesOut files now (FileTree.steps (relative uri))) := by
  obtain ⟨path, hpath, htext⟩ := load_eq_ok h
  obtain ⟨place, bytes, changed, hplace, hentry, hdecoded⟩ := FileTree.readText_eq_ok htext
  have hread : (make made base).readPlace files uri = some place := by
    rw [readPlace, hpath, Option.bind_some, hplace]
    rfl
  have hsettled : files.Settled place := FileTree.walk_settled .root (FileTree.canonical_eq_ok.mp hplace).2
  rcases path?_eq_some hpath with ⟨b, hb, hprefix, hwhole⟩ | ⟨rfl, hup, hnone⟩
  · -- the path is a place already, so it is the place that is read
    obtain rfl := FileTree.canonical_canonical hwhole hplace
    obtain ⟨now, hnow, left, hle, hrest⟩ := exists_walk_of_canonical hwhole
    refine ⟨b, now, place, bytes, changed, ?_, hnow, hread, hsettled, hentry, hdecoded, ?_, ?_⟩
    · rw [basePlace, hb]
      rfl
    · refine iff_of_true hprefix fun hunrecorded => ?_
      rw [hb] at hunrecorded
      cases hunrecorded.1
    · rw [prefix_iff_not_goesOut hle hrest, hb]
      refine (or_iff_right_of_imp fun hsame => ?_).symm
      -- the test was made against the place where the base directory leads
      cases hsame
      exact (prefix_iff_not_goesOut hle hrest).mp hprefix
  · -- the path leads somewhere, so it was used as it stands because the base directory is not recorded
    have hunrecorded := hnone place hplace
    obtain ⟨now, hnow, left, hle, hrest⟩ := exists_walk_of_canonical hplace
    refine ⟨now, now, place, bytes, changed, ?_, hnow, hread, hsettled, hentry, hdecoded, ?_, ?_⟩
    · rw [basePlace, hunrecorded]
      exact congrArg Except.toOption hnow
    · rw [prefix_iff_of_walk hup hle hrest, and_iff_right hunrecorded]
    · rw [prefix_iff_not_goesOut hle hrest, hunrecorded]
      exact (or_iff_right nofun).symm

/-- A directory with a page and a link to it. -/
def linkedSite : FileTree :=
  ⟨[(["site"], .directory), (["site", "home"], .file "a".toUTF8 1), (["site", "start"], .link "home")], 1⟩

/-- A page that is reached by a link inside the base directory. -/
theorem linkedSite_confined :
    let l := make .empty ["site"]
    ∃ page b now place bytes changed, l.load linkedSite ⟨"start"⟩ = .ok page ∧ l.basePlace linkedSite = some b ∧
      linkedSite.canonical ["site"] = .ok now ∧
      l.readPlace linkedSite ⟨"start"⟩ = some place ∧ linkedSite.Settled place ∧
      linkedSite.entry? place = some (.file bytes changed) ∧ String.fromUTF8? bytes = some page.content ∧
      (b <+: place ↔ ¬ (l.place = none ∧ LeadsOut linkedSite b (FileTree.steps (relative ⟨"start"⟩)))) ∧
      (now <+: place ↔ l.place = some now ∨ ¬ GoesOut linkedSite now (FileTree.steps (relative ⟨"start"⟩))) := by
  have hok : ((make .empty ["site"]).load linkedSite ⟨"start"⟩).isOk := by decide +kernel
  obtain ⟨page, h⟩ := Outcome.exists_of_isOk hok
  obtain ⟨b, now, place, bytes, changed, hread⟩ := load_confined_iff h
  exact ⟨page, b, now, place, bytes, changed, h, hread⟩

/-- A base directory that is a link may come to lead elsewhere. What lies below its former place is read nevertheless,
also if it does not lie below the present one. -/
example :
    let before : FileTree := ⟨[(["a"], .directory), (["a", "b"], .directory), (["a", "home"], .file "a".toUTF8 1),
      (["site"], .link "a")], 1⟩
    let after := before.put ["site"] (.link "a/b")
    let l := make before ["site"]
    (l.load after ⟨"../home"⟩).isOk ∧ after.canonical ["site"] = .ok ["a", "b"] ∧
      l.readPlace after ⟨"../home"⟩ = some ["a", "home"] := by
  decide +kernel

/-- A loader that was made before its base directory reads a file outside it by a link. -/
theorem linked_page_escapes :
    let l := make .host ["late", "..", "proc", "self"]
    let files := FileTree.host.put ["late"] .directory
    (l.load files ⟨"root/dev/null"⟩).isOk ∧ l.basePlace files = some ["proc", "self"] ∧
      l.readPlace files ⟨"root/dev/null"⟩ = some ["dev", "null"] ∧ ¬ ["proc", "self"] <+: ["dev", "null"] := by
  decide +kernel

end DirectoryLoader

end PageTemplates
