import PageTemplates.Security.Policy
import Mathlib.Data.List.Basic

/-!
# Properties that are denied for one tag

A policy can deny a property for one tag only, by the tag and the name joined by a point. It keeps such a text in the
same list as plain names. So the text has more than one reading: it may be the whole of a name, and if the tag or the
name holds a point itself, it may be cut there. Every reading is denied (`Policy.DeniedWith`).

These are the only side effects. A check about any other property has the answer that it had before, and so has one that
was refused before (`gate_denyProperty_qualified`). For tags and names without points this means that nothing but the
property itself is touched.

## Structure

- §1 says in which ways a joined text can be cut.
- §2 says when a policy lets a check about a property pass, and what one more denial does to that.
-/

namespace PageTemplates.Policy

/-! ## §1 Readings of a joined text -/

/-- What is denied, besides a property of a tag, where the two are denied by their joined text. -/
inductive DeniedWith (tag property : String) : (otherTag other : String) → Prop where
  /-- The text is the name of the other property. The tag makes no difference then. -/
  | named (otherTag : String) : DeniedWith tag property otherTag (qualified tag property)
  /-- The tag ends at a point inside the denied tag. -/
  | earlier {otherTag middle : String} (h : tag = qualified otherTag middle) :
      DeniedWith tag property otherTag (qualified middle property)
  /-- The name begins behind a point inside the denied name. -/
  | later {middle other : String} (h : property = qualified middle other) :
      DeniedWith tag property (qualified tag middle) other

variable {tag property otherTag other : String}

theorem toList_qualified (tag property : String) :
    (qualified tag property).toList = tag.toList ++ '.' :: property.toList := by
  simp [qualified]

/-- A text that is joined in two ways is joined at the same point, or at two points of which one comes first. -/
theorem qualified_eq_qualified_iff :
    qualified otherTag other = qualified tag property ↔
      (otherTag = tag ∧ other = property) ∨
        (∃ middle, tag = qualified otherTag middle ∧ other = qualified middle property) ∨
        (∃ middle, property = qualified middle other ∧ otherTag = qualified tag middle) := by
  constructor
  · intro h
    have hchars := congrArg String.toList h
    rw [toList_qualified, toList_qualified, List.append_eq_append_iff] at hchars
    rcases hchars with ⟨between, htag, hrest⟩ | ⟨between, htag, hrest⟩
    all_goals rcases List.cons_eq_append_iff.mp hrest with ⟨rfl, hname⟩ | ⟨middle, rfl, hname⟩
    · -- nothing lies between the two points
      obtain ⟨-, hname⟩ := List.cons.inj hname
      exact .inl ⟨String.toList_inj.mp (by simpa using htag.symm), String.toList_inj.mp hname.symm⟩
    · refine .inr (.inl ⟨String.ofList middle, String.toList_inj.mp ?_, String.toList_inj.mp ?_⟩)
      · rw [htag, toList_qualified, String.toList_ofList]
      · rw [hname, toList_qualified, String.toList_ofList]
    · obtain ⟨-, hname⟩ := List.cons.inj hname
      exact .inl ⟨String.toList_inj.mp (by simpa using htag), String.toList_inj.mp hname⟩
    · refine .inr (.inr ⟨String.ofList middle, String.toList_inj.mp ?_, String.toList_inj.mp ?_⟩)
      · rw [hname, toList_qualified, String.toList_ofList]
      · rw [htag, toList_qualified, String.toList_ofList]
  · -- joining is associative
    rintro (⟨rfl, rfl⟩ | ⟨middle, rfl, rfl⟩ | ⟨middle, rfl, rfl⟩)
    · rfl
    all_goals simp [qualified, String.append_assoc]

theorem deniedWith_iff (h : (otherTag, other) ≠ (tag, property)) :
    DeniedWith tag property otherTag other ↔
      other = qualified tag property ∨ qualified otherTag other = qualified tag property := by
  rw [qualified_eq_qualified_iff]
  constructor
  · intro hdenied
    cases hdenied with
    | named => exact .inl rfl
    | earlier htag => exact .inr (.inr (.inl ⟨_, htag, rfl⟩))
    | later hname => exact .inr (.inr (.inr ⟨_, hname, rfl⟩))
  · rintro (rfl | ⟨rfl, rfl⟩ | ⟨middle, htag, rfl⟩ | ⟨middle, hname, rfl⟩)
    · exact .named otherTag
    · exact absurd rfl h
    · exact .earlier htag
    · exact .later hname

/-! ## §2 Answers of a policy -/

/-- Checks of this kind are not switched off. -/
def allowsKind (p : Policy) : CheckKind → Bool
  | .create | .write => true
  | .loadTime => p.allowsLoadTime
  | .runTime => p.allowsRunTime
  | .method => p.allowsMethod

variable {p : Policy} {c : Check} {name : String}

/-- All checks about a property are decided in the same way. -/
theorem gate_eq_decideBinding (hname : c.property? = some name) :
    p.gate c = p.decideBinding (p.allowsKind c.kind) c name := by
  cases c with
  | create => cases hname
  | write | loadTime | runTime | method =>
    cases hname
    rfl

theorem gate_eq_ok_iff (hname : c.property? = some name) :
    p.gate c = .ok () ↔ p.allowsKind c.kind = true ∧ p.deniesProperty c.tag name = false := by
  rw [gate_eq_decideBinding hname]
  unfold decideBinding decideProperty
  cases p.allowsKind c.kind <;> cases p.deniesProperty c.tag name <;> simp

theorem deniesProperty_denyProperty (p : Policy) (text tag name : String) :
    (p.denyProperty text).deniesProperty tag name = true ↔
      p.deniesProperty tag name = true ∨ name = text ∨ qualified tag name = text := by
  simp only [deniesProperty, denyProperty, List.contains_cons, Bool.or_eq_true, beq_iff_eq]
  tauto

/-- One more denial changes the answers to those checks that it denies, where they passed before. -/
theorem gate_denyProperty_eq_iff {text : String} (hname : c.property? = some name) :
    (p.denyProperty text).gate c = p.gate c ↔
      ¬ (p.gate c = .ok () ∧ (name = text ∨ qualified c.tag name = text)) := by
  have hdenies := deniesProperty_denyProperty p text c.tag name
  rw [gate_eq_ok_iff hname, gate_eq_decideBinding hname, gate_eq_decideBinding hname]
  -- switches are as they were
  show decideBinding _ (p.allowsKind c.kind) c name = _ ↔ _
  unfold decideBinding decideProperty
  cases hallows : p.allowsKind c.kind <;> cases hbefore : p.deniesProperty c.tag name <;> simp_all

/-- **What denying a property for one tag does**: every check about that property of that tag is refused, and the answer
to a check about any other is the one that it had, unless the check passed and the other is denied along with it. -/
theorem gate_denyProperty_qualified (p : Policy) (tag property : String) {c : Check} {name : String}
    (hname : c.property? = some name) :
    ((c.tag, name) = (tag, property) → ∃ v, (p.denyProperty (qualified tag property)).gate c = .error v) ∧
      ((c.tag, name) ≠ (tag, property) →
        ((p.denyProperty (qualified tag property)).gate c = p.gate c ↔
          ¬ (p.gate c = .ok () ∧ DeniedWith tag property c.tag name))) := by
  constructor
  · intro hsame
    obtain ⟨rfl, rfl⟩ := Prod.mk.inj hsame
    cases hanswer : (p.denyProperty (qualified c.tag name)).gate c with
    | error v => exact ⟨v, rfl⟩
    | ok _ =>
      -- a check that passes is not denied, but this one is
      have hpassed := ((gate_eq_ok_iff hname).mp hanswer).2
      rw [(deniesProperty_denyProperty ..).mpr (.inr (.inr rfl))] at hpassed
      cases hpassed
  · intro hother
    rw [gate_denyProperty_eq_iff hname, deniedWith_iff hother]

/-- The property `escape` is denied for `text` under a policy without load-time bindings: live values are refused there,
and `panel` takes them as before. -/
theorem text_escape_denied :
    let p : Policy := { allowAll with allowsLoadTime := false }
    let live : LiveValue := ⟨"#\x7bx\x7d", .boolean⟩
    (∃ v, (p.denyProperty (qualified "text" "escape")).gate (.runTime ⟨"text", none⟩ "escape" live) = .error v) ∧
      (p.denyProperty (qualified "text" "escape")).gate (.runTime ⟨"panel", none⟩ "escape" live) =
        p.gate (.runTime ⟨"panel", none⟩ "escape" live) := by
  intro p live
  have htext : (Check.runTime ⟨"text", none⟩ "escape" live).property? = some "escape" := rfl
  have hpanel : (Check.runTime ⟨"panel", none⟩ "escape" live).property? = some "escape" := rfl
  have hother : ("panel", "escape") ≠ ("text", "escape") := by decide
  refine ⟨(gate_denyProperty_qualified p "text" "escape" htext).1 rfl, ?_⟩
  refine ((gate_denyProperty_qualified p "text" "escape" hpanel).2 hother).mpr fun ⟨_, hdenied⟩ => ?_
  exact absurd ((deniedWith_iff hother).mp hdenied) (by decide)

/-- With `escape` on `text`, a property is denied that is called `text.escape`, on a tag that is not `text`. And with `c`
on `a.b`, the property `b.c` is denied on `a`. -/
theorem dotted_names_denied_too :
    allowAll.gate (.write ⟨"panel", none⟩ "text.escape" .null) = .ok () ∧
      (allowAll.denyProperty (qualified "text" "escape")).gate (.write ⟨"panel", none⟩ "text.escape" .null) =
        .error ⟨.write, "panel", some "text.escape", some "property is not permitted"⟩ ∧
      allowAll.gate (.write ⟨"a", none⟩ "b.c" .null) = .ok () ∧
      (allowAll.denyProperty (qualified "a.b" "c")).gate (.write ⟨"a", none⟩ "b.c" .null) =
        .error ⟨.write, "a", some "b.c", some "property is not permitted"⟩ := by
  refine ⟨rfl, ?_, rfl, ?_⟩ <;> decide

end PageTemplates.Policy
