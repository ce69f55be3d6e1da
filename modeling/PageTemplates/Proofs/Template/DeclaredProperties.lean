import PageTemplates.Proofs.Program.Outcome
import PageTemplates.Template.Factory

/-!
# How a property is declared

A definition has two properties whatever it declares, the id and the shown flag, and then those that it declares
(`Definition.Describes`). A declared property cannot be written if its type is given by a name that is none of a scalar
type (`Definition.Unwritable`). Factories are made by these two relations: there is one for each property that is
described, of the kind that is described, and a failure for every other name.

Whether a live value may be installed is part of the declaration too (`Definition.AllowsLive`).
-/

namespace PageTemplates

/-! ## §1 Declarations -/

/-- A property of a definition that has a declaration of its own. -/
def Definition.Declares (d : Definition) (name : String) (p : Property) : Prop :=
  name ≠ idName ∧ name ≠ renderedName ∧ d.property? name = some p

/-- How a property of a definition is declared. Items that have no scalar type are objects. -/
inductive Definition.Describes (d : Definition) : String → FactoryKind → Prop where
  | id : Describes d idName .id
  | rendered : Describes d renderedName .rendered
  | simple {name : String} {p : Property} {type : ValueType} (h : d.Declares name p) (hkind : p.kind = .simple)
      (htype : ValueType.ofDeclared? p.declaredType = some type) : Describes d name (.scalar type)
  | complex {name : String} {p : Property} (h : d.Declares name p) (hkind : p.kind = .complex) :
      Describes d name .complex
  | collection {name addMethod itemType : String} {p : Property} (h : d.Declares name p)
      (hkind : p.kind = .collection addMethod itemType) :
      Describes d name (.collection addMethod (ValueType.ofDeclared? itemType))
  | method {name : String} {p : Property} (h : d.Declares name p) (hkind : p.kind = .method) : Describes d name .method

namespace Definition

variable {d : Definition} {name : String}

/-- The definition has no factory for a name: the property is not declared, or its declared type is no scalar type. -/
inductive Unwritable (d : Definition) (name : String) : Error → Prop where
  | undeclared (hid : name ≠ idName) (hrendered : name ≠ renderedName) (h : d.property? name = none) :
      Unwritable d name (.unknownProperty d.tag name)
  | unsupported {p : Property} (h : d.Declares name p) (hkind : p.kind = .simple)
      (htype : ValueType.ofDeclared? p.declaredType = none) :
      Unwritable d name
        (.unsupportedProperty d.tag name ("no setter for declared type '" ++ p.declaredType ++ "'"))

/-- A live value may be installed. The shown flag takes one unless it is declared not to, and the id never does. -/
inductive AllowsLive (d : Definition) (name : String) : Prop where
  | rendered (hname : name = renderedName) (h : ∀ p, d.property? name = some p → p.allowsRunTime = true)
  | declared {p : Property} (h : d.Declares name p) (hflag : p.allowsRunTime = true)

/-- A name is built in, or declared, or neither. -/
theorem name_cases (d : Definition) (name : String) :
    name = idName ∨ name = renderedName ∨ (∃ p, d.Declares name p) ∨
      (name ≠ idName ∧ name ≠ renderedName ∧ d.property? name = none) := by
  by_cases hid : name = idName
  · exact .inl hid
  · by_cases hrendered : name = renderedName
    · exact .inr (.inl hrendered)
    · cases hproperty : d.property? name with
      | none => exact .inr (.inr (.inr ⟨hid, hrendered, rfl⟩))
      | some p => exact .inr (.inr (.inl ⟨p, hid, hrendered, hproperty⟩))

end Definition

/-! ## §2 Factories -/

namespace Factory

variable {d : Definition} {name : String}

theorem describes_of_ofProperty {f : Factory} (h : ofProperty d name = .ok f) : d.Describes name f.kind := by
  unfold ofProperty at h
  split at h
  · -- a declaration does not count if the name is one of the two
    rename_i g hbuiltIn
    cases h
    unfold builtIn? at hbuiltIn
    split at hbuiltIn
    · rename_i hname
      cases hbuiltIn
      subst hname
      exact .id
    · split at hbuiltIn
      · rename_i hname
        cases hbuiltIn
        subst hname
        exact .rendered
      · cases hbuiltIn
  · rename_i hbuiltIn
    split at h
    · cases h
    · rename_i p hp
      obtain ⟨kind, hkind, rfl⟩ := Outcome.map_eq_ok.mp h
      -- the name is neither of the two that every definition has
      have hdeclares : d.Declares name p := by
        unfold builtIn? at hbuiltIn
        split at hbuiltIn
        · cases hbuiltIn
        · split at hbuiltIn
          · cases hbuiltIn
          · exact ⟨‹_›, ‹_›, hp⟩
      unfold kindOf at hkind
      split at hkind
      · cases hkind
        exact .complex hdeclares ‹_›
      · cases hkind
        exact .collection hdeclares ‹_›
      · cases hkind
        exact .method hdeclares ‹_›
      · split at hkind
        · cases hkind
          exact .simple hdeclares ‹_› ‹_›
        · cases hkind

theorem ofProperty_of_declares {p : Property} (h : d.Declares name p) :
    ofProperty d name = (kindOf d.tag name p).map fun kind => ⟨name, p.declaredType, p.allowsRunTime, kind⟩ := by
  obtain ⟨hid, hrendered, hproperty⟩ := h
  simp only [ofProperty, builtIn?, if_neg hid, if_neg hrendered, hproperty]

theorem ofProperty_of_undeclared (hid : name ≠ idName) (hrendered : name ≠ renderedName)
    (h : d.property? name = none) : ofProperty d name = .error (.unknownProperty d.tag name) := by
  simp only [ofProperty, builtIn?, if_neg hid, if_neg hrendered, h]

/-- There is a factory for every property that is described. -/
theorem exists_ofProperty {kind : FactoryKind} (h : d.Describes name kind) :
    ∃ f, ofProperty d name = .ok f ∧ f.kind = kind := by
  cases h with
  | id => exact ⟨_, rfl, rfl⟩
  | rendered => exact ⟨_, rfl, rfl⟩
  | simple h hkind htype => exact ⟨_, by rw [ofProperty_of_declares h, kindOf, hkind, htype]; rfl, rfl⟩
  | complex h hkind => exact ⟨_, by rw [ofProperty_of_declares h, kindOf, hkind]; rfl, rfl⟩
  | collection h hkind => exact ⟨_, by rw [ofProperty_of_declares h, kindOf, hkind]; rfl, rfl⟩
  | method h hkind => exact ⟨_, by rw [ofProperty_of_declares h, kindOf, hkind]; rfl, rfl⟩

theorem ofProperty_eq_error_iff {e : Error} : ofProperty d name = .error e ↔ d.Unwritable name e := by
  constructor
  · intro herror
    rcases d.name_cases name with rfl | rfl | ⟨p, hp⟩ | ⟨hid, hrendered, hproperty⟩
    · cases herror
    · cases herror
    · -- of the declared properties only a simple one can fail, as its type is given by name
      rw [ofProperty_of_declares hp, Outcome.map_eq_error, kindOf] at herror
      split at herror
      case h_4 hkind =>
        split at herror
        · cases herror
        · cases herror
          exact .unsupported hp hkind ‹_›
      all_goals cases herror
    · rw [ofProperty_of_undeclared hid hrendered hproperty] at herror
      cases herror
      exact .undeclared hid hrendered hproperty
  · intro h
    cases h with
    | undeclared hid hrendered h => exact ofProperty_of_undeclared hid hrendered h
    | unsupported h hkind htype =>
      rw [ofProperty_of_declares h, kindOf, hkind]
      simp only [htype]
      rfl

theorem allowsRunTime_iff {f : Factory} (hf : ofProperty d name = .ok f) :
    f.allowsRunTime = true ↔ d.AllowsLive name := by
  rcases d.name_cases name with rfl | rfl | ⟨p, hp⟩ | ⟨hid, hrendered, hproperty⟩
  · -- whatever is declared under this name is not looked at
    cases hf
    refine ⟨nofun, fun h => ?_⟩
    cases h with
    | rendered hname _ => exact absurd hname (by decide)
    | declared h _ => exact absurd rfl h.1
  · -- here it is, but only for this flag
    cases hf
    show ((d.property? renderedName).map (·.allowsRunTime)).getD true = true ↔ _
    constructor
    · intro hflag
      exact .rendered rfl fun p hp => by simpa [hp] using hflag
    · intro h
      cases h with
      | rendered _ h => cases hproperty : d.property? renderedName <;> simp_all
      | declared h _ => exact absurd rfl h.2.1
  · rw [ofProperty_of_declares hp] at hf
    obtain ⟨kind, -, rfl⟩ := Outcome.map_eq_ok.mp hf
    constructor
    · exact .declared hp
    · intro h
      cases h with
      | rendered hname _ => exact absurd hname hp.2.1
      | declared h hflag =>
        obtain rfl : p = _ := Option.some.inj (hp.2.2.symm.trans h.2.2)
        exact hflag
  · rw [ofProperty_of_undeclared hid hrendered hproperty] at hf
    cases hf

end Factory

end PageTemplates
