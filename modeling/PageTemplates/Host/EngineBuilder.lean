import PageTemplates.Host.Engine

/-!
# Putting an engine together

What an engine is made of may be given in any order, and what is given last counts. If no maker of templates is given,
the engine gets one of its own when it is finished. Only then is it known which gate has been given, and the maker gets
the same gate as the builds.
-/

namespace PageTemplates

/-- An engine that is not finished yet. -/
structure EngineBuilder where
  factory : Option TemplateMaker
  gate : Gate
  hasLoader : Bool
  hasCache : Bool
  config : PageConfig

/-- Something that an engine is given. -/
inductive EngineBuilder.Part where
  | loader
  | cache
  | gate (gate : Gate)
  | factory (factory : TemplateMaker)
  | config (config : PageConfig)

namespace EngineBuilder

/-- Nothing has been given yet. -/
def new : EngineBuilder := ⟨none, Gate.permissive, false, false, PageConfig.standard⟩

def give (b : EngineBuilder) : Part → EngineBuilder
  | .loader => { b with hasLoader := true }
  | .cache => { b with hasCache := true }
  | .gate gate => { b with gate := gate }
  | .factory factory => { b with factory := some factory }
  | .config config => { b with config := config }

/-- Finishes the engine. The number is that of the memo for a maker of its own. -/
def build (b : EngineBuilder) (memo : Nat) : Engine :=
  ⟨⟨b.config, b.hasLoader, b.hasCache⟩, b.factory.getD ⟨memo, b.gate⟩, b.gate⟩

end EngineBuilder

/-- The engine that some parts make up, given one after the other. -/
def Engine.ofParts (parts : List EngineBuilder.Part) (memo : Nat) : Engine :=
  (parts.foldl EngineBuilder.give .new).build memo

end PageTemplates
