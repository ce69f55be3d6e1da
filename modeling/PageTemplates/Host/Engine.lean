import PageTemplates.Host.World

/-!
# The engine

An interpreter together with what it answers requests by: the factory that its pages are compiled with, and
the gate that its builds have to pass. Components that include pages are given a builder, which builds a page
with the evaluator and in the scope of the build in which the builder was given out.
-/

namespace PageTemplates

/-- An interpreter with its surroundings. -/
structure Engine where
  interpreter : Interpreter
  /-- What makes the templates of its pages. -/
  factory : TemplateMaker
  /-- The gate for its builds. -/
  gate : Gate

namespace Engine

def fetch (e : Engine) (uri : PageUri) (w : World) : Except Error SharedTree × World :=
  let ((answer, cache), w) := (e.interpreter.fetch w.cache uri).run e.factory.fetchAnswer w
  (answer, { w with cache := cache })

/-- The tree of loose content. -/
def compileContent (e : Engine) (content : String) (w : World) : Except Error SharedTree × World :=
  (e.interpreter.compileContent content).run e.factory.fetchAnswer w

/-- The surroundings of a build: the gate of the engine, and a builder that keeps the evaluator and the scope. -/
def context (e : Engine) (evaluator : Evaluator) (scope : Scope) (wiring : Wiring := .byManner) : Context :=
  ⟨scope, evaluator, e.gate, true, some ⟨evaluator, scope⟩, wiring⟩

/-- Builds the page that a component includes. -/
def buildIncluded (e : Engine) (builder : PageBuilder) (page : String) (w : World) :
    Except WriteError (Option LiveNode) × World :=
  let failed (err : Error) : WriteError := .failed ("including '" ++ page ++ "': " ++ err.message)
  match e.fetch ⟨page⟩ w with
  | (.error err, w) => (.error (failed err), w)
  | (.ok shared, w) =>
    let (answer, w) := (e.context builder.evaluator builder.scope).run shared.tree.root.buildLive w
    (answer.mapError failed, w)

end Engine

end PageTemplates
