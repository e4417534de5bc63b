import CodeAtlas.Element
import CodeAtlas.Pattern.Matcher
import CodeAtlas.Pattern.Parser
import CodeAtlas.Text.Split

/-!
# Classification

A rule table tells which part of a service an element belongs to. Each rule tests the name of the
element, one of its modifiers or its path; the first rule that matches decides. If none matches, the
names of the enclosing scopes may be tried, innermost first.
-/

namespace CodeAtlas

/-- The parts of a service, those that win ties first. -/
inductive BoundaryKind where
  | api
  | data
  | business
  | infrastructure
  | utility
  deriving DecidableEq, Repr

namespace BoundaryKind

/-- All kinds, those that win ties first. -/
def all : List BoundaryKind := [api, data, business, infrastructure, utility]

/-- The word for a kind. -/
def name : BoundaryKind → String
  | api => "api"
  | data => "data"
  | business => "business"
  | infrastructure => "infrastructure"
  | utility => "utility"

/-- Reads the word for a kind. -/
def ofName? (word : String) : Option BoundaryKind := all.find? (·.name = word)

end BoundaryKind

/-- What a classification rule tests. -/
inductive RuleTarget where
  | name
  | modifier
  | path
  deriving DecidableEq, Repr

namespace RuleTarget

/-- All targets. -/
def all : List RuleTarget := [name, modifier, path]

/-- The word for a target. -/
def word : RuleTarget → String
  | name => "name"
  | modifier => "modifier"
  | path => "path"

/-- Reads the word for a target. -/
def ofWord? (text : String) : Option RuleTarget := all.find? (·.word = text)

end RuleTarget

/-- A classification rule as it is written. -/
structure ClassificationRule where
  /-- The pattern. -/
  pattern : String
  /-- The flags of the pattern. -/
  flags : Option String := none
  /-- What the rule tests. -/
  target : RuleTarget := .name
  /-- The kind that the rule assigns. -/
  kind : BoundaryKind
  deriving DecidableEq, Repr

namespace Pattern

/-- Compiles a pattern into a test that does not depend on earlier tests: the flags that ask for all
matches or for the current place are left out. -/
def compileTest (source : String) (flags : Option String) :
    Except CompileError (String → Bool) :=
  let letters := (flags.getD "").toList.filter fun letter => letter != 'g' && letter != 'y'
  (compile source (String.ofList letters)).map Compiled.matches?

end Pattern

/-- A classification rule that is ready to be used. -/
structure ClassificationTest where
  /-- The test of a text. -/
  holds : String → Bool
  /-- What is tested. -/
  target : RuleTarget
  /-- The kind that is assigned. -/
  kind : BoundaryKind

/-- A rule table that is ready to be used. -/
structure Classifier where
  /-- The rules in order. -/
  tests : List ClassificationTest
  /-- Whether enclosing scopes are tried. -/
  useEnclosingScope : Bool

namespace ClassificationTest

/-- Whether a test holds of a text that is not empty. -/
def accepts (test : ClassificationTest) (text : String) : Bool :=
  text != "" && test.holds text

/-- Whether a test holds of an element. -/
def acceptsElement (test : ClassificationTest) (element : Element) : Bool :=
  match test.target with
  | .name => test.accepts element.name
  | .modifier => element.modifiers.any test.accepts
  | .path => test.accepts element.filePath

end ClassificationTest

namespace Classifier

/-- Makes a rule table ready to be used. -/
def compile (rules : List ClassificationRule) (useEnclosingScope : Bool) :
    Except Pattern.CompileError Classifier := do
  let tests ← rules.mapM fun rule => do
    let holds ← Pattern.compileTest rule.pattern rule.flags
    pure (⟨holds, rule.target, rule.kind⟩ : ClassificationTest)
  pure ⟨tests, useEnclosingScope⟩

/-- The names of the scopes around an element, innermost first. -/
def scopes (element : Element) : List String :=
  (Text.split '.' element.qualifiedName).dropLast.reverse

/-- The kind that the name of a scope stands for. -/
def scopeKind? (classifier : Classifier) (scope : String) : Option BoundaryKind :=
  (classifier.tests.find? fun test => test.target == .name && test.accepts scope).map (·.kind)

/-- The kind of an element. -/
def classify (classifier : Classifier) (element : Element) : BoundaryKind :=
  match classifier.tests.find? (·.acceptsElement element) with
  | some test => test.kind
  | none =>
    if classifier.useEnclosingScope then
      ((scopes element).findSome? classifier.scopeKind?).getD .utility
    else
      .utility

end Classifier

/-- The classification rules unless others are given. -/
def ClassificationRule.standard : List ClassificationRule :=
  [⟨"controller|endpoint|route(r|s)?|handler|resource|api|view", some "i", .name, .api⟩,
   ⟨"repository|repo|dao|entity|model|schema|dto|store|mapper", some "i", .name, .data⟩,
   ⟨"service|manager|usecase|interactor|domain|workflow|policy", some "i", .name, .business⟩,
   ⟨"config|client|adapter|gateway|provider|factory|queue|cache|db|database|middleware|server",
    some "i", .name, .infrastructure⟩,
   ⟨"util|helper|tool|common|shared|lib", some "i", .name, .utility⟩,
   ⟨"^@((Rest)?Controller|(Get|Post|Put|Delete|Patch)(Mapping)?|app\\.route|router\\..+)$", none,
    .modifier, .api⟩,
   ⟨"^@(Entity|Table|Repository|dataclass)$", none, .modifier, .data⟩,
   ⟨"^@(Service|Injectable)$", none, .modifier, .business⟩,
   ⟨"^@(Configuration|Component|Module)$", none, .modifier, .infrastructure⟩,
   ⟨"(^|/)(api|controllers?|routes?|handlers?|views?|endpoints?)/", some "i", .path, .api⟩,
   ⟨"(^|/)(models?|entities|repositories|schemas?|dao|persistence)/", some "i", .path, .data⟩,
   ⟨"(^|/)(services?|domain|usecases?|core)/", some "i", .path, .business⟩,
   ⟨"(^|/)(config|infra|infrastructure|adapters?|clients?|db)/", some "i", .path, .infrastructure⟩,
   ⟨"(^|/)(utils?|helpers?|common|shared|lib)/", some "i", .path, .utility⟩]

end CodeAtlas
