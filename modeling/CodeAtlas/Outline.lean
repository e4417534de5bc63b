import CodeAtlas.Collector

/-!
# Outlines

An outline is what a source file declares and refers to, read off its syntax tree as data: the
elements with what stands inside them, references, imports and bindings. Recording an outline in a
collector keeps track of the element that is being described, so that a reader of syntax trees never
deals with identities.
-/

namespace CodeAtlas

/-- One thing a source file says. -/
inductive Outline where
  /-- An element below the current one; the body is about the new element. -/
  | declare (declaration : Declaration) (body : List Outline)
  /-- A reference of the current element. -/
  | refer (reference : Reference)
  /-- A reference of the file as a whole. -/
  | referFile (reference : Reference)
  /-- An import of a module: an element below the file, and a dependency of the file. -/
  | importModule (declaration : Declaration) (target : String) (line : Nat)
  /-- A local name for a qualified one. -/
  | bind (name target : String)
  /-- The package that the file belongs to. -/
  | package (name : String) (line : Nat)
  /-- Something about the first element so far with a qualified name and one of the kinds, or about
  the current element if there is none. -/
  | about (qualifiedName : String) (kinds : List ElementKind) (known unknown : List Outline)

namespace Collector

mutual

/-- Records an outline about the element with an identity. -/
def record (collector : Collector) (id : String) : Outline → Except Error Collector
  | .declare declaration body => do
    let parent ← collector.handle id
    let (collector, handle) := collector.add parent declaration
    recordAll collector handle.id body
  | .refer reference =>
    collector.reference id reference.kind reference.target reference.line
  | .referFile reference =>
    collector.reference collector.root.id reference.kind reference.target reference.line
  | .importModule declaration target line => do
    let (collector, handle) := collector.add collector.rootHandle declaration
    let collector ← collector.reference handle.id .imports target line
    collector.reference collector.root.id .dependsOn target line
  | .bind name target => .ok (collector.bind name target)
  | .package name line => .ok (collector.enterPackage name line).1
  | .about qualifiedName kinds known unknown =>
    match collector.find? qualifiedName kinds with
    | some handle => recordAll collector handle.id known
    | none => recordAll collector id unknown

/-- Records outlines one after the other. -/
def recordAll (collector : Collector) (id : String) : List Outline → Except Error Collector
  | [] => .ok collector
  | outline :: rest => do
    let collector ← record collector id outline
    recordAll collector id rest

end

/-- Records what a file says as a whole. -/
def recordFile (collector : Collector) (outlines : List Outline) : Except Error Collector :=
  collector.recordAll collector.root.id outlines

end Collector
end CodeAtlas
