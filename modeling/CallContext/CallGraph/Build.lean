import CallContext.CallGraph
import CallContext.Resolution.Call

namespace CallContext

open Java

namespace SourceIndex

def scopes (index : SourceIndex) : List Scope :=
  index.declarations.flatMap fun found =>
    found.type.methods.map fun method => ⟨found.file, found.type, method⟩

def targetsIn (index : SourceIndex) (resolver : Resolver) (scope : Scope) : List MethodId :=
  scope.method.calls.flatMap fun site =>
    ((resolver.resolve index scope site).map Target.ids).getD []

end SourceIndex

def Scope.id (scope : Scope) (policy : OverloadPolicy) : MethodId :=
  MethodId.declared policy scope.type.fqn scope.method

def Scope.location (scope : Scope) : Location :=
  ⟨scope.file.path, scope.method.line⟩

namespace CallGraph

def addScope (index : SourceIndex) (resolver : Resolver) (policy : OverloadPolicy)
    (graph : CallGraph) (scope : Scope) : CallGraph :=
  let caller := scope.id policy
  (index.targetsIn resolver scope).foldl (fun graph callee => graph.addCall caller callee)
    (graph.register caller scope.location)

def build (index : SourceIndex) (resolver : Resolver) (policy : OverloadPolicy) : CallGraph :=
  index.scopes.foldl (addScope index resolver policy) empty

end CallGraph

end CallContext
