import CallContext.Resolution.Hierarchy
import CallContext.Resolution.Overloads

/-!
Which methods a call means. The type of the receiver is read off variables, fields, casts, created
objects and the return types of other calls; what leaves the indexed sources means nothing.
-/

namespace CallContext

open Java

structure Scope where
  file : SourceFile
  type : TypeDeclaration
  method : Method

inductive Target where
  | exact (id : MethodId)
  | ambiguous (ids : List MethodId)
  deriving DecidableEq, Repr

def Target.ids : Target → List MethodId
  | .exact id => [id]
  | .ambiguous ids => ids

namespace SourceIndex

def typeAt (index : SourceIndex) (scope : Scope) (written : String) : Option String :=
  index.resolveType scope.file (some scope.type) written

def firstMethods (groups : List (List OwnedMethod)) : List OwnedMethod :=
  (groups.find? (!·.isEmpty)).getD []

def staticOwner (name : String) (declaration : ImportSyntax) : Option String :=
  if !declaration.isStatic then none
  else if declaration.wildcard then some declaration.path
  else match Name.splitLast declaration.path with
    | some (owner, member) => if member == name then some owner else none
    | none => none

def importedMethods (index : SourceIndex) (file : SourceFile) (name : String) : List OwnedMethod :=
  firstMethods ((file.imports.filterMap (staticOwner name)).map fun owner =>
    index.methodsNamed owner name)

def writtenType (scope : Scope) (name : String) : Option String :=
  match scope.method.parameters.find? (·.name == name) with
  | some parameter => some parameter.type
  | none => scope.method.locals.get? name

/-- What the type of a variable means; `none` without such a variable, `some none` if its type is not
indexed. Parameters and locals hide fields, inner fields hide outer ones. -/
def variableType (index : SourceIndex) (scope : Scope) (name : String) : Option (Option String) :=
  match writtenType scope name with
  | some written => some (index.typeAt scope written)
  | none => (index.enclosing scope.type).findSome? fun owner => index.fieldType owner name

def methodsOn (index : SourceIndex) (scope : Scope) (receiver : Receiver) (type : Option String)
    (name : String) : List OwnedMethod :=
  match receiver with
  | .implicit =>
    match firstMethods ((index.enclosing scope.type).map fun owner =>
        index.methodsNamed owner name) with
    | [] => index.importedMethods scope.file name
    | found => found
  | .this => index.methodsNamed scope.type.fqn name
  | .super =>
    firstMethods ((index.supertypesOf scope.file scope.type).map fun owner =>
      index.methodsNamed owner name)
  | _ => match type with
    | some owner => index.methodsNamed owner name
    | none => []

def returnedType (index : SourceIndex) (found : OwnedMethod) : Option String :=
  (index.declaration? found.owner).bind fun place =>
    index.resolveType place.file (some place.type) found.method.returnType

def receiverType (index : SourceIndex) (scope : Scope) : Receiver → Option String
  | .this => index.known? scope.type.fqn
  | .super => (index.supertypesOf scope.file scope.type).head?
  | .name id => match index.variableType scope id with
    | some type => type
    | none => index.typeAt scope id
  | .field object member =>
    -- `Outer.this` has the type that `Outer` means.
    if member == "this" then index.receiverType scope object
    else ((index.receiverType scope object).bind fun owner => index.memberType owner member) <|>
      (Receiver.field object member).dotted.bind (index.typeAt scope)
  | .creation type => index.typeAt scope type
  | .cast type => index.typeAt scope type
  | .call object name _ _ =>
    -- Of several overloads the first one gives the type, whatever its parameters are.
    ((index.methodsOn scope object (index.receiverType scope object) name).head?).bind
      index.returnedType
  | .implicit => none
  | .other => none

def candidates (index : SourceIndex) (scope : Scope) (site : CallSite) : List OwnedMethod :=
  index.methodsOn scope site.receiver (index.receiverType scope site.receiver) site.name

/-- The candidates that take the given number of arguments, or all of them if none does. -/
def fitting (found : List OwnedMethod) (arguments : Nat) : List OwnedMethod :=
  match found.filter (·.method.accepts arguments) with
  | [] => found
  | suited => suited

def target (policy : OverloadPolicy) (found : List OwnedMethod) (arguments : Nat) : Option Target :=
  match found with
  | [] => none
  | first :: _ => match policy with
    -- The candidates have one owner and one name, hence one identity if overloads share it.
    | .merge => some (.exact (MethodId.declared .merge first.owner first.method))
    | .distinguish =>
      match (fitting found arguments).map fun one =>
          MethodId.declared .distinguish one.owner one.method with
      | [id] => some (.exact id)
      | ids => some (.ambiguous ids)

def resolveCall (index : SourceIndex) (policy : OverloadPolicy) (scope : Scope) (site : CallSite) :
    Option Target :=
  target policy (index.candidates scope site) site.arguments

end SourceIndex

inductive Resolver where
  | available (policy : OverloadPolicy)
  | unavailable (reason : String)
  deriving DecidableEq, Repr

namespace Resolver

def isAvailable : Resolver → Bool
  | .available _ => true
  | .unavailable _ => false

def reason? : Resolver → Option String
  | .available _ => none
  | .unavailable reason => some reason

def resolve (resolver : Resolver) (index : SourceIndex) (scope : Scope) (site : CallSite) :
    Option Target :=
  match resolver with
  | .available policy => index.resolveCall policy scope site
  | .unavailable _ => none

end Resolver

end CallContext
