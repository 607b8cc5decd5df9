import CallContext.Resolution.TypeName
import CallContext.Search

/-!
The members that a type declares or inherits. The types above a type are searched breadth-first, so
that the nearest declaration is found.
-/

namespace CallContext

open Java

structure OwnedMethod where
  owner : String
  method : Method

namespace SourceIndex

def supertypesOf (index : SourceIndex) (file : SourceFile) (type : TypeDeclaration) : List String :=
  type.supertypes.filterMap fun written => index.resolveType file (some type) written

def parents (index : SourceIndex) (fqn : String) : List String :=
  match index.declaration? fqn with
  | some found => index.supertypesOf found.file found.type
  | none => []

/-- A type and the types above it, nearest first. No type is further away than there are types. -/
def hierarchy (index : SourceIndex) (owner : String) : List Declaration :=
  (owner :: Search.reached index.parents index.typeNames.length [owner]).filterMap
    index.declaration?

def ownMethods (name : String) (type : TypeDeclaration) : List OwnedMethod :=
  (type.methods.filter (·.name == name)).map fun method => ⟨type.fqn, method⟩

def methodsNamed (index : SourceIndex) (owner name : String) : List OwnedMethod :=
  (((index.hierarchy owner).map fun found => ownMethods name found.type).find?
    (!·.isEmpty)).getD []

/-- What the type of the nearest field with a name means; `none` without such a field, `some none` if
its type is not indexed. -/
def fieldType (index : SourceIndex) (owner name : String) : Option (Option String) :=
  (index.hierarchy owner).findSome? fun found =>
    (found.type.fields.get? name).map fun written =>
      index.resolveType found.file (some found.type) written

def memberType (index : SourceIndex) (owner name : String) : Option String :=
  match index.fieldType owner name with
  | some type => type
  | none => index.known? (Name.member owner name)

end SourceIndex

end CallContext
