import CallContext.Collection.Table
import CallContext.Java.CallSite
import CallContext.Java.Parser
import CallContext.Name

/-!
Source files as the rest of the library sees them: the package, the imports, and the declared types
with their fields and methods. The types of a file are one list, in which a type comes before the
types declared in it.
-/

namespace CallContext.Java

/-- A formal parameter with its erased type; the type of a variadic one ends in dots. -/
structure Parameter where
  name : String
  type : String
  deriving DecidableEq, Inhabited, Repr

structure Method where
  name : String
  annotations : List String
  signature : String
  parameters : List Parameter
  returnType : String
  line : Nat
  variadic : Bool
  /-- The variables of the body with their types; the first declaration of a name counts. -/
  locals : Table String String
  calls : List CallSite

structure TypeDeclaration where
  name : String
  fqn : String
  kind : TypeKind
  annotations : List String
  supertypes : List String
  outer : Option String
  fields : Table String String
  methods : List Method

structure SourceFile where
  path : String
  content : Option String
  size : Nat
  package : String
  imports : List ImportSyntax
  types : List TypeDeclaration

namespace Method

def parameterList (method : Method) : String :=
  Text.joinWith "," (method.parameters.map (·.type))

def accepts (method : Method) (arguments : Nat) : Bool :=
  if method.variadic then method.parameters.length ≤ arguments + 1
  else arguments == method.parameters.length

end Method

def FormalParameter.dots (parameter : FormalParameter) : String :=
  if parameter.variadic then "..." else ""

def FormalParameter.toParameter (parameter : FormalParameter) : Parameter :=
  ⟨parameter.name, TypeText.erase parameter.type ++ parameter.dots⟩

def FormalParameter.signatureType (parameter : FormalParameter) : String :=
  Text.squash parameter.type ++ parameter.dots

namespace MethodSyntax

def signature (method : MethodSyntax) : String :=
  Text.squash method.returnType ++ " " ++ method.name ++ "(" ++
    Text.joinWith ", " (method.parameters.map (·.signatureType)) ++ ")"

def events (method : MethodSyntax) : List Event :=
  match method.body with
  | some body => body.events
  | none => []

def toMethod (method : MethodSyntax) : Method where
  name := method.name
  annotations := method.annotations.map TypeText.erase
  signature := method.signature
  parameters := method.parameters.map (·.toParameter)
  returnType := TypeText.erase method.returnType
  line := method.line
  variadic := method.parameters.any (·.variadic)
  locals := Table.ofList (method.events.filterMap Event.variable?)
  calls := method.events.filterMap Event.site?

end MethodSyntax

namespace Member

def fieldEntries : Member → List (String × String)
  | .fields written names _ => names.map fun name => (name, TypeText.erase written)
  | _ => []

def method? : Member → Option Method
  | .method declaration => some declaration.toMethod
  | _ => none

end Member

def TypeHeading.toType (heading : TypeHeading) (members : List Member) (qualifier : String)
    (outer : Option String) : TypeDeclaration where
  name := heading.name.text
  fqn := Name.join '.' [qualifier, heading.name.text]
  kind := heading.kind
  annotations := heading.annotations.map TypeText.erase
  supertypes := heading.supertypes.map TypeText.erase
  outer := outer
  fields := Table.ofList
    ((heading.components.map fun (name, type) => (name, TypeText.erase type)) ++
      members.flatMap Member.fieldEntries)
  methods := members.filterMap Member.method?

mutual

/-- The types that a member declares, itself first. The qualifier is the package, or the enclosing
type if there is one. -/
def Member.types (qualifier : String) (outer : Option String) : Member → List TypeDeclaration
  | .type heading members =>
    let first := heading.toType members qualifier outer
    first :: Member.typesOf first.fqn (some first.fqn) members
  | .fields .. | .method _ | .other _ => []

def Member.typesOf (qualifier : String) (outer : Option String) : List Member → List TypeDeclaration
  | [] => []
  | member :: rest => member.types qualifier outer ++ Member.typesOf qualifier outer rest

end

namespace Item

def package? : Item → Option String
  | .package name => some (TypeText.erase name)
  | _ => none

def import? : Item → Option ImportSyntax
  | .imports declaration => some { declaration with path := TypeText.erase declaration.path }
  | _ => none

/-- The types that items declare after the given package. A package declaration holds for the types
after it. -/
def types : String → List Item → List TypeDeclaration
  | _, [] => []
  | qualifier, item :: rest =>
    match item with
    | .package name => types (TypeText.erase name) rest
    | .member declaration => declaration.types qualifier none ++ types qualifier rest
    | _ => types qualifier rest

end Item

structure SyntaxError where
  path : String
  line : Nat
  deriving DecidableEq, Repr

namespace SyntaxError

def message (failure : SyntaxError) : String :=
  "syntax error in " ++ failure.path ++ " at line " ++ toString failure.line

end SyntaxError

namespace SourceFile

def ofItems (path content : String) (items : List Item) : SourceFile where
  path := path
  content := some content
  size := content.utf8ByteSize
  -- The last declaration of a package names that of the file.
  package := ((items.filterMap Item.package?).getLast?).getD ""
  imports := items.filterMap Item.import?
  types := Item.types "" items

def parse (path content : String) : Except SyntaxError SourceFile :=
  match parseSource content with
  | .ok items => .ok (ofItems path content items)
  | .error line => .error ⟨path, line⟩

end SourceFile

end CallContext.Java
