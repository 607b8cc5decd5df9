import CallContext.SourceIndex

/-!
Which type a written name means. The types around the place come first, then imports of single types,
the package of the file, imports of whole packages, and last the fully qualified names. Arrays are no
types that can be meant.
-/

namespace CallContext.SourceIndex

open Java

def enclosingWithin (index : SourceIndex) : Nat → String → List String
  | 0, _ => []
  | limit + 1, fqn =>
    match index.type? fqn with
    | none => []
    | some type => type.fqn :: match type.outer with
      | none => []
      | some outer => index.enclosingWithin limit outer

/-- The names of a type and of the types around it, innermost first. The name of a type is longer
than that of the type around it. -/
def enclosing (index : SourceIndex) (type : TypeDeclaration) : List String :=
  index.enclosingWithin (type.fqn.length + 1) type.fqn

def amongEnclosing (index : SourceIndex) (owners : List String) (name : String) : Option String :=
  owners.findSome? fun owner =>
    if Name.simpleName owner == name then some owner else index.known? (Name.member owner name)

def singleImport? (file : SourceFile) (name : String) : Option ImportSyntax :=
  file.imports.find? fun declaration =>
    !declaration.isStatic && !declaration.wildcard && Name.simpleName declaration.path == name

def importsPackageOf (file : SourceFile) (name fqn : String) : Bool :=
  file.imports.any fun declaration =>
    !declaration.isStatic && declaration.wildcard &&
      Name.qualifier? fqn name == some declaration.path

/-- The only type that imports of whole packages give to a simple name. -/
def onDemand (index : SourceIndex) (file : SourceFile) (name : String) : Option String :=
  match (index.typesNamed name).filter (importsPackageOf file name) with
  -- A name that several packages give to a type has no meaning.
  | [only] => some only
  | _ => none

/-- What a simple name means in a file, inside a type if there is one. An import of a single type
decides, even if that type is not indexed. -/
def resolveSimple (index : SourceIndex) (file : SourceFile) (context : Option TypeDeclaration)
    (name : String) : Option String :=
  let owners := match context with
    | some type => index.enclosing type
    | none => []
  match index.amongEnclosing owners name with
  | some found => some found
  | none => match singleImport? file name with
    | some declaration => index.known? declaration.path
    | none => match index.known? (Name.join '.' [file.package, name]) with
      | some found => some found
      | none => index.onDemand file name

def resolveType (index : SourceIndex) (file : SourceFile) (context : Option TypeDeclaration)
    (written : String) : Option String :=
  let name := TypeText.erase written
  if name.isEmpty || TypeText.isArray name then none
  else match Name.splitHead name with
    | none => index.resolveSimple file context name
    | some (head, rest) =>
      ((index.resolveSimple file context head).bind fun owner =>
        index.known? (Name.member owner rest)) <|> index.known? name

end CallContext.SourceIndex
