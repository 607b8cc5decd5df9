import CallContext.Java.Identifier

/-!
The syntax of Java source, as much of it as declarations and calls are read from.

Code keeps what calls are read from: names, receivers, calls, the variables that are declared and
their written types. Every other construct is `other`, with the code it contains in source order.
Written types are kept as text; the code in a type is that of the annotations in it.
-/

namespace CallContext.Java

inductive Code where
  | implicit
  | this
  | super
  | name (id : Identifier)
  | field (object : Code) (name : Identifier)
  /-- `object.<typeArguments>name(arguments)`, which begins on the given line. -/
  | call (object : Code) (typeArguments : List Code) (name : String) (arguments : List Code)
      (line : Nat)
  /-- `new type(…)` with everything in it: an outer instance, arguments and a class body. -/
  | creation (type : String) (parts : List Code)
  /-- `(type) value`, the first of the types if there are several. -/
  | cast (type : String) (parts : List Code)
  | parenthesized (inner : Code)
  /-- The local variables of one statement; the parts are its modifiers and the code in its type. -/
  | locals (parts : List Code) (type : String) (declarators : List Code)
  /-- One declared variable: the code in its dimensions, and its initial value or nothing. -/
  | declarator (name : String) (dimensions : List Code) (value : List Code)
  /-- A parameter, resource or loop variable, declared after the parts it contains. -/
  | binding (parts : List Code) (name type : String)
  | caught (parts : List Code) (name : String) (types : List String)
  | other (parts : List Code)
  deriving Inhabited, Repr

inductive TypeKind where
  | classKind
  | interfaceKind
  | enumKind
  | recordKind
  deriving DecidableEq, Inhabited, Repr

/-- A formal parameter as written, without the dots that make it variadic. -/
structure FormalParameter where
  name : String
  type : String
  variadic : Bool
  deriving DecidableEq, Inhabited, Repr

structure MethodSyntax where
  annotations : List String
  name : String
  returnType : String
  parameters : List FormalParameter
  line : Nat
  /-- The code before the body: annotation values and parameters. -/
  heading : List Code
  body : Option Code
  deriving Inhabited, Repr

structure TypeHeading where
  kind : TypeKind
  name : Identifier
  annotations : List String
  supertypes : List String
  components : List (String × String)
  heading : List Code
  deriving Inhabited, Repr

inductive Member where
  | fields (type : String) (names : List String) (parts : List Code)
  | method (declaration : MethodSyntax)
  | type (heading : TypeHeading) (members : List Member)
  /-- A constructor, an initializer, an enum constant or an annotation type. -/
  | other (parts : List Code)
  deriving Inhabited, Repr

mutual

def Member.code : Member → Code
  | .fields _ _ parts => .other parts
  | .method declaration => .other (declaration.heading ++ declaration.body.toList)
  | .type heading members => .other (heading.heading ++ Member.codes members)
  | .other parts => .other parts

def Member.codes : List Member → List Code
  | [] => []
  | member :: rest => member.code :: Member.codes rest

end

structure ImportSyntax where
  path : String
  isStatic : Bool
  wildcard : Bool
  deriving DecidableEq, Inhabited, Repr

inductive Item where
  | package (name : String)
  | imports (declaration : ImportSyntax)
  | member (declaration : Member)
  | code (written : Code)
  deriving Inhabited, Repr

def Item.toCode : Item → Code
  | .package _ => .other []
  | .imports _ => .other []
  | .member declaration => declaration.code
  | .code written => written

end CallContext.Java
