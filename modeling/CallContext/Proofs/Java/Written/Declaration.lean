import CallContext.Java.SourceFile
import CallContext.Proofs.Java.Written.Call

/-!
Files as they are written, one declaration or statement a line: a package, imports, and classes with
fields, methods and classes nested to any depth. Beside the text of a file stands what a reader has to
find in it, with the lines on which the methods and calls were written. Such a file is, after the line
`package shop.cart;` and one such as `import static shop.Price.*;`,

    class Cart extends Basket<Item, Price[]> {
    Item[] items;
    void clear() { }
    Price total(Item item) {
    item.price().plus(((Price) rest).half(), this.tax);
    }
    class Line {
    }
    }
-/

namespace CallContext.Java

structure CallStatement where
  operand : Operand
  isCall : operand.isCall

structure WrittenParameter where
  type : WrittenType
  name : FreeName

structure WrittenMethod where
  returnType : Option WrittenType
  name : FreeName
  parameters : List WrittenParameter
  body : List CallStatement

inductive WrittenMember where
  | field (type : WrittenType) (name : FreeName)
  | method (declaration : WrittenMethod)
  | nested (name : FreeName) (superclass : Option WrittenType) (members : List WrittenMember)

structure WrittenClass where
  name : FreeName
  superclass : Option WrittenType
  members : List WrittenMember

structure WrittenImport where
  path : DottedName
  isStatic : Bool
  wildcard : Bool

structure WrittenFile where
  package : Option DottedName
  imports : List WrittenImport
  classes : List WrittenClass

namespace CallStatement

def text (statement : CallStatement) : String :=
  statement.operand.text ++ ";"

def callsFrom (line : Nat) : List CallStatement → List CallSite
  | [] => []
  | first :: rest => first.operand.calls line ++ callsFrom (line + 1) rest

end CallStatement

namespace WrittenParameter

variable (parameter : WrittenParameter)

def text : String :=
  parameter.type.text ++ " " ++ parameter.name.text

def toParameter : Parameter :=
  ⟨parameter.name.text, parameter.type.erased⟩

end WrittenParameter

namespace WrittenMethod

variable (method : WrittenMethod)

def returnText : String :=
  (method.returnType.map (·.text)).getD "void"

def heading : String :=
  method.returnText ++ " " ++ method.name.text ++ "(" ++
    Text.joinWith ", " (method.parameters.map (·.text)) ++ ") \x7b"

def lines : List String :=
  if method.body.isEmpty then [method.heading ++ " \x7d"]
  else method.heading :: (method.body.map (·.text) ++ ["\x7d"])

def signature : String :=
  method.returnText ++ " " ++ method.name.text ++ "(" ++
    Text.joinWith ", " (method.parameters.map (·.type.text)) ++ ")"

def toMethod (line : Nat) : Method where
  name := method.name.text
  annotations := []
  signature := method.signature
  parameters := method.parameters.map (·.toParameter)
  returnType := (method.returnType.map (·.erased)).getD "void"
  line := line
  variadic := false
  locals := .empty
  calls := CallStatement.callsFrom (line + 1) method.body

end WrittenMethod

def classHeading (name : FreeName) (superclass : Option WrittenType) : String :=
  "class " ++ name.text ++ ((superclass.map fun type => " extends " ++ type.text).getD "") ++ " \x7b"

def qualified (qualifier name : String) : String :=
  if qualifier.isEmpty then name else qualifier ++ "." ++ name

namespace WrittenMember

mutual

def lines : WrittenMember → List String
  | field type name => [type.text ++ " " ++ name.text ++ ";"]
  | method declaration => declaration.lines
  | nested name superclass members => classHeading name superclass :: (linesOf members ++ ["\x7d"])

def linesOf : List WrittenMember → List String
  | [] => []
  | first :: rest => first.lines ++ linesOf rest

end

def field? : WrittenMember → Option (String × String)
  | field type name => some (name.text, type.erased)
  | _ => none

def method? : WrittenMember → Option WrittenMethod
  | method declaration => some declaration
  | _ => none

def methodsFrom (line : Nat) : List WrittenMember → List (Nat × WrittenMethod)
  | [] => []
  | first :: rest =>
    (first.method?.map fun declared => (line, declared)).toList ++
      methodsFrom (line + first.lines.length) rest

def declaration (qualifier : String) (outer : Option String) (line : Nat) (name : FreeName)
    (superclass : Option WrittenType) (members : List WrittenMember) : TypeDeclaration where
  name := name.text
  fqn := qualified qualifier name.text
  kind := .classKind
  annotations := []
  supertypes := superclass.toList.map (·.erased)
  outer := outer
  fields := Table.ofList (members.filterMap field?)
  methods := (methodsFrom (line + 1) members).map fun (line, declared) => declared.toMethod line

mutual

def types (qualifier : String) (outer : Option String) (line : Nat) :
    WrittenMember → List TypeDeclaration
  | nested name superclass members =>
    let fqn := qualified qualifier name.text
    declaration qualifier outer line name superclass members ::
      typesFrom fqn (some fqn) (line + 1) members
  | field .. | method _ => []

def typesFrom (qualifier : String) (outer : Option String) (line : Nat) :
    List WrittenMember → List TypeDeclaration
  | [] => []
  | first :: rest =>
    first.types qualifier outer line ++ typesFrom qualifier outer (line + first.lines.length) rest

end

mutual

def classMethods (line : Nat) : WrittenMember → List (Nat × WrittenMethod)
  | nested _ _ members => methodsFrom (line + 1) members ++ classMethodsFrom (line + 1) members
  | field .. | method _ => []

def classMethodsFrom (line : Nat) : List WrittenMember → List (Nat × WrittenMethod)
  | [] => []
  | first :: rest => first.classMethods line ++ classMethodsFrom (line + first.lines.length) rest

end

end WrittenMember

def WrittenClass.toMember (declared : WrittenClass) : WrittenMember :=
  .nested declared.name declared.superclass declared.members

def WrittenImport.text (declared : WrittenImport) : String :=
  "import " ++ (if declared.isStatic then "static " else "") ++ declared.path.text ++
    (if declared.wildcard then ".*" else "") ++ ";"

namespace WrittenFile

variable (file : WrittenFile)

def head : List String :=
  file.package.toList.map (fun name => "package " ++ name.text ++ ";") ++ file.imports.map (·.text)

def lines : List String :=
  file.head ++ file.classes.flatMap (·.toMember.lines)

def text : String :=
  String.join (file.lines.map (· ++ "\n"))

def packageText : String :=
  (file.package.map (·.text)).getD ""

def methods : List (Nat × WrittenMethod) :=
  WrittenMember.classMethodsFrom (file.head.length + 1) (file.classes.map (·.toMember))

def toSourceFile (path : String) : SourceFile where
  path := path
  content := some file.text
  size := file.text.utf8ByteSize
  package := file.packageText
  imports := file.imports.map fun declared => ⟨declared.path.text, declared.isStatic, declared.wildcard⟩
  types := WrittenMember.typesFrom file.packageText none (file.head.length + 1)
    (file.classes.map (·.toMember))

end WrittenFile

end CallContext.Java
