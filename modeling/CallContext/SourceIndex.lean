import CallContext.Collection.Table
import CallContext.Java.SourceFile

/-!
The index of a project: its source files in the order of their paths, and what can be looked up in
them. Where several types have one fully qualified name, the first one is meant. Lookups go by tables of
positions, which are made together with the index.
-/

namespace CallContext

open Java

structure IndexTables where
  byPath : Table String Nat
  /-- The position of the file of the type with a fully qualified name, and that of the type in it. -/
  byFqn : Table String (Nat × Nat)
  bySimpleName : Table String (List String)

namespace IndexTables

def empty : IndexTables := ⟨.empty, .empty, .empty⟩

def addType (tables : IndexTables) (position : Nat × Nat) (type : TypeDeclaration) : IndexTables :=
  if tables.byFqn.contains type.fqn then tables
  else
    { tables with
      byFqn := tables.byFqn.put type.fqn position
      bySimpleName := tables.bySimpleName.alter type.name fun fqns => fqns.getD [] ++ [type.fqn] }

def addFile (tables : IndexTables) (position : Nat) (file : SourceFile) : IndexTables :=
  file.types.zipIdx.foldl (fun tables (type, place) => tables.addType (position, place) type)
    { tables with byPath := tables.byPath.insertNew file.path position }

def ofFiles (files : List SourceFile) : IndexTables :=
  files.zipIdx.foldl (fun tables (file, position) => tables.addFile position file) empty

end IndexTables

/-- Source files in the order of their paths, with the tables to look them up. -/
structure SourceIndex where
  /-- The index of files for which tables have been made. -/
  ofTables ::
  files : List SourceFile
  tables : IndexTables
  tables_eq : tables = IndexTables.ofFiles files

structure Declaration where
  file : SourceFile
  type : TypeDeclaration

namespace SourceIndex

def mk (files : List SourceFile) : SourceIndex :=
  ⟨files, IndexTables.ofFiles files, rfl⟩

/-- The index of some files. Files with equal paths keep their order. -/
def ofFiles (files : List SourceFile) : SourceIndex :=
  mk (files.mergeSort fun a b => a.path ≤ b.path)

instance : Inhabited SourceIndex := ⟨mk []⟩

def isEmpty (index : SourceIndex) : Bool :=
  index.files.isEmpty

def file? (index : SourceIndex) (path : String) : Option SourceFile := do
  let position ← index.tables.byPath.get? path
  index.files[position]?

def declarations (index : SourceIndex) : List Declaration :=
  index.files.flatMap fun file => file.types.map fun type => ⟨file, type⟩

def type? (index : SourceIndex) (fqn : String) : Option TypeDeclaration := do
  let (position, place) ← index.tables.byFqn.get? fqn
  let file ← index.files[position]?
  file.types[place]?

def fileOfType? (index : SourceIndex) (fqn : String) : Option SourceFile := do
  let (position, _) ← index.tables.byFqn.get? fqn
  index.files[position]?

def declaration? (index : SourceIndex) (fqn : String) : Option Declaration := do
  let file ← index.fileOfType? fqn
  let type ← index.type? fqn
  some ⟨file, type⟩

def hasType (index : SourceIndex) (fqn : String) : Bool :=
  index.tables.byFqn.contains fqn

def known? (index : SourceIndex) (fqn : String) : Option String :=
  (index.type? fqn).map (·.fqn)

def typeNames (index : SourceIndex) : List String :=
  (index.declarations.map (·.type.fqn)).eraseDups

def typesNamed (index : SourceIndex) (name : String) : List String :=
  (index.tables.bySimpleName.get? name).getD []

end SourceIndex

end CallContext
