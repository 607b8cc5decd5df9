import CallContext.Proofs.Java.Parser.File

/-!
Written files are read as they were written. `SourceFile.parse_text` is about declarations: the package,
the imports, and the classes with their fields and methods. `SourceFile.parse_text_calls` is about the
bodies of methods: the calls of a method are those of its statements, one statement after the other.
-/

namespace CallContext.Java.SourceFile

/-- Reading the text of a file succeeds and gives what was written. -/
theorem parse_text (path : String) (file : WrittenFile) :
    parse path file.text = .ok (file.toSourceFile path) := by
  rw [parse, parseSource_text, ← file.ofItems_items]

/-- The calls of every method that is read are those of the statements in its body, each call after
those of its object and of its arguments. -/
theorem parse_text_calls (path : String) (file : WrittenFile) :
    ∃ source, parse path file.text = .ok source ∧
      (source.types.flatMap (·.methods)).map (fun method => (method.name, method.calls)) =
        file.methods.map fun (line, method) =>
          (method.name.text, CallStatement.callsFrom (line + 1) method.body) := by
  refine ⟨ofItems path file.text file.items, by rw [parse, parseSource_text], ?_⟩
  have methods : (file.toSourceFile path).types.flatMap (·.methods) =
      file.methods.map fun (line, declared) => declared.toMethod line :=
    WrittenMember.methods_typesFrom _ _ _ _
  rw [file.ofItems_items, methods, List.map_map]
  rfl

end CallContext.Java.SourceFile
