import CallContext.Context.Assemble
import CallContext.Proofs.Diff.Recorded
import CallContext.Proofs.Java.SourceFile

/-!
Narrowing changed files to the methods that a diff shows. The names in a diff are taken from how lines
look, the methods of a file from what it declares. A file counts as a whole if the diff shows no names
for it; otherwise it has methods to start from exactly if one of the names is the name of a method.
-/

namespace CallContext

def Java.SourceFile.methodNames (file : Java.SourceFile) : List String :=
  file.types.flatMap fun type => type.methods.map (·.name)

namespace Workspace

theorem seedsOf_ne_nil_iff (policy : OverloadPolicy) (file : Java.SourceFile)
    (names : Option (List String)) :
    seedsOf policy file names ≠ [] ↔
      ∃ name ∈ file.methodNames, names.all (·.contains name) = true := by
  have mem_iff (id : MethodId) : id ∈ seedsOf policy file names ↔
      ∃ type ∈ file.types, ∃ method ∈ type.methods, names.all (·.contains method.name) = true ∧
        MethodId.declared policy type.fqn method = id := by
    simp only [seedsOf, List.mem_eraseDups, List.mem_flatMap, List.mem_map, List.mem_filter,
      and_assoc]
  simp only [Java.SourceFile.methodNames, List.mem_flatMap, List.mem_map]
  constructor
  · intro started
    obtain ⟨id, member⟩ := List.exists_mem_of_ne_nil _ started
    obtain ⟨type, inFile, method, inType, wanted, -⟩ := (mem_iff id).mp member
    exact ⟨method.name, ⟨type, inFile, method, inType, rfl⟩, wanted⟩
  · rintro ⟨-, ⟨type, inFile, method, inType, rfl⟩, wanted⟩
    exact List.ne_nil_of_mem ((mem_iff _).mpr ⟨type, inFile, method, inType, wanted, rfl⟩)

theorem seedsOf_none_ne_nil {file : Java.SourceFile} (declares : file.methodNames ≠ [])
    (policy : OverloadPolicy) : seedsOf policy file none ≠ [] := by
  obtain ⟨name, declared⟩ := List.exists_mem_of_ne_nil _ declares
  exact (seedsOf_ne_nil_iff policy file none).mpr ⟨name, declared, rfl⟩

theorem seedsOf_some_ne_nil_iff (policy : OverloadPolicy) (file : Java.SourceFile)
    (names : List String) :
    seedsOf policy file (some names) ≠ [] ↔ ∃ name ∈ names, name ∈ file.methodNames := by
  rw [seedsOf_ne_nil_iff]
  simp only [Option.all_some, List.contains_iff_mem]
  exact exists_congr fun name => and_comm

/-- The methods to start from in a changed file, if the request is narrowed by a diff that can be read
to its end. Without an entry for the file these are all its methods, else those with names in the entry.
Such names stand on lines that look like declarations, so there are methods to start from if all such
lines declare methods. -/
theorem seedsOf_changedMethods (workspace : Workspace) (disk : Disk) {request : Request}
    {diff : String} (path : String) {file : Java.SourceFile} {methods : ChangedMethods}
    (scanned : workspace.changedMethods disk diff request.changedFiles = .ok methods)
    (narrowed : request.changedMethods = some methods)
    (declares : file.methodNames ≠ []) :
    let seeds := seedsOf workspace.settings.overloads file (request.namesFor path)
    let suggested := Diff.suggested (workspace.textOf disk) diff path
    (match methods.get? path with
      | none => seeds = seedsOf workspace.settings.overloads file none ∧ seeds ≠ []
      | some names => names ≠ [] ∧ (∀ name ∈ names, name ∈ suggested) ∧
          (seeds ≠ [] ↔ ∃ name ∈ names, name ∈ file.methodNames)) ∧
    ((∀ name ∈ suggested, name ∈ file.methodNames) → seeds ≠ []) := by
  intro seeds suggested
  cases entry : methods.get? path with
  | none =>
      have whole : request.namesFor path = none := by
        simp [Request.namesFor, narrowed, entry]
      have equal : seeds = seedsOf workspace.settings.overloads file none := by
        simp only [seeds, whole]
      have started : seeds ≠ [] := equal ▸ seedsOf_none_ne_nil declares _
      exact ⟨⟨equal, started⟩, fun _ => started⟩
  | some names =>
      obtain ⟨nonempty, recorded⟩ := Diff.names_of_scan scanned entry
      have chosen : request.namesFor path = some names := by
        simp [Request.namesFor, narrowed, entry, nonempty]
      have startedIff : seeds ≠ [] ↔ ∃ name ∈ names, name ∈ file.methodNames := by
        simpa only [seeds, chosen] using seedsOf_some_ne_nil_iff _ file names
      refine ⟨⟨nonempty, recorded, startedIff⟩, fun declared => startedIff.mpr ?_⟩
      obtain ⟨name, member⟩ := List.exists_mem_of_ne_nil _ nonempty
      exact ⟨name, member, declared name (recorded name member)⟩

def fieldText : String :=
  "class A \x7b\n  private B b = new B();\n  public void run() \x7b\n    b.go();\n  \x7d\n\x7d\n"

def fieldFile : Java.SourceFile :=
  ((Java.SourceFile.parse "A.java" fieldText).toOption).getD (.ofItems "A.java" fieldText [])

theorem parse_fieldText : Java.SourceFile.parse "A.java" fieldText = .ok fieldFile := by
  have reads : ((Java.SourceFile.parse "A.java" fieldText).toOption).isSome = true := by
    decide +kernel
  obtain ⟨file, found⟩ := Option.isSome_iff_exists.mp reads
  rw [fieldFile, found]
  exact Java.SourceFile.parse_of_toOption found

theorem methodNames_fieldFile : fieldFile.methodNames = ["run"] := by
  decide +kernel

def fieldWorkspace : Workspace :=
  ⟨"/p", {}, .mk [fieldFile], .available .merge,
    CallGraph.build (.mk [fieldFile]) (.available .merge) .merge⟩

def fieldDisk : Disk :=
  ⟨.directory [("p", .directory [("A.java", .file fieldText.toUTF8.toList)])], []⟩

def narrowedBy (diff : String) : Request :=
  ⟨["A.java"], (fieldWorkspace.changedMethods fieldDisk diff ["A.java"]).toOption, 1, 1, .pair⟩

def addedCall : String :=
  "diff --git a/A.java b/A.java\n@@ -3,1 +3,2 @@\n   public void run() \x7b\n+    b.go();\n"

theorem exists_changedMethods {diff : String} {names : List String}
    (found : (fieldWorkspace.changedMethods fieldDisk diff ["A.java"]).map (·.get? "A.java") =
      .ok (some names)) :
    ∃ methods, fieldWorkspace.changedMethods fieldDisk diff ["A.java"] = .ok methods ∧
      (narrowedBy diff).changedMethods = some methods ∧ methods.get? "A.java" = some names := by
  cases scanned : fieldWorkspace.changedMethods fieldDisk diff ["A.java"] with
  | error trap =>
      rw [scanned] at found
      cases found
  | ok methods =>
      rw [scanned] at found
      refine ⟨methods, rfl, ?_, Except.ok.inj found⟩
      rw [narrowedBy, scanned]
      rfl

theorem seedsOf_changedMethods_addedCall :
    (∃ methods, fieldWorkspace.changedMethods fieldDisk addedCall ["A.java"] = .ok methods ∧
      (narrowedBy addedCall).changedMethods = some methods) ∧ fieldFile.methodNames ≠ [] ∧
      seedsOf fieldWorkspace.settings.overloads fieldFile
        ((narrowedBy addedCall).namesFor "A.java") ≠ [] := by
  have declares : fieldFile.methodNames ≠ [] := by
    rw [methodNames_fieldFile]
    decide
  obtain ⟨methods, scanned, narrowed, entry⟩ := @exists_changedMethods addedCall ["run"] (by decide +kernel)
  have seeds := (seedsOf_changedMethods fieldWorkspace fieldDisk "A.java" scanned narrowed declares).1
  rw [entry] at seeds
  exact ⟨⟨methods, scanned, narrowed⟩, declares,
    seeds.2.2.mpr ⟨"run", by simp, by simp [methodNames_fieldFile]⟩⟩

def addedField : String :=
  "diff --git a/A.java b/A.java\n@@ -1,1 +1,2 @@\n class A \x7b\n+  private B b = new B();\n"

theorem seedsOf_changedMethods_eq_nil :
    ¬ ∀ (workspace : Workspace) (disk : Disk) (request : Request) (diff path text : String)
      (file : Java.SourceFile) (methods : ChangedMethods),
      workspace.changedMethods disk diff request.changedFiles = .ok methods →
      request.changedMethods = some methods →
      path ∈ request.changedFiles → workspace.textOf disk path = some text →
      Java.SourceFile.parse path text = .ok file → file.methodNames ≠ [] →
        seedsOf workspace.settings.overloads file (request.namesFor path) ≠ [] := by
  intro kept
  have readable : fieldWorkspace.textOf fieldDisk "A.java" = some fieldText := by decide +kernel
  obtain ⟨methods, scanned, narrowed, entry⟩ := @exists_changedMethods addedField ["B"] (by decide +kernel)
  have names : (narrowedBy addedField).namesFor "A.java" = some ["B"] := by
    simp [Request.namesFor, narrowed, entry]
  have started := kept fieldWorkspace fieldDisk (narrowedBy addedField) addedField "A.java" fieldText
    fieldFile methods scanned narrowed (by simp [narrowedBy]) readable parse_fieldText
    (by simp [methodNames_fieldFile])
  rw [names, seedsOf_some_ne_nil_iff, methodNames_fieldFile] at started
  revert started
  decide

end Workspace

end CallContext
