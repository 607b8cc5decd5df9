import CallContext.Workspace
import CallContext.Proofs.Index
import CallContext.Proofs.Java.SourceFile

namespace CallContext

open Java

theorem Java.SourceFile.parse_path {path content : String} {file : SourceFile}
    (parsed : SourceFile.parse path content = .ok file) : file.path = path := by
  obtain ⟨items, rfl⟩ := SourceFile.parse_eq_ok parsed
  rfl

theorem Java.SourceFile.parse_content {path content : String} {file : SourceFile}
    (parsed : SourceFile.parse path content = .ok file) : file.content = some content := by
  obtain ⟨items, rfl⟩ := SourceFile.parse_eq_ok parsed
  rfl

namespace Workspace

theorem readFile_content_isSome_iff {disk : Disk} {root path : String} {settings : Settings}
    {file : SourceFile} (found : readFile disk root settings path = some file) :
    file.content.isSome ↔ file.size < settings.maxFileSize := by
  simp only [readFile, bind, Option.bind_eq_some_iff, Except.toOption, pure] at found
  obtain ⟨source, -, read, located, equal⟩ := found
  cases parsed : SourceFile.parse (Path.relative root path) source.text with
  | error failure => simp [parsed] at located
  | ok original =>
      simp only [parsed, Option.some.injEq] at located equal
      subst located equal
      by_cases small : source.size < settings.maxFileSize
      · simp [small, Nat.not_le.mpr small, SourceFile.parse_content parsed]
      · simp [small, Nat.not_lt.mp small]

theorem openAt_index {disk : Disk} {root : String} {settings : Settings} {workspace : Workspace}
    (opened : openAt disk root settings = .ok workspace) :
    ∃ (canonical : String) (paths : List String), workspace.index =
      SourceIndex.ofFiles (paths.filterMap (readFile disk canonical workspace.settings)) := by
  unfold openAt at opened
  split at opened
  · cases opened
  · dsimp only at opened
    split at opened
    · cases opened
    · cases opened
      exact ⟨_, _, rfl⟩

theorem exists_readFile_of_mem_files {disk : Disk} {root : String} {settings : Settings}
    {workspace : Workspace} (opened : openAt disk root settings = .ok workspace) {file : SourceFile}
    (indexed : file ∈ workspace.index.files) :
    ∃ canonical path : String, readFile disk canonical workspace.settings path = some file := by
  obtain ⟨canonical, paths, equal⟩ := openAt_index opened
  rw [equal, SourceIndex.mem_files_ofFiles] at indexed
  obtain ⟨path, -, read⟩ := List.mem_filterMap.mp indexed
  exact ⟨canonical, path, read⟩

theorem openAt_content_isSome_iff {disk : Disk} {root : String} {settings : Settings}
    {workspace : Workspace} (opened : openAt disk root settings = .ok workspace)
    {file : SourceFile} (indexed : file ∈ workspace.index.files) :
    file.content.isSome ↔ file.size < workspace.settings.maxFileSize := by
  obtain ⟨canonical, path, read⟩ := exists_readFile_of_mem_files opened indexed
  exact readFile_content_isSome_iff read

end Workspace

end CallContext
