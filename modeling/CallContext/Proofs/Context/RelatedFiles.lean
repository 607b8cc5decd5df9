import CallContext.Proofs.Context.Accumulate
import CallContext.Proofs.Workspace

namespace CallContext

open Collection Java

namespace Workspace

variable (workspace : Workspace) (disk : Disk) (request : Request)

theorem changedFile?_eq_some_iff (path text : String) (file : SourceFile) :
    workspace.changedFile? disk path = some (file, text) ↔
      Path.hasExtension workspace.settings.extensions path ∧ workspace.textOf disk path = some text ∧
        SourceFile.parse path text = .ok file := by
  unfold changedFile?
  cases extension : Path.hasExtension workspace.settings.extensions path with
  | false => simp
  | true =>
      cases read : workspace.textOf disk path with
      | none => simp
      | some content =>
          cases parsed : SourceFile.parse path content with
          | error failure =>
              simp only [Bool.not_true, Bool.false_eq_true, if_false, Option.bind_eq_bind,
                Option.bind_some, parsed, Except.toOption, Option.bind_none, reduceCtorEq,
                Option.some.injEq, true_and, false_iff, not_and]
              rintro rfl
              simp [parsed]
          | ok found =>
              simp only [Bool.not_true, Bool.false_eq_true, if_false, Option.bind_eq_bind,
                Option.bind_some, parsed, Except.toOption, Option.pure_def, Option.some.injEq,
                Prod.mk.injEq, true_and]
              constructor
              · rintro ⟨rfl, rfl⟩
                exact ⟨rfl, parsed⟩
              · rintro ⟨rfl, equal⟩
                rw [parsed] at equal
                cases equal
                exact ⟨rfl, rfl⟩

/-- The methods near a changed file: those related to its seeds, if it is a source file that can be
read, calls can be resolved and there are seeds. -/
def nearby (changed : String) : List MethodId :=
  match workspace.textOf disk changed with
  | none => []
  | some text => match SourceFile.parse changed text with
    | .error _ => []
    | .ok file =>
      let seeds := seedsOf workspace.settings.overloads file (request.namesFor changed)
      if Path.hasExtension workspace.settings.extensions changed ∧ workspace.resolver.isAvailable ∧
          seeds ≠ [] then
        workspace.graph.related seeds request.up request.down
      else []

def keptText (path : String) : Option String :=
  (workspace.index.file? path).bind (·.content)

def leadTo (id : MethodId) : Option String :=
  ((workspace.graph.location id).map (·.path)).filter fun path =>
    path ∉ request.changedFiles ∧ (workspace.keptText path).isSome

def leadsOf (changed : String) : List (String × String) :=
  ((workspace.nearby disk request changed).filterMap (workspace.leadTo request)).map fun path =>
    (changed, path)

def leads : List (String × String) :=
  request.changedFiles.flatMap (workspace.leadsOf disk request)

def emitted (lead : String × String) : RelatedFile :=
  ⟨lead.2, (workspace.keptText lead.2).getD "", "call-chain related to " ++ lead.1⟩

variable {workspace disk request}

theorem nearby_of_changedFile?_eq_none {changed : String}
    (skipped : workspace.changedFile? disk changed = none) :
    workspace.nearby disk request changed = [] := by
  unfold nearby
  split
  · rfl
  · rename_i text read
    split
    · rfl
    · rename_i file parsed
      refine if_neg fun ⟨extension, _⟩ => ?_
      have accepted := (workspace.changedFile?_eq_some_iff disk changed text file).mpr
        ⟨extension, read, parsed⟩
      rw [skipped] at accepted
      cases accepted

theorem nearby_of_changedFile?_eq_some {changed text : String} {file : SourceFile}
    (accepted : workspace.changedFile? disk changed = some (file, text)) :
    workspace.nearby disk request changed =
      if workspace.resolver.isAvailable ∧
          seedsOf workspace.settings.overloads file (request.namesFor changed) ≠ [] then
        workspace.graph.related
          (seedsOf workspace.settings.overloads file (request.namesFor changed)) request.up request.down
      else [] := by
  obtain ⟨extension, read, parsed⟩ :=
    (workspace.changedFile?_eq_some_iff disk changed text file).mp accepted
  unfold nearby
  rw [read]
  dsimp only
  rw [parsed]
  dsimp only
  simp only [extension, true_and]

theorem relatedFile?_eq_map {changed : String} (member : changed ∈ request.changedFiles)
    (id : MethodId) :
    workspace.relatedFile? request changed id =
      (workspace.leadTo request id).map fun path => workspace.emitted (changed, path) := by
  unfold relatedFile? leadTo
  cases declared : workspace.graph.location id with
  | none => rfl
  | some location =>
      rw [Option.map_some, Option.filter_some]
      by_cases asked : location.path ∈ request.changedFiles
      · simp [asked]
      · have other : location.path ≠ changed := fun same => asked (same ▸ member)
        cases found : workspace.index.file? location.path with
        | none => simp [asked, other, keptText, found]
        | some file =>
            cases kept : file.content <;> simp [asked, other, emitted, keptText, found, kept]

theorem filterMap_relatedFile? {changed : String} (member : changed ∈ request.changedFiles) :
    (workspace.nearby disk request changed).filterMap (workspace.relatedFile? request changed) =
      (workspace.leadsOf disk request changed).map workspace.emitted := by
  rw [leadsOf, List.map_map, List.map_filterMap]
  exact List.filterMap_congr fun id _ => relatedFile?_eq_map member id

theorem keptText_isSome_of_mem_leads {lead : String × String}
    (member : lead ∈ workspace.leads disk request) : (workspace.keptText lead.2).isSome := by
  obtain ⟨changed, -, listed⟩ := List.mem_flatMap.mp member
  obtain ⟨path, shown, rfl⟩ := List.mem_map.mp listed
  obtain ⟨id, -, led⟩ := List.mem_filterMap.mp shown
  have kept := (Option.filter_eq_some_iff.mp led).2
  simp only [decide_eq_true_eq] at kept
  exact kept.2

theorem changedFile?_isSome_of_mem_leads {lead : String × String}
    (member : lead ∈ workspace.leads disk request) :
    lead.1 ∈ request.changedFiles ∧ (workspace.changedFile? disk lead.1).isSome := by
  obtain ⟨changed, asked, listed⟩ := List.mem_flatMap.mp member
  obtain ⟨path, shown, rfl⟩ := List.mem_map.mp listed
  refine ⟨asked, ?_⟩
  cases accepted : workspace.changedFile? disk changed with
  | some found => rfl
  | none =>
      rw [nearby_of_changedFile?_eq_none accepted] at shown
      simp at shown

end Workspace

namespace Context

variable {workspace : Workspace} {disk : Disk} {request : Request}

theorem relatedFiles_addFile (context : Context) {changed : String}
    (member : changed ∈ request.changedFiles) :
    (addFile workspace disk request context changed).relatedFiles =
      ((workspace.leadsOf disk request changed).map workspace.emitted).foldl
        (addOne workspace.settings.maxRelatedFiles) context.relatedFiles := by
  rw [← Workspace.filterMap_relatedFile? member, ← addRelated_eq_foldl]
  unfold addFile
  cases accepted : workspace.changedFile? disk changed with
  | none =>
      rw [Workspace.nearby_of_changedFile?_eq_none accepted]
      rfl
  | some found =>
      obtain ⟨file, text⟩ := found
      rw [Workspace.nearby_of_changedFile?_eq_some accepted]
      dsimp only
      by_cases stopped : !workspace.resolver.isAvailable ||
          (Workspace.seedsOf workspace.settings.overloads file (request.namesFor changed)).isEmpty
      · rw [if_pos stopped, if_neg (by simpa [imp_iff_not_or] using stopped)]
        rfl
      · rw [if_neg stopped, if_pos (by simpa using stopped)]

theorem changedFiles_addFile (context : Context) (changed : String) :
    (addFile workspace disk request context changed).changedFiles =
      context.changedFiles ++ ((workspace.changedFile? disk changed).map fun found =>
        ChangedFile.ofSource found.1 found.2).toList := by
  unfold addFile
  cases workspace.changedFile? disk changed with
  | none => simp
  | some found =>
      dsimp only
      split_ifs <;> rfl

theorem relatedFiles_foldl (context : Context) {paths : List String}
    (asked : ∀ path ∈ paths, path ∈ request.changedFiles) :
    (paths.foldl (addFile workspace disk request) context).relatedFiles =
      ((paths.flatMap (workspace.leadsOf disk request)).map workspace.emitted).foldl
        (addOne workspace.settings.maxRelatedFiles) context.relatedFiles := by
  induction paths generalizing context with
  | nil => rfl
  | cons path rest ih =>
      rw [List.foldl_cons, ih _ fun other member => asked other (by simp [member]),
        relatedFiles_addFile context (asked path (by simp)), List.flatMap_cons, List.map_append,
        List.foldl_append]

theorem changedFiles_foldl (context : Context) (paths : List String) :
    (paths.foldl (addFile workspace disk request) context).changedFiles =
      context.changedFiles ++ paths.filterMap fun path =>
        (workspace.changedFile? disk path).map fun found => ChangedFile.ofSource found.1 found.2 := by
  induction paths generalizing context with
  | nil => simp
  | cons path rest ih =>
      rw [List.foldl_cons, ih, changedFiles_addFile, List.append_assoc, List.filterMap_cons]
      cases workspace.changedFile? disk path <;> simp

theorem relatedFiles_assemble :
    (assemble workspace disk request).relatedFiles =
      (distinctPaths ((workspace.leads disk request).map workspace.emitted)).take
        workspace.settings.maxRelatedFiles := by
  rw [← foldl_addOne]
  exact relatedFiles_foldl _ fun path member => member

theorem changedFiles_assemble :
    (assemble workspace disk request).changedFiles = request.changedFiles.filterMap fun path =>
      (workspace.changedFile? disk path).map fun found => ChangedFile.ofSource found.1 found.2 :=
  changedFiles_foldl _ request.changedFiles

theorem exists_changedFile_path {changed : String} (asked : changed ∈ request.changedFiles)
    (accepted : (workspace.changedFile? disk changed).isSome) :
    ∃ file ∈ (assemble workspace disk request).changedFiles, file.path = changed := by
  obtain ⟨⟨file, text⟩, accepted⟩ := Option.isSome_iff_exists.mp accepted
  obtain ⟨-, -, parsed⟩ := (workspace.changedFile?_eq_some_iff disk changed text file).mp accepted
  rw [changedFiles_assemble]
  refine ⟨ChangedFile.ofSource file text, ?_, SourceFile.parse_path parsed⟩
  exact List.mem_filterMap.mpr ⟨changed, asked, by simp [accepted]⟩

/-- The related files are the first files that the changed files lead to, each with its kept text and
the first changed file that leads to it. In an opened project the files with kept texts are the ones
below the size limit. -/
theorem relatedFiles_exact (workspace : Workspace) (disk : Disk) (request : Request) :
    let leads := workspace.leads disk request
    let result := assemble workspace disk request
    result.relatedFiles.map (·.path) =
      ((leads.map (·.2)).eraseDups).take workspace.settings.maxRelatedFiles ∧
    (∀ related ∈ result.relatedFiles,
      workspace.keptText related.path = some related.content ∧
      ∃ changed, leads.find? (·.2 = related.path) = some (changed, related.path) ∧
        related.reason = "call-chain related to " ++ changed ∧
        ∃ file ∈ result.changedFiles, file.path = changed) ∧
    ∀ source root settings, Workspace.openAt source root settings = .ok workspace →
      ∀ file ∈ workspace.index.files,
        file.content.isSome ↔ file.size < workspace.settings.maxFileSize := by
  intro leads result
  have files : result.relatedFiles = (distinctPaths (leads.map workspace.emitted)).take _ :=
    relatedFiles_assemble
  refine ⟨?_, fun related member => ?_, fun source root settings opened file =>
    Workspace.openAt_content_isSome_iff opened⟩
  · rw [files, List.map_take, map_path_distinctPaths, List.map_map]
    rfl
  · rw [files] at member
    have first := find?_of_mem_distinctPaths (List.mem_of_mem_take member)
    rw [List.find?_map, Option.map_eq_some_iff] at first
    obtain ⟨⟨changed, path⟩, led, rfl⟩ := first
    have lead := List.mem_of_find?_eq_some led
    obtain ⟨asked, accepted⟩ := Workspace.changedFile?_isSome_of_mem_leads lead
    obtain ⟨text, kept⟩ := Option.isSome_iff_exists.mp (Workspace.keptText_isSome_of_mem_leads lead)
    refine ⟨?_, changed, led, rfl, exists_changedFile_path asked accepted⟩
    simp only [Workspace.emitted]
    simp [kept]

end Context

end CallContext
