import CallContext.Proofs.Java.Locals
import CallContext.Proofs.Resolution.Skeleton

/-!
Calls on a variable that a method declares. If the method shows the type of the variable, no field has a
say in what such a call means. A local variable whose type is inferred from anything but the creation of
an object or a cast is not recorded, and a field of the same name is taken for it.
-/

namespace CallContext

open Java

namespace SourceIndex

theorem isSome_writtenType_iff (file : SourceFile) (type : TypeDeclaration)
    (declaration : MethodSyntax) (name : String) :
    (writtenType ⟨file, type, declaration.toMethod⟩ name).isSome ↔ declaration.Shows name := by
  have parameter : (declaration.toMethod.parameters.find? (·.name == name)).isSome ↔
      ∃ parameter ∈ declaration.parameters, parameter.name = name := by
    simp [MethodSyntax.toMethod, FormalParameter.toParameter, List.find?_isSome]
  rw [MethodSyntax.Shows, ← parameter, ← declaration.isSome_local_iff, writtenType]
  cases declaration.toMethod.parameters.find? (·.name == name) <;> simp

theorem candidates_name (index : SourceIndex) (scope : Scope) {site : CallSite} {name : String}
    (called : site.receiver = .name name) :
    index.candidates scope site =
      ((index.variableType scope name).getD (index.typeAt scope name)).elim []
        fun owner => index.methodsNamed owner site.name := by
  rw [candidates, called, receiverType]
  cases index.variableType scope name with
  | none => cases index.typeAt scope name <;> simp [methodsOn]
  | some type => cases type <;> rfl

theorem resolveCall_skeleton (index : SourceIndex) (policy : OverloadPolicy) {scope : Scope}
    {site : CallSite} {name : String} (called : site.receiver = .name name)
    (written : (writtenType scope name).isSome) :
    index.skeleton.resolveCall policy scope.skeleton site = index.resolveCall policy scope site := by
  obtain ⟨type, found⟩ := Option.isSome_iff_exists.mp written
  have kept : writtenType scope.skeleton name = some type := found
  have meant : index.skeleton.typeAt scope.skeleton type = index.typeAt scope type :=
    index.resolveType_skeleton scope.file scope.type type
  have methods : index.skeleton.candidates scope.skeleton site =
      (index.candidates scope site).map OwnedMethod.skeleton := by
    rw [candidates_name _ _ called, candidates_name _ _ called, variableType, variableType, kept, found]
    simp only [Option.getD_some, meant]
    cases index.typeAt scope type with
    | none => rfl
    | some owner => exact index.methodsNamed_skeleton owner site.name
  rw [resolveCall, resolveCall, methods, target_skeleton]

/-- If a method has a parameter of a name, or its body shows the type of a variable of that name, a call
on the name means the same in all projects that differ only in fields, texts and places. If not, fields
come first and then types. -/
theorem resolveCall_local (index : SourceIndex) (policy : OverloadPolicy) (file : SourceFile)
    (type : TypeDeclaration) (declaration : MethodSyntax) {site : CallSite} {name : String}
    (called : site.receiver = .name name) :
    let scope : Scope := ⟨file, type, declaration.toMethod⟩
    (∀ body written value, declaration.body = some body → body.DeclaresLocal name written value →
      IsEvident written value → declaration.Shows name) ∧
    (declaration.Shows name → ∀ (other : SourceIndex) (otherScope : Scope) (line : Nat),
      other.skeleton = index.skeleton → otherScope.skeleton = scope.skeleton →
        other.resolveCall policy otherScope { site with line := line } =
          index.resolveCall policy scope site) ∧
    (¬ declaration.Shows name → index.resolveCall policy scope site =
      target policy
        ((((index.enclosing type).findSome? fun owner => index.fieldType owner name).getD
          (index.typeAt scope name)).elim [] fun owner => index.methodsNamed owner site.name)
        site.arguments) := by
  intro scope
  have shown := isSome_writtenType_iff file type declaration name
  refine ⟨fun _ _ _ whole => MethodSyntax.shows_of_declaresLocal whole,
    fun shows other otherScope line sameIndex sameScope => ?_, fun hidden => ?_⟩
  · have written : (writtenType scope name).isSome := shown.mpr shows
    have otherWritten : (writtenType otherScope name).isSome := by
      have kept : writtenType otherScope.skeleton name = writtenType scope.skeleton name := by
        rw [sameScope]
      exact (congrArg Option.isSome kept).trans written
    have moved : ({ site with line := line } : CallSite).receiver = .name name := called
    -- Both calls are those of the skeletons, and the skeletons are the same.
    calc other.resolveCall policy otherScope { site with line := line }
        = other.skeleton.resolveCall policy otherScope.skeleton { site with line := line } :=
          (resolveCall_skeleton other policy moved otherWritten).symm
      _ = index.skeleton.resolveCall policy scope.skeleton { site with line := line } := by
          rw [sameIndex, sameScope]
      _ = index.resolveCall policy scope { site with line := line } :=
          resolveCall_skeleton index policy moved written
      _ = index.resolveCall policy scope site := rfl
  · have unwritten : writtenType scope name = none := by
      rw [← Option.not_isSome_iff_eq_none, shown]
      exact hidden
    rw [resolveCall, candidates_name _ _ called, variableType, unwritten]

def readClass (name : Identifier) (members : List Member) (text : String) : SourceFile :=
  .ofItems (name.text ++ ".java") text [.member (.type ⟨.classKind, name, [], [], [], []⟩ members)]

def goer (name : Identifier) : SourceFile :=
  readClass name [.method ⟨[], "go", "void", [], 1, [], some (.other [])⟩]
    ("class " ++ name.text ++ " \x7b void go() \x7b \x7d \x7d")

def starter (value : Code) : MethodSyntax :=
  ⟨[], "run", "void", [], 1, [], some (.other [.locals [] "var" [.declarator "n" [] [value]],
    .call (.name ⟨"n", by decide +kernel⟩) [] "go" [] 1])⟩

def starterSite : CallSite :=
  ⟨.name "n", "go", 0, 1⟩

theorem declaresLocal_starter (value : Code) :
    ∃ body, (starter value).body = some body ∧ body.DeclaresLocal "n" "var" [value] := by
  refine ⟨_, rfl, [], [.declarator "n" [] [value]], [], ?_, List.mem_singleton_self _⟩
  simp [Code.pieces, Code.piecesOf]

section

-- Whether the class has a field of the name, and the initial value with its text.
variable (hasField : Bool) (value : Code) (text : String)

def starterMembers : List Member :=
  (if hasField then [.fields "B" ["n"] []] else []) ++ [.method (starter value)]

def starterFile : SourceFile :=
  readClass ⟨"A", by decide +kernel⟩ (starterMembers hasField value)
    ("class A \x7b " ++ (if hasField then "B n; " else "") ++ "void run() \x7b var n = " ++ text ++
      "; n.go(); \x7d \x7d")

def starterScope : Scope :=
  ⟨starterFile hasField value text, TypeHeading.toType
    ⟨.classKind, ⟨"A", by decide +kernel⟩, [], [], [], []⟩ (starterMembers hasField value) "" none,
    (starter value).toMethod⟩

def starterFiles : List SourceFile :=
  [starterFile hasField value text, goer ⟨"B", by decide +kernel⟩, goer ⟨"C", by decide +kernel⟩]

theorem ofFiles_starterFiles :
    ofFiles (starterFiles hasField value text) = mk (starterFiles hasField value text) := by
  refine congrArg SourceIndex.mk (List.mergeSort_of_pairwise ?_)
  simp [starterFiles, starterFile, goer, readClass, SourceFile.ofItems]

theorem starterScope_mem :
    starterScope hasField value text ∈ (ofFiles (starterFiles hasField value text)).scopes := by
  rw [ofFiles_starterFiles]
  cases hasField <;> exact List.mem_cons_self

theorem skeleton_starterFiles :
    (ofFiles (starterFiles false value text)).skeleton =
      (ofFiles (starterFiles true value text)).skeleton := by
  rw [ofFiles_starterFiles, ofFiles_starterFiles]
  rfl

end

theorem resolveCall_local_creation :
    let value := Code.creation "C" []
    let index := ofFiles (starterFiles true value "new C()")
    let other := ofFiles (starterFiles false value "new C()")
    starterSite.receiver = .name "n" ∧ starterSite ∈ (starter value).toMethod.calls ∧
      index.fieldType "A" "n" = some (some "B") ∧ other.fieldType "A" "n" = none ∧
      other.resolveCall .merge (starterScope false value "new C()") starterSite =
        index.resolveCall .merge (starterScope true value "new C()") starterSite ∧
      index.resolveCall .merge (starterScope true value "new C()") starterSite =
        some (.exact ⟨"C", "go", none⟩) := by
  intro value index other
  have called : starterSite.receiver = .name "n" := rfl
  obtain ⟨body, whole, declared⟩ := declaresLocal_starter value
  have evident : IsEvident "var" [value] := .inr ⟨"C", rfl⟩
  obtain ⟨shows, hides, -⟩ := resolveCall_local index .merge (starterFile true value "new C()")
    (starterScope true value "new C()").type (starter value) called
  have same := hides (shows body "var" [value] whole declared evident) other
    (starterScope false value "new C()") 1 (skeleton_starterFiles value "new C()") rfl
  obtain ⟨inMethod, fields, noFields, resolved⟩ :
      starterSite ∈ (starter value).toMethod.calls ∧
      (SourceIndex.mk (starterFiles true value "new C()")).fieldType "A" "n" = some (some "B") ∧
      (SourceIndex.mk (starterFiles false value "new C()")).fieldType "A" "n" = none ∧
      (SourceIndex.mk (starterFiles true value "new C()")).resolveCall .merge
        (starterScope true value "new C()") starterSite = some (.exact ⟨"C", "go", none⟩) := by
    decide +kernel
  rw [← ofFiles_starterFiles] at fields noFields resolved
  exact ⟨called, inMethod, fields, noFields, same, resolved⟩

theorem resolveCall_local_inferred :
    ¬ ∀ (files others : List SourceFile) (policy : OverloadPolicy) (scope otherScope : Scope)
      (declaration : MethodSyntax) (body : Code) (site : CallSite) (name written : String)
      (value : List Code),
      scope ∈ (ofFiles files).scopes → otherScope ∈ (ofFiles others).scopes →
      scope.method = declaration.toMethod → declaration.body = some body →
      body.DeclaresLocal name written value → site ∈ scope.method.calls →
      site.receiver = .name name → (ofFiles others).skeleton = (ofFiles files).skeleton →
      otherScope.skeleton = scope.skeleton →
        (ofFiles others).resolveCall policy otherScope site =
          (ofFiles files).resolveCall policy scope site := by
  intro hides
  let value := Code.call .implicit [] "make" [] 1
  obtain ⟨body, whole, declared⟩ := declaresLocal_starter value
  have inMethod : starterSite ∈ (starter value).toMethod.calls := by decide +kernel
  have same := hides (starterFiles true value "make()") (starterFiles false value "make()") .merge
    (starterScope true value "make()") (starterScope false value "make()") (starter value) body
    starterSite "n" "var" [value] (starterScope_mem true value "make()")
    (starterScope_mem false value "make()") rfl whole declared inMethod rfl
    (skeleton_starterFiles value "make()") rfl
  rw [ofFiles_starterFiles, ofFiles_starterFiles] at same
  revert same
  decide +kernel

end SourceIndex

end CallContext
