import CallContext.Proofs.Java.Erasure
import CallContext.Proofs.Java.Origin.File

/-!
Erasing the signature of a method. If the types that it shows as written are balanced, erasing it is erasing its
parts, and so the signature and the erased types of the method agree.
-/

namespace CallContext.Java

open Text TypeText

theorem FormalParameter.erase_signatureType {parameter : FormalParameter}
    (balanced : IsBalanced parameter.type) :
    erase parameter.signatureType = parameter.toParameter.type := by
  rw [signatureType, balanced.isClosed.squash.erase_append, erase_squash,
    erase_of_isPlain parameter.isPlain_dots]
  rfl

namespace MethodSyntax

structure IsBalanced (declaration : MethodSyntax) : Prop where
  returnType : TypeText.IsBalanced declaration.returnType
  parameters : ∀ parameter ∈ declaration.parameters, TypeText.IsBalanced parameter.type

theorem erase_signature {declaration : MethodSyntax} (named : isIdentifier declaration.name)
    (balanced : declaration.IsBalanced) :
    let method := declaration.toMethod
    erase method.signature = method.returnType ++ method.name ++ "(" ++ method.parameterList ++ ")" := by
  intro method
  have plainName : IsPlain declaration.name := fun _ member => (plain_of_mem_isIdentifier named member).1
  have closedTypes : ∀ type ∈ declaration.parameters.map (·.signatureType), IsClosed type := by
    intro type member
    obtain ⟨parameter, listed, rfl⟩ := List.mem_map.mp member
    exact (balanced.parameters parameter listed).isClosed.squash.append
      (isClosed_of_isPlain parameter.isPlain_dots)
  have types : (declaration.parameters.map (·.signatureType)).map erase =
      method.parameters.map (·.type) := by
    simp only [method, toMethod, List.map_map]
    exact List.map_congr_left fun parameter listed =>
      FormalParameter.erase_signatureType (balanced.parameters parameter listed)
  have space : IsClosed " " := rfl
  have parenthesis : IsClosed "(" := rfl
  have comma : IsClosed ", " := rfl
  -- Each front of the signature closes its brackets, so what follows is erased by itself.
  have returned := balanced.returnType.isClosed.squash
  have spaced := returned.append space
  have through := spaced.append (isClosed_of_isPlain plainName)
  have opened := through.append parenthesis
  have listed := opened.append (isClosed_joinWith comma closedTypes)
  calc erase method.signature
    _ = erase (squash declaration.returnType) ++ erase " " ++ erase declaration.name ++ erase "(" ++
          erase (joinWith ", " (declaration.parameters.map (·.signatureType))) ++ erase ")" := by
        simp only [method, toMethod, signature]
        rw [listed.erase_append, opened.erase_append, through.erase_append, spaced.erase_append,
          returned.erase_append]
    _ = method.returnType ++ method.name ++ "(" ++ method.parameterList ++ ")" := by
        have signs : erase " " = "" ∧ erase "(" = "(" ∧ erase ", " = "," ∧ erase ")" = ")" :=
          ⟨rfl, rfl, rfl, rfl⟩
        rw [erase_squash, erase_of_isPlain plainName, erase_joinWith comma closedTypes, types, signs.1,
          signs.2.1, signs.2.2.1, signs.2.2.2, String.append_empty]
        rfl

end MethodSyntax

namespace SourceFile

/-- Every method of a source file is declared in it, and for every declaration in it whose written types
are balanced, the signature of the method and its return type, name and parameters show the same. -/
theorem erase_signature_of_parse {path content : String} {file : SourceFile}
    (parsed : parse path content = .ok file) :
    (∀ type ∈ file.types, ∀ method ∈ type.methods,
      ∃ declaration : MethodSyntax, declaration.IsDeclaredIn content ∧ declaration.toMethod = method) ∧
    ∀ declaration : MethodSyntax, declaration.IsDeclaredIn content → declaration.IsBalanced →
      let method := declaration.toMethod
      erase method.signature =
        method.returnType ++ method.name ++ "(" ++ method.parameterList ++ ")" :=
  ⟨fun _ inFile _ inType => exists_declaration parsed inFile inType,
    fun _ declared balanced => MethodSyntax.erase_signature declared.origin.1 balanced⟩

def genericText : String :=
  "interface A \x7b\n  Map<A,\n    List<A>> group(Set<? extends A> keys, List<A>... lists);\n\x7d\n"

def genericParameters : List FormalParameter :=
  [⟨"keys", "Set<? extends A>", false⟩, ⟨"lists", "List<A>", true⟩]

theorem erase_signature_of_parse_generic : ∃ file, parse "A.java" genericText = .ok file ∧
    ∃ declaration : MethodSyntax, declaration.IsDeclaredIn genericText ∧ declaration.IsBalanced ∧
      let method := declaration.toMethod
      method.signature = "Map<A, List<A>> group(Set<? extends A>, List<A>...)" ∧
        erase method.signature =
          method.returnType ++ method.name ++ "(" ++ method.parameterList ++ ")" := by
  have reads : (parseSource genericText).toOption.map
      (fun items => (items.flatMap Item.declarations).map fun declaration =>
        (declaration.returnType, declaration.name, declaration.parameters)) =
      some [("Map<A,\n    List<A>>", "group", genericParameters)] := by
    decide +kernel
  obtain ⟨items, found, written⟩ := Option.map_eq_some_iff.mp reads
  have read := eq_ok_of_toOption found
  obtain ⟨declaration, rest, listed, same, -⟩ := List.map_eq_cons_iff.mp written
  obtain ⟨returned, named, parameters⟩ := by simpa only [Prod.mk.injEq] using same
  have declared : declaration.IsDeclaredIn genericText := ⟨items, read, by simp [listed]⟩
  have balanced : declaration.IsBalanced := by
    constructor
    · rw [returned]
      decide
    · rw [parameters]
      decide
  have parsed : parse "A.java" genericText = .ok (ofItems "A.java" genericText items) :=
    parse_eq_ok_iff.mpr ⟨items, read, rfl⟩
  refine ⟨_, parsed, declaration, declared, balanced, ?_,
    (erase_signature_of_parse parsed).2 declaration declared balanced⟩
  simp only [MethodSyntax.toMethod, MethodSyntax.signature, returned, named, parameters]
  decide

end SourceFile

end CallContext.Java
