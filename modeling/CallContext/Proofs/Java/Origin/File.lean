import CallContext.Proofs.Java.Lexer
import CallContext.Proofs.Java.Origin.Statement
import CallContext.Proofs.Java.SourceFile

namespace CallContext.Java

namespace Parser

theorem ofDepth_yields (limit depth : Nat) : (Grammar.ofDepth limit depth).Yields := by
  induction depth with
  | zero => exact ⟨fun _ => .fail, fun _ => .fail, fun _ _ _ => .fail, fun _ => .fail, fun _ => .fail⟩
  | succ depth ih =>
      exact ⟨fun _ => typeRule_yields ih, fun _ => annotationRule_yields ih,
        fun _ => expressionRule_yields ih, fun _ => statementRule_yields ih, fun _ => classBodyRule_yields ih⟩

theorem fileItems_yields {grammar : Grammar} {whole : List Token} (yields : grammar.Yields) (limit : Nat) :
    Yields whole (fileItems grammar limit) fun items => ∀ item ∈ items, item.From whole := by
  induction limit with
  | zero => exact .fail
  | succ limit ih =>
      intro tokens value rest within read
      cases tokens with
      | nil =>
          cases read
          exact ⟨within, by simp⟩
      | cons first others =>
          have more : Yields whole (do return (← fileItem grammar) :: (← fileItems grammar limit))
              fun items => ∀ item ∈ items, item.From whole :=
            (fileItem_yields yields).bind fun item origin => ih.bind fun items origins =>
              .pure (by simpa using ⟨origin, origins⟩)
          exact more within read

theorem from_of_mem_file {tokens rest : List Token} {items : List Item} {item : Item}
    (read : file tokens = .success items rest) (member : item ∈ items) : item.From tokens :=
  (fileItems_yields (ofDepth_yields _ _) _ List.suffix_rfl read).2 item member

end Parser

theorem parseSource_eq_ok {source : String} {items : List Item} (read : parseSource source = .ok items) :
    ∃ rest, Parser.file (Lexer.tokens source.toList) = .success items rest := by
  unfold parseSource at read
  cases outcome : Parser.file (Lexer.tokens source.toList) with
  | success found rest =>
      simp only [outcome, Except.ok.injEq] at read
      exact ⟨rest, by rw [read]⟩
  | failure rest =>
      simp only [outcome] at read
      cases read

namespace Item

def declarations : Item → List MethodSyntax
  | .member declaration => declaration.declarations
  | .package _ | .imports _ | .code _ => []

theorem From.of_mem_declarations {tokens : List Token} {item : Item} (origin : item.From tokens)
    {declaration : MethodSyntax} (listed : declaration ∈ item.declarations) : declaration.From tokens := by
  cases item with
  | member declared => exact origin.2 declaration listed
  | package | imports | code => cases listed

end Item

theorem Member.exists_declaration_of_mem_methods {heading : TypeHeading} {members : List Member}
    {qualifier : String} {outer : Option String} {method : Method}
    (declared : method ∈ (heading.toType members qualifier outer).methods) :
    ∃ declaration ∈ declarationsOf members, declaration.toMethod = method := by
  obtain ⟨member, listed, own⟩ := List.mem_filterMap.mp declared
  cases member with
  | method declaration =>
      exact ⟨declaration, mem_declarationsOf.mpr ⟨_, listed, List.mem_singleton_self _⟩,
        Option.some.inj own⟩
  | fields | type | other => cases own

mutual

theorem Member.exists_declaration {qualifier : String} {outer : Option String} (member : Member) :
    ∀ type ∈ member.types qualifier outer, ∀ method ∈ type.methods,
      ∃ declaration ∈ member.declarations, declaration.toMethod = method := by
  intro type inMember method declared
  cases member with
  | type heading members =>
      rcases List.mem_cons.mp inMember with rfl | nested
      · exact exists_declaration_of_mem_methods declared
      · exact Member.exists_declaration_typesOf members type nested method declared
  | fields | method | other => cases inMember

theorem Member.exists_declaration_typesOf {qualifier : String} {outer : Option String}
    (members : List Member) :
    ∀ type ∈ Member.typesOf qualifier outer members, ∀ method ∈ type.methods,
      ∃ declaration ∈ declarationsOf members, declaration.toMethod = method := by
  intro type inMembers method declared
  cases members with
  | nil => cases inMembers
  | cons first rest =>
      rcases List.mem_append.mp inMembers with inFirst | inRest
      · obtain ⟨declaration, listed, same⟩ := first.exists_declaration type inFirst method declared
        exact ⟨declaration, List.mem_append_left _ listed, same⟩
      · obtain ⟨declaration, listed, same⟩ :=
          Member.exists_declaration_typesOf rest type inRest method declared
        exact ⟨declaration, List.mem_append_right _ listed, same⟩

end

theorem Item.exists_declaration {qualifier : String} {items : List Item} {type : TypeDeclaration}
    (inItems : type ∈ Item.types qualifier items) {method : Method} (declared : method ∈ type.methods) :
    ∃ declaration ∈ items.flatMap Item.declarations, declaration.toMethod = method := by
  induction items generalizing qualifier with
  | nil => cases inItems
  | cons item rest ih =>
      rw [List.flatMap_cons]
      cases item with
      | package name | imports _ | code _ => exact ih inItems
      | member own =>
          rcases List.mem_append.mp inItems with inFirst | inRest
          · obtain ⟨declaration, listed, same⟩ := own.exists_declaration type inFirst method declared
            exact ⟨declaration, List.mem_append_left _ listed, same⟩
          · obtain ⟨declaration, listed, same⟩ := ih inRest
            exact ⟨declaration, List.mem_append_right _ listed, same⟩

def MethodSyntax.IsDeclaredIn (content : String) (declaration : MethodSyntax) : Prop :=
  ∃ items, parseSource content = .ok items ∧ declaration ∈ items.flatMap Item.declarations

theorem MethodSyntax.IsDeclaredIn.origin {content : String} {declaration : MethodSyntax}
    (declared : declaration.IsDeclaredIn content) : declaration.From (Lexer.tokens content.toList) := by
  obtain ⟨items, read, listed⟩ := declared
  obtain ⟨rest, file⟩ := parseSource_eq_ok read
  obtain ⟨item, member, inItem⟩ := List.mem_flatMap.mp listed
  exact (Parser.from_of_mem_file file member).of_mem_declarations inItem

theorem SourceFile.exists_declaration {path content : String} {file : SourceFile}
    (parsed : SourceFile.parse path content = .ok file) {type : TypeDeclaration}
    (inFile : type ∈ file.types) {method : Method} (inType : method ∈ type.methods) :
    ∃ declaration : MethodSyntax, declaration.IsDeclaredIn content ∧ declaration.toMethod = method := by
  obtain ⟨items, read, rfl⟩ := SourceFile.parse_eq_ok_iff.mp parsed
  obtain ⟨declaration, listed, same⟩ := Item.exists_declaration inFile inType
  exact ⟨declaration, ⟨items, read, listed⟩, same⟩

end CallContext.Java
