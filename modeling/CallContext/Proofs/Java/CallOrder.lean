import CallContext.Proofs.Java.Origin.File

/-!
The order of the calls of a method. What a receiver is built from has been read before the call that it
belongs to, so that the calls in a receiver stand earlier in the list, as the very same calls.
-/

namespace CallContext.Java

def Receiver.sites : Receiver → List CallSite
  | .field object _ => object.sites
  | .call receiver method arguments line => ⟨receiver, method, arguments, line⟩ :: receiver.sites
  | .implicit | .this | .super | .name _ | .creation _ | .cast _ | .other => []

def ReceiversFirst (calls : List CallSite) : Prop :=
  ∀ before call after, calls = before ++ call :: after → ∀ site ∈ call.receiver.sites, site ∈ before

namespace ReceiversFirst

variable {calls others : List CallSite}

theorem nil : ReceiversFirst [] := by
  intro before call after split
  cases before <;> cases split

theorem append (first : ReceiversFirst calls) (second : ReceiversFirst others) :
    ReceiversFirst (calls ++ others) := by
  intro before call after split site inReceiver
  rcases List.append_eq_append_iff.mp split with ⟨between, rfl, rest⟩ | ⟨between, rfl, rest⟩
  · exact List.mem_append_right _ (second between call after rest site inReceiver)
  · cases between with
    | nil => exact absurd (second [] call after rest.symm site inReceiver) List.not_mem_nil
    | cons head between =>
        obtain ⟨rfl, rfl⟩ := List.cons.inj rest
        exact first before call between rfl site inReceiver

theorem concat (first : ReceiversFirst calls) {call : CallSite}
    (inside : ∀ site ∈ call.receiver.sites, site ∈ calls) : ReceiversFirst (calls ++ [call]) := by
  intro before last after split
  rcases List.eq_nil_or_concat' after with rfl | ⟨more, final, rfl⟩
  · obtain ⟨rfl, same⟩ := List.append_inj' split rfl
    obtain rfl := (List.cons.inj same).1
    exact inside
  · rw [← List.cons_append, ← List.append_assoc] at split
    exact first before last more (List.append_inj' split rfl).1

end ReceiversFirst

namespace Code

def sites (code : Code) : List CallSite :=
  code.events.filterMap Event.site?

def sitesOf (codes : List Code) : List CallSite :=
  (eventsOf codes).filterMap Event.site?

theorem mem_sites {code : Code} {site : CallSite} : site ∈ code.sites ↔ .call site ∈ code.events := by
  rw [sites, List.mem_filterMap]
  constructor
  · rintro ⟨_ | _, member, same⟩ <;> cases same
    exact member
  · intro member
    exact ⟨_, member, rfl⟩

theorem site?_variableEvent (type : String) (codes : List Code) :
    (codes.flatMap (variableEvent type)).filterMap Event.site? = [] := by
  rw [List.filterMap_eq_nil_iff]
  intro event member
  obtain ⟨code, -, declared⟩ := List.mem_flatMap.mp member
  cases event with
  | call site => exact absurd declared (call_not_mem_variableEvent type code site)
  | «variable» => rfl

theorem mem_sites_of_mem_receiver (code : Code) :
    ∀ site ∈ (Receiver.ofCode code).sites, site ∈ code.sites := by
  intro site inReceiver
  cases code with
  | field object name => exact mem_sites_of_mem_receiver object site inReceiver
  | parenthesized inner => exact mem_sites_of_mem_receiver inner site inReceiver
  | call object typeArguments method arguments line =>
      rw [Receiver.ofCode, Receiver.sites] at inReceiver
      rw [mem_sites, events]
      rcases List.mem_cons.mp inReceiver with rfl | deeper
      · exact List.mem_append_right _ (List.mem_singleton_self _)
      · have inObject := mem_sites.mp (mem_sites_of_mem_receiver object site deeper)
        simp only [List.mem_append, inObject, true_or]
  | _ => cases inReceiver

mutual

theorem receiversFirst_sites (code : Code) : ReceiversFirst code.sites := by
  cases code with
  | call object typeArguments method arguments line =>
      have inside := ((receiversFirst_sites object).append (receiversFirst_sitesOf typeArguments)).append
        (receiversFirst_sitesOf arguments)
      have recorded : (call object typeArguments method arguments line).sites =
          (object.sites ++ sitesOf typeArguments ++ sitesOf arguments) ++
            [⟨Receiver.ofCode object, method, arguments.length, line⟩] := by
        simp [sites, sitesOf, events, Event.site?]
      rw [recorded]
      -- The call itself is recorded last, when its receiver and its arguments have been.
      refine inside.concat fun site inReceiver => ?_
      simp only [List.mem_append, mem_sites_of_mem_receiver object site inReceiver, true_or]
  | field object _ => exact receiversFirst_sites object
  | parenthesized inner => exact receiversFirst_sites inner
  | creation _ parts | cast _ parts | other parts => exact receiversFirst_sitesOf parts
  | locals parts type declarators =>
      rw [sites, events, List.filterMap_append, List.filterMap_append, site?_variableEvent,
        List.append_nil]
      exact (receiversFirst_sitesOf parts).append (receiversFirst_sitesOf declarators)
  | declarator _ dimensions value =>
      rw [sites, events, List.filterMap_append]
      exact (receiversFirst_sitesOf dimensions).append (receiversFirst_sitesOf value)
  | binding parts id type =>
      have recorded : (binding parts id type).sites = sitesOf parts := by
        rw [sites, events]
        split_ifs <;> simp [sitesOf, Event.site?]
      rw [recorded]
      exact receiversFirst_sitesOf parts
  | caught parts id types =>
      have recorded : (caught parts id types).sites = sitesOf parts := by
        rcases types with _ | ⟨_, _ | ⟨_, _⟩⟩ <;> simp [sites, sitesOf, events, Event.site?]
      rw [recorded]
      exact receiversFirst_sitesOf parts
  | implicit | this | super | name _ => exact .nil

theorem receiversFirst_sitesOf (codes : List Code) : ReceiversFirst (sitesOf codes) := by
  cases codes with
  | nil => exact .nil
  | cons first rest =>
      rw [sitesOf, eventsOf, List.filterMap_append]
      exact (receiversFirst_sites first).append (receiversFirst_sitesOf rest)

end

end Code

namespace MethodSyntax

theorem calls_toMethod (declaration : MethodSyntax) :
    declaration.toMethod.calls = (declaration.body.map Code.sites).getD [] := by
  simp only [toMethod, events]
  cases declaration.body <;> rfl

theorem receiversFirst_calls (declaration : MethodSyntax) :
    ReceiversFirst declaration.toMethod.calls := by
  rw [calls_toMethod]
  cases declaration.body with
  | none => exact .nil
  | some body => exact body.receiversFirst_sites

theorem From.line_of_mem_calls {source : List Char} {declaration : MethodSyntax}
    (origin : declaration.From (Lexer.tokens source)) {call : CallSite}
    (called : call ∈ declaration.toMethod.calls) :
    declaration.line ≤ call.line ∧ call.line ≤ (Text.lines source).length := by
  obtain ⟨-, start, rest, within, onLine, inBody⟩ := origin
  rw [calls_toMethod] at called
  cases written : declaration.body with
  | none => simp [written] at called
  | some body =>
      rw [written] at called
      obtain ⟨token, after, same⟩ := inBody body written call (Code.mem_sites.mp called)
      have sorted := (Lexer.pairwise_line_tokens source).sublist within.sublist
      rw [onLine, ← same]
      refine ⟨?_, Lexer.line_le_of_mem_tokens (within.subset after)⟩
      rcases List.mem_cons.mp after with rfl | later
      · exact Nat.le_refl _
      · exact List.rel_of_pairwise_cons sorted later

end MethodSyntax

namespace SourceFile

/-- The calls of each method of a source file: a call stands after all calls in its receiver, on a line of
the file that is not before the line of the method. -/
theorem calls_of_parse {path content : String} {file : SourceFile}
    (parsed : parse path content = .ok file) :
    ∀ type ∈ file.types, ∀ method ∈ type.methods, ReceiversFirst method.calls ∧
      ∀ call ∈ method.calls,
        method.line ≤ call.line ∧ call.line ≤ (Text.lines content.toList).length := by
  intro type inFile method inType
  obtain ⟨declaration, declared, rfl⟩ := exists_declaration parsed inFile inType
  exact ⟨declaration.receiversFirst_calls, fun call called => declared.origin.line_of_mem_calls called⟩

def chainedText : String :=
  "class A \x7b\n  void run() \x7b\n    first(argument())\n      .field.second();\n  \x7d\n\x7d\n"

def chainedCalls : List CallSite :=
  [⟨.implicit, "argument", 0, 3⟩, ⟨.implicit, "first", 1, 3⟩,
    ⟨.field (.call .implicit "first" 1 3) "field", "second", 0, 3⟩]

theorem calls_of_parse_chained : ∃ file, parse "A.java" chainedText = .ok file ∧
    (file.types.flatMap (·.methods)).map (·.calls) = [chainedCalls] ∧
    ∀ type ∈ file.types, ∀ method ∈ type.methods, ReceiversFirst method.calls ∧
      ∀ call ∈ method.calls,
        method.line ≤ call.line ∧ call.line ≤ (Text.lines chainedText.toList).length := by
  have reads : (parse "A.java" chainedText).toOption.map
      (fun file => (file.types.flatMap (·.methods)).map (·.calls)) = some [chainedCalls] := by
    decide +kernel
  obtain ⟨file, found, calls⟩ := Option.map_eq_some_iff.mp reads
  have parsed := parse_of_toOption found
  exact ⟨file, parsed, calls, calls_of_parse parsed⟩

end SourceFile

end CallContext.Java
