import CallContext.Java.Syntax
import CallContext.Java.TypeText

/-!
Call sites and the local variables of a method body. Both are read in the order in which evaluation
would finish: what a construct contains comes before the construct, so that the calls in the receiver
and in the arguments of a call precede the call.
-/

namespace CallContext.Java

inductive Receiver where
  | implicit
  | this
  | super
  | name (id : String)
  | field (object : Receiver) (name : String)
  | creation (type : String)
  | cast (type : String)
  /-- The result of a call with the given receiver, name, number of arguments and line. -/
  | call (receiver : Receiver) (name : String) (arguments line : Nat)
  | other
  deriving DecidableEq, Inhabited, Repr

structure CallSite where
  receiver : Receiver
  name : String
  arguments : Nat
  line : Nat
  deriving DecidableEq, Inhabited, Repr

def Receiver.dotted : Receiver → Option String
  | .name id => some id
  | .field object member => object.dotted.map fun head => head ++ "." ++ member
  | _ => none

def Receiver.ofCode : Code → Receiver
  | .implicit => .implicit
  | .this => .this
  | .super => .super
  | .name id => .name id.text
  | .field object member => .field (ofCode object) member.text
  | .call object _ method arguments line => .call (ofCode object) method arguments.length line
  | .creation type _ => .creation (TypeText.erase type)
  | .cast type _ => .cast (TypeText.erase type)
  | .parenthesized inner => ofCode inner
  | _ => .other

inductive Event where
  | call (site : CallSite)
  | variable (name type : String)
  deriving DecidableEq, Inhabited, Repr

/-- The written type that stands for the type of the initial value. -/
def inferredMark : String := "var"

/-- The written type that an initial value shows. -/
def Code.evidentType : Code → Option String
  | .creation type _ => some type
  | .cast type _ => some type
  | _ => none

/-- The variable of a declarator under the written type of its declaration. Without a written type
the variable is known only if its value shows one. -/
def Code.variableEvent (type : String) : Code → List Event
  | .declarator id _ value =>
    let known := if type = inferredMark then value.head?.bind Code.evidentType else some type
    known.toList.map fun written => .variable id (TypeText.erase written)
  | _ => []

mutual

def Code.events : Code → List Event
  | .call object typeArguments method arguments line =>
    object.events ++ eventsOf typeArguments ++ eventsOf arguments ++
      [.call ⟨Receiver.ofCode object, method, arguments.length, line⟩]
  | .field object _ => object.events
  | .creation _ parts => eventsOf parts
  | .cast _ parts => eventsOf parts
  | .parenthesized inner => inner.events
  | .locals parts type declarators =>
    eventsOf parts ++ eventsOf declarators ++ declarators.flatMap (Code.variableEvent type)
  | .declarator _ dimensions value => eventsOf dimensions ++ eventsOf value
  | .binding parts id type =>
    eventsOf parts ++
      if type = inferredMark then [] else [.variable id (TypeText.erase type)]
  | .caught parts id types =>
    eventsOf parts ++ match types with
      | [type] => [.variable id (TypeText.erase type)]
      | _ => []
  | .other parts => eventsOf parts
  | .implicit | .this | .super | .name _ => []

def Code.eventsOf : List Code → List Event
  | [] => []
  | first :: rest => first.events ++ eventsOf rest

end

def Event.site? : Event → Option CallSite
  | .call site => some site
  | .variable .. => none

def Event.variable? : Event → Option (String × String)
  | .call _ => none
  | .variable name type => some (name, type)

end CallContext.Java
