import CallContext.Java.SourceFile
import CallContext.MethodId

namespace CallContext

inductive OverloadPolicy where
  | merge
  | distinguish
  deriving DecidableEq, Inhabited, Repr

def MethodId.declared (policy : OverloadPolicy) (owner : String) (method : Java.Method) : MethodId :=
  match policy with
  | .merge => ⟨owner, method.name, none⟩
  | .distinguish => ⟨owner, method.name, some method.parameterList⟩

end CallContext
