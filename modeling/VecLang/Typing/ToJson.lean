import VecLang.Typing.Infer
import VecLang.Diagnostic.ToJson

/-!
# Faults of types as JSON
-/

namespace VecLang.Typing

/-- A fault as its kind, message, span, name and the two types it is about; what a fault does
not have is left empty. -/
def TypeFault.toJson (f : TypeFault) : Json :=
  let unset : TypeVar := .exact .invalid
  let row (kind : String) (name : Bytes) (required got : TypeVar) : Json :=
    .arr [.lit kind, .str f.message, f.span.toJson, .str name, .str required.name, .str got.name]
  match f with
  | .mismatch _ required got => row "MismatchedTypes" [] required got
  | .couldNotInfer _ name got => row "CouldNotInfer" name unset got
  | .constEval _ name => row "ConstEvalFailed" name unset unset

end VecLang.Typing
