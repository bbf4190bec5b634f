import VecLang.Build.ToJson
import VecLang.Main
import VecLang.Project.ToJson
import VecLang.Proofs.Assembly.Pool
import VecLang.Proofs.Assembly.StackPointer
import VecLang.Proofs.Build.Cache
import VecLang.Proofs.Diagnostic.Limits
import VecLang.Proofs.Machine.Coalescing
import VecLang.Proofs.Machine.Control
import VecLang.Proofs.Machine.Folding
import VecLang.Proofs.Server.Positions
import VecLang.Proofs.Syntax.Budget
import VecLang.Proofs.Syntax.Recognition
import VecLang.Proofs.Token.Respacing
import VecLang.Proofs.Trace.Latest
import VecLang.Proofs.Typing.AnyOrder
import VecLang.Proofs.Typing.Independence
import VecLang.Proofs.Typing.Partition
import VecLang.Resolved.ToJson
import VecLang.Server.Uri
import VecLang.Ssa.OfJson
import VecLang.Syntax.SpanCheck
import VecLang.Syntax.ToJson
import VecLang.Typed.ToJson
import VecLang.Typing.ToJson
