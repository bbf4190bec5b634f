import VecLang.Diagnostic.Bag
import VecLang.Json

/-!
# Spans and diagnostics as JSON
-/

namespace VecLang

def Span.toJson (s : Span) : Json := .arr [.nat s.start, .nat s.stop]

def Note.toJson (n : Note) : Json := .arr [n.span.toJson, .str n.message]

def Diagnostic.toJson (d : Diagnostic) : Json :=
  .arr [.str d.severity.name, .str d.code.id, d.primary.toJson, .str d.message,
    .list Note.toJson d.notes]

end VecLang
