import VecLang.Build.Executable
import VecLang.Diagnostic.ToJson

/-!
# Builds as JSON
-/

namespace VecLang.Build

def Event.toJson (e : Event) : Json := .arr [.str e.stage, .str e.status.name, .opt .str e.error]

def CachedUnit.toJson (u : CachedUnit) : Json :=
  .arr [.nat u.schema, .str (Bytes.toHex u.key), .str u.version, .str u.path, .str u.asm]

def Compiled.members (c : Compiled) (limit : Nat) : List (Bytes × Json) :=
  let fixed : List (Bytes × Json) :=
    [("hit", .bool c.hit), ("err", .opt (fun e => .str e.message) c.error),
     ("timed", .list (fun s => .bool (c.timings.has s)) stages),
     ("events", .list Event.toJson c.events)]
  let asm : List (Bytes × Json) := c.asm.toList.map fun a => ("asm_len", .nat a.length)
  let found : List (Bytes × Json) :=
    c.source.toList.map fun (_, a) => ("diags", .list Diagnostic.toJson (a.diagnostics limit))
  fixed ++ asm ++ found

def Built.members (b : Built) (limit : Nat) : List (Bytes × Json) :=
  let own : List (Bytes × Json) :=
    [("output", .str b.output), ("tmp", .str b.tmp), ("commands", .list .str b.commands)]
  b.compiled.members limit ++ own

end VecLang.Build
