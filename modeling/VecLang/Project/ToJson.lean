import VecLang.Json
import VecLang.Project.Manifest

/-!
# Manifests as JSON
-/

namespace VecLang.Project

def BuildConfig.toJson (b : BuildConfig) : Json :=
  .arr [.str b.main, .str b.output, .str b.assembler, .str b.linker, .bool b.keepTmp, .int b.jobs]

def Manifest.toJson (m : Manifest) (fs : Host.Files) : Json :=
  let (main, fault) := match m.mainFile fs with
    | .ok p => (p, Json.null)
    | .error e => ([], .str e.message)
  .obj [("found", .bool true), ("path", .str m.path), ("root", .str m.root),
    ("name", .str m.config.name), ("build", m.config.build.toJson), ("main", .str main),
    ("main_error", fault), ("output", .str m.outputPath)]

end VecLang.Project
