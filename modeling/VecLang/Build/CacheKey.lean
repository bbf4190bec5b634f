import VecLang.Text.Digest

/-!
# Keys of compiled files

A compiled file is kept under a digest of its content and of the version of the compiler.
-/

namespace VecLang.Build

def combine (content : Bytes) (parts : List Bytes) : Bytes :=
  Digest.sha256 (content ++ parts.flatMap fun p => p ++ [0])

def cacheKey (content version : Bytes) : Bytes := combine content [version]

end VecLang.Build
