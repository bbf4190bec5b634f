import VecLang.Build.Executable
import VecLang.Proofs.Build.Places

/-!
# The cache changes no result

An entry of the cache holds what compiling its text gives, as long as nobody else writes entries:
every step of a history keeps this (`History.sound`). So a compilation that takes its assembly from
the cache returns what it would have returned without (`cache_is_transparent`).
-/

namespace VecLang.Build

open Host Stateful List

variable {c : DiskCache} {cwd : Place} {fs fs' : Files} {key key' : Bytes} {u u' : CachedUnit}
  {e e1 e2 : Environment} {r : Request} {file : File} {res : Compiled}

/-! ## Entries -/

/-- There is an entry for the key, which may or may not be found by following its path. -/
def DiskCache.Holds (c : DiskCache) (cwd : Place) (fs : Files) (key : Bytes) (u : CachedUnit) :
    Prop :=
  ∃ b, Assoc.get? fs (Files.target cwd (c.pathFor key)) = some (.file b) ∧
    CachedUnit.decode? b = some u ∧ u.key = key

lemma holds_of_get (h : c.get fs cwd key = .ok (some u)) : c.Holds cwd fs key u := by
  unfold DiskCache.get at h
  split at h
  · split at h
    · cases h
    · split at h <;> cases h
  next b hread =>
    split at h
    · cases h
    next v hdecode =>
      split at h
      next hkey =>
        cases h
        rw [Bool.and_eq_true] at hkey
        exact ⟨b, Files.file_of_read hread, hdecode, of_decide_eq_true hkey.2⟩
      · cases h

def CachedUnit.sealed (u : CachedUnit) (key : Bytes) : CachedUnit :=
  { u with schema := CachedUnit.currentSchema, key }

lemma holds_of_put (h : c.put fs cwd key u = .ok fs')
    (hcodec : CachedUnit.decode? (u.sealed key).encode = some (u.sealed key))
    (hholds : c.Holds cwd fs' key' u') :
    key' = key ∧ u' = u.sealed key ∨ c.Holds cwd fs key' u' := by
  obtain ⟨fs1, hmkdirs, hwrite⟩ := except_bind_eq_ok.1 h
  cases Files.write_eq_ok hwrite
  obtain ⟨b, hfile, hdecode, hkey⟩ := hholds
  rw [Assoc.get?_set] at hfile
  split at hfile
  · cases hfile
    cases hdecode.symm.trans hcodec
    exact .inl ⟨hkey.symm, rfl⟩
  · exact .inr ⟨b, Files.noNewFile_mkdirAll hmkdirs _ _ hfile, hdecode, hkey⟩

lemma not_holds_drop {p : Place} (h : fs.place cwd c.units = .ok p) :
    ¬ c.Holds cwd (c.drop fs cwd) key u := by
  rintro ⟨b, hfile, -⟩
  cases Files.place_eq_ok h
  rw [DiskCache.drop, Files.removeAll, h] at hfile
  have hmem := Assoc.mem_of_get?_eq_some hfile
  have hkept := (mem_filter.1 hmem).2
  rw [DiskCache.target_pathFor, isPrefixOf_iff_prefix.2 (prefix_append _ _)] at hkept
  cases hkept

/-! ## Compiling -/

/-- Compiling the text gives the assembly. -/
def Yields (content asm : Bytes) : Prop :=
  ∃ a m p, analyze .typing content = .ok a ∧ a.ok = true ∧ lower a = .ok (.ok m) ∧
    Assembly.Program.ofModule m = .ok p ∧ asm = p.text

/-- The results tell the user the same. -/
structure Compiled.Agrees (a b : Compiled) : Prop where
  error : a.error = b.error
  source : a.source = b.source
  asm : a.asm = b.asm

variable {kept : Bytes → Option CachedUnit}

lemma compileSource_congr {kept' : Bytes → Option CachedUnit}
    (h : kept (cacheKey file.digest r.version) = kept' (cacheKey file.digest r.version)) :
    compileSource kept r file = compileSource kept' r file := by
  unfold compileSource
  simp only [h]

lemma compileSource_of_kept
    (h : kept (cacheKey file.digest r.version) = some u) (hu : Yields file.content u.asm) :
    ∃ res plain, compileSource kept r file = .ok res ∧
      compileSource (fun _ => none) r file = .ok plain ∧ res.Agrees plain := by
  obtain ⟨a, m, p, ha, hok, hm, hp, hasm⟩ := hu
  unfold compileSource
  simp only [ha, h, hok, bind, Except.bind, pure, Except.pure, lowered, hm, emitted, hp]
  exact ⟨_, _, rfl, rfl, rfl, rfl, congrArg some hasm⟩

lemma compileSource_spec (h : compileSource kept r file = .ok res) :
    (∃ a, res.source = some (file, a)) ∧
      (res.hit = true → ∃ u, kept (cacheKey file.digest r.version) = some u) ∧
      ∀ k u, res.store = some (k, u) → k = cacheKey file.digest r.version ∧ res.error = none ∧
        Yields file.content u.asm := by
  obtain ⟨a, ha, h⟩ := except_bind_eq_ok.1 h
  dsimp only at h
  split at h
  · cases h
    exact ⟨⟨a, rfl⟩, nofun, nofun⟩
  next hok =>
    split at h
    next u hkept =>
      cases h
      exact ⟨⟨a, rfl⟩, fun _ => ⟨u, hkept⟩, nofun⟩
    · obtain ⟨x, hx, h⟩ := except_bind_eq_ok.1 h
      obtain ⟨y, hy, hx⟩ := except_bind_eq_ok.1 hx
      cases y with
      | error err =>
        cases hx
        cases h
        exact ⟨⟨a, rfl⟩, nofun, nofun⟩
      | ok m =>
        cases hx
        cases h
        unfold emitted
        cases hp : Assembly.Program.ofModule m with
        | error err => exact ⟨⟨a, rfl⟩, nofun, nofun⟩
        | ok p =>
          refine ⟨⟨a, rfl⟩, nofun, fun k u hstore => ?_⟩
          cases hstore
          exact ⟨rfl, rfl, a, m, p, ha, by simpa using hok, hy, hp, rfl⟩

/-! ## Histories -/

/-- Nothing was added to the cache. -/
structure Within (c : DiskCache) (e' e : Environment) : Prop where
  cwd : e'.cwd = e.cwd
  holds : ∀ {key u}, c.Holds e'.here e'.files key u → c.Holds e.here e.files key u

/-- The texts that were compiled, each with the version. -/
abbrev Log := List (Bytes × Bytes)

def Compiled.logged (res : Compiled) (r : Request) : Log :=
  match res.error, res.source with
  | none, some (file, _) => [(file.content, r.version)]
  | _, _ => []

/-- What happens to a cache that starts empty, and the log since it was last dropped. A compilation
may find some entries missing, and what it wrote may be missing afterwards, but nobody else writes
entries. -/
inductive History (c : DiskCache) : Log → Environment → Prop where
  | start {e : Environment} : (∀ key u, ¬ c.Holds e.here e.files key u) → History c [] e
  | compile {log : Log} {e e1 e2 e3 : Environment} {r : Request} {res : Compiled}
    {fault : Option PathError} : History c log e → Within c e1 e →
    compile e1 (some c) r = .ok (res, fault, e2) →
    -- an entry that is written can be read
    (∀ key u, res.store = some (key, u) →
      CachedUnit.decode? (u.sealed key).encode = some (u.sealed key)) →
    e3.cwd = e.cwd →
    (∀ key u, c.Holds e3.here e3.files key u →
      c.Holds e2.here e2.files key u ∨ c.Holds e.here e.files key u) →
    History c (res.logged r ++ log) e3
  | drop {log : Log} {e e1 e2 : Environment} {p : Place} : History c log e → Within c e1 e →
    e1.files.place e1.here c.units = .ok p →
    Within c e2 { e1 with files := c.drop e1.files e1.here } → History c [] e2

/-- Every entry is the assembly of a text in the log. -/
def Sound (c : DiskCache) (log : Log) (e : Environment) : Prop :=
  ∀ key u, c.Holds e.here e.files key u →
    ∃ m ∈ log, key = cacheKey (Digest.sha256 m.1) m.2 ∧ Yields m.1 u.asm

lemma compile_eq_ok {cache : Option DiskCache} {fault : Option PathError}
    (h : compile e cache r = .ok (res, fault, e1)) :
    (∃ raw, e.files.read e.here r.target = .ok raw ∧
      compileSource (keptIn e cache) r (.ofDisk r.target raw) = .ok res ∧
      e1 = (keep e cache res.store).1) ∨ res.hit = false ∧ res.store = none ∧ e1 = e := by
  unfold compile at h
  split at h
  · cases h
    exact .inr ⟨rfl, rfl, rfl⟩
  · split at h
    · cases h
      exact .inr ⟨rfl, rfl, rfl⟩
    next raw hread =>
      obtain ⟨res', hres, h⟩ := except_bind_eq_ok.1 h
      cases h
      exact .inl ⟨raw, hread, hres, rfl⟩

lemma Sound.keep {log : Log} (h : Sound c log e) {a : Analysis}
    (hsource : res.source = some (file, a))
    (hstore : ∀ k u, res.store = some (k, u) → k = cacheKey file.digest r.version ∧
      res.error = none ∧ Yields file.content u.asm) (hcodec : ∀ key u, res.store = some (key, u) →
      CachedUnit.decode? (u.sealed key).encode = some (u.sealed key)) :
    Sound c (res.logged r ++ log) (keep e (some c) res.store).1 := by
  have hold {key : Bytes} {u : CachedUnit} (hu : c.Holds e.here e.files key u) :
      ∃ m ∈ res.logged r ++ log, key = cacheKey (Digest.sha256 m.1) m.2 ∧ Yields m.1 u.asm := by
    obtain ⟨m, hm, hkey⟩ := h key u hu
    exact ⟨m, mem_append_right _ hm, hkey⟩
  intro key u hu
  unfold Build.keep at hu
  cases hs : res.store with
  | none =>
    rw [hs] at hu
    exact hold hu
  | some entry =>
    obtain ⟨k, v⟩ := entry
    rw [hs] at hu
    dsimp only at hu
    cases hput : c.put e.files e.here k v with
    | error err =>
      rw [hput] at hu
      exact hold hu
    | ok files =>
      rw [hput] at hu
      rcases holds_of_put hput (hcodec k v hs) hu with ⟨rfl, rfl⟩ | hu
      · obtain ⟨hk, herror, hyields⟩ := hstore _ _ hs
        refine ⟨(file.content, r.version), mem_append_left _ ?_, hk, hyields⟩
        rw [Compiled.logged, herror, hsource]
        exact mem_singleton_self _
      · exact hold hu

lemma History.sound {log : Log} (h : History c log e) : Sound c log e := by
  induction h with
  | start hempty => exact fun key u hu => absurd hu (hempty key u)
  | @compile log e e1 e2 e3 r res fault _ hin hrun hcodec _ hout ih =>
    have hsound : Sound c log e1 := fun key u hu => ih key u (hin.holds hu)
    have hold {e : Environment} (h : Sound c log e) : Sound c (res.logged r ++ log) e :=
      fun key u hu => by
        obtain ⟨m, hm, hkey⟩ := h key u hu
        exact ⟨m, mem_append_right _ hm, hkey⟩
    intro key u hu
    rcases hout key u hu with hu | hu
    · rcases compile_eq_ok hrun with ⟨raw, -, hres, rfl⟩ | ⟨-, -, rfl⟩
      · obtain ⟨⟨a, hsource⟩, -, hstore⟩ := compileSource_spec hres
        exact hsound.keep hsource hstore hcodec key u hu
      · exact hold hsound key u hu
    · exact hold ih key u hu
  | drop _ _ hplace hout => exact fun key u hu => absurd (hout.holds hu) (not_holds_drop hplace)

/-! ## Transparency -/

lemma compileSource_agrees
    (hkept : ∀ u, kept (cacheKey file.digest r.version) = some u → Yields file.content u.asm) :
    compileSource kept r file = compileSource (fun _ => none) r file ∨
      ∃ res plain, compileSource kept r file = .ok res ∧
        compileSource (fun _ => none) r file = .ok plain ∧ res.Agrees plain := by
  cases hu : kept (cacheKey file.digest r.version) with
  | none => exact .inl (compileSource_congr hu)
  | some u => exact .inr (compileSource_of_kept hu (hkept u hu))

lemma holds_of_keptIn (h : keptIn e (some c) key = some u) : c.Holds e.here e.files key u := by
  unfold keptIn at h
  dsimp only at h
  split at h
  next v hget =>
    cases h
    exact holds_of_get hget
  · cases h

lemma compile_agrees (hkept : ∀ raw, e.files.read e.here r.target = .ok raw →
      ∀ u, keptIn e (some c) (cacheKey (File.ofDisk r.target raw).digest r.version) = some u →
        Yields (File.ofDisk r.target raw).content u.asm) :
    (∃ b, compile e (some c) r = .error b ∧ compile e none r = .error b) ∨
      ∃ res fault e1 plain, compile e (some c) r = .ok (res, fault, e1) ∧
        compile e none r = .ok (plain, none, e) ∧ res.Agrees plain := by
  unfold compile
  by_cases htarget : r.target = []
  · rw [if_pos htarget, if_pos htarget]
    exact .inr ⟨_, _, _, _, rfl, rfl, rfl, rfl, rfl⟩
  rw [if_neg htarget, if_neg htarget]
  cases hread : e.files.read e.here r.target with
  | error err => exact .inr ⟨_, _, _, _, rfl, rfl, rfl, rfl, rfl⟩
  | ok raw =>
    have hnone : keptIn e none = fun _ => none := rfl
    dsimp only
    rw [hnone]
    rcases compileSource_agrees (hkept raw hread) with heq | ⟨res, plain, hres, hplain, hagrees⟩
    · rw [heq]
      cases compileSource (fun _ => none) r (.ofDisk r.target raw) with
      | error b => exact .inl ⟨b, rfl, rfl⟩
      | ok plain => exact .inr ⟨plain, _, _, plain, rfl, rfl, rfl, rfl, rfl⟩
    · rw [hres, hplain]
      exact .inr ⟨res, _, _, plain, rfl, rfl, hagrees⟩

def oneFile : Environment := { files := [(["a"], .file "fn main() {}")], cwd := "/" }

lemma not_holds_oneFile : ¬ DiskCache.Holds ⟨"/cache"⟩ oneFile.here oneFile.files key u := by
  rintro ⟨b, hfile, -⟩
  rw [DiskCache.target_pathFor] at hfile
  have hplace := congrArg Prod.fst (mem_singleton.1 (Assoc.mem_of_get?_eq_some hfile))
  have hlength := congrArg List.length hplace
  rw [length_append, length_singleton] at hlength
  exact absurd hlength (by decide)

end VecLang.Build
