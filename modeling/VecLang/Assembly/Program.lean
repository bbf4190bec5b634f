import VecLang.Assembly.Select

/-!
# Assembly programs

A whole program as assembly text: the functions that print, the entry of the process, the
functions of the program in order, and the read-only data.
-/

namespace VecLang.Assembly

open Ssa

/-- Why no assembly can be made for a program. -/
inductive EmitError where
  | noMain
  | inFunction (name : Bytes) (cause : Obstacle)
deriving DecidableEq

def EmitError.message : EmitError → Bytes
  | noMain => "amd64: module has no main function"
  | inFunction name cause => "amd64: function " ++ name ++ ": " ++ cause.message

def firstArgument : Address := { base := .reg .rbp, offset := 16 }

def printHelper (name : Bytes) (body : List Inst) : List Line :=
  [.label name, .inst (.push .rbp), .inst (.move .rbp .rsp)] ++ body.map .inst
    ++ [.inst (.callLibrary "printf"), .inst (.pop .rbp), .inst .ret]

def printHelpers : List (List Line) :=
  [printHelper "printi" [.address .rdi "fmt_int", .load .rsi firstArgument, .clear .eax],
   printHelper "printr"
     [.address .rdi "fmt_real", .loadLanes .one 0 firstArgument, .widenLane 0, .set .eax 1],
   printHelper "printb"
     [.address .rdi "fmt_str", .address .rsi "str_false", .address .rax "str_true",
      .compareZero firstArgument, .moveIf .ne .rsi .rax, .clear .eax]]

/-- The entry of the process. The exit status is the integer that the main function returns,
and zero if it returns none. What was printed is written first. -/
def entryCode (main : Func) : List Line :=
  let result : Address := { base := .reg .rbp, offset := -8 }
  let isInt := main.result = .int
  let keep : List Inst := if isInt then [.store result .rax] else []
  let status : Inst := if isInt then .load .rdi result else .clear .edi
  let code : List Inst :=
    [.push .rbp, .move .rbp .rsp, .reserve 16, .call (funcLabel main.name)] ++ keep
      ++ [.clear .edi, .callLibrary "fflush", status, .set .eax 60, .systemCall]
  .label "main" :: code.map .inst

/-- The read-only data besides literals: names with their contents. -/
def data : List (Bytes × Bytes) :=
  [("fmt_int", "\"%ld\", 10, 0"), ("fmt_real", "\"%f\", 10, 0"), ("fmt_str", "\"%s\", 10, 0"),
   ("str_true", "\"true\", 0"), ("str_false", "\"false\", 0")]

def libraryNames : List Bytes := ["printf", "fflush"]

structure Program where
  /-- The pieces of code, each followed by a blank line. -/
  pieces : List (List Line)
  pool : LiteralPool
deriving Inhabited

def contextOf (m : Module) (pool : LiteralPool) (f : Func) : Context :=
  { module := m, pool, target := {}, func := f }

def Program.ofModule (m : Module) : Except EmitError Program := do
  match m.mainFunc? with
  | none => throw .noMain
  | some main =>
    let pool := LiteralPool.ofModule m
    let funcs ← m.funcs.mapM fun f =>
      (funcCode (contextOf m pool f)).mapError (.inFunction f.name)
    return { pieces := printHelpers ++ [entryCode main] ++ funcs, pool }

def datumText (name content : Bytes) : Bytes := name ++ ": db " ++ content ++ "\n"

def pieceText (lines : List Line) : Bytes := (lines.map Line.text).flatten ++ "\n"

def Program.text (p : Program) : Bytes :=
  let externs := (libraryNames.map fun n => ("extern " ++ n ++ "\n" : Bytes)).flatten
  let code := (p.pieces.map pieceText).flatten
  let rodata := (data.map fun (n, d) => datumText n d).flatten
  "default rel\n" ++ externs ++ "global main\n\nsection .text\n" ++ code ++ p.pool.text
    ++ "section .rodata\n" ++ rodata
    ++ "\nsection .note.GNU-stack noalloc noexec nowrite progbits\n"

end VecLang.Assembly
