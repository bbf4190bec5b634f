import VecLang.Ssa.Module
import VecLang.Value.ToJson

/-!
# Programs in single assignment form written as JSON

A program can be written by hand: a function is an object, an instruction an array that starts
with its name.
-/

namespace VecLang.Ssa

inductive Malformed where
  /-- A part that is not there, or not a number where one is wanted. -/
  | missing
  | string
  | list
  | type
  | operator
  | value
  | instr
  | term
  /-- A member with the wrong kind of content. -/
  | member (name : Bytes)
deriving DecidableEq

def Malformed.name : Malformed → Bytes
  | missing => "missing"
  | string => "string"
  | list => "call"
  | type => "type"
  | operator => "op"
  | value => "value"
  | instr => "instr"
  | term => "term"
  | member n => n

abbrev Read := Except Malformed

def itemAt (xs : List Json) (i : Nat) : Read Json :=
  match xs[i]? with
  | some v => .ok v
  | none => .error .missing

/-- A number that is not negative. -/
def readNat : Json → Read Nat
  | .num (0x2d :: _) => .ok 0
  | .num t => match Bytes.toNat? t with
    | some n => .ok n
    | none => .error .missing
  | _ => .error .missing

def readText : Json → Read Bytes
  | .str s => .ok s
  | _ => .error .string

def readList : Json → Read (List Json)
  | .arr xs => .ok xs
  | .null => .ok []
  | _ => .error .list

def readNamed (fault : Malformed) (all : List α) (name : α → Bytes) (j : Json) : Read α := do
  let b ← readText j
  match all.find? fun a => name a = b with
  | some a => return a
  | none => throw fault

def readType : Json → Read Ty := readNamed .type Ty.all Ty.name

def readBinaryOp : Json → Read BinaryOp := readNamed .operator BinaryOp.all BinaryOp.name

def readUnaryOp : Json → Read UnaryOp := readNamed .operator UnaryOp.all UnaryOp.name

def readValue (j : Json) : Read Value :=
  match Value.ofJson? j with
  | some v => .ok v
  | none => .error .value

/-- An operand: a number refers to a value, an object is a literal, null is nothing. -/
def readAtom (types : Array Ty) (j : Json) : Read Atom := do
  match j with
  | .null => return .none
  | .num _ =>
    let id ← readNat j
    return .ref id (types.getD id .invalid)
  | _ => return .lit (← readValue j)

def readBool : Json → Read Bool
  | .bool b => .ok b
  | _ => .error .list

def blankInstr (kind : Nat) : Instr :=
  match kind with
  | 1 => .assign 0 .none
  | 2 => .binary 0 .invalid .invalid false .none .none
  | 3 => .unary 0 .invalid .none
  | 4 => .call 0 0 [] []
  | 5 => .pack 0 []
  | 6 => .swizzle 0 .none []
  | k => .unknown k

def blankTerm (kind : Nat) : Term :=
  match kind with
  | 0 => .none
  | 1 => .branch .none .invalid .none .invalid 0
  | 2 => .goto 0
  | 3 => .ret .none
  | 4 => .halt
  | k => .unknown k

def readInstr (types : Array Ty) (j : Json) : Read Instr := do
  match j with
  | .arr (.str name :: a) =>
    let is (s : String) : Bool := name = Bytes.ofString s
    let nat (i : Nat) : Read Nat := do readNat (← itemAt a i)
    let atom (i : Nat) : Read Atom := do readAtom types (← itemAt a i)
    let atoms (i : Nat) : Read (List Atom) := do
      (← readList (← itemAt a i)).mapM (readAtom types)
    if is "assign" then return .assign (← nat 0) (← atom 1)
    else if is "binary" then
      let dst ← nat 0
      let op ← readBinaryOp (← itemAt a 1)
      let operand ← readType (← itemAt a 2)
      let scaling ← readBool (← itemAt a 3)
      return .binary dst op operand scaling (← atom 4) (← atom 5)
    else if is "unary" then
      let dst ← nat 0
      return .unary dst (← readUnaryOp (← itemAt a 1)) (← atom 2)
    else if is "call" then
      let dst ← nat 0
      let callee ← nat 1
      return .call dst callee (← readText (← itemAt a 2)) (← atoms 3)
    else if is "pack" then return .pack (← nat 0) (← atoms 1)
    else if is "swizzle" then
      let dst ← nat 0
      let x ← atom 1
      return .swizzle dst x (← (← readList (← itemAt a 2)).mapM readNat)
    else if is "bad" then return blankInstr ((← nat 0) % 256)
    else throw .instr
  | _ => throw .instr

def readTerm (types : Array Ty) (j : Json) : Read Term := do
  match j with
  | .null | .arr [] => return .none
  | .arr (.str name :: a) =>
    let is (s : String) : Bool := name = Bytes.ofString s
    let nat (i : Nat) : Read Nat := do readNat (← itemAt a i)
    let atom (i : Nat) : Read Atom := do readAtom types (← itemAt a i)
    if is "if" then
      let l ← atom 0
      let op ← readBinaryOp (← itemAt a 1)
      let r ← atom 2
      return .branch l op r (← readType (← itemAt a 3)) (← nat 4)
    else if is "goto" then return .goto (← nat 0)
    else if is "return" then
      if a.isEmpty then return .ret .none else return .ret (some (← atom 0))
    else if is "halt" then return .halt
    else if is "bad" then return blankTerm ((← nat 0) % 256)
    else throw .term
  | _ => throw .term

def memberOf (j : Json) (name : Bytes) : Option Json :=
  match j.member? name with
  | some .null => none
  | m => m

def readListMember (j : Json) (name : Bytes) : Read (List Json) :=
  match memberOf j name with
  | none => .ok []
  | some (.arr xs) => .ok xs
  | some _ => .error (.member name)

def readNatMember (j : Json) (name : Bytes) : Read Nat :=
  match memberOf j name with
  | none => .ok 0
  | some v => (readNat v).mapError fun _ => .member name

def readTextMember (j : Json) (name : Bytes) : Read Bytes :=
  match memberOf j name with
  | none => .ok []
  | some v => (readText v).mapError fun _ => .member name

def readBlock (types : Array Ty) (j : Json) : Read Block := do
  let label ← readNatMember j "label"
  let instrs ← (← readListMember j "instrs").mapM (readInstr types)
  let term ← readTerm types ((memberOf j "term").getD .null)
  return { label, instrs := instrs.toArray, term }

def readPhi (j : Json) : Read Phi := do
  let xs ← readList j
  let dst ← readNat (← itemAt xs 0)
  let label ← readNat (← itemAt xs 1)
  return { dst, label, branches := ← (← readList (← itemAt xs 2)).mapM readNat }

def readFunc (types : Array Ty) (j : Json) : Read Func := do
  let id ← readNatMember j "id"
  let name ← readTextMember j "name"
  let result ← match memberOf j "result" with
    | none => throw .missing
    | some t => readType t
  let args ← (← readListMember j "args").mapM readNat
  let blocks ← (← readListMember j "blocks").mapM (readBlock types)
  return { id, name, result, args, blocks := blocks.toArray,
           phis := ← (← readListMember j "phis").mapM readPhi }

/-- A number with something that goes with it. -/
def readPair (f : Json → Read α) (j : Json) : Read (Nat × α) := do
  let xs ← readList j
  return (← readNat (← itemAt xs 0), ← f (← itemAt xs 1))

def Module.ofJson (j : Json) : Read Module := do
  let types ← (← readListMember j "types").mapM readType
  let types := (Ty.invalid :: types).toArray
  let main ← readNatMember j "main"
  let pool ← (← readListMember j "pool").mapM (readPair readValue)
  let labels ← (← readListMember j "labels").mapM (readPair readText)
  let funcs ← (← readListMember j "funcs").mapM (readFunc types)
  return {
    funcs
    main := some main
    pool := pool.foldl (fun m (k, v) => Assoc.set m k v) []
    labels := labels.foldl (fun m (k, v) => Assoc.set m k v) []
    types }

end VecLang.Ssa
