import VecLang.Assoc
import VecLang.Number.Integer
import VecLang.Text.Duration
import VecLang.Text.Quoted

/-!
# Flags

A command line is a list of words, some of which are flags. A flag starts with two dashes and its
name, or with one dash and its letter; its value follows an equals sign or is the next word. A
flag that is a switch needs no value. The words that are no flags are the arguments.
-/

namespace VecLang.Cli

inductive FlagValue where
  | text (s : Bytes)
  | switch (b : Bool)
  | number (n : Int)
  /-- A duration in nanoseconds. -/
  | duration (n : Int)
deriving DecidableEq, Inhabited

structure Flag where
  name : Bytes
  /-- The letter it has instead of its name. -/
  letter : Option UInt8 := none
  /-- Its value where none is given; a given one is of the same kind. -/
  default : FlagValue
  /-- What it is for. -/
  usage : Bytes := []
deriving DecidableEq, Inhabited

def Flag.isSwitch (f : Flag) : Bool := f.default matches .switch _

abbrev Given := Assoc Bytes FlagValue

inductive FlagError where
  | badSyntax (word : Bytes)
  | unknown (name : Bytes)
  | unknownLetter (letter : UInt8) (letters : Bytes)
  | noValue (name : Bytes)
  | noLetterValue (letter : UInt8) (letters : Bytes)
  | badValue (flag : Flag) (value cause : Bytes)
deriving DecidableEq, Inhabited

namespace FlagError

def letterText (c : UInt8) : Bytes := Quoted.quoteChar (Char.ofNat c.toNat)

def flagText (f : Flag) : Bytes :=
  match f.letter with
  | some c => "-" ++ [c] ++ ", --" ++ f.name
  | none => "--" ++ f.name

def message : FlagError → Bytes
  | badSyntax w => "bad flag syntax: " ++ w
  | unknown n => "unknown flag: --" ++ n
  | unknownLetter c ls => "unknown shorthand flag: " ++ letterText c ++ " in -" ++ ls
  | noValue n => "flag needs an argument: --" ++ n
  | noLetterValue c ls => "flag needs an argument: " ++ letterText c ++ " in -" ++ ls
  | badValue f v cause =>
    "invalid argument " ++ Quoted.quote v ++ " for " ++ Quoted.quote (flagText f) ++ " flag: "
      ++ cause

end FlagError

namespace Flag

/-- The texts that switch something on. -/
def yes : List Bytes := ["1", "t", "T", "TRUE", "true", "True"]

/-- The texts that switch something off. -/
def no : List Bytes := ["0", "f", "F", "FALSE", "false", "False"]

def read (f : Flag) (text : Bytes) : Except FlagError FlagValue :=
  let failed (cause : Bytes) : Except FlagError FlagValue := .error (.badValue f text cause)
  match f.default with
  | .text _ => .ok (.text text)
  | .switch _ =>
    if yes.contains text then .ok (.switch true)
    else if no.contains text then .ok (.switch false)
    else failed ("strconv.ParseBool: parsing " ++ Quoted.quote text ++ ": invalid syntax")
  | .number _ =>
    match Integer.ofText text with
    | .ok n => .ok (.number n)
    | .error .malformed =>
      failed ("strconv.ParseInt: parsing " ++ Quoted.quote text ++ ": invalid syntax")
    | .error .outOfRange =>
      failed ("strconv.ParseInt: parsing " ++ Quoted.quote text ++ ": value out of range")
  | .duration _ =>
    match Duration.ofText text with
    | .ok n => .ok (.duration n)
    | .error e => failed (e.message text)

end Flag

def byName? (flags : List Flag) (name : Bytes) : Option Flag := flags.find? (·.name = name)

def byLetter? (flags : List Flag) (c : UInt8) : Option Flag := flags.find? (·.letter = some c)

structure Parsed where
  given : Given := []
  /-- The arguments, in order. -/
  args : List Bytes := []
deriving DecidableEq, Inhabited

def Parsed.give (p : Parsed) (f : Flag) (text : Bytes) : Except FlagError Parsed :=
  (f.read text).map fun v => { p with given := Assoc.set p.given f.name v }

def parseLong (flags : List Flag) (p : Parsed) (word rest : Bytes) (next : List Bytes) :
    Except FlagError (Parsed × List Bytes) :=
  if rest.head? = some 0x2d || rest.head? = some 0x3d then .error (.badSyntax word)
  else
    let name := rest.takeWhile (· ≠ 0x3d)
    match byName? flags name with
    | none => .error (.unknown name)
    | some f =>
      match rest.drop name.length with
      | _ :: value => (p.give f value).map (·, next)
      | [] =>
        if f.isSwitch then (p.give f "true").map (·, next)
        else match next with
          | value :: next => (p.give f value).map (·, next)
          | [] => .error (.noValue name)

def parseLetters (flags : List Flag) (p : Parsed) (next : List Bytes) :
    Bytes → Except FlagError (Parsed × List Bytes)
  | [] => .ok (p, next)
  | c :: rest =>
    match byLetter? flags c with
    | none => .error (.unknownLetter c (c :: rest))
    | some f =>
      match rest with
      | 0x3d :: v :: value => (p.give f (v :: value)).map (·, next)
      | _ =>
        if f.isSwitch then
          match p.give f "true" with
          | .ok p => parseLetters flags p next rest
          | .error e => .error e
        else if rest ≠ [] then (p.give f rest).map (·, next)
        else match next with
          | value :: next => (p.give f value).map (·, next)
          | [] => .error (.noLetterValue c (c :: rest))

/-- Read a command line. Each turn takes at least a word. -/
def parseWords (flags : List Flag) : (fuel : Nat) → Parsed → List Bytes → Except FlagError Parsed
  | 0, p, _ => .ok p
  | _ + 1, p, [] => .ok p
  | fuel + 1, p, word :: next =>
    match word with
    | [0x2d, 0x2d] => .ok { p with args := p.args ++ next }
    | 0x2d :: 0x2d :: rest =>
      match parseLong flags p word rest next with
      | .ok (p, next) => parseWords flags fuel p next
      | .error e => .error e
    | 0x2d :: c :: rest =>
      match parseLetters flags p next (c :: rest) with
      | .ok (p, next) => parseWords flags fuel p next
      | .error e => .error e
    | _ => parseWords flags fuel { p with args := p.args ++ [word] } next

/-- Read the flags and arguments of a command line. A flag that is not given has its default. -/
def parse (flags : List Flag) (words : List Bytes) : Except FlagError Parsed :=
  parseWords flags (words.length + 1) { given := flags.map fun f => (f.name, f.default) } words

namespace Given

def text (g : Given) (name : Bytes) : Bytes :=
  match Assoc.get? g name with
  | some (.text s) => s
  | _ => []

def on (g : Given) (name : Bytes) : Bool := Assoc.get? g name = some (.switch true)

def number (g : Given) (name : Bytes) : Int :=
  match Assoc.get? g name with
  | some (.number n) => n
  | _ => 0

end Given

end VecLang.Cli
