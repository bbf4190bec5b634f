import VecLang.Symbols

/-!
# Statements

The statements of a program whose names are resolved, over whatever stands for an expression.
-/

namespace VecLang

inductive Stmt (ε : Type) where
  /-- A new variable with its first value. -/
  | letVar (span : Span) (var : VarId) (value : ε)
  | assign (span : Span) (var : VarId) (value : ε)
  | expr (span : Span) (value : ε)
  | ret (span : Span) (value : Option ε)
  | breakLoop (span : Span)
  | continueLoop (span : Span)
  | ifElse (span : Span) (cond : ε) (thenBody : List (Stmt ε)) (elseBody : Option (List (Stmt ε)))
  | whileDo (span : Span) (cond : ε) (body : List (Stmt ε))
deriving Inhabited

namespace Stmt

variable {ε δ : Type}

def span : Stmt ε → Span
  | letVar s _ _ => s
  | assign s _ _ => s
  | expr s _ => s
  | ret s _ => s
  | breakLoop s => s
  | continueLoop s => s
  | ifElse s _ _ _ => s
  | whileDo s _ _ => s

mutual

/-- Replace every expression of a statement, from left to right. -/
def mapM {m : Type → Type} [Monad m] (f : ε → m δ) : Stmt ε → m (Stmt δ)
  | letVar s v e => return letVar s v (← f e)
  | assign s v e => return assign s v (← f e)
  | expr s e => return expr s (← f e)
  | ret s none => return ret s none
  | ret s (some e) => return ret s (some (← f e))
  | breakLoop s => return breakLoop s
  | continueLoop s => return continueLoop s
  | ifElse s c t none => return ifElse s (← f c) (← mapListM f t) none
  | ifElse s c t (some e) => return ifElse s (← f c) (← mapListM f t) (some (← mapListM f e))
  | whileDo s c body => return whileDo s (← f c) (← mapListM f body)

/-- Replace every expression of statements, from left to right. -/
def mapListM {m : Type → Type} [Monad m] (f : ε → m δ) : List (Stmt ε) → m (List (Stmt δ))
  | [] => return []
  | t :: ts => return (← mapM f t) :: (← mapListM f ts)

end

end Stmt

end VecLang
