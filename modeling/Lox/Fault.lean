import Lox.Syntax.Error
import Lox.Token.Error
import Lox.Value.Error

/-!
# Faults

Whatever can be wrong with a program, by the stage that finds it.
-/

namespace Lox

/-- An error of scanning, parsing or execution. -/
inductive Fault where
  | lexical (e : LexicalError)
  | grammatical (e : SyntaxError)
  | runtime (e : RuntimeError)

/-- What there is to say about a fault. -/
def Fault.diagnostic : Fault → Diagnostic
  | lexical e => e.diagnostic
  | grammatical e => e.diagnostic
  | runtime e => e.diagnostic

end Lox
