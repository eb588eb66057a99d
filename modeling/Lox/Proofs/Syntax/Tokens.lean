import Lox.Syntax.Program
import Lox.Value.Basic
import Mathlib.Tactic.Common

/-!
# The tokens of a program

The tokens that stand in trees and in functions: all those to which an error can be attributed, and
all names.
-/

namespace Lox

mutual

/-- The tokens of an expression. -/
def Expr.tokens : Expr → List Token
  | .literal _ => []
  | .group inner => inner.tokens
  | .ident name => [name]
  | .assign name value => name :: value.tokens
  | .unary _ token operand => token :: operand.tokens
  | .binary _ token left right => token :: (left.tokens ++ right.tokens)
  | .logical _ token left right => token :: (left.tokens ++ right.tokens)
  | .call callee paren arguments => paren :: (callee.tokens ++ Expr.tokensAll arguments)

/-- The tokens of expressions. -/
def Expr.tokensAll : List Expr → List Token
  | [] => []
  | e :: rest => e.tokens ++ Expr.tokensAll rest

end

mutual

/-- The tokens of a statement. -/
def Stmt.tokens : Stmt → List Token
  | .var name initializer => name :: Expr.tokensAll initializer.toList
  | .function name parameters body => name :: (parameters ++ Stmt.tokensAll body)
  | .expression e => e.tokens
  | .print e => e.tokens
  | .block body => Stmt.tokensAll body
  | .ifThen condition thenBranch => condition.tokens ++ thenBranch.tokens
  | .ifElse condition thenBranch elseBranch =>
    condition.tokens ++ (thenBranch.tokens ++ elseBranch.tokens)
  | .loop condition step body =>
    condition.tokens ++ (Expr.tokensAll step.toList ++ body.tokens)
  | .ret keyword value => keyword :: Expr.tokensAll value.toList

/-- The tokens of statements. -/
def Stmt.tokensAll : List Stmt → List Token
  | [] => []
  | s :: rest => s.tokens ++ Stmt.tokensAll rest

end

/-- The tokens of a function. -/
def Closure.tokens (f : Closure) : List Token :=
  f.name :: (f.parameters ++ Stmt.tokensAll f.body)

/-- The tokens of statements one behind the other are those of both. -/
lemma Stmt.tokensAll_append (ss ts : List Stmt) :
    tokensAll (ss ++ ts) = tokensAll ss ++ tokensAll ts := by
  induction ss with
  | nil => rfl
  | cons s rest ih => rw [List.cons_append, tokensAll, ih, tokensAll, List.append_assoc]

mutual

/-- Desugaring keeps the tokens of a statement and brings no others. -/
lemma Stmt.mem_tokens_desugar (token : Token) :
    ∀ s : Stmt, token ∈ s.desugar.tokens ↔ token ∈ s.tokens
  | .var name initializer => Iff.rfl
  | .function name parameters body => by
    have inside := mem_tokensAll_desugarAll token body
    simp only [desugar, tokens, List.mem_cons, List.mem_append, inside]
  | .expression e => Iff.rfl
  | .print e => Iff.rfl
  | .block body => by
    have inside := mem_tokensAll_desugarAll token body
    simp only [desugar, tokens, inside]
  | .ifThen condition thenBranch => by
    have first := mem_tokens_desugar token thenBranch
    simp only [desugar, tokens, List.mem_append, first]
  | .ifElse condition thenBranch elseBranch => by
    have first := mem_tokens_desugar token thenBranch
    have second := mem_tokens_desugar token elseBranch
    simp only [desugar, tokens, List.mem_append, first, second]
  | .loop condition none body => by
    have inside := mem_tokens_desugar token body
    simp only [desugar, tokens, List.mem_append, inside]
  | .loop condition (some step) body => by
    -- The step moves behind the body.
    have inside := mem_tokens_desugar token body
    simp only [desugar, tokens, tokensAll, Expr.tokensAll, Option.toList_some, Option.toList_none,
      List.mem_append, List.append_nil, List.nil_append, inside]
    rw [@or_comm (token ∈ body.tokens)]
  | .ret keyword value => Iff.rfl

/-- Desugaring keeps the tokens of statements and brings no others. -/
lemma Stmt.mem_tokensAll_desugarAll (token : Token) :
    ∀ ss : List Stmt, token ∈ tokensAll (desugarAll ss) ↔ token ∈ tokensAll ss
  | [] => Iff.rfl
  | s :: rest => by
    have first := mem_tokens_desugar token s
    have others := mem_tokensAll_desugarAll token rest
    simp only [desugarAll, tokensAll, List.mem_append, first, others]

end

end Lox
