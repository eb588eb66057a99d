import Lox.Proofs.Relabel.Store

/-!
# Evaluation commutes with relabelling

A relabelled program on a relabelled machine does what the program does on the machine, relabelled,
with the same fuel. `Eval.Commutes` says so of computations, with one rule for each way in which the
evaluator puts computations together, and the theorem is by induction on the fuel.
-/

namespace Lox.Eval

variable {α β : Type}

/-- The second computation does on relabelled machines what the first one does, relabelled. -/
def Commutes (r : Relabelling) (result : α → α) (x y : Eval α) : Prop :=
  ∀ m, y (m.relabel r) = (x m).relabel r result

/-- An assignment puts the changed store in place, whether or not it succeeds. -/
lemma assign_apply (name : Token) (v : Value) (m : Machine) :
    assign name v m =
      if (m.store.assign m.current name.lexeme v).2 then
        .ok () { m with store := (m.store.assign m.current name.lexeme v).1 }
      else
        .error (Store.undefined name)
          { m with store := (m.store.assign m.current name.lexeme v).1 } :=
  rfl

namespace Commutes

variable {r : Relabelling} {F : α → α} {G : β → β}

/-- To give a value back commutes with what becomes of the value. -/
protected lemma pure (a : α) : Commutes r F (pure a) (pure (F a)) :=
  fun _ => rfl

/-- What is cut off is cut off on relabelled machines. -/
lemma exhausted : Commutes r F Eval.exhausted Eval.exhausted :=
  fun _ => rfl

/-- Sequences commute if their parts do. -/
protected lemma bind {x y : Eval α} {f g : α → Eval β} (first : Commutes r F x y)
    (second : ∀ a, Commutes r G (f a) (g (F a))) : Commutes r G (x >>= f) (y >>= g) := by
  intro m
  rw [bind_apply, bind_apply, first m]
  cases x m with
  | ok a m₁ => exact second a m₁
  | error e m₁ => rfl
  | exhausted => rfl

/-- An error that is not about a name is relabelled at its token. -/
protected lemma fail {cause : RuntimeCause} {token : Token}
    (plain : RuntimeError.relabel r ⟨cause, token⟩ = ⟨cause.relabel r, r.mark token⟩) :
    Commutes r F (fail cause token) (fail (cause.relabel r) (r.mark token)) := by
  intro m
  change Outcome.error _ _ = Outcome.error _ _
  rw [plain]

/-- An operation on relabelled values ends with the relabelled result. -/
protected lemma atToken {o o' : Except RuntimeCause Value} (token : Token)
    (h : Value.Relabelled r o o') :
    Commutes r (Value.relabel r) (atToken token o) (atToken (r.mark token) o') := by
  cases h with
  | ok v => exact .pure v
  | error plain => exact .fail (plain token)

/-- A relabelled name is looked up instead of the name. -/
protected lemma lookup (name : Token) :
    Commutes r (Value.relabel r) (lookup name) (lookup (r.name name)) := by
  intro m
  have found : (m.relabel r).store.get? (m.relabel r).current (r.name name).lexeme =
      (m.store.get? m.current name.lexeme).map (Value.relabel r) := by
    rw [r.lexeme]
    exact m.store.get?_relabel r m.current name.lexeme
  rw [lookup, lookup, found]
  cases m.store.get? m.current name.lexeme with
  | some value => rfl
  | none =>
    rw [Store.undefined, Store.undefined, r.lexeme]
    rfl

/-- A relabelled name is declared with the relabelled value. -/
protected lemma define (name : Token) (v : Value) :
    Commutes r id (define name v) (define (r.name name) (v.relabel r)) := by
  intro m
  have defined := m.store.define_relabel r m.current name.lexeme v
  rw [← r.lexeme] at defined
  change Outcome.ok () ⟨(m.store.relabel r).define m.current (r.name name).lexeme (v.relabel r),
    _, _, _, _⟩ = _
  rw [defined]
  rfl

/-- A relabelled value is assigned to the relabelled name. -/
protected lemma assign (name : Token) (v : Value) :
    Commutes r id (assign name v) (assign (r.name name) (v.relabel r)) := by
  intro m
  have assigned : (m.relabel r).store.assign (m.relabel r).current (r.name name).lexeme
        (v.relabel r) =
      ((m.store.assign m.current name.lexeme v).1.relabel r,
        (m.store.assign m.current name.lexeme v).2) := by
    rw [r.lexeme]
    exact m.store.assign_relabel r m.current name.lexeme v
  rw [assign_apply, assign_apply, assigned]
  cases (m.store.assign m.current name.lexeme v).2 with
  | true => rfl
  | false =>
    rw [Store.undefined, Store.undefined, r.lexeme]
    rfl

/-- The relabelled value is printed. -/
protected lemma print (v : Value) : Commutes r id (print v) (print (v.relabel r)) := by
  intro m
  change Outcome.ok () ⟨_, _, (m.printed.map (Value.relabel r)).push (v.relabel r), _, _⟩ = _
  rw [← Array.map_push]
  rfl

/-- The clock is read as before. -/
protected lemma readClock (clock : Clock) :
    Commutes r id (readClock clock) (readClock clock) :=
  fun _ => rfl

/-- A function is made of relabelled parts. -/
protected lemma closure (name : Token) (parameters : List Token) (body : List Stmt) :
    Commutes r (Value.relabel r) (closure name parameters body)
      (closure (r.name name) (parameters.map r.name) (Stmt.relabelAll r body)) :=
  fun _ => rfl

/-- Scopes keep their places. -/
protected lemma current : Commutes r id current current :=
  fun _ => rfl

/-- A computation in a new scope. -/
protected lemma inScope {x y : Eval α} (parent : ScopeId) (bs : List (String × Value))
    (inner : Commutes r F x y) :
    Commutes r F (inScope parent bs x) (inScope parent (Bindings.relabel r bs) y) := by
  rintro ⟨store, current, printed, readings, serial⟩
  have opened := inner ⟨(store.child parent).2.defineAll (store.child parent).1 bs,
    (store.child parent).1, printed, readings, serial⟩
  simp only [Machine.relabel] at opened
  simp only [Eval.inScope, Machine.relabel]
  rw [Store.child_relabel]
  dsimp only
  rw [Store.defineAll_relabel, opened]
  cases x _ with
  | ok a m => rfl
  | error e m => rfl
  | exhausted => rfl

end Commutes

/-- Binding parameters to arguments commutes with relabelling. -/
lemma zip_relabel (r : Relabelling) (parameters : List Token) (arguments : List Value) :
    ((parameters.map r.name).map (·.lexeme)).zip (arguments.map (Value.relabel r)) =
      Bindings.relabel r ((parameters.map (·.lexeme)).zip arguments) := by
  induction parameters generalizing arguments with
  | nil => rfl
  | cons name parameters ih =>
    cases arguments with
    | nil => rfl
    | cons v arguments =>
      simp only [List.map_cons, List.zip_cons_cons, ih, r.lexeme]
      rfl

/-- What computations with `fuel` units commute with. -/
structure Relabels (r : Relabelling) (clock : Clock) (fuel : Nat) : Prop where
  evaluate (e : Expr) :
    Commutes r (Value.relabel r) (evaluate clock fuel e) (evaluate clock fuel (e.relabel r))
  evaluateAll (es : List Expr) :
    Commutes r (List.map (Value.relabel r)) (evaluateAll clock fuel es)
      (evaluateAll clock fuel (Expr.relabelAll r es))
  call (callee : Value) (arguments : List Value) (paren : Token) :
    Commutes r (Value.relabel r) (call clock fuel callee arguments paren)
      (call clock fuel (callee.relabel r) (arguments.map (Value.relabel r)) (r.mark paren))
  execute (s : Stmt) :
    Commutes r (Completion.relabel r) (execute clock fuel s) (execute clock fuel (s.relabel r))
  executeAll (ss : List Stmt) :
    Commutes r (Completion.relabel r) (executeAll clock fuel ss)
      (executeAll clock fuel (Stmt.relabelAll r ss))

namespace Relabels

variable {r : Relabelling} {clock : Clock} {fuel : Nat} (h : Relabels r clock fuel)

include h

/-- With one more unit, an expression commutes with its relabelling. -/
lemma evaluate_succ (e : Expr) :
    Commutes r (Value.relabel r) (Eval.evaluate clock (fuel + 1) e)
      (Eval.evaluate clock (fuel + 1) (e.relabel r)) := by
  cases e with
  | literal atom =>
    have plain : Commutes r (Value.relabel r) (pure atom.value) (pure (atom.value.relabel r)) :=
      .pure atom.value
    rw [atom.relabel_value] at plain
    exact plain
  | group inner => exact h.evaluate inner
  | ident name => exact .lookup name
  | assign name value =>
    refine .bind (h.evaluate value) fun v => ?_
    exact .bind (.assign name v) fun _ => .pure v
  | unary op token operand =>
    exact .bind (h.evaluate operand) fun v => .atToken token (v.unary_relabel r op)
  | binary op token left right =>
    refine .bind (h.evaluate left) fun v => ?_
    exact .bind (h.evaluate right) fun u => .atToken token (v.binary_relabel r u op)
  | logical op token left right =>
    refine .bind (h.evaluate left) fun v => ?_
    rw [v.settles_relabel]
    cases v.settles op with
    | true => exact .pure v
    | false => exact h.evaluate right
  | call callee paren arguments =>
    refine .bind (h.evaluate callee) fun v => ?_
    exact .bind (h.evaluateAll arguments) fun vs => h.call v vs paren

/-- With one more unit, expressions one after another commute with their relabelling. -/
lemma evaluateAll_succ (es : List Expr) :
    Commutes r (List.map (Value.relabel r)) (Eval.evaluateAll clock (fuel + 1) es)
      (Eval.evaluateAll clock (fuel + 1) (Expr.relabelAll r es)) := by
  cases es with
  | nil => exact .pure []
  | cons e rest =>
    refine .bind (h.evaluate e) fun v => ?_
    exact .bind (h.evaluateAll rest) fun vs => .pure (v :: vs)

/-- With one more unit, a call commutes with its relabelling. -/
lemma call_succ (callee : Value) (arguments : List Value) (paren : Token) :
    Commutes r (Value.relabel r) (Eval.call clock (fuel + 1) callee arguments paren)
      (Eval.call clock (fuel + 1) (callee.relabel r) (arguments.map (Value.relabel r))
        (r.mark paren)) := by
  have same : (arguments.map (Value.relabel r)).length = arguments.length := List.length_map _
  cases callee with
  | number x => exact .fail rfl
  | string s => exact .fail rfl
  | nil => exact .fail rfl
  | boolean b => exact .fail rfl
  | native builtin serial =>
    cases builtin
    -- Both arities are counted before anything else, and relabelling changes neither.
    change Commutes r (Value.relabel r)
      (if arguments.length ≠ 0 then Eval.fail (.wrongArity arguments.length 0) paren
        else Eval.readClock clock >>= fun x => pure (.number x))
      (if (arguments.map (Value.relabel r)).length ≠ 0 then
        Eval.fail (.wrongArity (arguments.map (Value.relabel r)).length 0) (r.mark paren)
        else Eval.readClock clock >>= fun x => pure (.number x))
    rw [same]
    split
    · exact .fail rfl
    · exact .bind (.readClock clock) fun x => .pure (Value.number x)
  | function f =>
    have arity : (f.parameters.map r.name).length = f.parameters.length := List.length_map _
    have bindings := zip_relabel r f.parameters arguments
    change Commutes r (Value.relabel r)
      (if arguments.length ≠ f.parameters.length then
        Eval.fail (.wrongArity arguments.length f.parameters.length) paren
      else Eval.inScope f.scope ((f.parameters.map (·.lexeme)).zip arguments)
        (Eval.executeAll clock fuel f.body) >>= fun completion => pure completion.value)
      (if (arguments.map (Value.relabel r)).length ≠ (f.parameters.map r.name).length then
        Eval.fail (.wrongArity (arguments.map (Value.relabel r)).length
          (f.parameters.map r.name).length) (r.mark paren)
      else Eval.inScope f.scope
          (((f.parameters.map r.name).map (·.lexeme)).zip (arguments.map (Value.relabel r)))
          (Eval.executeAll clock fuel (Stmt.relabelAll r f.body)) >>=
        fun completion => pure completion.value)
    rw [same, arity, bindings]
    split
    · exact .fail rfl
    · refine .bind (.inScope f.scope _ (h.executeAll f.body)) fun completion => ?_
      cases completion with
      | normal => exact .pure Value.nil
      | returned v => exact .pure v

/-- With one more unit, a statement commutes with its relabelling. -/
lemma execute_succ (s : Stmt) :
    Commutes r (Completion.relabel r) (Eval.execute clock (fuel + 1) s)
      (Eval.execute clock (fuel + 1) (s.relabel r)) := by
  cases s with
  | var name initializer =>
    cases initializer with
    | none => exact .bind (.define name .nil) fun _ => .pure Completion.normal
    | some e =>
      refine .bind (h.evaluate e) fun v => ?_
      exact .bind (.define name v) fun _ => .pure Completion.normal
  | function name parameters body =>
    refine .bind (.closure name parameters body) fun f => ?_
    exact .bind (.define name f) fun _ => .pure Completion.normal
  | expression e => exact .bind (h.evaluate e) fun _ => .pure Completion.normal
  | print e =>
    refine .bind (h.evaluate e) fun v => ?_
    exact .bind (.print v) fun _ => .pure Completion.normal
  | block body => exact .bind .current fun scope => .inScope scope [] (h.executeAll body)
  | ifThen condition thenBranch =>
    refine .bind (h.evaluate condition) fun v => ?_
    rw [v.truthy_relabel]
    cases v.truthy with
    | true => exact h.execute thenBranch
    | false => exact .pure Completion.normal
  | ifElse condition thenBranch elseBranch =>
    refine .bind (h.evaluate condition) fun v => ?_
    rw [v.truthy_relabel]
    cases v.truthy with
    | true => exact h.execute thenBranch
    | false => exact h.execute elseBranch
  | loop condition step body =>
    cases step with
    | none =>
      refine .bind (h.evaluate condition) fun v => ?_
      rw [v.truthy_relabel]
      cases v.truthy with
      | false => exact .pure Completion.normal
      | true =>
        refine .bind (h.execute body) fun completion => ?_
        cases completion with
        | normal => exact h.execute (.loop condition none body)
        | returned v => exact .pure (Completion.returned v)
    | some step =>
      refine .bind (h.evaluate condition) fun v => ?_
      rw [v.truthy_relabel]
      cases v.truthy with
      | false => exact .pure Completion.normal
      | true =>
        refine .bind (h.execute body) fun completion => ?_
        cases completion with
        | normal =>
          exact .bind (h.evaluate step) fun _ => h.execute (.loop condition (some step) body)
        | returned v => exact .pure (Completion.returned v)
  | ret keyword value =>
    cases value with
    | none => exact .pure (Completion.returned Value.nil)
    | some e => exact .bind (h.evaluate e) fun v => .pure (Completion.returned v)

/-- With one more unit, statements one after another commute with their relabelling. -/
lemma executeAll_succ (ss : List Stmt) :
    Commutes r (Completion.relabel r) (Eval.executeAll clock (fuel + 1) ss)
      (Eval.executeAll clock (fuel + 1) (Stmt.relabelAll r ss)) := by
  cases ss with
  | nil => exact .pure Completion.normal
  | cons s rest =>
    refine .bind (h.execute s) fun completion => ?_
    cases completion with
    | normal => exact h.executeAll rest
    | returned v => exact .pure (Completion.returned v)

end Relabels

/-- Whatever the fuel, evaluation commutes with relabelling. -/
lemma relabels (r : Relabelling) (clock : Clock) (fuel : Nat) : Relabels r clock fuel := by
  induction fuel with
  | zero =>
    exact ⟨fun _ => .exhausted, fun _ => .exhausted, fun _ _ _ => .exhausted, fun _ => .exhausted,
      fun _ => .exhausted⟩
  | succ fuel ih =>
    exact ⟨ih.evaluate_succ, ih.evaluateAll_succ, ih.call_succ, ih.execute_succ, ih.executeAll_succ⟩

end Lox.Eval

/-- A relabelled program does the same, relabelled, with the same fuel. -/
theorem Lox.Machine.interpret_relabel (r : Relabelling) (clock : Clock) (fuel : Nat)
    (program : Program) (m : Machine) :
    (m.relabel r).interpret clock fuel (Stmt.relabelAll r program) =
      (m.interpret clock fuel program).relabel r (Completion.relabel r) :=
  (Eval.relabels r clock fuel).executeAll program m
