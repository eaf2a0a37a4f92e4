import ReversePolish.Proofs.Typing

set_option autoImplicit false

/-! # Evaluation on a stack of values

A pocket calculator reads the tokens of an expression from left to right and builds no tree. It
keeps a stack of values and a log: a literal is pushed, and an operator takes its right operand
and its left one off the stack, pushes its result and writes one line. It stops at the first
division by zero.

Over the listing of a tree in postorder the calculator does what the trace of the tree does: it
pushes the value and writes the steps, or it stops where the trace fails. So the two agree on
every text that is an expression. -/

namespace ReversePolish

/-! ## The calculator -/

namespace Calculator

/-- The values on the stack, the topmost first, and the lines of the log, the oldest first. -/
structure State where
  stack : List Operand
  log : List String

/-- Why the calculator halts before the end. -/
inductive Halt where
  /-- The divisor is zero. -/
  | zeroDivisor (left right : Operand)
  /-- The token cannot be used. -/
  | stuck
deriving DecidableEq

/-- The line of one operation. -/
def line (left : Operand) (token : String) (right result : Operand) : String :=
  left.text ++ " " ++ token ++ " " ++ right.text ++ " = " ++ result.text

/-- The operator on the two topmost values. -/
def operate (op : Operator) (token : String) (s : State) : Except Halt State :=
  match s.stack with
  | right :: left :: rest =>
    if op = .div ∧ right.isZero = true then .error (.zeroDivisor left right)
    else match op.apply left right with
      | .ok v => .ok ⟨v :: rest, s.log ++ [line left token right v]⟩
      | .error _ => .error .stuck
  | _ => .error .stuck

/-- The state after a token at its position. -/
def step (d : Domain) (position : Nat) (token : String) (s : State) : Except Halt State :=
  match Operator.ofSymbolIn? d token with
  | some op => operate op token s
  | none =>
    match readLiteral d token position with
    | .ok l => .ok { s with stack := l.operand :: s.stack }
    | .error _ => .error .stuck

/-- The state after the remaining tokens, the first of which has the given position. -/
def run (d : Domain) : Nat → List String → State → Except Halt State
  | _, [], s => .ok s
  | position, token :: rest, s => do
    let s ← step d position token s
    run d (position + 1) rest s

/-- The state after a text, from nothing on the stack and in the log. -/
def calculate (d : Domain) (text : String) : Except Halt State :=
  run d 0 (tokenize text) ⟨[], []⟩

/-- How the calculator halts where evaluation fails. -/
def Halt.ofError : EvaluationError → Halt
  | .divisionByZero left right => zeroDivisor left right
  | _ => stuck

/-! ## Steps -/

variable {d : Domain}

theorem step_of_operator {token : String} {op : Operator} (h : Denotes d token (.inl op))
    (position : Nat) (s : State) : step d position token s = operate op token s := by
  rw [step, denotes_inl_iff.1 h]

theorem step_of_literal {token : String} {l : Literal} (h : Denotes d token (.inr l))
    (position : Nat) (s : State) :
    step d position token s = .ok { s with stack := l.operand :: s.stack } := by
  obtain ⟨hop, hl⟩ := (denotes_inr_iff position).1 h
  simp only [step, hop, hl]

/-- An operator of the calculator is the application of the operator. -/
theorem operate_eq (op : Operator) (token : String) (left right : Operand) (rest : List Operand)
    (log : List String) :
    operate op token ⟨right :: left :: rest, log⟩ =
      match op.apply left right with
      | .ok v => .ok ⟨v :: rest, log ++ [line left token right v]⟩
      | .error e => .error (.ofError e) := by
  unfold operate
  dsimp only
  split
  · next hz =>
    rw [Operator.apply_eq_divisionByZero_iff.2 ⟨hz, rfl, rfl⟩]
    rfl
  · next hz =>
    cases happly : op.apply left right with
    | ok v => rfl
    | error e =>
      cases e with
      | divisionByZero x y => exact absurd (Operator.apply_eq_divisionByZero_iff.1 happly).1 hz
      | _ => rfl

theorem run_append (ts us : List String) (position : Nat) (s : State) :
    run d position (ts ++ us) s =
      (do
        let s ← run d position ts s
        run d (position + ts.length) us s) := by
  induction ts generalizing position s with
  | nil => rfl
  | cons t ts ih =>
    have hlen : position + (t :: ts).length = position + 1 + ts.length := by
      rw [List.length_cons]
      omega
    simp only [List.cons_append, run, ih, hlen, bind_assoc]

/-! ## Runs -/

/-- Over the listing of a tree the calculator pushes its value and logs its steps, or halts where
    its trace fails. -/
theorem run_postorder {e : Expr} {ts : List String}
    (h : List.Forall₂ (Denotes d) ts (Tree.postorder e)) (position : Nat) (s : State) :
    run d position ts s =
      match Expr.trace e with
      | .ok t => .ok ⟨t.value :: s.stack, s.log ++ t.lines⟩
      | .error f => .error (.ofError f) := by
  induction e generalizing ts position s with
  | leaf l =>
    obtain ⟨t, rfl, ht⟩ := spells_leaf h
    rw [run, step_of_literal ht, ok_bind, run, Expr.trace]
    simp [Trace.lines]
  | node op l r ihl ihr =>
    -- the left tree, the right tree and the operator, as in the trace
    obtain ⟨us, vs, token, rfl, hl, hr, ht⟩ := spells_node h
    rw [run_append, ihl hl, Expr.trace]
    cases Expr.trace l with
    | error f => rfl
    | ok x =>
      rw [ok_bind, ok_bind, run_append, ihr hr]
      cases Expr.trace r with
      | error f => rfl
      | ok y =>
        rw [ok_bind, ok_bind, run, step_of_operator ht, operate_eq]
        cases op.apply x.value y.value with
        | error f => rfl
        | ok v =>
          have hsymbol := ht.symbol_eq
          simp [run, Trace.join, Trace.lines, Step.text, line, pure, Except.pure, ← hsymbol]

theorem length_log_step {position : Nat} {token : String} {s s' : State}
    (h : step d position token s = .ok s') :
    s'.log.length = s.log.length + [token].countP (· ∈ Operator.symbolsOf d) := by
  unfold step at h
  split at h
  · next op hop =>
    have hmem : token ∈ Operator.symbolsOf d :=
      Operator.mem_symbolsOf_iff.2 ⟨op, Operator.ofSymbolIn?_eq_some_iff.1 hop⟩
    unfold operate at h
    split at h
    · split at h
      · cases h
      · split at h
        · cases h
          simp [hmem]
        · cases h
    · cases h
  · next hop =>
    have hmem := Operator.ofSymbolIn?_eq_none_iff.1 hop
    split at h
    · cases h
      simp [hmem]
    · cases h

/-- The log has one line for each operator. -/
theorem length_log_run {ts : List String} {position : Nat} {s s' : State}
    (h : run d position ts s = .ok s') :
    s'.log.length = s.log.length + ts.countP (· ∈ Operator.symbolsOf d) := by
  induction ts generalizing position s with
  | nil =>
    cases h
    rfl
  | cons t ts ih =>
    rw [run] at h
    obtain ⟨mid, hstep, hrest⟩ := bind_eq_ok_iff.1 h
    have hcount : (t :: ts).countP (· ∈ Operator.symbolsOf d) =
        [t].countP (· ∈ Operator.symbolsOf d) + ts.countP (· ∈ Operator.symbolsOf d) := by
      rw [← List.countP_append, List.singleton_append]
    rw [ih hrest, length_log_step hstep, hcount]
    omega

end Calculator

/-! ## Expressions -/

/-- The steps of a trace end with its value. -/
theorem Expr.getLast?_lines {e : Expr} {t : Trace} (h : Expr.trace e = .ok t)
    (hne : t.lines ≠ []) : ∃ front, t.lines.getLast? = some (front ++ "= " ++ t.display) := by
  have hsteps : t.steps ≠ [] := by
    intro hnil
    rw [Trace.lines, hnil] at hne
    exact hne rfl
  obtain ⟨s, hlast, hresult⟩ := Expr.getLast?_steps h hsteps
  refine ⟨s.left.text ++ " " ++ s.op.symbol ++ " " ++ s.right.text ++ " ", ?_⟩
  rw [Trace.lines, List.getLast?_map, hlast, Option.map_some, Step.text, Trace.display, hresult]
  simp [String.append_assoc]

/-- Evaluation, with steps and without, comes to what the calculator makes of the text. -/
inductive Expression.EvaluatesLike (e : Expression) (text : String) : Prop where
  /-- The calculator ends with the value alone on its stack and with the steps as its log. There is
      one step for each operator, and the last ends with the value. -/
  | value {t : Trace}
      (calculate_eq : Calculator.calculate e.domain text = .ok ⟨[t.value], t.lines⟩)
      (evaluate_eq : e.evaluate = .ok t.value) (evaluation_eq : e.evaluation = .ok ⟨e.domain, t⟩)
      (length_lines : t.lines.length = (tokenize text).countP (· ∈ Operator.symbolsOf e.domain))
      (last_line : t.lines ≠ [] →
        ∃ front, t.lines.getLast? = some (front ++ "= " ++ t.display))
  /-- The calculator stops at a division by zero, and evaluation fails at this division. -/
  | zeroDivisor {left right : Operand}
      (calculate_eq : Calculator.calculate e.domain text = .error (.zeroDivisor left right))
      (evaluate_eq : e.evaluate = .error (.divisionByZero left right))
      (evaluation_eq : e.evaluation = .error (.divisionByZero left right))

/-- An expression that walks can follow evaluates like the calculator on its text. -/
theorem evaluatesLike_of_read {d : Domain} {text : String} {e : Expression}
    (hread : Expression.read d text = .ok e) (hheight : e.root.height ≤ maxDepth) :
    e.EvaluatesLike text := by
  obtain ⟨r, hr, rfl⟩ := read_eq_ok_iff.1 hread
  have hspell := readTree_eq_ok_iff.1 hr
  have hvalue : Expression.evaluate ⟨d, r, trimText isBlank text⟩ =
      (Expr.trace r).map Trace.value := by
    rw [Expression.evaluate, Draft.evaluate_draft hheight, Expr.value_eq_map_trace]
  have htrace : Expression.evaluation ⟨d, r, trimText isBlank text⟩ =
      (do
        let t ← Expr.trace r
        return ⟨d, t⟩) := by
    rw [Expression.evaluation, Expression.trace, Draft.trace_draft hheight]
  have hrun := Calculator.run_postorder hspell 0 ⟨[], []⟩
  rcases Expr.trace_of_isOver (Expr.isOver_of_denotes hspell) with ⟨a, b, hfail⟩ | ⟨t, ht, -⟩
  · rw [hfail] at hvalue htrace hrun
    exact .zeroDivisor hrun hvalue htrace
  · rw [ht] at hvalue htrace hrun
    have hlog := Calculator.length_log_run hrun
    exact .value hrun hvalue htrace (by simpa using hlog) (Expr.getLast?_lines ht)

/-- Of two divisions by zero the first in the text counts. -/
theorem evaluatesLike_two_divisions :
    ∃ e, Expression.read .arithmetic "1 -0 / 0 0 / +" = .ok e ∧ e.root.height ≤ maxDepth ∧
      e.EvaluatesLike "1 -0 / 0 0 / +" := by
  have hread : Expression.read .arithmetic "1 -0 / 0 0 / +" =
      .ok ⟨.arithmetic,
        .node .add
          (.node .div
            (.leaf (.number ⟨false, 2 ^ 52, 1022, by decide, by decide, .inr (Nat.le_refl _)⟩))
            (.leaf (.number (.zero true))))
          (.node .div (.leaf (.number (.zero false))) (.leaf (.number (.zero false)))),
        "1 -0 / 0 0 / +"⟩ := by decide +kernel
  exact ⟨_, hread, by decide, evaluatesLike_of_read hread (by decide)⟩

end ReversePolish
