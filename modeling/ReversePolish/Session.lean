import ReversePolish.Fault
import ReversePolish.Reading

set_option autoImplicit false

/-! # Sessions

A session holds expressions in named slots. An expression enters its slot when its text has been
read, and stays there as it is until another one is read into the slot or the slot is dropped.
A text that cannot be read leaves the slot alone, and so does the attempt to change an
expression. -/

namespace ReversePolish

/-- Named slots, each with an expression. -/
structure Session where
  slots : List (String × Expression)
deriving Repr

/-- What can be asked about one expression. -/
inductive Query where
  | evaluate
  | evaluation
  | infixForm
  | prefixForm
  | diagram
  | render
  | height
  | stats
  | tree
  | describe
deriving DecidableEq, Repr

/-- What an expression answers. -/
inductive Answer where
  | value (r : Except EvaluationError Operand)
  | evaluation (r : Except EvaluationError Evaluation)
  | form (r : Except RenderingError String)
  | rendering (r : Except RenderingError Rendering)
  | height (n : Option Nat)
  | stats (s : Option Stats)
  | tree (e : Expression)
  | description (s : String)

/-- The answer of an expression to a query. -/
def Expression.answer (e : Expression) : Query → Answer
  | .evaluate => .value e.evaluate
  | .evaluation => .evaluation e.evaluation
  | .infixForm => .form e.infixForm
  | .prefixForm => .form e.prefixForm
  | .diagram => .form e.diagram
  | .render => .rendering e.render
  | .height => .height e.height?
  | .stats => .stats e.stats?
  | .tree => .tree e
  | .describe => .description e.describe

namespace Session

/-- What can be done in a session. -/
inductive Action where
  /-- Read a text into a slot. -/
  | new (slot : String) (domain : Domain) (text : Option String)
  | ask (slot : String) (query : Query)
  /-- Compare two expressions. -/
  | equal (slot other : String)
  /-- Compare the trees of two expressions. -/
  | equalRoot (slot other : String)
  /-- Try to give an expression another source. -/
  | setSource (slot text : String)
  | drop (slot : String)
deriving DecidableEq, Repr

/-- What an action comes to. -/
inductive Reply where
  | created (description : String)
  | failed (f : ReadingFailure)
  | answered (a : Answer)
  | compared (equal : Bool)
  | refused (faults : List FaultReport)
  | dropped
  | noSlot

/-- A session without slots. -/
def empty : Session := ⟨[]⟩

/-- The expression in a slot. -/
def get? (s : Session) (slot : String) : Option Expression :=
  (s.slots.find? (·.1 == slot)).map (·.2)

/-- The session without a slot. -/
def erase (s : Session) (slot : String) : Session :=
  ⟨s.slots.filter (·.1 != slot)⟩

/-- The session with an expression in a slot. -/
def put (s : Session) (slot : String) (e : Expression) : Session :=
  ⟨(slot, e) :: (s.erase slot).slots⟩

theorem get?_erase_of_ne (s : Session) {a b : String} (h : a ≠ b) :
    (s.erase b).get? a = s.get? a := by
  unfold get? erase
  congr 1
  rw [List.find?_filter]
  congr 1
  funext p
  by_cases hp : p.1 = a
  · simp [hp, h]
  · simp [hp]

@[simp] theorem get?_erase_self (s : Session) (a : String) : (s.erase a).get? a = none := by
  simp [get?, erase, List.find?_filter]

@[simp] theorem get?_put_self (s : Session) (a : String) (e : Expression) :
    (s.put a e).get? a = some e := by
  simp [get?, put]

theorem get?_put_of_ne (s : Session) {a b : String} (e : Expression) (h : a ≠ b) :
    (s.put b e).get? a = s.get? a := by
  have hb : (b == a) = false := beq_eq_false_iff_ne.2 (Ne.symm h)
  rw [← get?_erase_of_ne s h]
  simp [get?, put, hb]

/-- One action: the session after it and the reply. -/
def act (s : Session) : Action → Session × Reply
  | .new slot domain text =>
    match Expression.read? domain text with
    | .ok e => (s.put slot e, .created e.describe)
    | .error f => (s, .failed f)
  | .ask slot query =>
    match s.get? slot with
    | some e => (s, .answered (e.answer query))
    | none => (s, .noSlot)
  | .equal slot other =>
    match s.get? slot, s.get? other with
    | some e, some f => (s, .compared (e.sameAs f))
    | _, _ => (s, .noSlot)
  | .equalRoot slot other =>
    match s.get? slot, s.get? other with
    | some e, some f => (s, .compared (Expr.sameValue e.root f.root))
    | _, _ => (s, .noSlot)
  | .setSource slot _ =>
    match s.get? slot with
    | some _ => (s, .refused [.ofField "source_text" .frozen])
    | none => (s, .noSlot)
  | .drop slot =>
    match s.get? slot with
    | some _ => (s.erase slot, .dropped)
    | none => (s, .noSlot)

/-- A run of actions: the session after it and the replies in order. -/
def run (s : Session) : List Action → Session × List Reply
  | [] => (s, [])
  | a :: rest =>
    let (s, reply) := s.act a
    let (s, replies) := s.run rest
    (s, reply :: replies)

end Session

end ReversePolish
