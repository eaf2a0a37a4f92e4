import ReversePolish.Proofs.AnswerFields
import ReversePolish.Proofs.Call
import ReversePolish.Proofs.Delivered

set_option autoImplicit false

/-! # The surfaces agree

A text can be handed to the command line, posted to the service, or read as an expression that is
then evaluated. Within the limits each of them comes to one of three verdicts: a value, an error of
syntax or a division by zero. One verdict settles what all of them say about a text, and each says
it in a way that tells the verdict, so none can come to another one than the others. The service
alone fails to say it where an error of syntax is about a ragged token. -/

namespace ReversePolish

open CommandLine Service

/-! ## Definitions -/

/-- What a text comes to. -/
inductive Verdict where
  /-- The value in its canonical text. -/
  | value (text : String)
  | syntaxError (kind : SyntaxError.Kind) (message : String)
  | zeroDivisor (message : String)
deriving DecidableEq, Repr

/-- What the command for the value leaves on its channels, and how it ends. -/
def Verdict.delivery : Verdict → Delivery
  | value text => ⟨text ++ "\n", "", .exit 0⟩
  | syntaxError kind message => ⟨"", SyntaxError.report kind message, .exit 1⟩
  | zeroDivisor message => ⟨"", divisionReport message, .exit 2⟩

/-- The response gives the verdict. -/
def Verdict.ToldBy (r : Response) : Verdict → Prop
  | value text => r.status = 200 ∧ r.text? "display" = some text
  | syntaxError kind message =>
    r.status = 422 ∧ r.text? "kind" = some kind.name ∧ r.text? "detail" = some message
  | zeroDivisor message =>
    r.status = 422 ∧ r.text? "kind" = some divisionByZeroKind ∧ r.text? "detail" = some message

/-- The verdict that reading a text and evaluating the expression comes to. -/
inductive Verdict.Reached (d : Domain) : Text → Verdict → Prop where
  | value {text : String} {e : Expression} {v : Operand}
      (read_eq : Expression.read d text = .ok e) (evaluate_eq : e.evaluate = .ok v) :
      Reached d (.plain text) (.value v.text)
  | syntaxError {text : String} {f : SyntaxError}
      (read_eq : Expression.read d text = .error (.syntaxError f)) :
      Reached d (.plain text) (.syntaxError f.kind f.message)
  | zeroDivisor {text : String} {e : Expression} {a b : Operand}
      (read_eq : Expression.read d text = .ok e)
      (evaluate_eq : e.evaluate = .error (.divisionByZero a b)) :
      Reached d (.plain text) (.zeroDivisor (EvaluationError.divisionByZero a b).message)
  | earlier {t : RaggedText} {f : SyntaxError}
      (failure_eq : t.failure d = .earlier (.syntaxError f)) :
      Reached d (.ragged t) (.syntaxError f.kind f.message)
  | badLiteral {t token : RaggedText} {cause : LiteralError} {position : Nat}
      (failure_eq : t.failure d = .badLiteral cause token position) :
      Reached d (.ragged t)
        (.syntaxError (SyntaxError.kindOfLiteral cause)
          (SyntaxError.messageOfLiteral (SyntaxError.placeOfQuoted token.quoted position) cause))

namespace Text

/-- The number of code points. -/
def length : Text → Nat
  | plain text => text.length
  | ragged t => t.length

/-- Reading stops at an interval with a bound of `n` digits, which are too many to be
    converted. -/
def StopsAtOverlong (d : Domain) (n : Nat) : Text → Prop
  | plain text => ReversePolish.StopsAtOverlong d (some text) n
  | ragged t => t.failure d = .earlier (.tooManyDigits n)

/-- Reading stops at a token with half a pair in it. -/
def StopsAtHalf (d : Domain) (text : Text) : Prop :=
  ∃ t cause token position, text = ragged t ∧ t.failure d = .badLiteral cause token position

end Text

/-- The body orders something over the text in the domain. -/
def Service.Body.Orders (body : Body) (d : Domain) : Text → Prop
  | .plain s => Order.ofBody body = .ok ⟨s, some d⟩
  | .ragged t => Order.ofBody body = .error (.ragged ⟨t, some d⟩)

/-- What a command leaves that is called on a text. The arguments of a run are `String`s; a ragged
    text reaches the command as it is, like anything behind `=`. -/
def CommandLine.runOn (environment : List (String × String)) (file : Option String) (c : Command)
    (d : Domain) (text : Text) (input : String) : Delivery :=
  match text with
  | .plain s => run ⟨environment, file, callOn c d s, input, .utf8⟩
  | .ragged t => invoke environment file (.run c (.value (.ragged t)) (.value d)) input .utf8

/-- The JSON value in a field of a response. -/
def Service.Response.field? (name : String) (r : Response) : Option Json :=
  match r.content with
  | .json v => v.member? name
  | .text _ => none

/-- The commands and the response to an evaluation come to the verdict of reading and evaluating
    the text, and to the same steps. -/
structure SurfacesAgree (d : Domain) (text : Text) (cli : Command → Delivery)
    (api : Response) : Prop where
  exists_reached : ∃ v, Verdict.Reached d text v
  evaluate_iff : ∀ v : Verdict, cli .evaluate = v.delivery ↔ v.Reached d text
  toldBy_iff : ¬ text.StopsAtHalf d → ∀ v : Verdict, v.ToldBy api ↔ v.Reached d text
  /-- This is the one disagreement: the error of syntax is told by the commands alone. -/
  api_eq : text.StopsAtHalf d → api = brokenResponse
  /-- No command does anything with a text that is no expression, and only with such a text they
      end with code 1. -/
  syntaxError_iff : ∀ c kind message,
    cli c = (Verdict.syntaxError kind message).delivery ↔
      (Verdict.syntaxError kind message).Reached d text
  steps_of_value : ∀ value, (Verdict.value value).Reached d text →
    ∃ steps, api.field? "steps" = some (.array (steps.map .string)) ∧
      cli .steps = ⟨stepsText value steps, "", .exit 0⟩
  steps_zeroDivisor_iff : ∀ message,
    cli .steps = (Verdict.zeroDivisor message).delivery ↔
      (Verdict.zeroDivisor message).Reached d text
  /-- The summary is shown for every expression, and it shows a division by zero as the value. -/
  summary_of_read : ∀ s e, text = .plain s → Expression.read d s = .ok e →
    ∃ cell, cli .summary = ⟨summaryText e cell, "", .exit 0⟩ ∧
      (∀ message, cell = "BŁĄD: " ++ message ↔ (Verdict.zeroDivisor message).Reached d text) ∧
      ∀ value, (Verdict.value value).Reached d text →
        cell = value ∨ cell = value ++ " (puste przecięcie)"

/-! ## A verdict is told in one way -/

variable {d : Domain} {text : String} {t : RaggedText} {cli : Command → Delivery} {api : Response}
  {v w : Verdict}

namespace SyntaxError

theorem report_inj {k k' : Kind} {m m' : String} (h : report k m = report k' m') :
    k = k' ∧ m = m' := by
  have hspell : Charset.utf8.spell (report k m).toList = Charset.utf8.spell (report k' m').toList :=
    by rw [h]
  obtain ⟨hkind, hmessage⟩ := spell_report_inj hspell
  rw [Charset.spell_utf8, Charset.spell_utf8] at hmessage
  exact ⟨hkind, String.toList_injective hmessage⟩

theorem Kind.name_ne_divisionByZeroKind (k : Kind) : k.name ≠ divisionByZeroKind := by
  cases k <;> decide

end SyntaxError

theorem CommandLine.divisionReport_inj {m m' : String}
    (h : divisionReport m = divisionReport m') : m = m' :=
  (String.append_right_inj _).1 ((String.append_left_inj _).1 h)

namespace Verdict

theorem delivery_injective : Function.Injective delivery := by
  intro v w h
  obtain ⟨hout, herr, hending⟩ := Delivery.mk.inj h
  cases v with
  | value text =>
    cases w with
    | value text' => rw [(String.append_left_inj _).1 hout]
    | _ => cases hending
  | syntaxError kind message =>
    cases w with
    | syntaxError kind' message' =>
      obtain ⟨rfl, rfl⟩ := SyntaxError.report_inj herr
      rfl
    | _ => cases hending
  | zeroDivisor message =>
    cases w with
    | zeroDivisor message' => rw [divisionReport_inj herr]
    | _ => cases hending

theorem ToldBy.unique (hv : v.ToldBy api) (hw : w.ToldBy api) : v = w := by
  cases v with
  | value text =>
    cases w with
    | value text' => rw [Option.some.inj (hv.2.symm.trans hw.2)]
    | _ => cases hv.1.symm.trans hw.1
  | syntaxError kind message =>
    cases w with
    | value => cases hv.1.symm.trans hw.1
    | syntaxError kind' message' =>
      have hkind := Option.some.inj (hv.2.1.symm.trans hw.2.1)
      rw [SyntaxError.Kind.name_injective hkind, Option.some.inj (hv.2.2.symm.trans hw.2.2)]
    | zeroDivisor =>
      exact absurd (Option.some.inj (hv.2.1.symm.trans hw.2.1)) kind.name_ne_divisionByZeroKind
  | zeroDivisor message =>
    cases w with
    | value => cases hv.1.symm.trans hw.1
    | syntaxError kind =>
      exact absurd (Option.some.inj (hw.2.1.symm.trans hv.2.1)) kind.name_ne_divisionByZeroKind
    | zeroDivisor message' => rw [Option.some.inj (hv.2.2.symm.trans hw.2.2)]

theorem Reached.unique {text : Text} (hv : v.Reached d text) (hw : w.Reached d text) : v = w := by
  cases hv with
  | value read_eq evaluate_eq =>
    cases hw with
    | value read_eq' evaluate_eq' =>
      cases read_eq.symm.trans read_eq'
      cases evaluate_eq.symm.trans evaluate_eq'
      rfl
    | syntaxError read_eq' => cases read_eq.symm.trans read_eq'
    | zeroDivisor read_eq' evaluate_eq' =>
      cases read_eq.symm.trans read_eq'
      cases evaluate_eq.symm.trans evaluate_eq'
  | syntaxError read_eq =>
    cases hw with
    | syntaxError read_eq' =>
      cases read_eq.symm.trans read_eq'
      rfl
    | value read_eq' => cases read_eq.symm.trans read_eq'
    | zeroDivisor read_eq' => cases read_eq.symm.trans read_eq'
  | zeroDivisor read_eq evaluate_eq =>
    cases hw with
    | value read_eq' evaluate_eq' =>
      cases read_eq.symm.trans read_eq'
      cases evaluate_eq.symm.trans evaluate_eq'
    | syntaxError read_eq' => cases read_eq.symm.trans read_eq'
    | zeroDivisor read_eq' evaluate_eq' =>
      cases read_eq.symm.trans read_eq'
      cases evaluate_eq.symm.trans evaluate_eq'
      rfl
  | earlier failure_eq | badLiteral failure_eq =>
    cases hw with
    | earlier failure_eq' | badLiteral failure_eq' =>
      cases failure_eq.symm.trans failure_eq' <;> rfl

end Verdict

/-! ## The value in the summary -/

theorem not_mem_display (t : Trace) : 'Ł' ∉ t.display.toList := by
  intro hmem
  rcases finiteValue?_cases t.value with ⟨-, l, hl⟩ | ⟨-, htext⟩
  · have htext : t.display = l.text := by rw [Trace.display, ← hl, Literal.text]
    rw [htext] at hmem
    exact absurd (Literal.isLiteralChar_of_mem_text hmem) (by decide)
  · rw [Trace.display] at hmem
    simp only [nonFiniteTexts, List.mem_cons, List.not_mem_nil, or_false] at htext
    rcases htext with htext | htext | htext
    all_goals
      rw [htext] at hmem
      exact absurd hmem (by decide)

/-- A value is never shown as an error is. -/
theorem shownValue_ne (t : Trace) (message : String) : shownValue t ≠ "BŁĄD: " ++ message := by
  intro h
  have hmem : 'Ł' ∈ (shownValue t).toList := by
    rw [h, String.toList_append]
    exact List.mem_append_left _ (by decide)
  unfold shownValue at hmem
  split at hmem
  · rw [String.toList_append] at hmem
    rcases List.mem_append.1 hmem with hmem | hmem
    · exact not_mem_display t hmem
    · exact absurd hmem (by decide)
  · exact not_mem_display t hmem

/-! ## One verdict settles everything -/

/-- What the commands and the response come to when the verdict is reached. -/
inductive Settled (d : Domain) (text : String) (cli : Command → Delivery) (api : Response) :
    Verdict → Prop where
  | value {e : Expression} {t : Trace} (read_eq : Expression.read d text = .ok e)
      (evaluate_eq : e.evaluate = .ok t.value)
      (api_eq : api = ⟨200, .json (evaluationJson (.of ⟨e.domain, t⟩))⟩)
      (evaluate_cli : cli .evaluate = (Verdict.value t.display).delivery)
      (steps_cli : cli .steps = ⟨stepsText t.display t.lines, "", .exit 0⟩)
      (summary_cli : cli .summary = ⟨summaryText e (shownValue t), "", .exit 0⟩)
      (ending_ne : ∀ c, (cli c).ending ≠ .exit 1) : Settled d text cli api (.value t.display)
  | syntaxError {f : SyntaxError} (read_eq : Expression.read d text = .error (.syntaxError f))
      (api_eq : api = syntaxResponse f)
      (cli_eq : ∀ c, cli c = (Verdict.syntaxError f.kind f.message).delivery) :
      Settled d text cli api (.syntaxError f.kind f.message)
  | zeroDivisor {e : Expression} {a b : Operand} (read_eq : Expression.read d text = .ok e)
      (evaluate_eq : e.evaluate = .error (.divisionByZero a b))
      (api_eq : api = divisionResponse a b)
      (trace_cli : ∀ c, c = .evaluate ∨ c = .steps →
        cli c = (Verdict.zeroDivisor (EvaluationError.divisionByZero a b).message).delivery)
      (summary_cli : cli .summary =
        ⟨summaryText e ("BŁĄD: " ++ (EvaluationError.divisionByZero a b).message), "", .exit 0⟩)
      (ending_ne : ∀ c, (cli c).ending ≠ .exit 1) :
      Settled d text cli api (.zeroDivisor (EvaluationError.divisionByZero a b).message)

namespace Settled

theorem reached (h : Settled d text cli api v) : v.Reached d (.plain text) := by
  cases h with
  | value read_eq evaluate_eq => exact .value read_eq evaluate_eq
  | syntaxError read_eq => exact .syntaxError read_eq
  | zeroDivisor read_eq evaluate_eq => exact .zeroDivisor read_eq evaluate_eq

theorem toldBy (h : Settled d text cli api v) : v.ToldBy api := by
  cases h with
  | value _ _ api_eq => exact ⟨by rw [api_eq], by rw [api_eq]; rfl⟩
  | syntaxError _ api_eq => exact ⟨by rw [api_eq]; rfl, by rw [api_eq]; rfl, by rw [api_eq]; rfl⟩
  | zeroDivisor _ _ api_eq =>
    exact ⟨by rw [api_eq]; rfl, by rw [api_eq]; rfl, by rw [api_eq]; rfl⟩

theorem evaluate_eq (h : Settled d text cli api v) : cli .evaluate = v.delivery := by
  cases h with
  | value _ _ _ evaluate_cli => exact evaluate_cli
  | syntaxError _ _ cli_eq => exact cli_eq .evaluate
  | zeroDivisor _ _ _ trace_cli => exact trace_cli .evaluate (.inl rfl)

/-- A verdict is reached exactly where it is the one that settles. -/
theorem reached_iff (h : Settled d text cli api v) : w.Reached d (.plain text) ↔ v = w :=
  ⟨fun hw => h.reached.unique hw, fun hvw => hvw ▸ h.reached⟩

theorem syntaxError_iff (h : Settled d text cli api v) (c : Command) (kind : SyntaxError.Kind)
    (message : String) :
    cli c = (Verdict.syntaxError kind message).delivery ↔
      (Verdict.syntaxError kind message).Reached d (.plain text) := by
  rw [h.reached_iff]
  cases h with
  | value _ _ _ _ _ _ ending_ne =>
    exact iff_of_false (fun hc => ending_ne c (congrArg Delivery.ending hc)) Verdict.noConfusion
  | zeroDivisor _ _ _ _ _ ending_ne =>
    exact iff_of_false (fun hc => ending_ne c (congrArg Delivery.ending hc)) Verdict.noConfusion
  | syntaxError _ _ cli_eq =>
    rw [cli_eq]
    exact Verdict.delivery_injective.eq_iff

theorem steps_zeroDivisor_iff (h : Settled d text cli api v) (message : String) :
    cli .steps = (Verdict.zeroDivisor message).delivery ↔
      (Verdict.zeroDivisor message).Reached d (.plain text) := by
  rw [h.reached_iff]
  cases h with
  | value _ _ _ _ steps_cli =>
    rw [steps_cli]
    exact iff_of_false (fun hc => by cases congrArg Delivery.ending hc) Verdict.noConfusion
  | syntaxError _ _ cli_eq =>
    rw [cli_eq]
    exact Verdict.delivery_injective.eq_iff
  | zeroDivisor _ _ _ trace_cli =>
    rw [trace_cli .steps (.inr rfl)]
    exact Verdict.delivery_injective.eq_iff

theorem steps_of_value (h : Settled d text cli api v) {value : String} (hv : v = .value value) :
    ∃ steps, api.field? "steps" = some (.array (steps.map .string)) ∧
      cli .steps = ⟨stepsText value steps, "", .exit 0⟩ := by
  cases h with
  | @value e t _ _ api_eq _ steps_cli =>
    cases hv
    exact ⟨t.lines, by rw [api_eq]; rfl, steps_cli⟩
  | syntaxError => cases hv
  | zeroDivisor => cases hv

theorem summary_of_read (h : Settled d text cli api v) {e : Expression}
    (hread : Expression.read d text = .ok e) :
    ∃ cell, cli .summary = ⟨summaryText e cell, "", .exit 0⟩ ∧
      (∀ message, cell = "BŁĄD: " ++ message ↔ v = .zeroDivisor message) ∧
      ∀ value, v = .value value → cell = value ∨ cell = value ++ " (puste przecięcie)" := by
  cases h with
  | @value _ t read_eq _ _ _ _ summary_cli =>
    cases read_eq.symm.trans hread
    refine ⟨shownValue t, summary_cli, fun message => ?_, fun value hv => ?_⟩
    · exact iff_of_false (shownValue_ne t message) Verdict.noConfusion
    · cases hv
      unfold shownValue
      split
      · exact .inr rfl
      · exact .inl rfl
  | syntaxError read_eq => cases read_eq.symm.trans hread
  | @zeroDivisor _ a b read_eq _ _ _ summary_cli =>
    cases read_eq.symm.trans hread
    refine ⟨_, summary_cli, fun message => ?_, fun value hv => by cases hv⟩
    rw [String.append_right_inj, Verdict.zeroDivisor.injEq]

theorem surfacesAgree (h : Settled d text cli api v) : SurfacesAgree d (.plain text) cli api where
  exists_reached := ⟨v, h.reached⟩
  evaluate_iff w := by rw [h.evaluate_eq, h.reached_iff, Verdict.delivery_injective.eq_iff]
  toldBy_iff _ w := by
    rw [h.reached_iff]
    exact ⟨fun hw => h.toldBy.unique hw, fun hvw => hvw ▸ h.toldBy⟩
  api_eq := by
    rintro ⟨t, cause, token, position, htext, -⟩
    cases htext
  syntaxError_iff := h.syntaxError_iff
  steps_of_value value hvalue := h.steps_of_value (h.reached_iff.1 hvalue)
  steps_zeroDivisor_iff := h.steps_zeroDivisor_iff
  summary_of_read s e htext he := by
    cases htext
    simp only [h.reached_iff]
    exact h.summary_of_read he

end Settled

/-- Over a ragged text all commands tell the one error of syntax, and so does the response unless
    reading stops at a token with half a pair in it. -/
theorem surfacesAgree_of_ragged {kind : SyntaxError.Kind} {message : String}
    (hreached : (Verdict.syntaxError kind message).Reached d (.ragged t))
    (hcli : ∀ c, cli c = (Verdict.syntaxError kind message).delivery)
    (htold : ¬ Text.StopsAtHalf d (.ragged t) → (Verdict.syntaxError kind message).ToldBy api)
    (hbroken : Text.StopsAtHalf d (.ragged t) → api = brokenResponse) :
    SurfacesAgree d (.ragged t) cli api := by
  have hiff : ∀ w : Verdict, w.Reached d (.ragged t) ↔ Verdict.syntaxError kind message = w :=
    fun w => ⟨hreached.unique, fun hw => hw ▸ hreached⟩
  have hdelivery : ∀ c (w : Verdict), cli c = w.delivery ↔ w.Reached d (.ragged t) := by
    intro c w
    rw [hcli, hiff, Verdict.delivery_injective.eq_iff]
  exact {
    exists_reached := ⟨_, hreached⟩
    evaluate_iff := hdelivery .evaluate
    toldBy_iff := fun hnot w => by
      rw [hiff]
      exact ⟨(htold hnot).unique, fun hw => hw ▸ htold hnot⟩
    api_eq := hbroken
    syntaxError_iff := fun c k m => hdelivery c (.syntaxError k m)
    steps_of_value := fun value hvalue => by cases (hiff _).1 hvalue
    steps_zeroDivisor_iff := fun m => hdelivery .steps (.zeroDivisor m)
    summary_of_read := fun s e htext => by cases htext }

/-! ## The verdict of a text -/

theorem Expression.evaluate_eq_map_trace {e : Expression} (h : e.root.height ≤ maxDepth) :
    e.evaluate = e.trace.map Trace.value := by
  rw [evaluate_eq h, Expr.value_eq_map_trace, trace, Draft.trace_draft h]

section Quiet

variable {level : LogLevel} (hcli : ∀ c, cli c = (reportText level .utf8 c d text).deliver .utf8)
  (hquiet : level.showsDebug = false)

include hcli hquiet

theorem deliver_of_read {e : Expression} (hread : Expression.read d text = .ok e) (c : Command) :
    cli c = (reportCommand level .utf8 e c).deliver .utf8 ∧ (cli c).ending ≠ .exit 1 := by
  rw [hcli]
  exact ⟨deliver_reportText_of_quiet hquiet hread, ending_deliver_reportText hread⟩

theorem settled_value {e : Expression} {r : Evaluation}
    (hread : Expression.read d text = .ok e) (hheight : e.root.height ≤ maxDepth)
    (hevaluation : e.evaluation = .ok r)
    (hapi : api = ⟨200, .json (evaluationJson (.of r))⟩) :
    Settled d text cli api (.value r.trace.display) := by
  obtain ⟨t, ht, hr⟩ := bind_eq_ok_iff.1 hevaluation
  cases hr
  have hcommand := deliver_of_read hcli hquiet hread
  refine .value hread ?_ hapi ?_ ?_ ?_ fun c => (hcommand c).2
  · rw [Expression.evaluate_eq_map_trace hheight, ht]
    rfl
  · rw [(hcommand _).1, reportCommand, reportTrace, ht]
    exact deliver_line t.display
  · rw [(hcommand _).1, reportCommand, reportTrace, ht]
    exact deliver_stepWrites t
  · rw [(hcommand _).1, reportCommand, deliver_reportSummary hquiet hheight (.inl ⟨t, ht⟩), ht]
    rfl

theorem settled_zeroDivisor {e : Expression} {a b : Operand}
    (hread : Expression.read d text = .ok e) (hheight : e.root.height ≤ maxDepth)
    (hevaluation : e.evaluation = .error (.divisionByZero a b))
    (hapi : api = divisionResponse a b) :
    Settled d text cli api (.zeroDivisor (EvaluationError.divisionByZero a b).message) := by
  have ht : e.trace = .error (.divisionByZero a b) := by
    rw [Expression.evaluation] at hevaluation
    cases htrace : e.trace with
    | ok t =>
      rw [htrace] at hevaluation
      cases hevaluation
    | error f =>
      rw [htrace, error_bind] at hevaluation
      rw [Except.error.inj hevaluation]
  have hcommand := deliver_of_read hcli hquiet hread
  refine .zeroDivisor hread ?_ hapi ?_ ?_ fun c => (hcommand c).2
  · rw [Expression.evaluate_eq_map_trace hheight, ht]
    rfl
  · rintro c (rfl | rfl)
    all_goals
      rw [(hcommand _).1, reportCommand]
      exact deliver_reportTrace_of_division hquiet ht _
  · rw [(hcommand _).1, reportCommand, deliver_reportSummary hquiet hheight (.inr ⟨a, b, ht⟩), ht]
    rfl

/-- Within the limits every text has a verdict that settles everything. -/
theorem exists_settled {settings : Settings} {body : Body}
    (hbody : Order.ofBody body = .ok ⟨text, some d⟩)
    (hfits : (text.length : Int) ≤ settings.maxExpressionLength)
    (hshort : ∀ n, ¬ StopsAtOverlong d (some text) n)
    (hheight : ∀ e, Expression.read d text = .ok e → e.root.height ≤ maxDepth) :
    ∃ v, Settled d text cli (post settings .evaluate body) v := by
  obtain ⟨p, q, hanswered⟩ := Order.exists_answered settings ⟨text, some d⟩
  have hapi := ((answered_iff hbody).1 hanswered).1
  cases hanswered with
  | tooLong not_fits => exact absurd hfits not_fits
  | @syntaxError f _ read_eq =>
    have hread : Expression.read d text = .error (.syntaxError f) := read_eq
    refine ⟨_, .syntaxError hread hapi fun c => ?_⟩
    rw [hcli, deliver_reportText_of_syntaxError hread, spellOut_utf8]
    rfl
  | @broken n _ stops => exact absurd stops (hshort n)
  | value _ read_eq height_le evaluation_eq =>
    exact ⟨_, settled_value hcli hquiet read_eq height_le evaluation_eq hapi⟩
  | zeroDivisor _ read_eq height_le evaluation_eq =>
    exact ⟨_, settled_zeroDivisor hcli hquiet read_eq height_le evaluation_eq hapi⟩
  | zeroDivisorInDepth _ read_eq lt_height =>
    exact absurd (hheight _ read_eq) (Nat.not_le.2 lt_height)
  | tooDeep _ read_eq lt_height => exact absurd (hheight _ read_eq) (Nat.not_le.2 lt_height)

end Quiet

/-! ## Ragged texts -/

theorem deliver_reportSyntax (kind : SyntaxError.Kind) (message : String) :
    (reportSyntax kind message).deliver .utf8 = (Verdict.syntaxError kind message).delivery := by
  rw [reportSyntax, Report.deliver, deliverWrites_utf8]
  simp only [List.map_cons, List.map_nil, String.join_cons, String.join_nil, Write.outText,
    Write.errText, String.append_empty]
  rfl

theorem surfacesAgree_ragged {settings : Settings} {body : Body}
    (hcli : ∀ c, cli c = (reportRagged d t).deliver .utf8)
    (hbody : Order.ofBody body = .error (.ragged ⟨t, some d⟩))
    (hfits : (t.length : Int) ≤ settings.maxExpressionLength)
    (hshort : ∀ n, t.failure d ≠ .earlier (.tooManyDigits n)) :
    SurfacesAgree d (.ragged t) cli (post settings .evaluate body) := by
  have hanswered : ∀ {p}, RaggedOrder.Answered settings ⟨t, some d⟩ p →
      post settings .evaluate body = p := fun h =>
    (post_ragged hbody).1.trans (RaggedOrder.answered_iff.1 h)
  cases hfailure : t.failure d with
  | earlier f =>
    cases f with
    | syntaxError f =>
      have hapi : post settings .evaluate body = syntaxResponse f :=
        hanswered (.syntaxError hfits hfailure)
      refine surfacesAgree_of_ragged (.earlier hfailure) (fun c => ?_) (fun _ => ?_) ?_
      · rw [hcli, reportRagged, hfailure]
        exact deliver_reportSyntax f.kind f.message
      · rw [hapi]
        exact ⟨rfl, rfl, rfl⟩
      · rintro ⟨t', cause, token, position, htext, hhalf⟩
        cases htext
        cases hfailure.symm.trans hhalf
    | tooManyDigits n => exact absurd hfailure (hshort n)
  | badLiteral cause token position =>
    refine surfacesAgree_of_ragged (.badLiteral hfailure) (fun c => ?_) (fun hnot => ?_) fun _ => ?_
    · rw [hcli, reportRagged, hfailure]
      exact deliver_reportSyntax _ _
    · exact absurd ⟨t, cause, token, position, rfl, hfailure⟩ hnot
    · exact hanswered (.unsendable hfits hfailure)

/-! ## Every text -/

/-- Under settings that show no remarks, the command line, the service and the library agree on
    every text that the service takes, that has no bound too long to be converted, and whose tree
    walks can follow; only the service breaks off where reading stops at a token with half a pair
    in it. -/
theorem surfaces_agree {environment : List (String × String)} {file : Option String}
    {settings : Settings} {level : LogLevel} {body : Body} {d : Domain} {text : Text}
    (hsettings : Settings.read environment file = .ok settings)
    (hlevel : LogLevel.ofName? settings.logLevel = some level)
    (hquiet : level.showsDebug = false) (hbody : body.Orders d text)
    (hmarker : text ≠ .plain Argument.markerText)
    (hfits : (text.length : Int) ≤ settings.maxExpressionLength)
    (hshort : ∀ n, ¬ text.StopsAtOverlong d n)
    (hheight : ∀ s e, text = .plain s → Expression.read d s = .ok e → e.root.height ≤ maxDepth)
    (input : String) :
    SurfacesAgree d text (fun c => runOn environment file c d text input)
      (post settings .evaluate body) := by
  cases text with
  | plain s =>
    have hcli : ∀ c, runOn environment file c d (.plain s) input =
        (reportText level .utf8 c d s).deliver .utf8 := fun c =>
      run_callOn hsettings hlevel (fun hs => hmarker (congrArg Text.plain hs)) input .utf8
    obtain ⟨v, hv⟩ := exists_settled hcli hquiet hbody hfits hshort fun e => hheight s e rfl
    exact hv.surfacesAgree
  | ragged t =>
    have hcli : ∀ c, runOn environment file c d (.ragged t) input =
        (reportRagged d t).deliver .utf8 := fun c => invoke_on hsettings hlevel (.ragged t) input _
    exact surfacesAgree_ragged hcli hbody hfits hshort

/-- They agree on a product under the settings where nothing is set. -/
theorem surfaces_agree_product :
    let body : Body :=
      .json (.object [("text", .string "1 2 + 3 *"), ("domain", .string "arithmetic")])
    Order.ofBody body = .ok ⟨"1 2 + 3 *", some .arithmetic⟩ ∧
      (Verdict.value "9.0").Reached .arithmetic (.plain "1 2 + 3 *") ∧
      SurfacesAgree .arithmetic (.plain "1 2 + 3 *")
        (fun c => run ⟨[], none, callOn c .arithmetic "1 2 + 3 *", "", .utf8⟩)
        (post .default .evaluate body) := by
  intro body
  have hbody : Order.ofBody body = .ok ⟨"1 2 + 3 *", some .arithmetic⟩ := by decide +kernel
  have horders : body.Orders .arithmetic (.plain "1 2 + 3 *") := hbody
  have hheight : ∀ s e, Text.plain "1 2 + 3 *" = .plain s → Expression.read .arithmetic s = .ok e →
      e.root.height ≤ maxDepth := by
    rintro _ e ⟨rfl⟩ he
    have hthree : (Expression.read .arithmetic "1 2 + 3 *").map (·.root.height) = .ok 3 := by
      decide +kernel
    rw [he] at hthree
    have hroot : e.root.height = 3 := Except.ok.inj hthree
    rw [hroot]
    decide
  have hsettings : Settings.read [] none = .ok .default := by decide +kernel
  have hlevel : LogLevel.ofName? Settings.default.logLevel = some .info := by decide +kernel
  have hshort : ∀ n, ¬ Text.StopsAtOverlong .arithmetic n (.plain "1 2 + 3 *") := fun _ hn =>
    Domain.noConfusion hn.1
  have hagree : SurfacesAgree .arithmetic (.plain "1 2 + 3 *")
      (fun c => run ⟨[], none, callOn c .arithmetic "1 2 + 3 *", "", .utf8⟩)
      (post .default .evaluate body) :=
    surfaces_agree hsettings hlevel rfl horders (by decide) (by decide) hshort hheight ""
  have htold : (Verdict.value "9.0").ToldBy (post .default .evaluate body) :=
    ⟨by decide +kernel, by decide +kernel⟩
  have hplain : ¬ Text.StopsAtHalf .arithmetic (.plain "1 2 + 3 *") := by
    rintro ⟨t, cause, token, position, htext, -⟩
    cases htext
  exact ⟨hbody, (hagree.toldBy_iff hplain _).1 htold, hagree⟩

/-- They disagree on a text that is one half of a pair: the library and the command line find no
    number in it, and the service breaks off. -/
theorem surfaces_disagree_on_half :
    let body : Body :=
      .text "\x7b\"text\":\"\\ud800\",\"domain\":\"arithmetic\"\x7d"
    let half : RaggedText := ⟨[], ⟨0xd800, by decide, by decide⟩, []⟩
    let verdict : Verdict := .syntaxError .invalidToken "Invalid token at position 0: '\\ud800'"
    body.Orders .arithmetic (.ragged half) ∧ verdict.Reached .arithmetic (.ragged half) ∧
      runOn [] none .evaluate .arithmetic (.ragged half) "" = verdict.delivery ∧
      post .default .evaluate body = brokenResponse ∧
      ¬ verdict.ToldBy (post .default .evaluate body) := by
  intro body half verdict
  have hbody : Order.ofBody body = .error (.ragged ⟨half, some .arithmetic⟩) := by decide +kernel
  have hfailure : half.failure .arithmetic = .badLiteral .notANumber half 0 := by decide +kernel
  have hmessage : SyntaxError.messageOfLiteral (SyntaxError.placeOfQuoted half.quoted 0)
      .notANumber = "Invalid token at position 0: '\\ud800'" := by decide +kernel
  have hreached : verdict.Reached .arithmetic (.ragged half) := by
    have h := Verdict.Reached.badLiteral hfailure
    rw [hmessage] at h
    exact h
  have hanswer : post .default .evaluate body = brokenResponse :=
    (post_ragged hbody).1.trans (RaggedOrder.answered_iff.1 (.unsendable (by decide) hfailure))
  refine ⟨hbody, hreached, by decide +kernel, hanswer, fun htold => ?_⟩
  rw [hanswer] at htold
  cases htold.1

end ReversePolish
