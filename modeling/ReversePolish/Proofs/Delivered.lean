import ReversePolish.CommandLine.Run
import ReversePolish.Proofs.ErrorText
import ReversePolish.Proofs.Overflow

set_option autoImplicit false

/-! # What is delivered

A run ends as its report says unless a character cannot be carried, and only a text that is no
expression ends it with code 1; so the report of an error of syntax is known for one wherever it
is delivered. Channels that can carry every character deliver all writes: standard output and
standard error each get their texts in order. What a command leaves on them can be told from the
trace of the expression, and at a level without remarks there is nothing else. -/

namespace ReversePolish

namespace CommandLine

variable {set : Charset} {level : LogLevel} {d : Domain} {c : Command} {text : String}
  {e : Expression}

/-! ## Definitions -/

/-- What a write has for standard output. -/
def Write.outText : Write → String
  | out text | table text => text
  | err _ => ""

/-- What a write has for standard error. -/
def Write.errText : Write → String
  | out _ | table _ => ""
  | err text => text

/-- The steps as they are shown, numbered from one, or the value where there are none. -/
def stepsText (value : String) : List String → String
  | [] => "  (brak operatorów) = " ++ value ++ "\n"
  | steps =>
    String.join (steps.mapIdx fun i step => "  [" ++ Decimal.natText (i + 1) ++ "] " ++ step ++ "\n")

theorem stepsText_nil (value : String) :
    stepsText value [] = "  (brak operatorów) = " ++ value ++ "\n" := rfl

theorem stepsText_cons (value step : String) (rest : List String) :
    stepsText value (step :: rest) =
      String.join ((step :: rest).mapIdx fun i step =>
        "  [" ++ Decimal.natText (i + 1) ++ "] " ++ step ++ "\n") := rfl

/-- The report of a division by zero. -/
def divisionReport (message : String) : String :=
  "Błąd obliczeń [" ++ divisionByZeroKind ++ "]: " ++ message ++ "\n"

/-- The value of a table as the outcome of an evaluation gives it. -/
def valueCell : Except EvaluationError Trace → String
  | .ok t => shownValue t
  | .error f => "BŁĄD: " ++ f.message

/-- The table of an expression within the limit, and its diagram. -/
def summaryText (e : Expression) (value : String) : String :=
  (summaryTable .utf8 e value (Expr.labels e.root).rendering
      ⟨e.root.height, e.root.leafCount, e.root.operatorCount⟩).text ++
    ((Expr.labels e.root).rendering.diagram ++ "\n")

/-! ## Endings -/

/-- A report ends as it says, unless a character cannot be carried. -/
theorem ending_deliverWrites (set : Charset) (ending : Ending) (writes : List Write) :
    (deliverWrites set ending writes).ending = ending ∨
      ∃ f, (deliverWrites set ending writes).ending = .failure f := by
  have hout : ∀ (d : Delivery) (inTable : Bool) (text : String),
      (d.ending = ending ∨ ∃ f, d.ending = .failure f) →
        (d.writeOut set inTable text).ending = ending ∨
          ∃ f, (d.writeOut set inTable text).ending = .failure f := by
    intro d inTable text h
    unfold Delivery.writeOut
    split
    · exact h
    · exact .inr ⟨_, rfl⟩
  induction writes with
  | nil => exact .inl rfl
  | cons w ws ih =>
    cases w with
    | out text => exact hout _ _ _ ih
    | table text => exact hout _ _ _ ih
    | err text => exact ih

/-- A command on an expression does not end with the code for a text that is none. -/
theorem ending_reportCommand (level : LogLevel) (set : Charset) (e : Expression) (c : Command) :
    (reportCommand level set e c).ending ≠ .exit 1 := by
  have htrace : ∀ present, (reportTrace level e present).ending ≠ .exit 1 := by
    intro present
    unfold reportTrace
    split <;> simp [Report.failing]
  have hform : ∀ form, (reportForm form).ending ≠ .exit 1 := by
    intro form
    cases form <;> simp [reportForm, Report.failing]
  cases c with
  | evaluate => exact htrace _
  | steps => exact htrace _
  | infixForm => exact hform _
  | prefixForm => exact hform _
  | diagram => exact hform _
  | summary =>
    simp only [reportCommand, reportSummary]
    split
    · simp [Report.failing]
    · simp [Report.failing]
    · split <;> simp [Report.failing, Report.after, reportTable]

/-! ## Texts -/

theorem reportText_of_ok {e : Expression} (h : Expression.read d text = .ok e) :
    reportText level set c d text =
      (reportCommand level set e c).after (readingRemark level d text) := by
  rw [reportText, h]

theorem reportText_of_syntaxError {f : SyntaxError}
    (h : Expression.read d text = .error (.syntaxError f)) :
    reportText level set c d text = ⟨[.err (SyntaxError.report f.kind f.message)], .exit 1⟩ := by
  rw [reportText, h]
  rfl

theorem deliver_reportText_of_syntaxError {f : SyntaxError}
    (h : Expression.read d text = .error (.syntaxError f)) :
    (reportText level set c d text).deliver set =
      ⟨"", set.spellOut (SyntaxError.report f.kind f.message), .exit 1⟩ := by
  rw [reportText_of_syntaxError h]
  simp only [Report.deliver, deliverWrites, String.append_empty]

theorem ending_deliver_reportText {e : Expression} (h : Expression.read d text = .ok e) :
    ((reportText level set c d text).deliver set).ending ≠ .exit 1 := by
  rw [reportText_of_ok h]
  intro hending
  rcases ending_deliverWrites set (reportCommand level set e c).ending
    (readingRemark level d text ++ (reportCommand level set e c).writes) with hsame | ⟨g, hg⟩
  · exact ending_reportCommand level set e c (hsame.symm.trans hending)
  · cases hg.symm.trans hending

/-- An error of syntax is delivered in one way only, so what is delivered tells it. -/
theorem read_of_deliver_reportText {f : SyntaxError}
    (h : (reportText level set c d text).deliver set =
      ⟨"", set.spellOut (SyntaxError.report f.kind f.message), .exit 1⟩) :
    Expression.read d text = .error (.syntaxError f) := by
  cases hread : Expression.read d text with
  | ok e => exact absurd (congrArg Delivery.ending h) (ending_deliver_reportText hread)
  | error g =>
    cases g with
    | syntaxError g =>
      rw [deliver_reportText_of_syntaxError hread] at h
      obtain ⟨-, herr, -⟩ := Delivery.mk.inj h
      rw [SyntaxError.eq_of_spellOut_report herr]
    | tooManyDigits n =>
      rw [reportText, hread] at h
      cases congrArg Delivery.ending h

/-! ## Channels that carry everything -/

theorem hasAll_utf8 (text : String) : Charset.utf8.hasAll text = true :=
  List.all_eq_true.2 fun _ _ => rfl

theorem spellOut_utf8 (text : String) : Charset.utf8.spellOut text = text :=
  String.toList_injective ((Charset.toList_spellOut text).trans (Charset.spell_utf8 _))

theorem deliverWrites_utf8 (ending : Ending) (writes : List Write) :
    deliverWrites .utf8 ending writes =
      ⟨String.join (writes.map Write.outText), String.join (writes.map Write.errText), ending⟩ := by
  induction writes with
  | nil => rfl
  | cons w ws ih =>
    cases w with
    | out text | table text =>
      rw [deliverWrites, ih, Delivery.writeOut_of_hasAll _ _ (hasAll_utf8 text)]
      simp only [List.map_cons, String.join_cons, Write.outText, Write.errText, String.empty_append]
    | err text =>
      rw [deliverWrites, ih, spellOut_utf8]
      simp only [List.map_cons, String.join_cons, Write.outText, Write.errText, String.empty_append]

/-! ## Commands -/

theorem remark_of_quiet (h : level.showsDebug = false) (origin text : String) :
    remark level origin text = [] :=
  if_neg (by rw [h]; decide)

theorem deliver_reportText_of_quiet (hquiet : level.showsDebug = false)
    (h : Expression.read d text = .ok e) :
    (reportText level set c d text).deliver set = (reportCommand level set e c).deliver set := by
  rw [reportText_of_ok h, readingRemark, remark_of_quiet hquiet]
  rfl

theorem deliver_line (text : String) :
    Report.deliver .utf8 ⟨[line text], .exit 0⟩ = ⟨text ++ "\n", "", .exit 0⟩ := by
  rw [Report.deliver, deliverWrites_utf8]
  simp only [line, List.map_cons, List.map_nil, String.join_cons, String.join_nil, Write.outText,
    Write.errText, String.append_empty]

theorem join_numberedSteps (n : Nat) (steps : List String) :
    String.join ((numberedSteps n steps).map Write.outText) =
        String.join (steps.mapIdx fun i step =>
          "  [" ++ Decimal.natText (n + i) ++ "] " ++ step ++ "\n") ∧
      String.join ((numberedSteps n steps).map Write.errText) = "" := by
  induction steps generalizing n with
  | nil => exact ⟨rfl, rfl⟩
  | cons step rest ih =>
    obtain ⟨hout, herr⟩ := ih (n + 1)
    simp only [numberedSteps, line, List.map_cons, List.mapIdx_cons, String.join_cons,
      Write.outText, Write.errText, hout, herr, Nat.add_zero, Nat.add_assoc, Nat.add_comm 1,
      String.empty_append, and_self]

theorem deliver_stepWrites (t : Trace) :
    Report.deliver .utf8 ⟨stepWrites t, .exit 0⟩ =
      ⟨stepsText t.display t.lines, "", .exit 0⟩ := by
  unfold stepWrites
  cases t.lines with
  | nil =>
    dsimp only
    rw [deliver_line, stepsText_nil]
  | cons step rest =>
    obtain ⟨hout, herr⟩ := join_numberedSteps 1 (step :: rest)
    dsimp only
    rw [Report.deliver, deliverWrites_utf8, hout, herr]
    rw [stepsText_cons]
    simp only [Nat.add_comm 1]

theorem deliver_reportTrace_of_division {a b : Operand} (hquiet : level.showsDebug = false)
    (h : e.trace = .error (.divisionByZero a b)) (present : Trace → List Write) :
    (reportTrace level e present).deliver .utf8 =
      ⟨"", divisionReport (EvaluationError.divisionByZero a b).message, .exit 2⟩ := by
  rw [reportTrace, h]
  simp only [divisionRemark, remark_of_quiet hquiet, List.nil_append]
  rw [Report.deliver, deliverWrites_utf8]
  simp only [List.map_cons, List.map_nil, String.join_cons, String.join_nil, Write.outText,
    Write.errText, String.append_empty]
  rfl

theorem deliver_reportTable (e : Expression) (value : String) (r : Rendering) (s : Stats) :
    (reportTable .utf8 e value r s).deliver .utf8 =
      ⟨(summaryTable .utf8 e value r s).text ++ (r.diagram ++ "\n"), "", .exit 0⟩ := by
  rw [reportTable, Report.deliver, deliverWrites_utf8]
  simp only [line, List.map_cons, List.map_nil, String.join_cons, String.join_nil, Write.outText,
    Write.errText, String.append_empty]

/-- Within the limit the summary is shown whether there is a value or not. -/
theorem deliver_reportSummary (hquiet : level.showsDebug = false)
    (hheight : e.root.height ≤ maxDepth)
    (h : (∃ t, e.trace = .ok t) ∨ ∃ a b, e.trace = .error (.divisionByZero a b)) :
    (reportSummary level .utf8 e).deliver .utf8 =
      ⟨summaryText e (valueCell e.trace), "", .exit 0⟩ := by
  rw [reportSummary, Expression.render_of_le hheight, Expression.stats?_of_le hheight]
  rcases h with ⟨t, ht⟩ | ⟨a, b, ht⟩
  · rw [ht]
    exact deliver_reportTable _ _ _ _
  · rw [ht]
    simp only [divisionRemark, remark_of_quiet hquiet]
    exact deliver_reportTable _ _ _ _

end CommandLine

end ReversePolish
