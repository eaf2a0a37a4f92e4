import ReversePolish.Proofs.Attempt
import ReversePolish.Proofs.Overflow
import ReversePolish.Service.Respond

set_option autoImplicit false

/-! # How an order is answered

An order can be posted for an evaluation or for a rendering, and both answers follow one pipeline:
the length of the text is looked at first, then the text is read, and only an expression is walked
over. So the two answers are the same refusal or both come from one expression, and then the
rendering can only fail for the height of the tree, while the evaluation may also divide by
zero. A ragged text is never an expression, and where it is the token with a half that is refused,
the refusal cannot be sent. -/

namespace ReversePolish

namespace Service

/-! ## Definitions -/

/-- The response to a body that is posted to a route. -/
def post (s : Settings) (route : Route) (body : Body) : Response :=
  respond s ⟨"POST", route.path, body⟩

/-- The domain that an order is read in: its own, or else that of the settings. -/
def Order.domainUnder (s : Settings) (o : Order) : Domain :=
  o.domain.getD s.defaultDomain

/-- The text of an order has no more characters than the limit. -/
def Order.Fits (s : Settings) (o : Order) : Prop :=
  (o.text.length : Int) ≤ s.maxExpressionLength

instance (s : Settings) (o : Order) : Decidable (o.Fits s) :=
  inferInstanceAs (Decidable ((o.text.length : Int) ≤ s.maxExpressionLength))

/-- The domain that an order over a ragged text is read in. -/
def RaggedOrder.domainUnder (s : Settings) (o : RaggedOrder) : Domain :=
  o.domain.getD s.defaultDomain

/-- The text of the order has no more code points than the limit. -/
def RaggedOrder.Fits (s : Settings) (o : RaggedOrder) : Prop :=
  (o.text.length : Int) ≤ s.maxExpressionLength

instance (s : Settings) (o : RaggedOrder) : Decidable (o.Fits s) :=
  inferInstanceAs (Decidable ((o.text.length : Int) ≤ s.maxExpressionLength))

/-- The body holds a text of either sort and may hold a domain. -/
def Body.Validates (body : Body) : Prop :=
  (∃ o, Order.ofBody body = .ok o) ∨ ∃ o, Order.ofBody body = .error (.ragged o)

/-- The response to a text that is too long. -/
def lengthResponse (limit : Int) : Response :=
  .detail 413 (.string ("Expression longer than " ++ Decimal.intText limit ++ " characters")) []

/-- The response to an error of syntax. -/
def syntaxResponse (f : SyntaxError) : Response :=
  .detail 422 (.string f.message)
    [("kind", .string f.kind.name), ("token", .ofOption .string f.token?),
      ("position", .ofOption (fun n => .integer n) f.position?)]

/-- The response to a division by zero. -/
def divisionResponse (left right : Operand) : Response :=
  .detail 422 (.string (EvaluationError.divisionByZero left right).message)
    [("kind", .string "division_by_zero")]

/-- The response to a tree that is too high. -/
def depthResponse : Response :=
  .detail 422 (.string "Expression tree is nested too deeply to process")
    [("kind", .string "expression_too_deep")]

/-- The response where the service breaks off. -/
def brokenResponse : Response :=
  ⟨500, .text "Internal Server Error"⟩

/-- The text in a field of a body. -/
def Response.text? (name : String) (r : Response) : Option String :=
  match r.content with
  | .json v =>
    match v.member? name with
    | some (.string text) => some text
    | _ => none
  | .text _ => none

/-- The rendering of an expression within the limit. -/
def RenderingAnswer.of (e : Expression) : RenderingAnswer :=
  ⟨e.domain, (Expr.labels e.root).rendering,
    ⟨e.root.height, e.root.leafCount, e.root.operatorCount⟩⟩

/-- The responses to an order, first to one for an evaluation and then to one for a rendering. -/
inductive Order.Answered (s : Settings) (o : Order) : Response → Response → Prop where
  | tooLong (not_fits : ¬ o.Fits s) :
      o.Answered s (lengthResponse s.maxExpressionLength) (lengthResponse s.maxExpressionLength)
  | syntaxError {f : SyntaxError} (fits : o.Fits s)
      (read_eq : Expression.read (o.domainUnder s) o.text = .error (.syntaxError f)) :
      o.Answered s (syntaxResponse f) (syntaxResponse f)
  /-- A bound is too long to be converted, which the service does not provide for. -/
  | broken {n : Nat} (fits : o.Fits s) (stops : StopsAtOverlong (o.domainUnder s) (some o.text) n) :
      o.Answered s brokenResponse brokenResponse
  | value {e : Expression} {r : Evaluation} (fits : o.Fits s)
      (read_eq : Expression.read (o.domainUnder s) o.text = .ok e)
      (height_le : e.root.height ≤ maxDepth) (evaluation_eq : e.evaluation = .ok r) :
      o.Answered s ⟨200, .json (evaluationJson (.of r))⟩ ⟨200, .json (renderingJson (.of e))⟩
  | zeroDivisor {e : Expression} {a b : Operand} (fits : o.Fits s)
      (read_eq : Expression.read (o.domainUnder s) o.text = .ok e)
      (height_le : e.root.height ≤ maxDepth)
      (evaluation_eq : e.evaluation = .error (.divisionByZero a b)) :
      o.Answered s (divisionResponse a b) ⟨200, .json (renderingJson (.of e))⟩
  /-- A division by zero comes first in a tree that is too high. -/
  | zeroDivisorInDepth {e : Expression} {a b : Operand} (fits : o.Fits s)
      (read_eq : Expression.read (o.domainUnder s) o.text = .ok e)
      (lt_height : maxDepth < e.root.height)
      (evaluation_eq : e.evaluation = .error (.divisionByZero a b)) :
      o.Answered s (divisionResponse a b) depthResponse
  | tooDeep {e : Expression} (fits : o.Fits s)
      (read_eq : Expression.read (o.domainUnder s) o.text = .ok e)
      (lt_height : maxDepth < e.root.height) (evaluation_eq : e.evaluation = .error .tooDeep) :
      o.Answered s depthResponse depthResponse

/-- The response to an order over a ragged text, which is one for both routes. -/
inductive RaggedOrder.Answered (s : Settings) (o : RaggedOrder) : Response → Prop where
  | tooLong (not_fits : ¬ o.Fits s) : o.Answered s (lengthResponse s.maxExpressionLength)
  | syntaxError {f : SyntaxError} (fits : o.Fits s)
      (failure_eq : o.text.failure (o.domainUnder s) = .earlier (.syntaxError f)) :
      o.Answered s (syntaxResponse f)
  | broken {n : Nat} (fits : o.Fits s)
      (failure_eq : o.text.failure (o.domainUnder s) = .earlier (.tooManyDigits n)) :
      o.Answered s brokenResponse
  /-- The error of syntax is about a token that has no UTF-8 form, so it is not answered. -/
  | unsendable {cause : LiteralError} {token : RaggedText} {position : Nat} (fits : o.Fits s)
      (failure_eq : o.text.failure (o.domainUnder s) = .badLiteral cause token position) :
      o.Answered s brokenResponse

/-- The responses to a body that validates, first to one for an evaluation and then to one for a
    rendering. -/
inductive Body.Answered (s : Settings) (body : Body) : Response → Response → Prop where
  | order {o : Order} {p q : Response} (body_eq : Order.ofBody body = .ok o)
      (answered : o.Answered s p q) : body.Answered s p q
  | ragged {o : RaggedOrder} {p : Response} (body_eq : Order.ofBody body = .error (.ragged o))
      (answered : o.Answered s p) : body.Answered s p p

/-! ## Routes -/

theorem Route.ofPath?_path (route : Route) : ofPath? route.path = some route := by
  cases route <;> rfl

theorem path_post (route : Route) (body : Body) :
    Request.path ⟨"POST", route.path, body⟩ = route.path := by
  have hpath : String.ofList (route.path.toList.takeWhile fun c => c != '?' && c != '#') =
      route.path := by cases route <;> decide +kernel
  exact hpath

theorem verb_post (target : String) (body : Body) :
    Request.verb ⟨"POST", target, body⟩ = "POST" := by
  have hpost : upperText "POST" = "POST" := by decide +kernel
  exact hpost

/-- A body that is posted reaches a route that takes posts. -/
theorem post_eq_respondOn (s : Settings) {route : Route} (h : route.verb = "POST") (body : Body) :
    post s route body = respondOn s route body := by
  rw [post, respond, path_post, Route.ofPath?_path]
  dsimp only
  rw [verb_post, h]
  rfl

variable {s : Settings} {o : Order} {body : Body}

theorem post_evaluate (h : Order.ofBody body = .ok o) :
    post s .evaluate body = responseTo evaluationJson (evaluate s o) := by
  rw [post_eq_respondOn s rfl, respondOn, h]

theorem post_render (h : Order.ofBody body = .ok o) :
    post s .render body = responseTo renderingJson (render s o) := by
  rw [post_eq_respondOn s rfl, respondOn, h]

theorem post_ragged {o : RaggedOrder} (h : Order.ofBody body = .error (.ragged o)) :
    post s .evaluate body = (o.refusal s).response ∧
      post s .render body = (o.refusal s).response := by
  rw [post_eq_respondOn s rfl, post_eq_respondOn s rfl, respondOn, respondOn, h]
  exact ⟨rfl, rfl⟩

/-! ## Reading -/

theorem Order.read_of_not_fits (h : ¬ o.Fits s) :
    o.read s = .error (.tooLong s.maxExpressionLength) :=
  if_pos (Int.not_le.1 h)

theorem Order.read_of_fits (h : o.Fits s) :
    o.read s = (Expression.read (o.domainUnder s) o.text).mapError Refusal.ofReading :=
  if_neg (Int.not_lt.2 h)

theorem Order.read_of_fits_ok {e : Expression} (h : o.Fits s)
    (hread : Expression.read (o.domainUnder s) o.text = .ok e) : o.read s = .ok e := by
  rw [read_of_fits h, hread]
  rfl

/-- An order that is refused before its text has become an expression is refused on both
    routes. -/
theorem responses_of_read_error {r : Refusal} (h : o.read s = .error r) :
    responseTo evaluationJson (evaluate s o) = r.response ∧
      responseTo renderingJson (render s o) = r.response := by
  rw [evaluate, render, h]
  exact ⟨rfl, rfl⟩

theorem evaluate_of_read {e : Expression} (h : o.read s = .ok e) :
    evaluate s o = (e.evaluation.mapError Refusal.ofEvaluation).map .of := by
  rw [evaluate, h, ok_bind]
  cases e.evaluation <;> rfl

theorem render_of_height_le {e : Expression} (h : o.read s = .ok e)
    (hheight : e.root.height ≤ maxDepth) : render s o = .ok (.of e) := by
  rw [render, h, ok_bind, Expression.render_of_le hheight, Expression.stats?_of_le hheight]
  rfl

theorem render_of_lt_height {e : Expression} (h : o.read s = .ok e)
    (hheight : maxDepth < e.root.height) : render s o = .error .tooDeep := by
  rw [render, h, ok_bind, Expression.render_of_lt hheight]
  rfl

/-! ## The pipeline -/

/-- Every order has its answers. -/
theorem Order.exists_answered (s : Settings) (o : Order) : ∃ p q, o.Answered s p q := by
  by_cases hfits : o.Fits s
  · cases hread : Expression.read (o.domainUnder s) o.text with
    | error f =>
      cases f with
      | syntaxError f => exact ⟨_, _, .syntaxError hfits hread⟩
      | tooManyDigits n =>
        exact ⟨_, _, .broken hfits (diagnosis_tooManyDigits_iff.1 (.of_read hread))⟩
    | ok e =>
      have hends := Expression.ends_of_read hread
      rcases Nat.lt_or_ge maxDepth e.root.height with hlt | hle
      · cases hvalue : e.evaluation with
        | ok r =>
          rw [hvalue] at hends
          cases hends with
          | value hle => exact absurd hle (Nat.not_le.2 hlt)
        | error f =>
          rw [hvalue] at hends
          cases hends with
          | zeroDivisor => exact ⟨_, _, .zeroDivisorInDepth hfits hread hlt hvalue⟩
          | overflow => exact ⟨_, _, .tooDeep hfits hread hlt hvalue⟩
      · cases hvalue : e.evaluation with
        | ok r => exact ⟨_, _, .value hfits hread hle hvalue⟩
        | error f =>
          rw [hvalue] at hends
          cases hends with
          | zeroDivisor => exact ⟨_, _, .zeroDivisor hfits hread hle hvalue⟩
          | overflow hlt => exact absurd hle (Nat.not_le.2 hlt)
  · exact ⟨_, _, .tooLong hfits⟩

theorem responses_of_answered {p q : Response} (h : o.Answered s p q) :
    responseTo evaluationJson (evaluate s o) = p ∧ responseTo renderingJson (render s o) = q := by
  cases h with
  | tooLong not_fits => exact responses_of_read_error (Order.read_of_not_fits not_fits)
  | @syntaxError f fits read_eq =>
    have hread : o.read s = .error (.syntaxError f) := by
      rw [Order.read_of_fits fits, read_eq]
      rfl
    exact responses_of_read_error hread
  | @broken n fits stops =>
    have hfails : Expression.read (o.domainUnder s) o.text = .error (.tooManyDigits n) :=
      (diagnosis_tooManyDigits_iff.2 stops).read?_eq
    have hread : o.read s = .error .broken := by
      rw [Order.read_of_fits fits, hfails]
      rfl
    exact responses_of_read_error hread
  | @value e r fits read_eq height_le evaluation_eq =>
    have hread := Order.read_of_fits_ok fits read_eq
    rw [evaluate_of_read hread, render_of_height_le hread height_le, evaluation_eq]
    exact ⟨rfl, rfl⟩
  | @zeroDivisor e a b fits read_eq height_le evaluation_eq =>
    have hread := Order.read_of_fits_ok fits read_eq
    rw [evaluate_of_read hread, render_of_height_le hread height_le, evaluation_eq]
    exact ⟨rfl, rfl⟩
  | @zeroDivisorInDepth e a b fits read_eq lt_height evaluation_eq =>
    have hread := Order.read_of_fits_ok fits read_eq
    rw [evaluate_of_read hread, render_of_lt_height hread lt_height, evaluation_eq]
    exact ⟨rfl, rfl⟩
  | @tooDeep e fits read_eq lt_height evaluation_eq =>
    have hread := Order.read_of_fits_ok fits read_eq
    rw [evaluate_of_read hread, render_of_lt_height hread lt_height, evaluation_eq]
    exact ⟨rfl, rfl⟩

theorem answered_iff {p q : Response} (h : Order.ofBody body = .ok o) :
    o.Answered s p q ↔ post s .evaluate body = p ∧ post s .render body = q := by
  rw [post_evaluate h, post_render h]
  refine ⟨responses_of_answered, ?_⟩
  rintro ⟨rfl, rfl⟩
  obtain ⟨p, q, hpq⟩ := Order.exists_answered s o
  obtain ⟨hp, hq⟩ := responses_of_answered hpq
  rw [hp, hq]
  exact hpq

/-! ## Ragged texts -/

theorem RaggedOrder.response_of_not_fits {o : RaggedOrder} (h : ¬ o.Fits s) :
    (o.refusal s).response = lengthResponse s.maxExpressionLength := by
  rw [refusal, if_pos (Int.not_le.1 h)]
  rfl

theorem RaggedOrder.response_of_fits {o : RaggedOrder} (h : o.Fits s) :
    (o.refusal s).response = (Refusal.ofRagged (o.text.failure (o.domainUnder s))).response := by
  rw [refusal, if_neg (Int.not_lt.2 h)]
  rfl

theorem RaggedOrder.answered_iff {o : RaggedOrder} {p : Response} :
    o.Answered s p ↔ (o.refusal s).response = p := by
  constructor
  · intro h
    cases h with
    | tooLong not_fits => exact response_of_not_fits not_fits
    | syntaxError fits failure_eq | broken fits failure_eq | unsendable fits failure_eq =>
      rw [response_of_fits fits, failure_eq]
      rfl
  · rintro rfl
    by_cases hfits : o.Fits s
    · rw [response_of_fits hfits]
      cases hfailure : o.text.failure (o.domainUnder s) with
      | earlier f =>
        cases f with
        | syntaxError f => exact .syntaxError hfits hfailure
        | tooManyDigits n => exact .broken hfits hfailure
      | badLiteral cause token position => exact .unsendable hfits hfailure
    · rw [response_of_not_fits hfits]
      exact .tooLong hfits

/-! ## Bodies -/

theorem Body.answered_iff {p q : Response} (h : body.Validates) :
    body.Answered s p q ↔ post s .evaluate body = p ∧ post s .render body = q := by
  constructor
  · intro hanswered
    cases hanswered with
    | order body_eq answered => exact (Service.answered_iff body_eq).1 answered
    | ragged body_eq answered =>
      rw [(post_ragged body_eq).1, (post_ragged body_eq).2]
      exact ⟨RaggedOrder.answered_iff.1 answered, RaggedOrder.answered_iff.1 answered⟩
  · rintro ⟨rfl, rfl⟩
    obtain ⟨o, ho⟩ | ⟨o, ho⟩ := h
    · exact .order ho ((Service.answered_iff ho).2 ⟨rfl, rfl⟩)
    · rw [(post_ragged ho).1, (post_ragged ho).2]
      exact .ragged ho (RaggedOrder.answered_iff.2 rfl)

/-! ## Between the two routes -/

theorem kind_syntaxResponse_ne (f : SyntaxError) :
    (syntaxResponse f).text? "kind" ≠ some divisionByZeroKind := by
  have hkind : (syntaxResponse f).text? "kind" = some f.kind.name := rfl
  rw [hkind]
  cases f.kind <;> decide

theorem Body.Answered.kind_ne {p q : Response} (h : body.Answered s p q) :
    q.text? "kind" ≠ some divisionByZeroKind := by
  cases h with
  | order _ answered =>
    cases answered with
    | @syntaxError f => exact kind_syntaxResponse_ne f
    | broken | zeroDivisorInDepth | tooDeep => decide
    | tooLong | value | zeroDivisor =>
      intro hkind
      cases hkind
  | ragged _ answered =>
    cases answered with
    | @syntaxError f => exact kind_syntaxResponse_ne f
    | broken | unsendable => decide
    | tooLong =>
      intro hkind
      cases hkind

theorem RaggedOrder.Answered.status_ne {o : RaggedOrder} {p : Response} (h : o.Answered s p) :
    p.status ≠ 200 := by
  intro hstatus
  cases h <;> cases hstatus

theorem Body.Answered.status_of_status {p q : Response} (h : body.Answered s p q)
    (hq : q.status = 200) :
    p.status = 200 ∨ ∃ a b, p = divisionResponse a b := by
  cases h with
  | order _ answered =>
    cases answered with
    | value => exact .inl rfl
    | zeroDivisor => exact .inr ⟨_, _, rfl⟩
    | _ => cases hq
  | ragged _ answered => exact absurd hq answered.status_ne

/-- The two answers to a body that validates are the ones that the pipeline calls for and no others;
    among them is the break where the refused token is ragged. A rendering is never refused for a
    division by zero, and where it is answered, the evaluation is answered too or divides by
    zero. -/
theorem answers_follow_pipeline (s : Settings) {body : Body} (h : body.Validates) :
    (∀ p q, body.Answered s p q ↔ post s .evaluate body = p ∧ post s .render body = q) ∧
      (post s .render body).text? "kind" ≠ some divisionByZeroKind ∧
      ((post s .render body).status = 200 →
        (post s .evaluate body).status = 200 ∨
          ∃ a b, post s .evaluate body = divisionResponse a b) := by
  have hanswered := (Body.answered_iff (s := s) h).2 ⟨rfl, rfl⟩
  exact ⟨fun p q => Body.answered_iff h, hanswered.kind_ne,
    hanswered.status_of_status⟩

/-- An expression that divides by zero is rendered. -/
theorem answers_follow_pipeline_division :
    let body : Body := .json (.object [("text", .string "1 0 /"), ("domain", .null)])
    Order.ofBody body = .ok ⟨"1 0 /", none⟩ ∧
      (∃ a b, post .default .evaluate body = divisionResponse a b) ∧
      (post .default .render body).status = 200 := by
  intro body
  have hbody : Order.ofBody body = .ok ⟨"1 0 /", none⟩ := by decide +kernel
  have hread : Expression.read .arithmetic "1 0 /" =
      .ok ⟨.arithmetic,
        .node .div
          (.leaf (.number ⟨false, 2 ^ 52, 1022, by decide, by decide, .inr (Nat.le_refl _)⟩))
          (.leaf (.number (.zero false))),
        "1 0 /"⟩ := by decide +kernel
  obtain ⟨hevaluated, hrendered⟩ := ((answers_follow_pipeline .default (.inl ⟨_, hbody⟩)).1 _ _).1
    (.order hbody (.zeroDivisor (by decide) hread (by decide) rfl))
  exact ⟨hbody, ⟨_, _, hevaluated⟩, by rw [hrendered]⟩

/-- A text that is one half of a pair is no number, and both routes break off instead of answering
    with the error of syntax. -/
theorem answers_break_on_half :
    let body : Body := .text "\x7b\"text\":\"\\ud800\"\x7d"
    let half : RaggedText := ⟨[], ⟨0xd800, by decide, by decide⟩, []⟩
    Order.ofBody body = .error (.ragged ⟨half, none⟩) ∧
      half.failure .arithmetic = .badLiteral .notANumber half 0 ∧
      post .default .evaluate body = brokenResponse ∧
        post .default .render body = brokenResponse := by
  intro body half
  have hbody : Order.ofBody body = .error (.ragged ⟨half, none⟩) := by decide +kernel
  have hfailure : half.failure .arithmetic = .badLiteral .notANumber half 0 := by decide +kernel
  have hanswered : RaggedOrder.Answered .default ⟨half, none⟩ brokenResponse :=
    .unsendable (by decide) hfailure
  exact ⟨hbody, hfailure, (Body.answered_iff (.inr ⟨_, hbody⟩)).1 (.ragged hbody hanswered)⟩

end Service

end ReversePolish
