import ReversePolish.Service.Answer

set_option autoImplicit false

/-! # The service

The service has three routes, each with one method: its health, evaluations and renderings. It
keeps nothing from one request to the next. -/

namespace ReversePolish

namespace Service

/-! ## Routes -/

/-- The routes. -/
inductive Route where
  | health
  | evaluate
  | render
deriving DecidableEq, Repr

namespace Route

/-- All routes. -/
def all : List Route :=
  [health, evaluate, render]

/-- The path of a route. -/
def path : Route → String
  | health => "/health"
  | evaluate => "/evaluate"
  | render => "/render"

/-- The one method of a route. -/
def verb : Route → String
  | health => "GET"
  | evaluate | render => "POST"

/-- The route of that path. -/
def ofPath? (s : String) : Option Route :=
  all.find? (·.path == s)

end Route

/-! ## Answers as JSON -/

/-- A part of a place. -/
def placePartJson : PlacePart → Json
  | .name s => .string s
  | .offset n => .integer n

/-- A fault at its place. -/
def faultJson (r : FaultReport) : Json :=
  .object
    [("type", .string r.fault.code), ("loc", .array (r.place.map placePartJson)),
      ("msg", .string r.fault.message)]

/-- A value. -/
def operandJson : Operand → Json
  | .number x => .float x
  | .interval i => i.toJson

/-- The measures of a tree. -/
def statsJson (s : Stats) : Json :=
  .object
    [("height", .integer s.height), ("leaf_count", .integer s.leafCount),
      ("operator_count", .integer s.operatorCount)]

/-- The answer of an evaluation. -/
def evaluationJson (a : EvaluationAnswer) : Json :=
  .object
    [("domain", .string a.domain.name), ("value", .ofOption operandJson a.value),
      ("display", .string a.display), ("is_empty", .bool a.isEmpty),
      ("steps", .array (a.steps.map .string))]

/-- The answer of a rendering. -/
def renderingJson (a : RenderingAnswer) : Json :=
  .object
    [("domain", .string a.domain.name), ("infix", .string a.rendering.infixForm),
      ("prefix", .string a.rendering.prefixForm), ("ascii_tree", .string a.rendering.diagram),
      ("stats", statsJson a.stats)]

/-- The health of the service. -/
def healthJson (s : Settings) : Json :=
  .object
    [("status", .string "ok"), ("version", .string s.appVersion),
      ("domains", .array (Domain.all.map fun d => .string d.name))]

/-! ## Responses -/

/-- The response to an order that is not carried out. -/
def Refusal.response : Refusal → Response
  | tooLong limit =>
    .detail 413
      (.string ("Expression longer than " ++ Decimal.intText limit ++ " characters")) []
  | syntaxError e =>
    .detail 422 (.string e.message)
      [("kind", .string e.kind.name), ("token", .ofOption .string e.token?),
        ("position", .ofOption (fun n => .integer n) e.position?)]
  | divisionByZero a b =>
    .detail 422 (.string (EvaluationError.divisionByZero a b).message)
      [("kind", .string divisionByZeroKind)]
  | tooDeep =>
    .detail 422 (.string "Expression tree is nested too deeply to process")
      [("kind", .string "expression_too_deep")]
  | broken => ⟨500, .text "Internal Server Error"⟩

/-- The response to a body that is no order over a `String`. -/
def BodyError.response (s : Settings) : BodyError → Response
  | faults reports => .detail 422 (.array (reports.map faultJson)) []
  | unreportable => Refusal.broken.response
  | unreadable => .detail 400 (.string "There was an error parsing the body") []
  | ragged o => (o.refusal s).response

/-- The response to an outcome. -/
def responseTo {α : Type} (json : α → Json) : Except Refusal α → Response
  | .ok a => ⟨200, .json (json a)⟩
  | .error r => r.response

/-- The response of a route to a body. -/
def respondOn (s : Settings) : Route → Body → Response
  | .health, _ => ⟨200, .json (healthJson s)⟩
  | .evaluate, body =>
    match Order.ofBody body with
    | .ok o => responseTo evaluationJson (evaluate s o)
    | .error e => e.response s
  | .render, body =>
    match Order.ofBody body with
    | .ok o => responseTo renderingJson (render s o)
    | .error e => e.response s

/-- The response to a request on no route, or with another method than its route has. -/
def refuse (r : Request) (status : Nat) (detail : String) : Response :=
  if r.verb == "HEAD" then ⟨status, .text ""⟩ else .detail status (.string detail) []

/-- The response to a request. -/
def respond (s : Settings) (r : Request) : Response :=
  match Route.ofPath? r.path with
  | none => refuse r 404 "Not Found"
  | some route =>
    if r.verb == route.verb then respondOn s route r.body
    else refuse r 405 "Method Not Allowed"

end Service

end ReversePolish
