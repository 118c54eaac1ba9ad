import Argumentation.Loading
import Argumentation.Rank
import Argumentation.Report.Page
import Argumentation.Service.Payload
import Argumentation.Timeline.Stage

/-!
# Answers of the service

The service answers for extensions, ranks, steps and reports. `answer` finds what a path stands for
and works it out; every rejection becomes an answer with its own status, and what no rule foresees
becomes an internal error. Pages of other origins may read all answers but that one.
-/

namespace Argumentation.Service

/-- The version of the service. -/
def version : String := "1.0.0"

/-- What a path stands for. -/
inductive Endpoint where
  | health
  | extensions
  | rank
  | steps
  | report
  deriving DecidableEq, Repr

namespace Endpoint

/-- The paths. -/
def paths : List (String × Endpoint) :=
  [("/v1/health", .health), ("/v1/extensions", .extensions), ("/v1/rank", .rank),
    ("/v1/steps", .steps), ("/v1/report", .report)]

/-- The only method that the endpoint allows. -/
def method : Endpoint → String
  | .health => "GET"
  | _ => "POST"

end Endpoint

/-! ### Errors -/

/-- A request that is not worked out. -/
inductive Refusal where
  | body (fault : BodyFault)
  | failure (f : Failure)

/-- What nothing else foresees. -/
def internalError : Response := .plainly 500 (.plain "Internal Server Error")

/-- A short answer in words. -/
def detail (status : Nat) (message : String) : Response :=
  .plainly status (.json (.object [("detail", .text message)]))

mutual

/-- Whether all numbers of the value are finite, as they have to be in an answer. -/
def isFinite : Json → Bool
  | .float x => Decimal.isFinite x
  | .array items => areFinite items
  | .object fields => fieldsAreFinite fields
  | _ => true

/-- Whether all numbers of the members are finite. -/
def areFinite : List Json → Bool
  | [] => true
  | j :: js => isFinite j && areFinite js

/-- Whether all numbers of the fields are finite. -/
def fieldsAreFinite : List (String × Json) → Bool
  | [] => true
  | (_, j) :: fs => isFinite j && fieldsAreFinite fs

end

/-- An answer in JSON, if it can be written. -/
def jsonAnswer (status : Nat) (j : Json) : Response :=
  if isFinite j then .plainly status (.json j) else internalError

/-- How a request that is not worked out is answered. -/
def Refusal.response : Refusal → Response
  | .body .unreadable => detail 400 "There was an error parsing the body"
  | .body fault => jsonAnswer 422 (.object [("detail", .array fault.details)])
  | .failure (.rejection r) =>
    .plainly r.status (.json (.object [("status", .text "error"), ("code", .text r.code),
      ("message", .text r.message)]))
  | .failure _ => internalError

/-! ### Results -/

/-- The families of extensions by the keys of their semantics. -/
def familyFields (f : Families) : List (String × Json) :=
  Semantics.all.map fun s => (s.key, .array ((f.get s).map .texts))

/-- Distances by name. -/
def ranksJson (ranks : Distances String) : Json :=
  .object (ranks.map fun entry => (entry.1, .nat entry.2))

/-- A stage. -/
def stageJson (s : Stage) : Json :=
  .object [("step", .int s.step), ("arguments", .texts s.framework.arguments),
    ("attacks", .array (s.framework.attacks.map Report.attackEntry)),
    ("extensions", .object (familyFields s.extensions)), ("rank_top", ranksJson s.rankTop),
    ("rank_bottom", ranksJson s.rankBottom)]

/-- The service is up. -/
def healthAnswer : Json :=
  .object [("status", .text "ok"), ("version", .text version), ("uptime_seconds", .int 0),
    ("max_arguments", .int Framework.defaultLimit)]

/-- The extensions of a framework. -/
def extensionsAnswer (body : List String × List Attack) : Except Failure Json := do
  let F ← (Framework.make body.1 body.2).mapError .ofFramework
  let f ← (F.extensions Framework.defaultLimit).mapError .ofExcess
  return .object (familyFields f ++ [("num_arguments", .nat F.size),
    ("num_attacks", .nat F.attacks.length), ("computation_ms", .int 0)])

/-- The ranks that a body asks for. -/
def rankAnswer (b : RankBody) : Json :=
  let pairs := b.attacks.map fun a => (a.attacker, a.target)
  let ranks := Rank.compute pairs b.roots (if b.fromTop then b.fallbackFirst else b.fallbackLast)
  .object [("rank", ranksJson ranks)]

/-- The stages of a document. -/
def stagesOf (d : Document) : Except Failure (List Stage) :=
  (d.decompose Framework.defaultLimit).mapError PlanFault.failure

/-- The stages of a document as an answer. -/
def stepsAnswer (d : Document) : Except Failure Json := do
  let stages ← stagesOf d
  return .object [("steps", .array (stages.map stageJson)), ("total_steps", .nat stages.length),
    ("computation_ms", .int 0)]

/-- The report of a document, generated at the given time. -/
def reportAnswer (time : String) (body : String × Option String) : Except Failure String := do
  let d ← (Document.load body.1 Document.lengthLimit).mapError LoadFault.failure
  let stages ← stagesOf d
  if !Report.stepsAreWritable stages then throw (.badValue Obstacle.digits.message)
  let title := match body.2 with
    | none | some "" => Report.defaultTitle
    | some title => title
  return Report.page d stages none title time

/-! ### Requests -/

/-- The fields of the body of a request. -/
def readBody {α : Type} (r : Request) (read : Value → Field.Checked α) : Except Refusal α :=
  ((bodyValue r).bind (checkObject read)).mapError .body

/-- Works out a request to an endpoint. -/
def workOut (time : String) (r : Request) : Endpoint → Except Refusal Body
  | .health => .ok (.json healthAnswer)
  | .extensions => do
    return .json (← (extensionsAnswer (← readBody r checkExtensions)).mapError .failure)
  | .rank => do return .json (rankAnswer (← readBody r checkRank))
  | .steps => do
    return .json (← (stepsAnswer (← readBody r Document.checkFields)).mapError .failure)
  | .report => do
    return .html (← (reportAnswer time (← readBody r checkReport)).mapError .failure)

/-- The answer to a request to an endpoint. -/
def answerAt (time : String) (r : Request) (e : Endpoint) : Response :=
  if r.method ≠ e.method then
    { detail 405 "Method Not Allowed" with allow := some e.method }
  else match workOut time r e with
    | .ok body => .plainly 200 body
    | .error refusal => refusal.response

/-- The text without slashes at its end. -/
def dropSlashes (path : String) : String :=
  String.ofList ((path.toList.reverse.dropWhile (· = '/')).reverse)

/-- The answer to a request, whatever its origin. A known path with slashes behind it is
elsewhere. -/
def answerPlainly (time : String) (r : Request) : Response :=
  match Endpoint.paths.lookup r.path with
  | some e => answerAt time r e
  | none =>
    if "/".toList.isSuffixOf r.path.toList &&
        (Endpoint.paths.lookup (dropSlashes r.path)).isSome then .plainly 307 .empty
    else detail 404 "Not Found"

/-! ### Requests of other origins -/

/-- The methods that pages of other origins may use. -/
def openMethods : List String := ["GET", "POST", "OPTIONS"]

/-- The header fields that pages of other origins may send. -/
def openHeaders : List String := ["accept", "accept-language", "content-language", "content-type"]

/-- What a page of another origin asks for and may not use. A private network it may never use. -/
def refusedParts (method : String) (headers privateNetwork : Option String) : List String :=
  let names := (headers.map fun h => Text.splitAt ',' h.toList).getD []
  let unknown := names.any fun name =>
    !openHeaders.contains (lowered (String.ofList (trimmed name)))
  (if openMethods.contains method then [] else ["method"]) ++
    (if unknown then ["headers"] else []) ++
    if privateNetwork.isSome then ["private-network"] else []

/-- The answer to a page of another origin that asks whether it may use a method. -/
def preflightAnswer (r : Request) (method : String) : Response :=
  match refusedParts method (r.header? "access-control-request-headers")
      (r.header? "access-control-request-private-network") with
  | [] => .plainly 200 (.plain "OK")
  | refused => .plainly 400 (.plain ("Disallowed CORS " ++ ", ".intercalate refused))

/-- The answer to a request at the given time. -/
def answer (time : String) (r : Request) : Response :=
  match r.header? "origin" with
  | none => answerPlainly time r
  | some _ =>
    match r.method, r.header? "access-control-request-method" with
    | "OPTIONS", some method => { preflightAnswer r method with allowOrigin := some "*" }
    | _, _ =>
      let response := answerPlainly time r
      if response.status = 500 then response else { response with allowOrigin := some "*" }

end Argumentation.Service
