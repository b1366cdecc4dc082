/-
The server's HTTP side: the routes, the CORS middleware and the handlers
(`httpserver.go`, `commandRouter.go`, `hub.go`).

The router and the WebSocket upgrader are libraries; `Lib` has what the server
uses of them.

* `isAllowed_eq_checkOrigin` — the middleware and the upgrader accept the same
  origins;
* `noEffect_iff` — a request from an origin outside the list has no effect
  exactly when it is a preflight or no REST route is its.
-/
import Volta.Hub
import Volta.Registry
import Volta.ControlMessage
import Mathlib.Data.List.Basic

namespace Volta

namespace HTTPServer

structure Request where
  method : String
  path : String
  /-- `Header.Get`: the empty string where a header is missing. -/
  header : String → String := fun _ => ""
  /-- `URL.Query().Get`. -/
  query : String → String := fun _ => ""
  body : String := ""

inductive Body where
  | empty
  | text (text : String)
  /-- A `ListAgentsResponse` in JSON. -/
  | agents (agents : List Agent)
  deriving DecidableEq

structure Response where
  status : ℕ
  headers : List (String × String) := []
  body : Body := .empty
  deriving DecidableEq

/-- `http.Error`. -/
def httpError (text : String) (status : ℕ) : Response where
  status := status
  headers := [("Content-Type", "text/plain; charset=utf-8"), ("X-Content-Type-Options", "nosniff")]
  body := .text (text ++ "\n")

/-- What the server uses of its libraries.

`urlParam` is the router's matching of a path with a pattern, and the value of
`{id}`; `unrouted` is its answer where no route fits.  `upgrade` gets the
function `CheckOrigin` and gives the answer to a request that it refuses,
`none` when the connection has become a WebSocket.  `unmarshal` says whether a
body is a `SendDataRequest`. -/
structure Lib where
  urlParam : String → String → Option String
  unrouted : Request → Response
  upgrade : (Request → Bool) → Request → Option Response
  unmarshal : String → Bool

/-- The upgrader refuses what `CheckOrigin` does. -/
def Lib.ChecksOrigin (lib : Lib) : Prop :=
  ∀ check r, check r = false → (lib.upgrade check r).isSome

structure State where
  registry : AgentRegistry := .empty
  hub : Hub.State := {}
  /-- The messages handed to the send loop of a session. -/
  handed : List (AgentSession × ControlMessage) := []

/-- What a request meets: the order in which `List` finds the sessions, whether
a session's send loop takes a message before its context is done, and the room
in a new array of subscribers. -/
structure Env where
  listed : List AgentSession := []
  taken : AgentSession → Bool := fun _ => true
  spare : ℕ := 0

/-! ### Errors -/

/-- The error values of `httpserver.go`. -/
inductive Sentinel where
  | agentNotFound
  | agentDisconnected
  deriving DecidableEq

/-- `is` are the sentinels that `errors.Is` finds in the error; those that
`fmt.Errorf` makes without `%w` have none. -/
structure GoError where
  text : String
  is : List Sentinel := []
  deriving DecidableEq

def writeError (err : GoError) : Response :=
  if .agentNotFound ∈ err.is then httpError err.text 404
  else if .agentDisconnected ∈ err.is then httpError err.text 503
  else httpError "internal server error" 500

/-! ### The command router -/

/-- The text in `commandRouter.go`. -/
def errAgentNotFound : String := "agent not found"

/-- `AgentSession.Send`. -/
def send (env : Env) (s : State) (sess : AgentSession) (msg : ControlMessage) :
    State × Option GoError :=
  if env.taken sess then ({ s with handed := s.handed ++ [(sess, msg)] }, none)
  else (s, some { text := "agent " ++ sess.id ++ " disconnected" })

def streamData (env : Env) (s : State) (agentID : String) : State × Option GoError :=
  match s.registry.get agentID with
  | none => (s, some { text := "StreamData: " ++ errAgentNotFound })
  | some sess => send env s sess { type := .streamData }

def sendData (s : State) (_agentID : String) : State × Option GoError :=
  (s, some { text := "SendData not implemented" })

/-! ### Handlers -/

inductive Handler where
  | listAgents
  | streamData
  | sendData
  | ws
  deriving DecidableEq

/-- What a request did; without a response its connection is a WebSocket. -/
structure Outcome where
  state : State
  response : Option Response
  /-- The handler that ran. -/
  ran : Option Handler := none

def handleListAgents (env : Env) (s : State) : Outcome where
  state := s
  response := some
    { status := 200
      headers := [("Content-Type", "application/json")]
      body := .agents (env.listed.map fun sess => { id := sess.id, status := .connected }) }
  ran := some .listAgents

/-- The end of the handlers that give a command to an agent. -/
def accepted (ran : Handler) : State × Option GoError → Outcome
  | (s, some err) => { state := s, response := some (writeError err), ran := some ran }
  | (s, none) => { state := s, response := some { status := 202 }, ran := some ran }

def handleStreamData (env : Env) (s : State) (agentID : String) : Outcome :=
  accepted .streamData (streamData env s agentID)

def handleSendData (lib : Lib) (s : State) (r : Request) (agentID : String) : Outcome :=
  if lib.unmarshal r.body then accepted .sendData (sendData s agentID)
  else
    { state := s, response := some (httpError "invalid request body" 400), ran := some .sendData }

/-- The hub's `CheckOrigin`. -/
def checkOrigin (allowedOrigins : List String) (r : Request) : Bool :=
  let origin := r.header "Origin"
  if origin = "" then true else origin ∈ allowedOrigins

def handleWS (lib : Lib) (allowedOrigins : List String) (env : Env) (s : State) (r : Request) :
    Outcome :=
  let agentID := r.query "agent_id"
  match lib.upgrade (checkOrigin allowedOrigins) r with
  | some response => { state := s, response := some response, ran := some .ws }
  | none =>
      { state :=
          { s with
            hub :=
              { s.hub with
                bus := s.hub.bus.subscribe agentID env.spare
                handlers := s.hub.handlers ++ [s.hub.bus.next] } }
        response := none
        ran := some .ws }

/-! ### Routes -/

structure Route where
  method : String
  pattern : String
  handler : Handler

/-- The routes below `/api`. -/
def restRoutes : List Route :=
  [{ method := "GET", pattern := "/api/agents", handler := .listAgents },
    { method := "POST", pattern := "/api/agents/{id}/stream", handler := .streamData },
    { method := "POST", pattern := "/api/agents/{id}/send", handler := .sendData }]

def routes : List Route :=
  restRoutes ++ [{ method := "GET", pattern := "/ws", handler := .ws }]

/-- The handler of a route that fits the request, and the value of `{id}`. -/
def Route.match? (lib : Lib) (r : Request) (route : Route) : Option (Handler × String) :=
  if route.method = r.method then
    (lib.urlParam route.pattern r.path).map fun id => (route.handler, id)
  else none

/-- The router behind the middleware. -/
def serveRoutes (lib : Lib) (allowedOrigins : List String) (env : Env) (s : State)
    (r : Request) : Outcome :=
  match routes.findSome? (Route.match? lib r) with
  | some (.listAgents, _) => handleListAgents env s
  | some (.streamData, id) => handleStreamData env s id
  | some (.sendData, id) => handleSendData lib s r id
  | some (.ws, _) => handleWS lib allowedOrigins env s r
  | none => { state := s, response := some (lib.unrouted r) }

/-! ### The middleware -/

def methodOptions : String := "OPTIONS"

/-- The middleware's `isAllowed`. -/
def isAllowed (allowedOrigins : List String) (origin : String) : Bool :=
  if origin = "" then true else origin ∈ allowedOrigins

def corsHeaders (origin : String) : List (String × String) :=
  [("Access-Control-Allow-Origin", origin), ("Vary", "Origin"),
    ("Access-Control-Allow-Methods", "GET, POST, OPTIONS"),
    ("Access-Control-Allow-Headers", "Content-Type, Accept")]

def Outcome.withHeaders (o : Outcome) (headers : List (String × String)) : Outcome :=
  { o with response := o.response.map fun resp => { resp with headers := headers ++ resp.headers } }

def corsMiddleware (allowedOrigins : List String) (next : Request → Outcome) (s : State)
    (r : Request) : Outcome :=
  let origin := r.header "Origin"
  if origin = "" then next r
  else if isAllowed allowedOrigins origin = false then
    if r.method = methodOptions then
      { state := s, response := some (httpError "origin not allowed" 403) }
    else
      -- a request that is no preflight goes on, only without the headers
      next r
  else if r.method = methodOptions then
    { state := s, response := some { status := 204, headers := corsHeaders origin } }
  else (next r).withHeaders (corsHeaders origin)

def serveHTTP (lib : Lib) (allowedOrigins : List String) (env : Env) (s : State) (r : Request) :
    Outcome :=
  corsMiddleware allowedOrigins (serveRoutes lib allowedOrigins env s) s r

/-! ### Which requests have an effect -/

/-- No REST handler ran, no WebSocket was opened, and nothing changed. -/
structure NoEffect (s : State) (o : Outcome) : Prop where
  no_rest : ∀ h, o.ran = some h → h = .ws
  not_opened : o.response ≠ none
  state_eq : o.state = s

/-- No REST route has the method and the path of the request. -/
def NoRestRoute (lib : Lib) (r : Request) : Prop :=
  ∀ route ∈ restRoutes, route.method = r.method → lib.urlParam route.pattern r.path = none

def Request.withOrigin (r : Request) (origin : String) : Request :=
  { r with header := Function.update r.header "Origin" origin }

theorem isAllowed_eq_checkOrigin (allowedOrigins : List String) (r : Request) (origin : String) :
    isAllowed allowedOrigins origin = checkOrigin allowedOrigins (r.withOrigin origin) := by
  have hget : (r.withOrigin origin).header "Origin" = origin := by
    simp [Request.withOrigin]
  rw [isAllowed, checkOrigin, hget]

theorem isAllowed_eq_false {allowedOrigins : List String} {origin : String} (horigin : origin ≠ "")
    (hforeign : origin ∉ allowedOrigins) : isAllowed allowedOrigins origin = false := by
  rw [isAllowed, if_neg horigin]
  exact decide_eq_false hforeign

theorem checkOrigin_eq_false {allowedOrigins : List String} {r : Request}
    (horigin : r.header "Origin" ≠ "") (hforeign : r.header "Origin" ∉ allowedOrigins) :
    checkOrigin allowedOrigins r = false := by
  rw [checkOrigin, if_neg horigin]
  exact decide_eq_false hforeign

/-- An open WebSocket is a step of the hub. -/
theorem handleWS_opened {lib : Lib} {allowedOrigins : List String} {env : Env} {s : State}
    {r : Request} (h : (handleWS lib allowedOrigins env s r).response = none) :
    Hub.step s.hub (.handleWS (r.query "agent_id") env.spare)
      = some (handleWS lib allowedOrigins env s r).state.hub := by
  rw [handleWS] at h ⊢
  dsimp only at h ⊢
  split at h
  · exact absurd h (by simp)
  · rfl

theorem Route.match?_eq_none {lib : Lib} {r : Request} {route : Route} :
    route.match? lib r = none ↔
      (route.method = r.method → lib.urlParam route.pattern r.path = none) := by
  rw [Route.match?]
  split
  · rename_i h
    rw [Option.map_eq_none_iff]
    exact ⟨fun hnone _ => hnone, fun hnone => hnone h⟩
  · rename_i h
    exact iff_of_true rfl fun h' => absurd h' h

theorem noRestRoute_iff {lib : Lib} {r : Request} :
    NoRestRoute lib r ↔ restRoutes.findSome? (Route.match? lib r) = none := by
  rw [List.findSome?_eq_none_iff]
  exact forall₂_congr fun route _ => Route.match?_eq_none.symm

/-- Every REST route leads to a REST handler. -/
theorem restRoutes_handler : ∀ route ∈ restRoutes, route.handler ≠ .ws := by decide

theorem serveRoutes_ran {lib : Lib} {allowedOrigins : List String} {env : Env} {s : State}
    {r : Request} {h : Handler} {id : String}
    (hroute : routes.findSome? (Route.match? lib r) = some (h, id)) :
    (serveRoutes lib allowedOrigins env s r).ran = some h := by
  rw [serveRoutes, hroute]
  cases h with
  | listAgents => rfl
  | streamData =>
    simp only [handleStreamData, accepted]
    split <;> rfl
  | sendData =>
    simp only [handleSendData, sendData, accepted]
    split <;> rfl
  | ws =>
    simp only [handleWS]
    split <;> rfl

/-- A request with a REST route runs a REST handler, whatever its origin. -/
theorem serveRoutes_rest {lib : Lib} {allowedOrigins : List String} {env : Env} {s : State}
    {r : Request} (hroute : ¬ NoRestRoute lib r) :
    ∃ h, (serveRoutes lib allowedOrigins env s r).ran = some h ∧ h ≠ .ws := by
  rw [noRestRoute_iff, ← ne_eq, Option.ne_none_iff_exists'] at hroute
  obtain ⟨⟨h, id⟩, hfind⟩ := hroute
  have hall : routes.findSome? (Route.match? lib r) = some (h, id) := by
    rw [routes, List.findSome?_append, hfind]
    rfl
  refine ⟨h, serveRoutes_ran hall, ?_⟩
  obtain ⟨route, hmem, hmatch⟩ := List.exists_of_findSome?_eq_some hfind
  rw [Route.match?] at hmatch
  split at hmatch
  · obtain ⟨_, _, heq⟩ := Option.map_eq_some_iff.mp hmatch
    rw [← (Prod.mk.inj heq).1]
    exact restRoutes_handler route hmem
  · exact absurd hmatch (by simp)

/-- Where no REST route fits, a foreign origin comes to nothing. -/
theorem serveRoutes_noEffect {lib : Lib} (hlib : lib.ChecksOrigin) {allowedOrigins : List String}
    {env : Env} {s : State} {r : Request} (hcheck : checkOrigin allowedOrigins r = false)
    (hroute : NoRestRoute lib r) : NoEffect s (serveRoutes lib allowedOrigins env s r) := by
  rw [noRestRoute_iff] at hroute
  have hfind : routes.findSome? (Route.match? lib r)
      = Route.match? lib r { method := "GET", pattern := "/ws", handler := .ws } := by
    rw [routes, List.findSome?_append, hroute, Option.none_or]
    simp only [List.findSome?_cons, List.findSome?_nil]
    split
    · rename_i heq
      exact heq.symm
    · rename_i heq
      exact heq.symm
  rw [serveRoutes, hfind, Route.match?]
  split_ifs with hmethod
  · cases lib.urlParam "/ws" r.path with
    | none => exact ⟨fun _ h => absurd h (by simp), by simp, rfl⟩
    | some id =>
      obtain ⟨resp, hresp⟩ := Option.isSome_iff_exists.mp (hlib _ _ hcheck)
      simp only [Option.map_some, handleWS, hresp]
      exact ⟨fun _ h => (Option.some.inj h).symm, by simp, rfl⟩
  · exact ⟨fun _ h => absurd h (by simp), by simp, rfl⟩

/-- **Foreign origins.**  The middleware and the upgrader accept the same
origins; but a request from an origin outside the list has no effect exactly
when it is a preflight or has no REST route: the middleware stops nothing
else. -/
theorem noEffect_iff (lib : Lib) (hlib : lib.ChecksOrigin) (allowedOrigins : List String)
    (env : Env) (s : State) (r : Request) (horigin : r.header "Origin" ≠ "")
    (hforeign : r.header "Origin" ∉ allowedOrigins) :
    (NoEffect s (serveHTTP lib allowedOrigins env s r) ∧
        ∀ origin, isAllowed allowedOrigins origin
          = checkOrigin allowedOrigins (r.withOrigin origin)) ↔
      r.method = methodOptions ∨ NoRestRoute lib r := by
  rw [and_iff_left (isAllowed_eq_checkOrigin allowedOrigins r), serveHTTP, corsMiddleware,
    if_neg horigin, if_pos (isAllowed_eq_false horigin hforeign)]
  by_cases hmethod : r.method = methodOptions
  · rw [if_pos hmethod]
    exact iff_of_true ⟨fun _ h => absurd h (by simp), by simp, rfl⟩ (.inl hmethod)
  · rw [if_neg hmethod, or_iff_right hmethod]
    refine ⟨fun h => ?_, serveRoutes_noEffect hlib (checkOrigin_eq_false horigin hforeign)⟩
    by_contra hroute
    obtain ⟨handler, hran, hrest⟩ := serveRoutes_rest hroute
    exact hrest (h.no_rest handler hran)

/-! ### A request of a web page elsewhere -/

/-- A pattern against a path, segment by segment. -/
def matchSegments : List (List Char) → List (List Char) → Option (List Char)
  | [], [] => some []
  | p :: ps, seg :: segs =>
      if p = "{id}".toList then (matchSegments ps segs).map fun _ => seg
      else if p = seg then matchSegments ps segs
      else none
  | _, _ => none

def exampleLib : Lib where
  urlParam pattern path :=
    (matchSegments (pattern.toList.splitOn '/') (path.toList.splitOn '/')).map String.ofList
  unrouted _ := { status := 404, body := .text "404 page not found\n" }
  upgrade check r :=
    if r.header "Upgrade" ≠ "websocket" then some { status := 400 }
    else if check r then none
    else some { status := 403 }
  unmarshal body := body = "{}"

theorem exampleLib_checksOrigin : exampleLib.ChecksOrigin := by
  intro check r hcheck
  simp only [exampleLib, hcheck]
  split <;> rfl

/-- The request of a page on another site, for a registered agent. -/
def foreignRequest (method : String) : Request where
  method := method
  path := "/api/agents/a/stream"
  header := Function.update (fun _ => "") "Origin" "http://elsewhere.example"

def oneAgent : State where
  registry := AgentRegistry.empty.add { id := "a", stream := 0 }

theorem noEffect_preflight :
    NoEffect oneAgent
      (serveHTTP exampleLib ["http://localhost:5173"] {} oneAgent (foreignRequest "OPTIONS")) :=
  ((noEffect_iff exampleLib exampleLib_checksOrigin ["http://localhost:5173"] {} oneAgent
    (foreignRequest "OPTIONS") (by decide) (by decide)).mpr (.inl rfl)).1

/-- The page makes the agent stream. -/
theorem foreign_origin_streams :
    ¬ ∀ (lib : Lib), lib.ChecksOrigin → ∀ (allowedOrigins : List String) (env : Env) (s : State)
      (r : Request), r.header "Origin" ≠ "" → r.header "Origin" ∉ allowedOrigins →
        NoEffect s (serveHTTP lib allowedOrigins env s r) := by
  intro hall
  have hstate := (hall exampleLib exampleLib_checksOrigin ["http://localhost:5173"] {} oneAgent
    (foreignRequest "POST") (by decide) (by decide)).state_eq
  have hhanded : (serveHTTP exampleLib ["http://localhost:5173"] {} oneAgent
      (foreignRequest "POST")).state.handed
        = [({ id := "a", stream := 0 }, { type := .streamData })] := rfl
  rw [hstate] at hhanded
  exact absurd hhanded (by decide)

end HTTPServer
end Volta
