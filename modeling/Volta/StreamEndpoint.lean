/-
`POST /api/agents/{id}/stream` while agents come and go (`HandleStreamData` in
`httpserver.go`, `StreamData` in `commandRouter.go`, `Send` in `session.go`).

A request looks its agent up, and then waits in the session's `Send` for the
send loop or for the end of the session's context.  The sessions move by the
steps of `Session`, other callers' included.

* `handleStreamData_response` — one request is the handler of `HTTPServer`;
* `reported_iff` — all answers say what happened exactly in the runs in which
  every request finds its session and none gives up in `Send`: the errors of
  the other requests are none of those that `writeError` looks for.
-/
import Volta.Session
import Volta.HttpServer

namespace Volta

namespace StreamEndpoint

open HTTPServer (Response Env writeError)

/-- What a request was answered, with the session that its look-up found. -/
structure Answer where
  found : Option AgentSession
  response : Response
  deriving DecidableEq

structure State where
  registry : AgentRegistry := .empty
  /-- The session of each `Connect` call. -/
  sessions : ℕ → Session.State := fun _ => {}
  /-- The requests that are in `Send`, with the session. -/
  waiting : ℕ → Option AgentSession := fun _ => none
  answered : ℕ → Option Answer := fun _ => none
  nextRequest : ℕ := 0
  /-- The messages of requests that send loops have taken. -/
  handed : List (ℕ × AgentSession × ControlMessage) := []

def start (registry : AgentRegistry) (sessions : ℕ → Session.State) : State where
  registry := registry
  sessions := sessions

def streamDataMessage : ControlMessage := { type := .streamData }

/-- The response to the error of `StreamData`. -/
def notFoundResponse : Response :=
  writeError { text := "StreamData: " ++ HTTPServer.errAgentNotFound }

/-- The response to the error of `Send`. -/
def disconnectedResponse (sess : AgentSession) : Response :=
  writeError { text := "agent " ++ sess.id ++ " disconnected" }

def acceptedResponse : Response := { status := 202 }

def State.answer (s : State) (q : ℕ) (a : Answer) : State :=
  { s with
    waiting := Function.update s.waiting q none
    answered := Function.update s.answered q (some a) }

inductive Action where
  | add (sess : AgentSession)
  | remove (id : String)
  | session (stream : ℕ) (a : Session.Action)
  | request (agentID : String)
  | sends (q : ℕ)
  | givesUp (q : ℕ)

def step (s : State) : Action → Option State
  | .add sess => some { s with registry := s.registry.add sess }
  | .remove id => some { s with registry := s.registry.remove id }
  | .session stream a =>
      (Session.step (s.sessions stream) a).map fun t =>
        { s with sessions := Function.update s.sessions stream t }
  | .request agentID =>
      match s.registry.get agentID with
      | none => some
          { s.answer s.nextRequest { found := none, response := notFoundResponse } with
            nextRequest := s.nextRequest + 1 }
      | some sess => some
          { s with
            waiting := Function.update s.waiting s.nextRequest (some sess)
            nextRequest := s.nextRequest + 1 }
  | .sends q =>
      match s.waiting q with
      | none => none
      | some sess =>
          match (s.sessions sess.stream).send with
          | .selecting => some
              { s.answer q { found := some sess, response := acceptedResponse } with
                sessions := Function.update s.sessions sess.stream
                  { s.sessions sess.stream with send := .streaming streamDataMessage }
                handed := s.handed ++ [(q, sess, streamDataMessage)] }
          | _ => none
  | .givesUp q =>
      match s.waiting q with
      | none => none
      | some sess =>
          if (s.sessions sess.stream).ctxDone then
            some (s.answer q { found := some sess, response := disconnectedResponse sess })
          else none

/-! ### The layers below -/

/-- One request is the handler, its oracle the step that ends the `Send`. -/
theorem handleStreamData_response (env : Env) (s : HTTPServer.State) (agentID : String) :
    (HTTPServer.handleStreamData env s agentID).response = some
      (match s.registry.get agentID with
        | none => notFoundResponse
        | some sess => if env.taken sess then acceptedResponse else disconnectedResponse sess) := by
  rw [HTTPServer.handleStreamData, HTTPServer.streamData]
  cases s.registry.get agentID with
  | none => rfl
  | some sess =>
    simp only [HTTPServer.send]
    split <;> rfl

theorem eraseIdx_concat (l : List ControlMessage) (msg : ControlMessage) :
    (l ++ [msg])[l.length]? = some msg ∧ (l ++ [msg]).eraseIdx l.length = l := by
  refine ⟨List.getElem?_concat_length, ?_⟩
  rw [List.eraseIdx_append_of_length_le (le_refl _), Nat.sub_self]
  exact List.append_nil l

/-- `sends` is a caller of the session whose message the send loop takes. -/
theorem exec_callerSends {t : Session.State} (h : t.send = .selecting) (msg : ControlMessage) :
    Run.exec Session.step t
        [.client (.restCall msg), .server (.callerSends t.callers.length)]
      = some { t with send := .streaming msg } := by
  obtain ⟨hget, herase⟩ := eraseIdx_concat t.callers msg
  refine Run.exec_cons_eq_some.mpr ⟨{ t with callers := t.callers ++ [msg] }, rfl, ?_⟩
  refine Run.exec_cons_eq_some.mpr ⟨{ t with send := .streaming msg }, ?_, rfl⟩
  simp only [Session.step, Session.serverStep, hget, h, herase]

/-- `givesUp` is a caller that sees the context done. -/
theorem exec_callerGivesUp {t : Session.State} (h : t.ctxDone = true) (msg : ControlMessage) :
    Run.exec Session.step t
        [.client (.restCall msg), .server (.callerGivesUp t.callers.length)]
      = some t := by
  obtain ⟨hget, herase⟩ := eraseIdx_concat t.callers msg
  have hdone : ({ t with callers := t.callers ++ [msg] } : Session.State).ctxDone = true := h
  refine Run.exec_cons_eq_some.mpr ⟨{ t with callers := t.callers ++ [msg] }, rfl, ?_⟩
  refine Run.exec_cons_eq_some.mpr ⟨t, ?_, rfl⟩
  simp only [Session.step, Session.serverStep, hget, hdone, herase, if_true]

/-! ### What an answer says -/

/-- What the send loops took of a request. -/
def State.handedFor (s : State) (q : ℕ) : List (AgentSession × ControlMessage) :=
  (s.handed.filter fun h => h.1 = q).map Prod.snd

/-- The status tells what happened to the request. -/
structure Reports (handed : List (AgentSession × ControlMessage)) (a : Answer) : Prop where
  not_found : a.response.status = 404 ↔ a.found = none
  unavailable : a.response.status = 503 ↔ a.found ≠ none ∧ handed = []
  accepted : a.response.status = 202 ↔
    ∃ sess, a.found = some sess ∧ handed = [(sess, streamDataMessage)]
  no_internal : a.response.status ≠ 500

def Reported (s : State) : Prop := ∀ q a, s.answered q = some a → Reports (s.handedFor q) a

/-- The condition on a step: a request finds its session, and does not see the
end of its context. -/
def Delivered (s : State) : Action → Prop
  | .request agentID => s.registry.get agentID ≠ none
  | .givesUp _ => False
  | _ => True

/-- A request that waits has not been answered, and only an answered one has
been handed over. -/
structure Inv (s : State) : Prop where
  fresh : ∀ q, s.nextRequest ≤ q → s.waiting q = none ∧ s.answered q = none
  waiting : ∀ q sess, s.waiting q = some sess → s.answered q = none
  unanswered : ∀ q, s.answered q = none → s.handedFor q = []

theorem inv_start (registry : AgentRegistry) (sessions : ℕ → Session.State) :
    Inv (start registry sessions) where
  fresh _ _ := ⟨rfl, rfl⟩
  waiting _ _ h := absurd h (by simp [start])
  unanswered _ _ := rfl

theorem handedFor_concat (s : State) (q q' : ℕ) (x : AgentSession × ControlMessage) :
    (({ s with handed := s.handed ++ [(q, x)] } : State).handedFor q')
      = if q' = q then s.handedFor q' ++ [x] else s.handedFor q' := by
  rw [State.handedFor, List.filter_append, List.map_append, List.filter_singleton]
  by_cases h : q' = q
  · rw [if_pos h, decide_eq_true h.symm]
    rfl
  · rw [if_neg h, decide_eq_false (Ne.symm h)]
    exact List.append_nil _

namespace Inv

variable {s t : State}

/-- What other parties do leaves the requests alone. -/
theorem of_same (h : Inv s) (hw : t.waiting = s.waiting) (ha : t.answered = s.answered)
    (hn : t.nextRequest = s.nextRequest) (hh : t.handed = s.handed) : Inv t where
  fresh q hq := by
    rw [hw, ha]
    exact h.fresh q (hn ▸ hq)
  waiting q sess hq := by
    rw [ha]
    exact h.waiting q sess (hw ▸ hq)
  unanswered q hq := by
    rw [State.handedFor, hh]
    exact h.unanswered q (ha ▸ hq)

theorem lt_nextRequest (h : Inv s) {q : ℕ} {sess : AgentSession} (hq : s.waiting q = some sess) :
    q < s.nextRequest := by
  by_contra hle
  rw [(h.fresh q (Nat.le_of_not_lt hle)).1] at hq
  exact absurd hq (by simp)

theorem answer (h : Inv s) {q n : ℕ} (a : Answer) (hq : q < n) (hn : s.nextRequest ≤ n) :
    Inv { s.answer q a with nextRequest := n } where
  fresh q' hq' := by
    have hle : n ≤ q' := hq'
    have hne : q' ≠ q := by omega
    obtain ⟨hw, ha⟩ := h.fresh q' (hn.trans hle)
    exact ⟨(Function.update_of_ne hne _ _).trans hw, (Function.update_of_ne hne _ _).trans ha⟩
  waiting q' sess hw := by
    rcases eq_or_ne q' q with rfl | hne
    · have hw' : Function.update s.waiting q' none q' = some sess := hw
      rw [Function.update_self] at hw'
      exact absurd hw' (by simp)
    · have hw' := (Function.update_of_ne hne _ s.waiting).symm.trans hw
      exact (Function.update_of_ne hne _ _).trans (h.waiting q' sess hw')
  unanswered q' ha := by
    rcases eq_or_ne q' q with rfl | hne
    · have ha' : Function.update s.answered q' (some a) q' = none := ha
      rw [Function.update_self] at ha'
      exact absurd ha' (by simp)
    · exact h.unanswered q' ((Function.update_of_ne hne _ s.answered).symm.trans ha)

theorem wait (h : Inv s) (sess : AgentSession) :
    Inv
      { s with
        waiting := Function.update s.waiting s.nextRequest (some sess)
        nextRequest := s.nextRequest + 1 } where
  fresh q hq := by
    have hle : s.nextRequest + 1 ≤ q := hq
    have hne : q ≠ s.nextRequest := by omega
    obtain ⟨hw, ha⟩ := h.fresh q (by omega)
    exact ⟨(Function.update_of_ne hne _ _).trans hw, ha⟩
  waiting q sess' hw := by
    rcases eq_or_ne q s.nextRequest with rfl | hne
    · exact (h.fresh _ (le_refl _)).2
    · exact h.waiting q sess' ((Function.update_of_ne hne _ s.waiting).symm.trans hw)
  unanswered := h.unanswered

theorem hand (h : Inv s) {q : ℕ} (hq : s.answered q ≠ none)
    (x : AgentSession × ControlMessage) : Inv { s with handed := s.handed ++ [(q, x)] } where
  fresh := h.fresh
  waiting := h.waiting
  unanswered q' ha := by
    have hne : q' ≠ q := fun heq => hq (heq ▸ ha)
    rw [handedFor_concat, if_neg hne]
    exact h.unanswered q' ha

theorem step (h : Inv s) {a : Action} (ht : StreamEndpoint.step s a = some t) : Inv t := by
  cases a with
  | add sess =>
    cases ht
    exact h.of_same rfl rfl rfl rfl
  | remove id =>
    cases ht
    exact h.of_same rfl rfl rfl rfl
  | session stream a =>
    obtain ⟨t', -, rfl⟩ := Option.map_eq_some_iff.mp ht
    exact h.of_same rfl rfl rfl rfl
  | request agentID =>
    simp only [StreamEndpoint.step] at ht
    split at ht
    · cases ht
      exact h.answer _ (Nat.lt_succ_self _) (Nat.le_succ _)
    · rename_i sess _
      cases ht
      exact h.wait sess
  | sends q =>
    simp only [StreamEndpoint.step] at ht
    split at ht
    · exact absurd ht (by simp)
    · rename_i sess hq
      split at ht
      · cases ht
        have ha := h.answer { found := some sess, response := acceptedResponse }
          (h.lt_nextRequest hq) (le_refl _)
        have hne : Function.update s.answered q
            (some { found := some sess, response := acceptedResponse }) q ≠ none := by
          rw [Function.update_self]
          simp
        exact (ha.hand hne (sess, streamDataMessage)).of_same rfl rfl rfl rfl
      · exact absurd ht (by simp)
  | givesUp q =>
    simp only [StreamEndpoint.step] at ht
    split at ht
    · exact absurd ht (by simp)
    · rename_i sess hq
      split at ht
      · cases ht
        exact h.answer _ (h.lt_nextRequest hq) (le_refl _)
      · exact absurd ht (by simp)

end Inv

theorem notFoundResponse_status : notFoundResponse.status = 500 := rfl

theorem disconnectedResponse_status (sess : AgentSession) :
    (disconnectedResponse sess).status = 500 := rfl

/-- An answer more, that says what happened to its request. -/
theorem Reported.answer {s t : State} (h : Reported s) {q : ℕ} {a : Answer}
    (ha : t.answered = Function.update s.answered q (some a))
    (hother : ∀ q', q' ≠ q → t.handedFor q' = s.handedFor q') (hq : Reports (t.handedFor q) a) :
    Reported t := by
  intro q' a' ha'
  rw [ha] at ha'
  rcases eq_or_ne q' q with rfl | hne
  · rw [Function.update_self, Option.some_inj] at ha'
    rw [← ha']
    exact hq
  · rw [Function.update_of_ne hne] at ha'
    rw [hother q' hne]
    exact h q' a' ha'

theorem reports_accepted (sess : AgentSession) :
    Reports [(sess, streamDataMessage)] { found := some sess, response := acceptedResponse } where
  not_found := iff_of_false (show acceptedResponse.status ≠ 404 by decide) (by simp)
  unavailable := iff_of_false (show acceptedResponse.status ≠ 503 by decide) (by simp)
  accepted := iff_of_true rfl ⟨sess, rfl, rfl⟩
  no_internal := show acceptedResponse.status ≠ 500 by decide

/-- A step that meets the condition adds no wrong answer. -/
theorem Reported.step {s t : State} (h : Reported s) (hi : Inv s) {a : Action}
    (hok : Delivered s a) (ht : StreamEndpoint.step s a = some t) : Reported t := by
  cases a with
  | add sess =>
    cases ht
    exact h
  | remove id =>
    cases ht
    exact h
  | session stream a =>
    obtain ⟨t', -, rfl⟩ := Option.map_eq_some_iff.mp ht
    exact h
  | request agentID =>
    simp only [StreamEndpoint.step] at ht
    split at ht
    · rename_i hnone
      exact absurd hnone hok
    · cases ht
      exact h
  | sends q =>
    simp only [StreamEndpoint.step] at ht
    split at ht
    · exact absurd ht (by simp)
    · rename_i sess hq
      split at ht
      · cases ht
        have hnone : s.handedFor q = [] := hi.unanswered q (hi.waiting q sess hq)
        refine h.answer rfl (fun q' hne => ?_) ?_
        · exact (handedFor_concat s q q' _).trans (if_neg hne)
        · have hhanded := (handedFor_concat s q q (sess, streamDataMessage)).trans (if_pos rfl)
          rw [hnone] at hhanded
          exact hhanded ▸ reports_accepted sess
      · exact absurd ht (by simp)
  | givesUp q => exact absurd hok id

/-- A step that does not meet it answers 500. -/
theorem not_reported {s t : State} {a : Action} (hno : ¬ Delivered s a)
    (ht : StreamEndpoint.step s a = some t) : ¬ Reported t := by
  cases a with
  | request agentID =>
    have hnone : s.registry.get agentID = none := by
      by_contra hne
      exact hno hne
    simp only [StreamEndpoint.step, hnone, Option.some_inj] at ht
    intro h
    have ha : t.answered s.nextRequest = some { found := none, response := notFoundResponse } := by
      rw [← ht]
      exact Function.update_self _ _ _
    exact (h _ _ ha).no_internal notFoundResponse_status
  | givesUp q =>
    simp only [StreamEndpoint.step] at ht
    split at ht
    · exact absurd ht (by simp)
    · rename_i sess _
      split at ht
      · intro h
        have ha : t.answered q
            = some { found := some sess, response := disconnectedResponse sess } := by
          rw [← Option.some_inj.mp ht]
          exact Function.update_self _ _ _
        exact (h _ _ ha).no_internal (disconnectedResponse_status sess)
      · exact absurd ht (by simp)
  | add sess => exact absurd trivial hno
  | remove id => exact absurd trivial hno
  | session stream a => exact absurd trivial hno
  | sends q => exact absurd trivial hno

/-- **When the stream endpoint reports what happened.** -/
theorem reported_iff {registry : AgentRegistry} {sessions : ℕ → Session.State} {as : List Action}
    {s : State} (hs : Run.exec step (start registry sessions) as = some s) :
    Run.Along step Reported (start registry sessions) as ↔
      Run.Meets step Delivered (start registry sessions) as := by
  have hstart : Inv (start registry sessions) ∧ Reported (start registry sessions) :=
    ⟨inv_start registry sessions, fun _ _ h => absurd h (by simp [start])⟩
  exact Run.along_iff_meets (I := fun s => Inv s ∧ Reported s) (fun h => h.2)
    (fun h hok ht => ⟨h.1.step ht, h.2.step h.1 hok ht⟩)
    (fun _ hno ht => not_reported hno ht) hstart hs

/-- Agent `a` is streamed; then its connection ends. -/
def streamOnce : List Action :=
  [.add { id := "a", stream := 0 }, .request "a", .sends 0, .session 0 (.client .disconnect)]

theorem reported_iff_once :
    ∃ s, Run.exec step (start .empty fun _ => {}) streamOnce = some s ∧
      Run.Along step Reported (start .empty fun _ => {}) streamOnce := by
  obtain ⟨s, hs⟩ : ∃ s, Run.exec step (start .empty fun _ => {}) streamOnce = some s := ⟨_, rfl⟩
  refine ⟨s, hs, (reported_iff hs).mpr ?_⟩
  refine ⟨trivial, fun t ht => ?_⟩
  cases ht
  refine ⟨show (AgentRegistry.empty.add { id := "a", stream := 0 }).get "a" ≠ none by decide,
    fun t ht => ?_⟩
  cases ht
  exact ⟨trivial, fun t ht => ⟨trivial, fun u hu => trivial⟩⟩

/-- No agent is registered, and the answer is 500. -/
theorem internal_error :
    ¬ ∀ (registry : AgentRegistry) (sessions : ℕ → Session.State) (as : List Action) (s : State),
      Run.exec step (start registry sessions) as = some s → Reported s := by
  intro hall
  obtain ⟨s, hs, ha⟩ : ∃ s, Run.exec step (start .empty fun _ => {}) [.request "a"] = some s ∧
      s.answered 0 = some { found := none, response := notFoundResponse } := ⟨_, rfl, rfl⟩
  exact (hall _ _ _ s hs 0 _ ha).no_internal notFoundResponse_status

/-- It is 500 also when the agent disconnects before the send loop comes to the
message. -/
example : (Run.exec step (start .empty fun _ => {})
      [.add { id := "a", stream := 0 }, .request "a", .session 0 (.client .disconnect),
        .givesUp 0]).bind (fun s => (s.answered 0).map fun a => a.response.status) = some 500 := by
  rfl

end StreamEndpoint
end Volta
