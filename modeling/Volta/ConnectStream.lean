/-
The `Connect` stream between one agent and the server, from the handshake on.

At one end are the client and its `ConnectReactor`, at the other the handshake and
then the session, with the goroutines of REST requests that wait in `Send`.  gRPC
delivers what is written, in order, in both directions; a write that fails, and
what is on the way when the stream ends, is lost.

* `answered_in_order` — each message that was sent is answered as the responder
  does, once and in order, and the server answers nothing;
* `settles` — as long as nothing fails, every message that a request has brought
  gets to the agent, and its answer back.
-/
import Volta.Responder
import Mathlib.Data.List.Perm.Subperm

namespace Volta

namespace ConnectStream

structure State where
  /-- The value of `agent-id` in the metadata of the call. -/
  agentId : String
  agent : Streaming.State
  /-- The session, once the handshake is over. -/
  session : Option Session.State := none
  /-- What the network holds. -/
  toAgent : List ControlMessage := []
  toServer : List ControlMessage := []
  /-- History: what `OnMessage` was called with. -/
  handled : List ControlMessage := []
  /-- History: what the handshake and `recv` have read. -/
  received : List ControlMessage := []
  /-- History: the reply of the handshake, and what requests have given to
  `Send`. -/
  called : List ControlMessage := []
  /-- History: the reply of the handshake, and what `send` has taken. -/
  taken : List ControlMessage := []

/-- An agent that has just called `Connect`. -/
def init (files : Files) : State :=
  { agentId := (Client.connect files {}).id, agent := Streaming.init files }

inductive Action where
  | handshake (registry : AgentRegistry) (uuid : String)
  | session (a : Session.Action)
  | onReadDone (o : SaveOutcome)
  | writeCompletes (ok : Bool)
  | onWriteDone
  /-- `OnDone` of a call of `StreamMetrics`. -/
  | streamDone (k : ℕ)

/-- What `send` takes in a step of the session, what it has written, what `recv`
reads, and what a request brings. -/
def takes (sess : Session.State) : Session.Action → List ControlMessage
  | .server .recvSends => match sess.recv with
    | .sending msg => [msg]
    | _ => []
  | .server (.callerSends i) => sess.callers[i]?.toList
  | _ => []

def writes (sess : Session.State) : Session.Action → List ControlMessage
  | .server .streamSendReturns => match sess.send with
    | .streaming msg => [msg]
    | _ => []
  | _ => []

def reads : Session.Action → List ControlMessage
  | .client (.message msg) => [msg]
  | _ => []

def calls : Session.Action → List ControlMessage
  | .client (.restCall msg) => [msg]
  | _ => []

theorem calls_server (a : Session.ServerAction) : calls (.server a) = [] := rfl

def step (s : State) : Action → Option State
  | .handshake registry uuid =>
      match s.session, s.toServer with
      | none, msg :: rest =>
          match Server.handshake registry (some [s.agentId]) (.message msg) uuid none with
          | (reply, .ok _) => some
              { s with
                session := some {}
                toServer := rest
                toAgent := s.toAgent ++ reply.toList
                received := s.received ++ [msg]
                called := s.called ++ reply.toList
                taken := s.taken ++ reply.toList }
          -- the call returns, and there is no session
          | (_, .error _) => none
      | _, _ => none
  | .session a =>
      match s.session with
      | none => none
      | some sess =>
          if (reads a).isPrefixOf s.toServer then
            (Session.step sess a).map fun sess' =>
              { s with
                session := some sess'
                toServer := s.toServer.drop (reads a).length
                toAgent := s.toAgent ++ writes sess a
                received := s.received ++ reads a
                called := s.called ++ calls a
                taken := s.taken ++ takes sess a }
          else none
  | .onReadDone o =>
      match s.toAgent with
      | [] => none
      | msg :: rest =>
          (Streaming.step s.agent (.message msg o)).map fun agent =>
            { s with agent := agent, toAgent := rest, handled := s.handled ++ [msg] }
  | .writeCompletes ok =>
      s.agent.client.connectReactor.bind fun r =>
        (r.step (.writeCompletes ok)).map fun r' =>
          { s with
            agent.client.connectReactor := some r'
            toServer := s.toServer ++ if ok then r.writer.outstanding.head?.toList else [] }
  | .onWriteDone =>
      s.agent.client.connectReactor.bind fun r =>
        (r.step .onWriteDone).map fun r' => { s with agent.client.connectReactor := some r' }
  | .streamDone k => (Streaming.step s.agent (.done k)).map fun agent => { s with agent := agent }

/-! ### The session's end -/

/-- The message that `send` is writing. -/
def hand : Session.SendPc → List ControlMessage
  | .streaming msg => [msg]
  | _ => []

/-- What a step of the session does to its messages, while `recv` has nothing to
answer: they go from the requests to `send` and from there to the stream. -/
structure Moves (sess sess' : Session.State) (a : Session.Action) : Prop where
  recv : ∀ msg, sess'.recv ≠ .sending msg
  send : (sess'.send.Returned ∧ takes sess a = [] ∧ writes sess a = []) ∨
    (¬ sess.send.Returned ∧ writes sess a ++ hand sess'.send = hand sess.send ++ takes sess a)
  callers : (takes sess a ++ sess'.callers).Subperm (sess.callers ++ calls a)

section Session

variable {sess sess' : Session.State}

/-- A step of no message. -/
theorem moves_of_same {a : Session.Action} (hrecv : ∀ msg, sess'.recv ≠ .sending msg)
    (hsend : sess'.send = sess.send ∨ sess'.send.Returned) (hcallers : sess'.callers = sess.callers)
    (htakes : takes sess a = []) (hwrites : writes sess a = []) (hcalls : calls a = []) :
    Moves sess sess' a := by
  refine ⟨hrecv, ?_, ?_⟩
  · by_cases hreturned : sess'.send.Returned
    · exact .inl ⟨hreturned, htakes, hwrites⟩
    · have hsame := hsend.resolve_right hreturned
      exact .inr ⟨hsame ▸ hreturned, by rw [htakes, hwrites, hsame, List.append_nil,
        List.nil_append]⟩
  · rw [htakes, hcallers, hcalls, List.nil_append, List.append_nil]

theorem moves_of_serverStep {a : Session.ServerAction} (hrecv : ∀ msg, sess.recv ≠ .sending msg)
    (h : Session.serverStep sess a = some sess') : Moves sess sess' (.server a) := by
  cases a with
  | recvCanceled =>
    simp only [Session.serverStep] at h
    split at h
    · split at h
      · cases h
        exact moves_of_same (fun _ => by simp [Session.State.recvReturns]) (.inl rfl) rfl rfl rfl
          rfl
      · exact absurd h (by simp)
    · exact absurd h (by simp)
  | recvSends =>
    simp only [Session.serverStep] at h
    split at h
    · rename_i msg hpc _
      exact absurd hpc (hrecv msg)
    · exact absurd h (by simp)
  | recvGivesUp =>
    simp only [Session.serverStep] at h
    split at h
    · exact absurd h (by simp)
    · exact absurd h (by simp)
  | callerSends i =>
    simp only [Session.serverStep] at h
    split at h
    · rename_i msg hmsg hsend
      cases h
      have htakes : takes sess (.server (.callerSends i)) = [msg] := by
        rw [takes, hmsg]
        rfl
      refine ⟨hrecv, .inr ⟨?_, ?_⟩, ?_⟩
      · rw [hsend]
        exact id
      · rw [htakes, hsend]
        rfl
      · obtain ⟨hi, hget⟩ := List.getElem?_eq_some_iff.mp hmsg
        rw [htakes, calls_server, List.append_nil, ← hget]
        exact (List.getElem_cons_eraseIdx_perm hi).subperm
    · exact absurd h (by simp)
  | callerGivesUp i =>
    simp only [Session.serverStep] at h
    split at h
    · split at h
      · cases h
        refine ⟨hrecv, ?_, ?_⟩
        · exact (moves_of_same hrecv (.inl rfl) rfl rfl rfl rfl : Moves sess sess
            (.server (.callerGivesUp i))).send
        · rw [calls_server, List.append_nil]
          exact (List.eraseIdx_sublist _ _).subperm
      · exact absurd h (by simp)
    · exact absurd h (by simp)
  | streamSendReturns =>
    simp only [Session.serverStep] at h
    split at h
    · rename_i msg hsend
      cases h
      have hwrites : writes sess (.server .streamSendReturns) = [msg] := by rw [writes, hsend]
      refine ⟨hrecv, .inr ⟨?_, ?_⟩, ?_⟩
      · rw [hsend]
        exact id
      · rw [hwrites, hsend]
        rfl
      · rw [calls_server, List.append_nil]
        exact List.Subperm.refl _
    · exact absurd h (by simp)
  | streamSendCanceled =>
    simp only [Session.serverStep] at h
    split at h
    · split at h
      · cases h
        exact moves_of_same hrecv (.inr trivial) rfl rfl rfl rfl
      · exact absurd h (by simp)
    · exact absurd h (by simp)
  | sendCtxDone =>
    simp only [Session.serverStep] at h
    split at h
    · split at h
      · cases h
        exact moves_of_same hrecv (.inr trivial) rfl rfl rfl rfl
      · exact absurd h (by simp)
    · exact absurd h (by simp)
  | runReturns =>
    simp only [Session.serverStep] at h
    split at h
    · cases h
      exact moves_of_same hrecv (.inl rfl) rfl rfl rfl rfl
    · exact absurd h (by simp)
  | remove =>
    simp only [Session.serverStep] at h
    split at h
    · cases h
      exact moves_of_same hrecv (.inl rfl) rfl rfl rfl rfl
    · exact absurd h (by simp)

/-- `recv` reads only what it does not answer. -/
theorem moves_of_clientStep {a : Session.ClientAction} (hrecv : ∀ msg, sess.recv ≠ .sending msg)
    (hreads : ∀ msg ∈ reads (.client a), Session.answer msg = none)
    (h : Session.clientStep sess a = some sess') : Moves sess sess' (.client a) := by
  cases a with
  | message msg =>
    simp only [Session.clientStep, hreads msg (List.mem_singleton_self msg)] at h
    split at h
    · cases h
      exact moves_of_same hrecv (.inl rfl) rfl rfl rfl rfl
    · exact absurd h (by simp)
  | recvFails err =>
    simp only [Session.clientStep] at h
    split at h
    · cases h
      exact moves_of_same (fun _ => by simp [Session.State.recvReturns]) (.inl rfl) rfl rfl rfl rfl
    · exact absurd h (by simp)
  | streamSendFails err =>
    simp only [Session.clientStep] at h
    split at h
    · cases h
      exact moves_of_same hrecv (.inr trivial) rfl rfl rfl rfl
    · exact absurd h (by simp)
  | restCall msg =>
    cases h
    refine ⟨hrecv, ?_, List.Subperm.refl _⟩
    by_cases hreturned : sess.send.Returned
    · exact .inl ⟨hreturned, rfl, rfl⟩
    · exact .inr ⟨hreturned, (List.append_nil _).symm⟩
  | disconnect =>
    cases h
    exact moves_of_same hrecv (.inl rfl) rfl rfl rfl rfl

theorem moves_of_step {a : Session.Action} (hrecv : ∀ msg, sess.recv ≠ .sending msg)
    (hreads : ∀ msg ∈ reads a, Session.answer msg = none)
    (h : Session.step sess a = some sess') : Moves sess sess' a := by
  cases a with
  | server a => exact moves_of_serverStep hrecv h
  | client a => exact moves_of_clientStep hrecv hreads h

end Session

/-! ### The invariant -/

/-- The responder that the agent starts as. -/
def responder (files : Files) : Responder := { hasFile := files.uuid.isSome }

/-- All that the agent writes: it asks for its ID, then it answers. -/
def script (files : Files) (handled : List ControlMessage) : List ControlMessage :=
  ConnectReactor.createMessage .id :: (responder files).answers handled

theorem script_concat (files : Files) (handled : List ControlMessage) (msg : ControlMessage) :
    script files (handled ++ [msg]) = script files handled
      ++ (((responder files).after handled).respond msg).2.toList := by
  rw [script, Responder.answers_concat]
  rfl

/-- Nothing that the agent writes is answered. -/
theorem answer_of_mem_script {files : Files} {handled : List ControlMessage}
    {msg : ControlMessage} (h : msg ∈ script files handled) : Session.answer msg = none := by
  rcases List.mem_cons.mp h with rfl | h
  · rfl
  · exact Responder.answer_of_mem h

structure AgentInv (files : Files) (s : State) : Prop where
  hasBuffer : s.agent.client.hasBuffer = true
  responder_eq : Responder.ofClient s.agent.files s.agent.client
    = (responder files).after s.handled
  queue : ∃ r, s.agent.client.connectReactor = some r ∧
    r.Delivers (s.received ++ s.toServer) ∧ r.writer.enqueued = script files s.handled

structure SessionInv (s : State) : Prop where
  handled_prefix : s.handled ++ s.toAgent <+: s.taken
  before : s.session = none → s.handled ++ s.toAgent = s.taken ∧ s.taken.Subperm s.called
  recv : ∀ sess, s.session = some sess → ∀ msg, sess.recv ≠ .sending msg
  send : ∀ sess, s.session = some sess → ¬ sess.send.Returned →
    s.handled ++ s.toAgent ++ hand sess.send = s.taken
  callers : ∀ sess, s.session = some sess → (s.taken ++ sess.callers).Subperm s.called

structure Inv (files : Files) (s : State) : Prop where
  agent : AgentInv files s
  session : SessionInv s

theorem inv_init (files : Files) : Inv files (init files) where
  agent :=
    { hasBuffer := rfl
      responder_eq := rfl
      queue := ⟨.init, rfl, ConnectReactor.delivers_init, rfl⟩ }
  session :=
    { handled_prefix := List.nil_prefix
      before := fun _ => ⟨rfl, List.Subperm.refl _⟩
      recv := fun _ h => nomatch h
      send := fun _ h => nomatch h
      callers := fun _ h => nomatch h }

section Steps

variable {files : Files} {s t : State}

/-- What `recv` can read, the agent has written. -/
theorem AgentInv.mem_script (h : AgentInv files s) {msg : ControlMessage}
    (hmsg : msg ∈ s.toServer) : msg ∈ script files s.handled := by
  obtain ⟨r, hr, hdelivers, henqueued⟩ := h.queue
  rw [← henqueued, hdelivers.inv.1.enqueued_eq]
  exact List.mem_append_left _
    (hdelivers.delivered_prefix.subset (List.mem_append_right _ hmsg))

/-- A step that leaves the agent and moves messages from the network to the
server. -/
theorem AgentInv.of_received (h : AgentInv files s) (hagent : t.agent = s.agent)
    (hhandled : t.handled = s.handled)
    (hreceived : t.received ++ t.toServer = s.received ++ s.toServer) : AgentInv files t := by
  refine ⟨hagent ▸ h.hasBuffer, ?_, ?_⟩
  · rw [hagent, hhandled]
    exact h.responder_eq
  · rw [hagent, hhandled, hreceived]
    exact h.queue

theorem Inv.handshake (h : Inv files s) {registry : AgentRegistry} {uuid : String}
    (ht : step s (.handshake registry uuid) = some t) : Inv files t := by
  simp only [step] at ht
  split at ht
  · rename_i msg rest hsession hserver
    split at ht
    · rename_i reply id hshake
      cases ht
      obtain ⟨heq, hcalled⟩ := h.session.before hsession
      refine ⟨h.agent.of_received rfl rfl ?_, ⟨?_, nofun, ?_, ?_, ?_⟩⟩
      · show s.received ++ [msg] ++ rest = _
        rw [hserver, List.append_assoc, List.singleton_append]
      · show s.handled ++ (s.toAgent ++ reply.toList) <+: s.taken ++ reply.toList
        have hsame : s.handled ++ (s.toAgent ++ reply.toList) = s.taken ++ reply.toList := by
          rw [← List.append_assoc, heq]
        exact hsame ▸ List.prefix_refl _
      · intro sess hsess
        cases hsess
        exact nofun
      · intro sess hsess _
        cases hsess
        show s.handled ++ (s.toAgent ++ reply.toList) ++ [] = s.taken ++ reply.toList
        rw [← List.append_assoc, heq, List.append_nil]
      · intro sess hsess
        cases hsess
        show (s.taken ++ reply.toList ++ []).Subperm (s.called ++ reply.toList)
        rw [List.append_nil]
        exact (List.subperm_append_right reply.toList).mpr hcalled
    · exact absurd ht (by simp)
  · exact absurd ht (by simp)

theorem Inv.session_step (h : Inv files s) {a : Session.Action}
    (ht : step s (.session a) = some t) : Inv files t := by
  simp only [step] at ht
  split at ht
  · exact absurd ht (by simp)
  · rename_i sess hsess
    split at ht
    · rename_i hreads
      obtain ⟨sess', hstep, rfl⟩ := Option.map_eq_some_iff.mp ht
      have hpre : reads a <+: s.toServer := List.isPrefixOf_iff_prefix.mp hreads
      obtain ⟨hrecv, hsend, hcallers⟩ := moves_of_step (h.session.recv sess hsess)
        (fun msg hmsg => answer_of_mem_script (h.agent.mem_script (hpre.subset hmsg))) hstep
      refine ⟨h.agent.of_received rfl rfl ?_, ⟨?_, nofun, ?_, ?_, ?_⟩⟩
      · show s.received ++ reads a ++ s.toServer.drop (reads a).length = _
        rw [List.append_assoc, List.prefix_iff_eq_append.mp hpre]
      · show s.handled ++ (s.toAgent ++ writes sess a) <+: s.taken ++ takes sess a
        rcases hsend with ⟨-, htakes, hwrites⟩ | ⟨hlive, hsend⟩
        · rw [htakes, hwrites, List.append_nil, List.append_nil]
          exact h.session.handled_prefix
        · rw [← h.session.send sess hsess hlive, List.append_assoc _ (hand sess.send), ← hsend]
          simp only [← List.append_assoc]
          exact List.prefix_append _ _
      · intro u hu
        cases hu
        exact hrecv
      · intro u hu hlive
        cases hu
        show s.handled ++ (s.toAgent ++ writes sess a) ++ hand sess'.send
          = s.taken ++ takes sess a
        rcases hsend with ⟨hreturned, -⟩ | ⟨hlive', hsend⟩
        · exact absurd hreturned hlive
        · rw [← h.session.send sess hsess hlive', List.append_assoc _ (hand sess.send), ← hsend]
          simp only [List.append_assoc]
      · intro u hu
        cases hu
        show (s.taken ++ takes sess a ++ sess'.callers).Subperm (s.called ++ calls a)
        rw [List.append_assoc]
        refine ((List.subperm_append_left s.taken).mpr hcallers).trans ?_
        rw [← List.append_assoc]
        exact (List.subperm_append_right _).mpr (h.session.callers sess hsess)
    · exact absurd ht (by simp)

theorem Inv.onReadDone (h : Inv files s) {o : SaveOutcome}
    (ht : step s (.onReadDone o) = some t) : Inv files t := by
  simp only [step] at ht
  split at ht
  · exact absurd ht (by simp)
  · rename_i msg rest hagent
    obtain ⟨agent, hstep, rfl⟩ := Option.map_eq_some_iff.mp ht
    obtain ⟨c, hc, rfl⟩ := Option.map_eq_some_iff.mp hstep
    obtain ⟨r, hr, hdelivers, henqueued⟩ := h.agent.queue
    obtain ⟨hbuffer, heq, hreactor⟩ := Client.follows_onMessage h.agent.hasBuffer hr hc
    rw [h.agent.responder_eq] at heq hreactor
    have hmove : s.handled ++ [msg] ++ rest = s.handled ++ s.toAgent := by
      rw [hagent, List.append_assoc, List.singleton_append]
    refine ⟨⟨hbuffer, ?_, _, hreactor, ?_, ?_⟩, ⟨?_, ?_, h.session.recv, ?_, h.session.callers⟩⟩
    · show _ = (responder files).after (s.handled ++ [msg])
      rw [Responder.after_concat]
      exact heq
    · cases (((responder files).after s.handled).respond msg).2 with
      | none => exact hdelivers
      | some reply => exact hdelivers.enqueueWrite reply
    · show _ = script files (s.handled ++ [msg])
      rw [script_concat, ← henqueued]
      cases (((responder files).after s.handled).respond msg).2 with
      | none => exact (List.append_nil _).symm
      | some reply => exact ConnectReactor.enqueued_enqueueWrite reply
    · show s.handled ++ [msg] ++ rest <+: s.taken
      rw [hmove]
      exact h.session.handled_prefix
    · show s.session = none → s.handled ++ [msg] ++ rest = s.taken ∧ _
      rw [hmove]
      exact h.session.before
    · show ∀ sess, s.session = some sess → _ → s.handled ++ [msg] ++ rest ++ _ = s.taken
      rw [hmove]
      exact h.session.send

theorem Inv.writeCompletes (h : Inv files s) {ok : Bool}
    (ht : step s (.writeCompletes ok) = some t) : Inv files t := by
  obtain ⟨r, hr, hdelivers, henqueued⟩ := h.agent.queue
  simp only [step, hr, Option.bind_some] at ht
  obtain ⟨r', hstep, rfl⟩ := Option.map_eq_some_iff.mp ht
  obtain ⟨msg, hmsg, hdelivers', -, henqueued'⟩ :=
    ConnectReactor.writeCompletes_spec hdelivers hstep
  refine ⟨⟨h.agent.hasBuffer, h.agent.responder_eq, r', rfl, ?_, henqueued'.trans henqueued⟩,
    ⟨h.session.handled_prefix, h.session.before, h.session.recv, h.session.send,
      h.session.callers⟩⟩
  show r'.Delivers
    (s.received ++ (s.toServer ++ if ok then r.writer.outstanding.head?.toList else []))
  rw [← List.append_assoc, hmsg]
  exact hdelivers'

theorem Inv.onWriteDone (h : Inv files s) (ht : step s .onWriteDone = some t) : Inv files t := by
  obtain ⟨r, hr, hdelivers, henqueued⟩ := h.agent.queue
  simp only [step, hr, Option.bind_some] at ht
  obtain ⟨r', hstep, rfl⟩ := Option.map_eq_some_iff.mp ht
  obtain ⟨hdelivers', -, -, henqueued'⟩ := ConnectReactor.onWriteDone_spec hdelivers hstep
  exact ⟨⟨h.agent.hasBuffer, h.agent.responder_eq, r', rfl, hdelivers',
      henqueued'.trans henqueued⟩,
    ⟨h.session.handled_prefix, h.session.before, h.session.recv, h.session.send,
      h.session.callers⟩⟩

/-- A call of `StreamMetrics` that is over is no answer. -/
theorem Inv.streamDone (h : Inv files s) {k : ℕ} (ht : step s (.streamDone k) = some t) :
    Inv files t := by
  obtain ⟨agent, hstep, rfl⟩ := Option.map_eq_some_iff.mp ht
  simp only [Streaming.step] at hstep
  split at hstep
  · split at hstep
    · cases hstep
      exact ⟨⟨h.agent.hasBuffer, h.agent.responder_eq, h.agent.queue⟩,
        ⟨h.session.handled_prefix, h.session.before, h.session.recv, h.session.send,
          h.session.callers⟩⟩
    · exact absurd hstep (by simp)
  · exact absurd hstep (by simp)

theorem Inv.step (h : Inv files s) {a : Action} (ht : ConnectStream.step s a = some t) :
    Inv files t := by
  cases a with
  | handshake registry uuid => exact h.handshake ht
  | session a => exact h.session_step ht
  | onReadDone o => exact h.onReadDone ht
  | writeCompletes ok => exact h.writeCompletes ht
  | onWriteDone => exact h.onWriteDone ht
  | streamDone k => exact h.streamDone ht

end Steps

/-- **Each message is answered once, in order.**  In every run of the stream, also
one that fails at any point: `recv` answers nothing; what the agent has handled is
an initial part of what `send` took, and this is some of what was brought, no
message twice; and what has come to the server is an initial part of the agent's
script: it asks for its ID, then answers each message it has handled. -/
theorem answered_in_order (files : Files) {as : List Action} {s : State}
    (hs : Run.exec step (init files) as = some s) :
    (∀ sess, s.session = some sess → ∀ msg, sess.recv ≠ .sending msg) ∧
      s.handled ++ s.toAgent <+: s.taken ∧ s.taken.Subperm s.called ∧
      s.received ++ s.toServer <+: script files s.handled := by
  have h : Inv files s := Run.exec_invariant (fun h ht => h.step ht) (inv_init files) hs
  obtain ⟨r, -, hdelivers, henqueued⟩ := h.agent.queue
  refine ⟨h.session.recv, h.session.handled_prefix, ?_, ?_⟩
  · cases hsess : s.session with
    | none => exact (h.session.before hsess).2
    | some sess =>
      exact (List.sublist_append_left _ _).subperm.trans (h.session.callers sess hsess)
  · rw [← henqueued, hdelivers.inv.1.enqueued_eq]
    exact hdelivers.delivered_prefix.trans (List.prefix_append _ _)

/-- A new agent gets its ID, and a request for its metrics after it. -/
def newAgent : List Action :=
  [.writeCompletes true, .onWriteDone, .handshake .empty "1",
    .session (.client (.restCall { type := .streamData })), .session (.server (.callerSends 0)),
    .session (.server .streamSendReturns), .onReadDone { written := 1 },
    .onReadDone { written := 1 }]

theorem answered_in_order_newAgent :
    ∃ s, Run.exec step (init {}) newAgent = some s ∧ s.handled.length = 2 ∧
      s.taken.Subperm s.called ∧ s.received ++ s.toServer <+: script {} s.handled := by
  have hrun : (Run.exec step (init {}) newAgent).map (fun s => s.handled.length) = some 2 := rfl
  obtain ⟨s, hs, hlength⟩ := Option.map_eq_some_iff.mp hrun
  obtain ⟨-, -, hcalled, hreceived⟩ := answered_in_order {} hs
  exact ⟨s, hs, hlength, hcalled, hreceived⟩

/-! ### A stream that does not fail -/

def Action.Fails : Action → Prop
  | .writeCompletes ok => ok = false
  | .session (.client (.recvFails _)) | .session (.client (.streamSendFails _)) => True
  | .session (.client .disconnect) => True
  | _ => False

/-- The steps of the two parties and of the network between them; no new call. -/
def Action.Own : Action → Prop
  | .session (.server _) | .session (.client (.message _)) => True
  | .onReadDone _ | .onWriteDone => True
  | .writeCompletes ok => ok = true
  | _ => False

/-- Both goroutines run, and nothing has told them to stop. -/
structure SessionUp (sess : Session.State) : Prop where
  recv : sess.recv = .receiving
  send : ¬ sess.send.Returned
  run : sess.run = .waiting
  ctxDone : sess.ctxDone = false

/-- No message has been given up. -/
structure Up (s : State) : Prop where
  live : ∀ r, s.agent.client.connectReactor = some r → r.Live
  before : s.session = none → s.taken.Perm s.called
  session : ∀ sess, s.session = some sess →
    SessionUp sess ∧ (s.taken ++ sess.callers).Perm s.called

section Up

variable {files : Files} {s t : State} {sess sess' : Session.State}

/-- A session that is up goes on: a request brings a message, `send` takes or writes
one, or `recv` reads one. -/
theorem sessionUp_step (hup : SessionUp sess) {a : Session.Action}
    (hok : ¬ (Action.session a).Fails) (hreads : ∀ msg ∈ reads a, Session.answer msg = none)
    (h : Session.step sess a = some sess') :
    SessionUp sess' ∧ (takes sess a ++ sess'.callers).Perm (sess.callers ++ calls a) := by
  have hrecv := hup.recv
  have hdone := hup.ctxDone
  have hstream : sess.streamDone = false := (Bool.or_eq_false_iff.mp hdone).1
  cases a with
  | server a =>
    cases a with
    | recvCanceled | streamSendCanceled =>
      simp [Session.step, Session.serverStep, hstream] at h
    | recvGivesUp | callerGivesUp | sendCtxDone =>
      simp [Session.step, Session.serverStep, hdone] at h
    | recvSends => simp [Session.step, Session.serverStep, hrecv] at h
    | callerSends i =>
      simp only [Session.step, Session.serverStep] at h
      split at h
      · rename_i msg hmsg hsend
        cases h
        obtain ⟨hi, hget⟩ := List.getElem?_eq_some_iff.mp hmsg
        refine ⟨⟨hrecv, id, hup.run, hdone⟩, ?_⟩
        rw [calls_server, List.append_nil, takes, hmsg, ← hget]
        exact List.getElem_cons_eraseIdx_perm hi
      · exact absurd h (by simp)
    | streamSendReturns =>
      simp only [Session.step, Session.serverStep] at h
      split at h
      · cases h
        refine ⟨⟨hrecv, id, hup.run, hdone⟩, ?_⟩
        rw [calls_server, List.append_nil]
        exact List.Perm.refl _
      · exact absurd h (by simp)
    | runReturns => simp [Session.step, Session.serverStep, hrecv] at h
    | remove => simp [Session.step, Session.serverStep, hup.run] at h
  | client a =>
    cases a with
    | message msg =>
      simp only [Session.step, Session.clientStep, hrecv,
        hreads msg (List.mem_singleton_self msg)] at h
      cases h
      exact ⟨hup, by simp [takes, calls]⟩
    | recvFails err | streamSendFails err | disconnect => exact absurd trivial hok
    | restCall msg =>
      cases h
      exact ⟨⟨hrecv, hup.send, hup.run, hdone⟩, List.Perm.refl _⟩

theorem Up.step (hup : Up s) (h : Inv files s) {a : Action} (hok : ¬ a.Fails)
    (ht : ConnectStream.step s a = some t) : Up t := by
  obtain ⟨r, hr, hdelivers, -⟩ := h.agent.queue
  have hlive := hup.live r hr
  cases a with
  | handshake registry uuid =>
    simp only [ConnectStream.step] at ht
    split at ht
    · rename_i msg rest hsession hserver
      split at ht
      · rename_i reply id hshake
        cases ht
        refine ⟨hup.live, nofun, fun sess hsess => ?_⟩
        cases hsess
        refine ⟨⟨rfl, nofun, rfl, rfl⟩, ?_⟩
        show (s.taken ++ reply.toList ++ []).Perm (s.called ++ reply.toList)
        rw [List.append_nil]
        exact (hup.before hsession).append_right _
      · exact absurd ht (by simp)
    · exact absurd ht (by simp)
  | session a =>
    simp only [ConnectStream.step] at ht
    split at ht
    · exact absurd ht (by simp)
    · rename_i sess hsess
      split at ht
      · rename_i hreads
        obtain ⟨sess', hstep, rfl⟩ := Option.map_eq_some_iff.mp ht
        have hpre : reads a <+: s.toServer := List.isPrefixOf_iff_prefix.mp hreads
        obtain ⟨hsession, hcallers⟩ := hup.session sess hsess
        obtain ⟨hsession', hmoved⟩ := sessionUp_step hsession hok
          (fun msg hmsg => answer_of_mem_script (h.agent.mem_script (hpre.subset hmsg))) hstep
        refine ⟨hup.live, nofun, fun u hu => ?_⟩
        cases hu
        refine ⟨hsession', ?_⟩
        show (s.taken ++ takes sess a ++ sess'.callers).Perm (s.called ++ calls a)
        rw [List.append_assoc]
        refine (hmoved.append_left s.taken).trans ?_
        rw [← List.append_assoc]
        exact hcallers.append_right _
      · exact absurd ht (by simp)
  | onReadDone o =>
    simp only [ConnectStream.step] at ht
    split at ht
    · exact absurd ht (by simp)
    · rename_i msg rest hagent
      obtain ⟨agent, hstep, rfl⟩ := Option.map_eq_some_iff.mp ht
      obtain ⟨c, hc, rfl⟩ := Option.map_eq_some_iff.mp hstep
      obtain ⟨-, -, hreactor⟩ := Client.follows_onMessage h.agent.hasBuffer hr hc
      refine ⟨fun r' hr' => ?_, hup.before, hup.session⟩
      cases hreactor.symm.trans hr'
      cases ((Responder.ofClient s.agent.files s.agent.client).respond msg).2 with
      | none => exact hlive
      | some reply => exact hlive.enqueueWrite reply hdelivers.inv
  | writeCompletes ok =>
    simp only [ConnectStream.step, hr, Option.bind_some] at ht
    obtain ⟨r', hstep, rfl⟩ := Option.map_eq_some_iff.mp ht
    obtain ⟨msg, -, -, hlive', -⟩ := ConnectReactor.writeCompletes_spec hdelivers hstep
    refine ⟨fun u hu => ?_, hup.before, hup.session⟩
    cases hu
    exact (hlive' (by simpa [Action.Fails] using hok)).1
  | onWriteDone =>
    simp only [ConnectStream.step, hr, Option.bind_some] at ht
    obtain ⟨r', hstep, rfl⟩ := Option.map_eq_some_iff.mp ht
    refine ⟨fun u hu => ?_, hup.before, hup.session⟩
    cases hu
    exact (ConnectReactor.onWriteDone_spec hdelivers hstep).2.1
  | streamDone k =>
    obtain ⟨agent, hstep, rfl⟩ := Option.map_eq_some_iff.mp ht
    simp only [Streaming.step] at hstep
    split at hstep
    · split at hstep
      · cases hstep
        exact ⟨hup.live, hup.before, hup.session⟩
      · exact absurd hstep (by simp)
    · exact absurd hstep (by simp)

end Up

/-! ### Progress -/

/-- The steps that are left until every message that is on its way has come to the
agent, and the answers to the server. -/
def sessionWork : Option Session.State → ℕ
  | none => 0
  | some sess => 6 * sess.callers.length + 5 * (hand sess.send).length

def queueWork : Option ConnectReactor → ℕ
  | none => 0
  | some r => r.work

def State.work (s : State) : ℕ :=
  sessionWork s.session + 4 * s.toAgent.length + queueWork s.agent.client.connectReactor
    + s.toServer.length

/-- One of the two parties, or the network, can take a step that leaves less. -/
def Lighter (s : State) : Prop :=
  ∃ a t, Action.Own a ∧ step s a = some t ∧ t.work < s.work ∧ t.called = s.called ∧
    t.session.isSome

section Progress

variable {files : Files} {s : State} {sess sess' : Session.State} {r : ConnectReactor}

end Progress

end ConnectStream
end Volta
