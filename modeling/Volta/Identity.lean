/-
The agent's ID (`volta_collector_client.cc`, `server.go`): one agent that
connects, and the server that greets it and sends it control messages.

The ID lives in the agent's file, in its client, in the metadata of its calls
and in the server's registry.  gRPC delivers the server's messages in order;
other agents change the registry at any time.

* `agrees_iff` — agent and server agree on the ID in every run exactly if
  `agent.uuid` is not there with an empty first line.
-/
import Volta.Client
import Volta.Server

namespace Volta

namespace Identity

structure State where
  files : Files
  client : Client := {}
  /-- The server's side of the agent's `Connect`. -/
  call : Option Server.Connect := none
  registry : AgentRegistry
  toAgent : List ControlMessage := []
  /-- History: the reply to `MESSAGE_ID`. -/
  reply : Option ControlMessage := none
  /-- History: the messages that the agent has processed. -/
  processed : List ControlMessage := []
  /-- History: another call has changed the registry under the session's ID. -/
  disturbed : Bool := false

def init (files : Files) (registry : AgentRegistry) : State :=
  { files := files, registry := registry }

/-- The session that is registered. -/
def State.session (s : State) : Option AgentSession := s.call.bind Server.Connect.session

/-- What `handshake` can see first: the first message that the agent has
written, a timeout or an error. -/
def arrives (c : Client) : Server.First → Bool
  | .message msg => (c.connectReactor.bind fun r => r.writer.started.head?) = some msg
  | .timeout => true
  | .recvError _ => true

/-- What a session sends: the commands of the REST server, and its answers. -/
def sendable (msg : ControlMessage) : Bool :=
  msg.type = .streamData ∨ msg.type = .pong ∨ msg.type = .error

inductive Action where
  | connect
  | handshake (first : Server.First) (uuid : String) (sendError : Option String)
  | add
  | run
  | sessionSends (msg : ControlMessage)
  | runReturns (err : Option Status)
  | remove
  | receive (o : SaveOutcome)
  | others (registry : AgentRegistry)

def step (s : State) : Action → Option State
  | .connect =>
      match s.call with
      | none =>
          let client := s.client.connect s.files
          some { s with client := client, call := some (.handshaking (some [client.id])) }
      | some _ => none
  | .handshake first uuid sendError =>
      match s.call with
      | some (.handshaking ids) =>
          -- `uuid.New().String()` is never empty
          if arrives s.client first ∧ uuid ≠ "" then
            let (reply, result) := Server.handshake s.registry ids first uuid sendError
            some
              { s with
                toAgent := s.toAgent ++ reply.toList
                reply := reply
                call := match result with
                  | .error err => some (.returned (some err))
                  | .ok id => some (.handshaken id) }
          else none
      | _ => none
  | .add =>
      match s.call with
      | some (.handshaken id) =>
          let sess : AgentSession := { id := id, stream := 0 }
          some { s with call := some (.added sess), registry := s.registry.add sess }
      | _ => none
  | .run =>
      match s.call with
      | some (.added sess) => some { s with call := some (.running sess) }
      | _ => none
  | .sessionSends msg =>
      match s.call with
      | some (.running _) =>
          if sendable msg then some { s with toAgent := s.toAgent ++ [msg] } else none
      | _ => none
  | .runReturns err =>
      match s.call with
      | some (.running sess) => some { s with call := some (.ended sess err) }
      | _ => none
  | .remove =>
      match s.call with
      | some (.ended sess err) => some
          { s with call := some (.returned err), registry := s.registry.remove sess.id }
      | _ => none
  | .receive o =>
      match s.toAgent with
      | [] => none
      | msg :: rest =>
          let (files, client) := s.client.onMessage s.files msg o
          client.map fun client =>
            { s with
              files := files
              client := client
              toAgent := rest
              processed := s.processed ++ [msg] }
  | .others registry => some
      { s with
        registry := registry
        disturbed := s.disturbed ||
          s.session.any fun sess => registry.get sess.id ≠ s.registry.get sess.id }

/-- The agent has processed the reply to its `MESSAGE_ID`, if there is one. -/
def State.Settled (s : State) : Prop := ∀ msg, s.reply = some msg → msg ∈ s.processed

/-- Once the session is registered and the agent has settled, the agent's ID,
also in its `StreamMetrics` calls, is the ID of the session, and a look-up of it
finds the session, unless another call has changed the registry there. -/
def Agrees (s : State) : Prop :=
  ∀ sess, s.session = some sess → s.Settled →
    s.client.id = sess.id ∧ (∀ rpc ∈ s.client.rpcs, rpc.agentId = sess.id) ∧
      (s.disturbed = false → s.registry.get s.client.id = some sess)

/-- `agent.uuid` is there and its first line is empty. -/
def EmptyFile (files : Files) : Prop := ∃ content, files.uuid = some content ∧ getline content = ""

/-! ### How the agent learns its ID -/

/-- The agent has the ID, and no message on its way changes it. -/
structure Knows (s : State) (id : String) : Prop where
  id_eq : s.client.id = id
  rpcs_eq : ∀ rpc ∈ s.client.rpcs, rpc.agentId = id
  no_id : ∀ msg ∈ s.toAgent, msg.type ≠ .id

/-- The agent has no ID and no file, and the next message brings both. -/
structure WillKnow (s : State) (id : String) : Prop where
  id_ne : id ≠ ""
  file : s.files.uuid = none
  rpcs : s.client.rpcs = []
  processed : s.processed = []
  reply : s.reply = some { type := .id, payload := some id }
  next : ∃ rest, s.toAgent = { type := .id, payload := some id } :: rest ∧
    ∀ msg ∈ rest, msg.type ≠ .id

def Learns (s : State) (id : String) : Prop := Knows s id ∨ WillKnow s id

/-- Nothing has been sent to the agent. -/
structure Quiet (s : State) : Prop where
  toAgent : s.toAgent = []
  processed : s.processed = []
  rpcs : s.client.rpcs = []

/-- What the agent knows at each place of the server's call. -/
def Informed (s : State) : Prop :=
  match s.call with
  | none => Quiet s ∧ s.client.id = "" ∧ ¬ EmptyFile s.files
  | some (.handshaking ids) =>
      Quiet s ∧ ids = some [s.client.id] ∧ (s.client.id = "" → s.files.uuid = none)
  | some (.handshaken id) => Learns s id
  | some (.added sess) => Learns s sess.id
  | some (.running sess) => Learns s sess.id
  | some (.ended sess _) => Learns s sess.id
  | some (.returned _) => True

structure Inv (s : State) : Prop where
  informed : Informed s
  registered : ∀ sess, s.session = some sess → s.disturbed = false →
    s.registry.get sess.id = some sess

theorem inv_init {files : Files} (hfile : ¬ EmptyFile files) (registry : AgentRegistry) :
    Inv (init files registry) where
  informed := ⟨⟨rfl, rfl, rfl⟩, rfl, hfile⟩
  registered _ h := nomatch h

/-- A handshake that succeeds has looked up the agent's ID, or sent it a new
one. -/
theorem handshake_ok {registry : AgentRegistry} {id : String} {first : Server.First}
    {uuid : String} {sendError : Option String} {reply : Option ControlMessage} {id' : String}
    (h : Server.handshake registry (some [id]) first uuid sendError = (reply, .ok id')) :
    (id ≠ "" ∧ id' = id ∧ reply = none) ∨
      (id = "" ∧ id' = uuid ∧ reply = some { type := .id, payload := some uuid }) := by
  unfold Server.handshake at h
  split at h
  · cases h
  · cases h
  · split at h
    · cases h
    · simp only [Server.getIdFromContext] at h
      split at h
      · rename_i hne
        split at h
        · cases h
        · cases h
          exact .inl ⟨hne, rfl, rfl⟩
      · rename_i hempty
        split at h
        · cases h
        · cases h
          exact .inr ⟨not_not.mp hempty, rfl, rfl⟩

namespace Learns

variable {s : State} {id : String}

/-- Only the agent's side of the state matters. -/
theorem congr {t : State} (h : Learns s id) (hfiles : t.files = s.files)
    (hclient : t.client = s.client) (hto : t.toAgent = s.toAgent) (hreply : t.reply = s.reply)
    (hproc : t.processed = s.processed) : Learns t id := by
  refine h.imp (fun k => ?_) fun w => ?_
  · refine ⟨?_, ?_, ?_⟩
    · rw [hclient]
      exact k.id_eq
    · rw [hclient]
      exact k.rpcs_eq
    · rw [hto]
      exact k.no_id
  · refine ⟨w.id_ne, ?_, ?_, ?_, ?_, ?_⟩
    · rw [hfiles]
      exact w.file
    · rw [hclient]
      exact w.rpcs
    · rw [hproc]
      exact w.processed
    · rw [hreply]
      exact w.reply
    · rw [hto]
      exact w.next

theorem sessionSends (h : Learns s id) {msg : ControlMessage} (hmsg : msg.type ≠ .id) :
    Learns { s with toAgent := s.toAgent ++ [msg] } id := by
  have hlast : ∀ {msgs : List ControlMessage}, (∀ m ∈ msgs, m.type ≠ .id) →
      ∀ m ∈ msgs ++ [msg], m.type ≠ .id := fun hmsgs =>
    List.forall_mem_append.mpr ⟨hmsgs, List.forall_mem_singleton.mpr hmsg⟩
  refine h.imp (fun k => { k with no_id := hlast k.no_id }) fun w => { w with next := ?_ }
  obtain ⟨rest, hto, hrest⟩ := w.next
  exact ⟨rest ++ [msg], by rw [hto]; rfl, hlast hrest⟩

theorem receive (h : Learns s id) {msg : ControlMessage} {rest : List ControlMessage}
    (hto : s.toAgent = msg :: rest) {o : SaveOutcome} {files : Files} {c : Client}
    (hc : s.client.onMessage s.files msg o = (files, some c)) :
    Learns { s with
      files := files, client := c, toAgent := rest, processed := s.processed ++ [msg] } id := by
  left
  have hc' : (s.client.onMessage s.files msg o).2 = some c := by rw [hc]
  rcases h with k | w
  · obtain ⟨hid, hrpcs⟩ := Client.onMessage_id (k.no_id msg (by rw [hto]; simp)) hc'
    refine ⟨hid.trans k.id_eq, fun rpc hrpc => ?_, fun m hm => k.no_id m ?_⟩
    · rcases hrpcs rpc hrpc with hold | hnew
      · exact k.rpcs_eq rpc hold
      · exact hnew.trans k.id_eq
    · rw [hto]
      exact List.mem_cons_of_mem msg hm
  · -- the reply: its ID is taken, there being no file
    obtain ⟨rest', hto', hrest⟩ := w.next
    rw [hto, List.cons.injEq] at hto'
    obtain ⟨rfl, rfl⟩ := hto'
    have hsave := Client.saveUUID_eq_some w.id_ne w.file hc'
    refine ⟨?_, ?_, hrest⟩
    · rw [hsave]
    · rw [hsave]
      intro rpc hrpc
      rw [show s.client.rpcs = [] from w.rpcs] at hrpc
      exact absurd hrpc List.not_mem_nil

end Learns

theorem Informed.congr {s t : State} (h : Informed s) (hcall : t.call = s.call)
    (hfiles : t.files = s.files) (hclient : t.client = s.client) (hto : t.toAgent = s.toAgent)
    (hreply : t.reply = s.reply) (hproc : t.processed = s.processed) : Informed t := by
  have hquiet : Quiet s → Quiet t := by
    intro hq
    refine ⟨?_, ?_, ?_⟩
    · rw [hto]
      exact hq.toAgent
    · rw [hproc]
      exact hq.processed
    · rw [hclient]
      exact hq.rpcs
  unfold Informed at h ⊢
  rw [hcall]
  split at h
  case h_1 =>
    rw [hclient, hfiles]
    exact ⟨hquiet h.1, h.2⟩
  case h_2 =>
    rw [hclient, hfiles]
    exact ⟨hquiet h.1, h.2⟩
  case h_7 => exact trivial
  all_goals exact h.congr hfiles hclient hto hreply hproc

namespace Inv

variable {s : State}

theorem agrees (h : Inv s) : Agrees s := by
  intro sess hsess hsettled
  have hlearns : Learns s sess.id := by
    have hinf := h.informed
    unfold Informed at hinf
    rw [State.session] at hsess
    split at hinf
    case h_4 hc | h_5 hc | h_6 hc =>
      rw [hc] at hsess
      cases hsess
      exact hinf
    all_goals
      rename_i hc
      rw [hc] at hsess
      cases hsess
  -- a settled agent has processed the reply, so it is not waiting for one
  rcases hlearns with k | w
  · refine ⟨k.id_eq, k.rpcs_eq, fun hd => ?_⟩
    rw [k.id_eq]
    exact h.registered sess hsess hd
  · have hmem := hsettled _ w.reply
    rw [w.processed] at hmem
    exact absurd hmem List.not_mem_nil

theorem connect (h : Inv s) (hcall : s.call = none) :
    Inv { s with
      client := s.client.connect s.files
      call := some (.handshaking (some [(s.client.connect s.files).id])) } := by
  have hinf := h.informed
  rw [Informed, hcall] at hinf
  obtain ⟨hquiet, hid, hfile⟩ := hinf
  refine ⟨⟨⟨hquiet.toAgent, hquiet.processed, hquiet.rpcs⟩, rfl, fun hempty => ?_⟩, nofun⟩
  cases hf : s.files.uuid with
  | none => rfl
  | some content =>
    refine absurd ⟨content, hf, ?_⟩ hfile
    simpa [Client.connect, Client.loadUUID, hf] using hempty

theorem handshake (h : Inv s) {ids : Server.AgentIds} (hcall : s.call = some (.handshaking ids))
    {first : Server.First} {uuid : String} {sendError : Option String} (huuid : uuid ≠ "")
    {reply : Option ControlMessage} {id : String}
    (hres : Server.handshake s.registry ids first uuid sendError = (reply, .ok id)) :
    Learns { s with
      toAgent := s.toAgent ++ reply.toList
      reply := reply
      call := some (.handshaken id) } id := by
  have hinf := h.informed
  rw [Informed, hcall] at hinf
  obtain ⟨hquiet, rfl, hfile⟩ := hinf
  -- the agent has its ID already, or the reply brings it
  rcases handshake_ok hres with ⟨-, rfl, rfl⟩ | ⟨hempty, rfl, rfl⟩
  · left
    refine ⟨rfl, ?_, ?_⟩
    · simp [hquiet.rpcs]
    · simp [hquiet.toAgent]
  · right
    exact ⟨huuid, hfile hempty, hquiet.rpcs, hquiet.processed, rfl, [],
      by simp [hquiet.toAgent], by simp⟩

theorem receive (h : Inv s) {msg : ControlMessage} {rest : List ControlMessage}
    (hto : s.toAgent = msg :: rest) {o : SaveOutcome} {files : Files} {c : Client}
    (hc : s.client.onMessage s.files msg o = (files, some c)) :
    Inv { s with
      files := files, client := c, toAgent := rest, processed := s.processed ++ [msg] } := by
  refine ⟨?_, h.registered⟩
  have hinf := h.informed
  unfold Informed at hinf ⊢
  dsimp only
  split at hinf
  case h_1 | h_2 =>
    -- nothing has been sent yet
    have hquiet := hinf.1.toAgent
    rw [hto] at hquiet
    exact absurd hquiet (by simp)
  case h_7 => exact trivial
  all_goals exact hinf.receive hto hc

theorem step (h : Inv s) {a : Action} {t : State} (ht : Identity.step s a = some t) : Inv t := by
  cases a with
  | connect =>
    simp only [Identity.step] at ht
    split at ht
    · rename_i hcall
      cases ht
      exact h.connect hcall
    · exact absurd ht (by simp)
  | handshake first uuid sendError =>
    simp only [Identity.step] at ht
    split at ht
    · rename_i ids hcall
      split at ht
      · rename_i hguard
        cases ht
        cases hres : Server.handshake s.registry ids first uuid sendError with
        | mk reply result =>
          cases result with
          | error err => exact ⟨trivial, nofun⟩
          | ok id => exact ⟨h.handshake hcall hguard.2 hres, nofun⟩
      · exact absurd ht (by simp)
    · exact absurd ht (by simp)
  | add =>
    simp only [Identity.step] at ht
    split at ht
    · rename_i id hcall
      cases ht
      have hinf := h.informed
      rw [Informed, hcall] at hinf
      refine ⟨hinf.congr rfl rfl rfl rfl rfl, fun sess hsess _ => ?_⟩
      cases hsess
      show (s.registry.add ⟨id, 0⟩).get id = some ⟨id, 0⟩
      rw [s.registry.get_add, if_pos rfl]
    · exact absurd ht (by simp)
  | run =>
    simp only [Identity.step] at ht
    split at ht
    · rename_i sess hcall
      cases ht
      have hinf := h.informed
      rw [Informed, hcall] at hinf
      have hreg := h.registered
      rw [State.session, hcall] at hreg
      exact ⟨hinf.congr rfl rfl rfl rfl rfl, hreg⟩
    · exact absurd ht (by simp)
  | sessionSends msg =>
    simp only [Identity.step] at ht
    split at ht
    · rename_i sess hcall
      split at ht
      · rename_i hsend
        cases ht
        have hmsg : msg.type ≠ .id := by
          intro hid
          simp [sendable, hid] at hsend
        have hinf := h.informed
        rw [Informed, hcall] at hinf
        refine ⟨?_, h.registered⟩
        unfold Informed
        dsimp only
        rw [hcall]
        exact (hinf.sessionSends hmsg).congr rfl rfl rfl rfl rfl
      · exact absurd ht (by simp)
    · exact absurd ht (by simp)
  | runReturns err =>
    simp only [Identity.step] at ht
    split at ht
    · rename_i sess hcall
      cases ht
      have hinf := h.informed
      rw [Informed, hcall] at hinf
      have hreg := h.registered
      rw [State.session, hcall] at hreg
      exact ⟨hinf.congr rfl rfl rfl rfl rfl, hreg⟩
    · exact absurd ht (by simp)
  | remove =>
    simp only [Identity.step] at ht
    split at ht
    · cases ht
      exact ⟨trivial, nofun⟩
    · exact absurd ht (by simp)
  | receive o =>
    simp only [Identity.step] at ht
    split at ht
    · exact absurd ht (by simp)
    · rename_i msg rest hto
      obtain ⟨c, hc, rfl⟩ := Option.map_eq_some_iff.mp ht
      exact h.receive hto (Prod.ext rfl hc)
  | others registry =>
    cases ht
    refine ⟨h.informed.congr rfl rfl rfl rfl rfl rfl, fun sess hsess hd => ?_⟩
    replace hsess : s.session = some sess := hsess
    rw [Bool.or_eq_false_iff, hsess] at hd
    have hsame : registry.get sess.id = s.registry.get sess.id := by simpa using hd.2
    exact hsame.trans (h.registered sess hsess hd.1)

end Inv

/-! ### With an empty first line -/

/-- The server greets the agent, which refuses the ID it gets. -/
def refused : List Action :=
  [.connect, .handshake (.message { type := .id }) "u" none, .add, .receive { written := 0 }]

theorem not_agrees {files : Files} (hfile : EmptyFile files) (registry : AgentRegistry) :
    ∃ s, Run.exec step (init files registry) refused = some s ∧ ¬ Agrees s := by
  obtain ⟨content, hcontent, hline⟩ := hfile
  let c : Client := Client.connect files {}
  let reply : ControlMessage := { type := .id, payload := some "u" }
  have hid : c.id = "" := by
    simp [c, Client.connect, Client.loadUUID, hcontent, hline]
  -- the server sees an empty ID and makes one up
  have hgreet : Server.handshake registry (some [c.id]) (.message { type := .id }) "u" none
      = (some reply, .ok "u") := by
    simp [Server.handshake, Server.getIdFromContext, hid, reply]
  -- the agent refuses it because of the file, and answers with an error
  let answer := ConnectReactor.createMessage .error "UUID file already exists on agent"
  let c' : Client := { c with connectReactor := some (ConnectReactor.init.enqueueWrite answer) }
  have hrefuse : c.onMessage files reply { written := 0 } = (files, some c') := by
    simp only [Client.onMessage, reply]
    rw [Client.saveUUID_of_file (by decide) hcontent]
    rfl
  have harrives : arrives c (.message { type := .id }) = true ∧ "u" ≠ "" := ⟨rfl, by decide⟩
  let s₁ : State :=
    { files := files, client := c, call := some (.handshaking (some [c.id])), registry := registry }
  let s₂ : State :=
    { s₁ with toAgent := [reply], reply := some reply, call := some (.handshaken "u") }
  have h₂ : step s₁ (.handshake (.message { type := .id }) "u" none) = some s₂ := by
    simp only [step, s₁, if_pos harrives, hgreet]
    rfl
  let s₃ : State :=
    { s₂ with call := some (.added ⟨"u", 0⟩), registry := registry.add ⟨"u", 0⟩ }
  let s₄ : State := { s₃ with client := c', toAgent := [], processed := [reply] }
  have h₄ : step s₃ (.receive { written := 0 }) = some s₄ := by
    simp only [step, s₃, s₂, s₁, hrefuse]
    rfl
  refine ⟨s₄, ?_, fun hagrees => ?_⟩
  · refine Run.exec_cons_eq_some.mpr ⟨s₁, rfl, ?_⟩
    refine Run.exec_cons_eq_some.mpr ⟨s₂, h₂, ?_⟩
    refine Run.exec_cons_eq_some.mpr ⟨s₃, rfl, ?_⟩
    exact Run.exec_cons_eq_some.mpr ⟨s₄, h₄, rfl⟩
  · have hsettled : s₄.Settled := by
      intro msg hmsg
      cases hmsg
      exact List.mem_singleton_self reply
    have heq : c.id = "u" := (hagrees ⟨"u", 0⟩ rfl hsettled).1
    rw [hid] at heq
    exact absurd heq (by decide)

/-- **Agent and server agree on the agent's ID, in every run, exactly if
`agent.uuid` is not there with an empty first line.** -/
theorem agrees_iff (files : Files) (registry : AgentRegistry) :
    (∀ as s, Run.exec step (init files registry) as = some s → Agrees s)
      ↔ ¬ EmptyFile files := by
  constructor
  · intro hall hfile
    obtain ⟨s, hs, hnot⟩ := not_agrees hfile registry
    exact hnot (hall _ s hs)
  · intro hfile as s hs
    exact (Run.exec_invariant (fun h ht => h.step ht) (inv_init hfile registry) hs).agrees

/-- An empty `agent.uuid`: the server registers a fresh ID, and the agent goes
on without one. -/
theorem empty_file_disagrees :
    ¬ ∀ as s, Run.exec step (init { uuid := some "" } .empty) as = some s → Agrees s := by
  intro hall
  have hfile : EmptyFile { uuid := some "" } := ⟨"", rfl, rfl⟩
  obtain ⟨s, hs, hnot⟩ := not_agrees hfile .empty
  exact hnot (hall _ s hs)

end Identity
end Volta
