/-
`Client::Connect` (`volta_collector_client.cc`) beside the callbacks of gRPC.

The thread that connects makes a `ConnectReactor`, whose constructor starts to
read and starts the call, and only then stores the pointer to it.  From the
start of the call on gRPC runs `OnReadDone` and `OnDone` on threads of its own,
and `OnMessage` goes through the pointer, not through the reactor that has
received the message.

* `deref_connect` — with no callback between its steps, `Connect` does what
  `Client.connect` says;
* `safe_iff` — no message goes through a null pointer, and every reply is put
  on the queue of the reactor that received the message, exactly in the runs in
  which no message that needs the pointer is handled before it is stored.
-/
import Volta.Client

namespace Volta

namespace Client

/-- `OnMessage` dereferences `connect_reactor_`. -/
def dereferences (files : Files) (msg : ControlMessage) : Bool :=
  match msg.type with
  | .ping => true
  | .sendData => true
  -- each of the three branches of `StreamData` enqueues a reply
  | .streamData => true
  | .id => msg.getPayload = "" ∨ files.uuid.isSome
  | _ => false

/-- A message that needs the pointer ends with one reply through it. -/
theorem onMessage_of_dereferences {files : Files} {msg : ControlMessage}
    (h : dereferences files msg = true) (c : Client) (o : SaveOutcome) :
    ∃ (c' : Client) (answer : ControlMessage), c'.connectReactor = c.connectReactor ∧
      c.onMessage files msg o = (files, c'.enqueueWrite answer) := by
  rw [dereferences] at h
  split at h
  case h_1 htype =>
    exact ⟨c, _, rfl, by rw [onMessage, htype]⟩
  case h_2 htype =>
    exact ⟨c, _, rfl, by rw [onMessage, htype, sendData]⟩
  case h_3 htype =>
    rw [onMessage, htype]
    dsimp only
    rw [streamData]
    split
    · split
      · exact ⟨c, _, rfl, rfl⟩
      · exact ⟨{ c with
          streamDataReactor := some c.rpcs.length
          rpcs := c.rpcs ++ [{ agentId := c.id }] }, _, rfl, rfl⟩
    · exact ⟨c, _, rfl, rfl⟩
  case h_4 htype =>
    rw [onMessage, htype]
    dsimp only
    by_cases hempty : msg.getPayload = ""
    · exact ⟨c, _, rfl, by rw [saveUUID, if_pos hempty]⟩
    · have hfile : files.uuid.isSome = true := by simpa [hempty] using h
      exact ⟨c, _, rfl, by rw [saveUUID, if_neg hempty, if_pos hfile]⟩
  case h_5 => exact absurd h (by simp)

/-- Any other message leaves the pointer and what it points to alone. -/
theorem onMessage_of_not_dereferences {files : Files} {msg : ControlMessage}
    (h : dereferences files msg = false) {c c' : Client} {o : SaveOutcome}
    (hc : (c.onMessage files msg o).2 = some c') : c'.connectReactor = c.connectReactor := by
  have hkept : some c = some c' → c'.connectReactor = c.connectReactor := by
    intro heq
    rw [← Option.some_inj.mp heq]
  rw [onMessage] at hc
  split at hc
  case h_1 htype | h_3 htype | h_4 htype => simp [dereferences, htype] at h
  case h_7 htype =>
    simp only [dereferences, htype, Bool.decide_or, Bool.or_eq_false_iff, decide_eq_false_iff_not,
      Bool.not_eq_true, Option.isSome_eq_false_iff, Option.isNone_iff_eq_none] at h
    rw [saveUUID_eq_some h.1 h.2 hc]
  all_goals exact hkept hc

end Client

namespace ClientConnect

/-- A `ConnectReactor`, from its constructor on. -/
structure Reactor where
  agentId : String
  queue : ConnectReactor := .init
  /-- A `StartRead` whose `OnReadDone` is still to come. -/
  reading : Bool := false
  /-- `StartCall` has been made: gRPC runs no callback before. -/
  called : Bool := false
  /-- `OnReadDone(true)` runs and has not gone to `OnMessage`. -/
  handling : Option ControlMessage := none
  done : Bool := false

/-- Where the thread that connects is. -/
inductive Pc where
  | loadUUID
  | construct
  | startRead (k : ℕ)
  | startCall (k : ℕ)
  | store (k : ℕ)
  | await (k : ℕ)

/-- How a callback ends that does not return. -/
inductive Fault where
  | nullPointer
  | exception
  deriving DecidableEq

structure State where
  files : Files := {}
  /-- Its `connectReactor` is not used: the pointer is `pointer`. -/
  client : Client := {}
  /-- All reactors so far. -/
  reactors : List Reactor := []
  /-- `connect_reactor_`. -/
  pointer : Option ℕ := none
  pc : Pc := .loadUUID
  fault : Option Fault := none

namespace State

/-- The client as `OnMessage` sees it, through the pointer. -/
def deref (s : State) : Client :=
  { s.client with connectReactor := s.pointer.bind fun p => s.reactors[p]?.map Reactor.queue }

/-- The reactors after the one pointed to has got the queue of `c`. -/
def writeBack (s : State) (c : Client) : List Reactor :=
  match s.pointer, c.connectReactor with
  | some p, some queue => s.reactors.modify p fun r => { r with queue := queue }
  | _, _ => s.reactors

end State

/-- All messages put on the queue of reactor `j`. -/
def enqueued (reactors : List Reactor) (j : ℕ) : List ControlMessage :=
  match reactors[j]? with
  | none => []
  | some r => r.queue.writer.enqueued

inductive Action where
  /-- The next step of the thread that connects. -/
  | client
  /-- gRPC runs `OnReadDone(true)` with a message, or `OnReadDone(false)`. -/
  | onReadDone (k : ℕ) (msg : Option ControlMessage)
  /-- The rest of `OnReadDone(true)`. -/
  | onMessage (k : ℕ) (o : SaveOutcome)
  /-- gRPC completes a write, or runs `OnWriteDone(true)`. -/
  | writes (k : ℕ) (a : ConnectReactor.Action)
  | onDone (k : ℕ)

def clientStep (s : State) : Option State :=
  match s.pc with
  | .loadUUID => some
      { s with
        client.id := (Client.loadUUID s.files s.client.id).1
        pc := .construct }
  -- the constructor up to `EnqueueWrite`
  | .construct => some
      { s with
        reactors := s.reactors ++ [{ agentId := s.client.id }]
        pc := .startRead s.reactors.length }
  | .startRead k => some
      { s with
        reactors := s.reactors.modify k fun r => { r with reading := true }
        pc := .startCall k }
  | .startCall k => some
      { s with
        reactors := s.reactors.modify k fun r => { r with called := true }
        pc := .store k }
  | .store k => some { s with pointer := some k, pc := .await k }
  | .await k =>
      match s.reactors[k]? with
      | some r => if r.done then some { s with pc := .loadUUID } else none
      | none => none

/-- `OnMessage`, and the `StartRead` after it. -/
def handle (s : State) (k : ℕ) (msg : ControlMessage) (o : SaveOutcome) : State :=
  let (files, client) := s.deref.onMessage s.files msg o
  match client with
  | some client =>
      { s with
        files := files
        client := client
        reactors := (s.writeBack client).modify k fun r =>
          { r with handling := none, reading := true } }
  | none =>
      { s with
        files := files
        fault := some
          (if s.pointer = none ∧ Client.dereferences s.files msg then .nullPointer
          else .exception) }

def step (s : State) (a : Action) : Option State :=
  if s.fault.isSome then none
  else
    match a with
    | .client => clientStep s
    | .onReadDone k msg =>
        match s.reactors[k]? with
        | some r =>
            if r.called ∧ r.reading then some
              { s with
                reactors := s.reactors.set k { r with handling := msg, reading := false } }
            else none
        | none => none
    | .onMessage k o =>
        match s.reactors[k]?.bind Reactor.handling with
        | some msg => some (handle s k msg o)
        | none => none
    | .writes k a =>
        match s.reactors[k]?, a with
        | some r, .writeCompletes ok =>
            if r.called then
              (r.queue.step (.writeCompletes ok)).map fun queue =>
                { s with reactors := s.reactors.set k { r with queue := queue } }
            else none
        | some r, .onWriteDone =>
            (r.queue.step .onWriteDone).map fun queue =>
              { s with reactors := s.reactors.set k { r with queue := queue } }
        | _, _ => none
    -- the last callback of a call
    | .onDone k =>
        match s.reactors[k]? with
        | some r =>
            if r.called ∧ ¬ r.reading ∧ r.handling = none ∧ r.queue.writer.outstanding = [] ∧
                r.queue.completed = 0 ∧ ¬ r.done then some
              { s with reactors := s.reactors.set k { r with done := true } }
            else none
        | none => none

def init (files : Files) (hasBuffer : Bool) : State :=
  { files := files, client.hasBuffer := hasBuffer }

/-- A message that is handled goes through no null pointer, changes no other
queue than that of the reactor that has received it, and is answered there if it
is answered. -/
def Safe (s : State) (a : Action) : Prop :=
  ∀ k o t, a = .onMessage k o → step s a = some t →
    t.fault ≠ some .nullPointer ∧ (∀ j, j ≠ k → enqueued t.reactors j = enqueued s.reactors j) ∧
      ∀ msg, s.reactors[k]?.bind Reactor.handling = some msg →
        Client.dereferences s.files msg = true →
          ∃ answer, enqueued t.reactors k = enqueued s.reactors k ++ [answer]

/-- The condition on a step: a message that needs the pointer finds the reactor
stored that has received it. -/
def Ready (s : State) (a : Action) : Prop :=
  ∀ k o msg, a = .onMessage k o → s.reactors[k]?.bind Reactor.handling = some msg →
    Client.dereferences s.files msg = true → s.pointer = some k

/-! ### The steps of `Connect` -/

theorem modify_length_append (reactors : List Reactor) (r : Reactor) (f : Reactor → Reactor) :
    (reactors ++ [r]).modify reactors.length f = reactors ++ [f r] := by
  induction reactors with
  | nil => rfl
  | cons r' reactors ih =>
    rw [List.cons_append, List.length_cons, List.modify_succ_cons, ih, List.cons_append]

/-- **`Connect` without callbacks**: its steps up to `Await` lead to the client
that `Client.connect` gives. -/
theorem deref_connect {s : State} (hpc : s.pc = .loadUUID) (hfault : s.fault = none) :
    ∃ t, Run.exec step s (List.replicate 5 .client) = some t ∧ t.files = s.files ∧
      t.deref = s.client.connect s.files := by
  refine ⟨{ s with
    client.id := (Client.loadUUID s.files s.client.id).1
    reactors := s.reactors ++ [{
      agentId := (Client.loadUUID s.files s.client.id).1
      reading := true
      called := true }]
    pointer := some s.reactors.length
    pc := .await s.reactors.length }, ?_, rfl, ?_⟩
  · simp [List.replicate, Run.exec, step, clientStep, hpc, hfault, modify_length_append]
  · simp [State.deref, Client.connect]

/-! ### The invariant -/

/-- The pointer, and the reactor that is being made, are reactors. -/
structure Inv (s : State) : Prop where
  pointer_lt : ∀ p, s.pointer = some p → p < s.reactors.length
  store_lt : ∀ k, s.pc = .startRead k ∨ s.pc = .startCall k ∨ s.pc = .store k →
    k < s.reactors.length

theorem inv_init (files : Files) (hasBuffer : Bool) : Inv (init files hasBuffer) := by
  constructor
  · intro p hp
    exact absurd hp (by simp [init])
  · intro k hk
    simp [init] at hk

namespace Inv

variable {s t : State}

/-- A step that makes no reactor, and moves neither the pointer nor the thread
that connects. -/
theorem congr (h : Inv s) (hlen : t.reactors.length = s.reactors.length)
    (hpointer : t.pointer = s.pointer) (hpc : t.pc = s.pc) : Inv t := by
  constructor
  · intro p hp
    rw [hlen]
    exact h.pointer_lt p (hpointer ▸ hp)
  · intro k hk
    rw [hlen]
    rw [hpc] at hk
    exact h.store_lt k hk

/-- The thread that connects goes on with the reactor that it is making. -/
theorem goOn (h : Inv s) {k : ℕ} (hk : k < s.reactors.length) (f : Reactor → Reactor) {pc : Pc}
    (hpc : ∀ j, pc = .startRead j ∨ pc = .startCall j ∨ pc = .store j → j = k) :
    Inv { s with reactors := s.reactors.modify k f, pc := pc } := by
  constructor
  · intro p hp
    rw [List.length_modify]
    exact h.pointer_lt p hp
  · intro j hj
    rw [List.length_modify, hpc j hj]
    exact hk

theorem clientStep (h : Inv s) (ht : ClientConnect.clientStep s = some t) : Inv t := by
  rw [ClientConnect.clientStep] at ht
  split at ht
  case h_1 =>
    cases ht
    exact ⟨h.pointer_lt, fun k hk => by simp at hk⟩
  case h_2 =>
    cases ht
    constructor
    · intro p hp
      have hlt := h.pointer_lt p hp
      rw [List.length_append, List.length_singleton]
      omega
    · intro k hk
      have hkeq : s.reactors.length = k := by simpa using hk
      rw [List.length_append, List.length_singleton]
      omega
  case h_3 k hpc =>
    cases ht
    exact h.goOn (h.store_lt k (Or.inl hpc)) _ fun j hj => by simpa [eq_comm] using hj
  case h_4 k hpc =>
    cases ht
    exact h.goOn (h.store_lt k (Or.inr (Or.inl hpc))) _ fun j hj => by simpa [eq_comm] using hj
  case h_5 k hpc =>
    cases ht
    constructor
    · intro p hp
      rw [← Option.some_inj.mp hp]
      exact h.store_lt k (Or.inr (Or.inr hpc))
    · intro j hj
      simp at hj
  case h_6 k hpc =>
    split at ht
    · split at ht
      · cases ht
        exact ⟨h.pointer_lt, fun k hk => by simp at hk⟩
      · exact absurd ht (by simp)
    · exact absurd ht (by simp)

theorem length_writeBack (s : State) (c : Client) :
    (s.writeBack c).length = s.reactors.length := by
  rw [State.writeBack]
  split
  · exact List.length_modify _ _ _
  · rfl

theorem handle (h : Inv s) (k : ℕ) (msg : ControlMessage) (o : SaveOutcome) :
    Inv (ClientConnect.handle s k msg o) := by
  rw [ClientConnect.handle]
  dsimp only
  split
  · refine h.congr ?_ rfl rfl
    rw [List.length_modify, length_writeBack]
  · exact h.congr rfl rfl rfl

theorem step (h : Inv s) {a : Action} (ht : ClientConnect.step s a = some t) : Inv t := by
  rw [ClientConnect.step.eq_def] at ht
  split at ht
  · exact absurd ht (by simp)
  cases a with
  | client => exact h.clientStep ht
  | onReadDone k msg =>
    dsimp only at ht
    split at ht
    · split at ht
      · cases ht
        exact h.congr List.length_set rfl rfl
      · exact absurd ht (by simp)
    · exact absurd ht (by simp)
  | onMessage k o =>
    dsimp only at ht
    split at ht
    · cases ht
      exact h.handle k _ o
    · exact absurd ht (by simp)
  | writes k a =>
    dsimp only at ht
    split at ht
    · split at ht
      · obtain ⟨queue, -, rfl⟩ := Option.map_eq_some_iff.mp ht
        exact h.congr List.length_set rfl rfl
      · exact absurd ht (by simp)
    · obtain ⟨queue, -, rfl⟩ := Option.map_eq_some_iff.mp ht
      exact h.congr List.length_set rfl rfl
    · exact absurd ht (by simp)
  | onDone k =>
    dsimp only at ht
    split at ht
    · split at ht
      · cases ht
        exact h.congr List.length_set rfl rfl
      · exact absurd ht (by simp)
    · exact absurd ht (by simp)

end Inv

/-! ### What handling a message does to the queues -/

/-- A change to one reactor that keeps its queue shows in no queue. -/
theorem enqueued_modify (f : Reactor → Reactor) (hf : ∀ r, (f r).queue = r.queue)
    (reactors : List Reactor) (k j : ℕ) :
    enqueued (reactors.modify k f) j = enqueued reactors j := by
  rw [enqueued, enqueued]
  by_cases hkj : k = j
  · subst hkj
    rw [List.getElem?_modify_eq]
    cases reactors[k]? with
    | none => rfl
    | some r => exact congrArg (fun queue => queue.writer.enqueued) (hf r)
  · rw [List.getElem?_modify_ne f reactors hkj]

/-- A reply shows on the queue of the reactor it goes to, and on no other. -/
theorem enqueued_modify_queue {reactors : List Reactor} {p : ℕ} {r : Reactor}
    (hr : reactors[p]? = some r) (answer : ControlMessage) (j : ℕ) :
    enqueued (reactors.modify p fun r' => { r' with queue := r.queue.enqueueWrite answer }) j
      = enqueued reactors j ++ if j = p then [answer] else [] := by
  rw [enqueued, enqueued]
  by_cases hpj : p = j
  · subst hpj
    rw [List.getElem?_modify_eq, hr, if_pos rfl]
    show (r.queue.writer.push answer).write.enqueued = _
    rw [Writer.write]
    split <;> rfl
  · rw [List.getElem?_modify_ne _ _ hpj, if_neg fun hjp => hpj hjp.symm, List.append_nil]

section Handle

variable {s : State} {k : ℕ} {msg : ControlMessage} {o : SaveOutcome}

/-- A message that needs the pointer finds it null. -/
theorem handle_of_null (h : Client.dereferences s.files msg = true) (hp : s.pointer = none) :
    (handle s k msg o).fault = some .nullPointer := by
  obtain ⟨c, answer, hc, heq⟩ := Client.onMessage_of_dereferences h s.deref o
  have hnull : c.enqueueWrite answer = none := by
    rw [Client.enqueueWrite, hc, State.deref, hp]
    rfl
  rw [handle, heq, hnull]
  simp [hp, h]

/-- A message that needs the pointer is answered by the reactor there. -/
theorem handle_of_pointer (h : Client.dereferences s.files msg = true) {p : ℕ}
    (hp : s.pointer = some p) (hlt : p < s.reactors.length) :
    (handle s k msg o).fault = s.fault ∧ ∃ answer, ∀ j,
      enqueued (handle s k msg o).reactors j
        = enqueued s.reactors j ++ if j = p then [answer] else [] := by
  obtain ⟨c, answer, hc, heq⟩ := Client.onMessage_of_dereferences h s.deref o
  have hr : s.reactors[p]? = some s.reactors[p] := List.getElem?_eq_getElem hlt
  have hqueue : c.enqueueWrite answer
      = some { c with
          connectReactor := some (s.reactors[p].queue.enqueueWrite answer) } := by
    rw [Client.enqueueWrite, hc, State.deref, hp, Option.bind_some, hr]
    rfl
  rw [handle, heq, hqueue]
  refine ⟨rfl, answer, fun j => ?_⟩
  show enqueued (List.modify _ k fun r => { r with handling := none, reading := true }) j = _
  rw [enqueued_modify (fun r => { r with handling := none, reading := true }) fun _ => rfl,
    State.writeBack, hp]
  exact enqueued_modify_queue hr answer j

/-- Any other message shows in no queue. -/
theorem handle_of_not_dereferences (h : Client.dereferences s.files msg = false)
    (hfault : s.fault = none) :
    (handle s k msg o).fault ≠ some .nullPointer ∧
      ∀ j, enqueued (handle s k msg o).reactors j = enqueued s.reactors j := by
  rw [handle]
  dsimp only
  split
  · rename_i c hc
    have hsame := Client.onMessage_of_not_dereferences h hc
    refine ⟨by simp [hfault], fun j => ?_⟩
    show enqueued (List.modify _ k fun r => { r with handling := none, reading := true }) j = _
    rw [enqueued_modify (fun r => { r with handling := none, reading := true }) fun _ => rfl,
      State.writeBack]
    split
    · rename_i p queue hp hqueue
      rw [hsame, State.deref, hp] at hqueue
      obtain ⟨r, hr, rfl⟩ := Option.map_eq_some_iff.mp hqueue
      rw [enqueued, enqueued]
      by_cases hpj : p = j
      · subst hpj
        rw [List.getElem?_modify_eq, hr]
        rfl
      · rw [List.getElem?_modify_ne _ _ hpj]
    · rfl
  · refine ⟨by simp [h], fun j => rfl⟩

end Handle

theorem step_onMessage {s t : State} {k : ℕ} {o : SaveOutcome}
    (ht : step s (.onMessage k o) = some t) : s.fault = none ∧
      ∃ msg, s.reactors[k]?.bind Reactor.handling = some msg ∧ t = handle s k msg o := by
  rw [step] at ht
  split at ht
  · exact absurd ht (by simp)
  · rename_i hfault
    split at ht
    · rename_i msg hmsg
      exact ⟨by simpa using hfault, msg, hmsg, (Option.some_inj.mp ht).symm⟩
    · exact absurd ht (by simp)

section OnMessage

variable {s t : State} {k : ℕ} {msg : ControlMessage} {o : SaveOutcome}

/-- A message that needs the pointer is safe only where its reactor is stored. -/
theorem pointer_of_safe (h : Inv s) (hsafe : Safe s (.onMessage k o))
    (ht : step s (.onMessage k o) = some (handle s k msg o))
    (hderef : Client.dereferences s.files msg = true) : s.pointer = some k := by
  obtain ⟨hnull, hothers, -⟩ := hsafe k o _ rfl ht
  cases hp : s.pointer with
  | none => exact absurd (handle_of_null hderef hp) hnull
  | some p =>
    obtain ⟨-, answer, hqueues⟩ := handle_of_pointer (k := k) (o := o) hderef hp
      (h.pointer_lt p hp)
    by_contra hne
    have hpk : p ≠ k := by
      intro heq
      exact hne (congrArg some heq)
    have hp' := (hqueues p).symm.trans (hothers p hpk)
    simp at hp'

theorem safe_of_pointer (h : Inv s) (hfault : s.fault = none)
    (hmsg : s.reactors[k]?.bind Reactor.handling = some msg)
    (ht : step s (.onMessage k o) = some (handle s k msg o))
    (hready : Client.dereferences s.files msg = true → s.pointer = some k) :
    Safe s (.onMessage k o) := by
  intro k' o' t' heq ht'
  cases heq
  rw [ht, Option.some_inj] at ht'
  subst ht'
  cases hderef : Client.dereferences s.files msg with
  | false =>
    obtain ⟨hnull, hqueues⟩ := handle_of_not_dereferences (k := k) (o := o) hderef hfault
    refine ⟨hnull, fun j _ => hqueues j, fun msg' hmsg' hderef' => ?_⟩
    rw [hmsg, Option.some_inj] at hmsg'
    subst hmsg'
    exact absurd (hderef.symm.trans hderef') (by simp)
  | true =>
    have hp := hready hderef
    obtain ⟨hsame, answer, hqueues⟩ := handle_of_pointer (k := k) (o := o) hderef hp
      (h.pointer_lt k hp)
    refine ⟨?_, fun j hj => ?_, fun _ _ _ => ⟨answer, ?_⟩⟩
    · rw [hsame, hfault]
      simp
    · rw [hqueues j, if_neg hj, List.append_nil]
    · rw [hqueues k, if_pos rfl]

end OnMessage

/-- Where the invariant holds, a message is handled safely exactly if it does
not need the pointer or finds its reactor there. -/
theorem safe_iff_ready {s t : State} {a : Action} (h : Inv s) (ht : step s a = some t) :
    Safe s a ↔ Ready s a := by
  by_cases ha : ∃ k o, a = .onMessage k o
  · obtain ⟨k, o, rfl⟩ := ha
    obtain ⟨hfault, msg, hmsg, rfl⟩ := step_onMessage ht
    constructor
    · intro hsafe k' o' msg' heq hmsg' hderef
      cases heq
      rw [hmsg, Option.some_inj] at hmsg'
      subst hmsg'
      exact pointer_of_safe h hsafe ht hderef
    · intro hready
      exact safe_of_pointer h hfault hmsg ht (hready k o msg rfl hmsg)
  · constructor
    · intro _ k o msg heq
      exact absurd ⟨k, o, heq⟩ ha
    · intro _ k o t heq
      exact absurd ⟨k, o, heq⟩ ha

/-- **Messages are safe exactly when none comes too early.**  In every run of
`Connect` and of the callbacks of gRPC, whatever the server sends: every message
is handled without going through a null pointer, changes no queue but that of
the reactor that has received it, and is answered there if it needs an answer,
if and only if every message that makes `OnMessage` use `connect_reactor_` is
handled while the reactor that has received it is stored there. -/
theorem safe_iff (files : Files) (hasBuffer : Bool) {as : List Action} {s : State}
    (hs : Run.exec step (init files hasBuffer) as = some s) :
    Run.Meets step Safe (init files hasBuffer) as
      ↔ Run.Meets step Ready (init files hasBuffer) as :=
  Run.meets_congr (I := Inv) (fun h ht => h.step ht) (fun h ht => safe_iff_ready h ht)
    (inv_init files hasBuffer) hs

/-- A ping that comes once the pointer is stored. -/
def ping : List Action :=
  [.client, .client, .client, .client, .client, .onReadDone 0 (some { type := .ping }),
    .onMessage 0 { written := 0 }]

theorem safe_iff_ping :
    ∃ s, Run.exec step (init {} true) ping = some s ∧
      (Run.Meets step Safe (init {} true) ping ↔ Run.Meets step Ready (init {} true) ping) := by
  obtain ⟨s, hs⟩ := Option.isSome_iff_exists.mp
    (show (Run.exec step (init {} true) ping).isSome from rfl)
  exact ⟨s, hs, safe_iff {} true hs⟩

/-- A ping that comes before it is stored goes through a null pointer. -/
theorem ping_before_store :
    ¬ ∀ (as : List Action) (s : State), Run.exec step (init {} true) as = some s →
      Run.Meets step Safe (init {} true) as := by
  intro hall
  have hrun : (Run.exec step (init {} true)
      [.client, .client, .client, .client, .onReadDone 0 (some { type := .ping })]).bind
      (fun t => (step t (.onMessage 0 { written := 0 })).map State.fault)
        = some (some .nullPointer) := rfl
  obtain ⟨t, ht, hlast⟩ := Option.bind_eq_some_iff.mp hrun
  obtain ⟨u, hu, hfault⟩ := Option.map_eq_some_iff.mp hlast
  have hmeets := hall _ u
    (Run.exec_append_eq_some.mpr ⟨t, ht, Run.exec_cons_eq_some.mpr ⟨u, hu, Run.exec_nil u⟩⟩)
  rw [Run.meets_append] at hmeets
  exact ((hmeets.2 t ht).1 0 _ u rfl hu).1 hfault

end ClientConnect
end Volta
