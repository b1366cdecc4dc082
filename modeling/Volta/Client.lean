/-
The agent's client (`volta_collector_client.cc`): its ID file, its handling of
control messages, and the `StreamMetrics` calls it starts.

`none` for a client is an exception or a null `connect_reactor_`.

* `savesWhole_iff` — `SaveUUID` stores an ID whole or not at all exactly if no
  rename moves a file that holds anything else;
* `streaming_iff` — at most one `StreamMetrics` call is active in every run; and
  every `MESSAGE_STREAM_DATA` is answered as it should be exactly in the runs in
  which none comes after a call has finished.
-/
import Volta.Run
import Volta.ConnectReactor
import Mathlib.Data.List.TakeDrop
import Mathlib.Data.List.TakeWhile

namespace Volta

/-- The contents of `agent.uuid` and of its temporary file. -/
structure Files where
  uuid : Option String := none
  tmp : Option String := none
  deriving DecidableEq

/-- `std::getline`. -/
def getline (content : String) : String :=
  String.ofList (content.toList.takeWhile fun c => c ≠ '\n')

/-- What becomes of the file steps of `SaveUUID`: whether the temporary file is
opened, how many characters get to it, and whether the rename succeeds. -/
structure SaveOutcome where
  opened : Bool := true
  written : ℕ
  renamed : Bool := true

/-- A `StreamMetrics` call: the ID in its metadata, and whether `OnDone` is
still to come. -/
structure StreamRpc where
  agentId : String
  active : Bool := true
  deriving DecidableEq

structure Client where
  id : String := ""
  /-- `buffer_` is not null. -/
  hasBuffer : Bool := true
  connectReactor : Option ConnectReactor := none
  /-- The number of the call that `stream_data_reactor_` made. -/
  streamDataReactor : Option ℕ := none
  /-- All calls of `StreamMetrics` so far. -/
  rpcs : List StreamRpc := []

namespace Client

/-- The new value of `out_uuid`, and the result.  A file that is there is taken to
open; `AgentIdFile.loadUUID` has the open that fails. -/
def loadUUID (files : Files) (out : String) : String × Bool :=
  match files.uuid with
  | none => (out, false)
  | some content => (getline content, getline content ≠ "")

/-- `Connect` up to `Await`. -/
def connect (files : Files) (c : Client) : Client :=
  { c with id := (loadUUID files c.id).1, connectReactor := some .init }

def enqueueWrite (c : Client) (msg : ControlMessage) : Option Client :=
  c.connectReactor.map fun r => { c with connectReactor := some (r.enqueueWrite msg) }

def saveUUID (files : Files) (c : Client) (uuid : String) (o : SaveOutcome) :
    Files × Option Client :=
  if uuid = "" then
    (files, c.enqueueWrite (ConnectReactor.createMessage .error "Empty UUID received from server"))
  else if files.uuid.isSome then
    (files,
      c.enqueueWrite (ConnectReactor.createMessage .error "UUID file already exists on agent"))
  else
    let tmp := if o.opened then some (String.ofList (uuid.toList.take o.written)) else files.tmp
    -- `rename` throws when it fails, before `id_` is set
    match o.renamed, tmp with
    | true, some content => ({ uuid := some content, tmp := none }, some { c with id := uuid })
    | _, _ => ({ files with tmp := tmp }, none)

def sendData (c : Client) : Option Client := c.enqueueWrite (ConnectReactor.createMessage .ok)

def streamData (c : Client) : Option Client :=
  if c.hasBuffer then
    -- nothing resets `stream_data_reactor_` when its call is done
    match c.streamDataReactor with
    | some _ =>
        c.enqueueWrite (ConnectReactor.createMessage .error "StreamData RPC already active")
    | none =>
        enqueueWrite
          { c with
            streamDataReactor := some c.rpcs.length
            rpcs := c.rpcs ++ [{ agentId := c.id }] }
          (ConnectReactor.createMessage .ok)
  else c.enqueueWrite (ConnectReactor.createMessage .error "Metrics buffer is null")

def onMessage (files : Files) (c : Client) (msg : ControlMessage) (o : SaveOutcome) :
    Files × Option Client :=
  match msg.type with
  | .ping => (files, c.enqueueWrite (ConnectReactor.createMessage .pong))
  | .pong => (files, some c)
  | .sendData => (files, c.sendData)
  | .streamData => (files, c.streamData)
  | .error => (files, some c)
  | .ok => (files, some c)
  | .id => c.saveUUID files msg.getPayload o
  | .unknown => (files, some c)
  | .unrecognized _ => (files, some c)

/-- All messages put on the queue of `connect_reactor_`. -/
def enqueued (c : Client) : List ControlMessage :=
  match c.connectReactor with
  | none => []
  | some r => r.writer.enqueued

/-! ### What a message does to the client -/

/-- A message put on the queue is the only thing that changes. -/
theorem enqueueWrite_eq_some {c c' : Client} {msg : ControlMessage}
    (h : c.enqueueWrite msg = some c') :
    ∃ r, c' = { c with connectReactor := some r } ∧ c'.enqueued = c.enqueued ++ [msg] := by
  obtain ⟨r, hr, rfl⟩ := Option.map_eq_some_iff.mp h
  refine ⟨r.enqueueWrite msg, rfl, ?_⟩
  simp only [enqueued, hr, ConnectReactor.enqueueWrite, Writer.write]
  split <;> rfl

/-- The client does nothing, queues an answer, starts a call, or takes an ID. -/
theorem onMessage_cases {files : Files} {c c' : Client} {msg : ControlMessage} {o : SaveOutcome}
    (h : (c.onMessage files msg o).2 = some c') :
    c' = c ∨ (∃ r, c' = { c with connectReactor := some r }) ∨
      (msg.type = .streamData ∧ ∃ r, c' = { c with
        connectReactor := some r
        streamDataReactor := some c.rpcs.length
        rpcs := c.rpcs ++ [{ agentId := c.id }] }) ∨
      (msg.type = .id ∧ c' = { c with id := msg.getPayload }) := by
  have hqueue : ∀ {m}, c.enqueueWrite m = some c' →
      ∃ r, c' = { c with connectReactor := some r } := by
    intro m hm
    obtain ⟨r, hr, -⟩ := enqueueWrite_eq_some hm
    exact ⟨r, hr⟩
  rw [onMessage] at h
  split at h
  case h_1 | h_3 => exact .inr (.inl (hqueue h))
  case h_4 htype =>
    rw [streamData] at h
    split at h
    · split at h
      · exact .inr (.inl (hqueue h))
      · obtain ⟨r, hr, -⟩ := enqueueWrite_eq_some h
        exact .inr (.inr (.inl ⟨htype, r, hr⟩))
    · exact .inr (.inl (hqueue h))
  case h_7 htype =>
    rw [saveUUID] at h
    split at h
    · exact .inr (.inl (hqueue h))
    · split at h
      · exact .inr (.inl (hqueue h))
      · dsimp only at h
        split at h
        · rw [Option.some_inj] at h
          exact .inr (.inr (.inr ⟨htype, h.symm⟩))
        · exact absurd h (by simp)
  all_goals
    rw [Option.some_inj] at h
    exact .inl h.symm

/-- A message that does not ask for streaming leaves the streaming as it is. -/
theorem onMessage_keeps {files : Files} {c c' : Client} {msg : ControlMessage} {o : SaveOutcome}
    (htype : msg.type ≠ .streamData) (h : (c.onMessage files msg o).2 = some c') :
    c'.hasBuffer = c.hasBuffer ∧ c'.streamDataReactor = c.streamDataReactor ∧
      c'.rpcs = c.rpcs ∧ (c.connectReactor.isSome → c'.connectReactor.isSome) := by
  rcases onMessage_cases h with rfl | ⟨r, rfl⟩ | ⟨hs, -⟩ | ⟨-, rfl⟩
  · exact ⟨rfl, rfl, rfl, fun hc => hc⟩
  · exact ⟨rfl, rfl, rfl, fun _ => rfl⟩
  · exact absurd hs htype
  · exact ⟨rfl, rfl, rfl, fun hc => hc⟩

/-- A message that is not an ID leaves the client's ID, which every call it
starts carries. -/
theorem onMessage_id {files : Files} {c c' : Client} {msg : ControlMessage} {o : SaveOutcome}
    (htype : msg.type ≠ .id) (h : (c.onMessage files msg o).2 = some c') :
    c'.id = c.id ∧ ∀ rpc ∈ c'.rpcs, rpc ∈ c.rpcs ∨ rpc.agentId = c.id := by
  rcases onMessage_cases h with rfl | ⟨r, rfl⟩ | ⟨-, r, rfl⟩ | ⟨hi, -⟩
  · exact ⟨rfl, fun rpc hrpc => .inl hrpc⟩
  · exact ⟨rfl, fun rpc hrpc => .inl hrpc⟩
  · refine ⟨rfl, fun rpc hrpc => ?_⟩
    rcases List.mem_append.mp hrpc with hrpc | hrpc
    · exact .inl hrpc
    · rw [List.mem_singleton.mp hrpc]
      exact .inr rfl
  · exact absurd hi htype

/-- An ID that comes while there is no file is taken. -/
theorem saveUUID_eq_some {files : Files} {c c' : Client} {uuid : String} {o : SaveOutcome}
    (hne : uuid ≠ "") (hfile : files.uuid = none) (h : (c.saveUUID files uuid o).2 = some c') :
    c' = { c with id := uuid } := by
  rw [saveUUID, if_neg hne, if_neg (by simp [hfile])] at h
  dsimp only at h
  split at h
  · cases h
    rfl
  · exact absurd h (by simp)

/-- An ID that comes while there is a file is refused. -/
theorem saveUUID_of_file {files : Files} {c : Client} {uuid : String} {o : SaveOutcome}
    (hne : uuid ≠ "") {content : String} (hfile : files.uuid = some content) :
    c.saveUUID files uuid o = (files,
      c.enqueueWrite
        (ConnectReactor.createMessage .error "UUID file already exists on agent")) := by
  rw [saveUUID, if_neg hne, if_pos (by simp [hfile])]

/-! ### The ID file -/

/-- `SaveUUID` ends with the ID in the file and in `id_`, where the next
`LoadUUID` finds it, or it leaves both as they were. -/
def SavesWhole (files : Files) (c : Client) (uuid : String) (o : SaveOutcome) : Prop :=
  let (files', c') := c.saveUUID files uuid o
  (files'.uuid = some uuid ∧ c'.map Client.id = some uuid ∧
    ∀ out, loadUUID files' out = (uuid, true)) ∨
  (files'.uuid = files.uuid ∧ (c'.getD c).id = c.id)

/-- The condition on the input: no rename moves a file that holds anything but
the ID.  Nothing checks the stream, so a file that was cut short is renamed
like a whole one, and a file that could not be opened leaves the temporary file
of an earlier attempt to be renamed. -/
def RenamesWhole (files : Files) (uuid : String) (o : SaveOutcome) : Prop :=
  uuid = "" ∨ files.uuid.isSome ∨ o.renamed = false ∨
    (if o.opened then uuid.toList.length ≤ o.written else ∀ content ∈ files.tmp, content = uuid)

theorem getline_of_not_mem {uuid : String} (h : '\n' ∉ uuid.toList) : getline uuid = uuid := by
  have hall : ∀ c ∈ uuid.toList, decide (c ≠ '\n') = true := by
    intro c hc
    rw [decide_eq_true_iff]
    intro heq
    exact h (heq ▸ hc)
  rw [getline, List.takeWhile_eq_self_iff.mpr hall, String.ofList_toList]

/-- A refused ID changes neither the file nor `id_`. -/
theorem savesWhole_of_enqueueWrite {files : Files} {c : Client} {uuid : String} {o : SaveOutcome}
    {msg : ControlMessage} (h : c.saveUUID files uuid o = (files, c.enqueueWrite msg)) :
    SavesWhole files c uuid o := by
  rw [SavesWhole, h]
  refine Or.inr ⟨rfl, ?_⟩
  cases hr : c.enqueueWrite msg with
  | none => rfl
  | some c' =>
    obtain ⟨r, rfl, -⟩ := enqueueWrite_eq_some hr
    rfl

/-- With no file there, the ID is saved as it should be if and only if what the
rename moves, when it moves anything, is the ID. -/
theorem savesWhole_iff_of_none {files : Files} {c : Client} {uuid : String} {o : SaveOutcome}
    (hline : '\n' ∉ uuid.toList) (hne : uuid ≠ "") (hfile : files.uuid = none)
    {tmp : Option String}
    (htmp : (if o.opened then some (String.ofList (uuid.toList.take o.written)) else files.tmp)
      = tmp) :
    SavesWhole files c uuid o ↔ o.renamed = false ∨ ∀ content ∈ tmp, content = uuid := by
  rw [SavesWhole, saveUUID, if_neg hne, if_neg (by simp [hfile])]
  dsimp only
  rw [htmp]
  cases hren : o.renamed with
  | false => simp
  | true =>
    cases tmp with
    | none => simp
    | some content =>
      constructor
      · rintro (⟨hcontent, -⟩ | ⟨hcontent, -⟩)
        · exact Or.inr fun x hx =>
            (Option.mem_some_iff.mp hx).symm.trans (Option.some_inj.mp hcontent)
        · exact absurd (hcontent.trans hfile) (Option.some_ne_none content)
      · intro h
        have hcontent : content = uuid := by
          rcases h with h | h
          · exact absurd h (by simp)
          · exact h content rfl
        subst hcontent
        refine Or.inl ⟨rfl, rfl, fun out => ?_⟩
        simp only [loadUUID, getline_of_not_mem hline, hne, ne_eq, not_false_eq_true, decide_true]

/-- **An ID is stored whole or not at all exactly if no rename moves anything
else.**  For every ID in one line, every state of the two files and every
outcome of the file steps. -/
theorem savesWhole_iff (files : Files) (c : Client) {uuid : String} (o : SaveOutcome)
    (hline : '\n' ∉ uuid.toList) : SavesWhole files c uuid o ↔ RenamesWhole files uuid o := by
  by_cases hne : uuid = ""
  · have hrefused : SavesWhole files c uuid o :=
      savesWhole_of_enqueueWrite (by rw [saveUUID, if_pos hne])
    exact ⟨fun _ => Or.inl hne, fun _ => hrefused⟩
  cases hfile : files.uuid with
  | some content =>
    constructor
    · intro _
      exact Or.inr (Or.inl (by rw [hfile]; rfl))
    · intro _
      exact savesWhole_of_enqueueWrite (saveUUID_of_file hne hfile)
  | none =>
    rw [savesWhole_iff_of_none hline hne hfile rfl, RenamesWhole]
    cases o.opened with
    | true =>
      have htake : String.ofList (uuid.toList.take o.written) = uuid
          ↔ uuid.toList.length ≤ o.written := by
        rw [← List.take_eq_self_iff, ← String.toList_inj, String.toList_ofList]
      simp [hne, hfile, htake]
    | false => simp [hne, hfile]

/-- A first ID, written to the end and renamed. -/
theorem savesWhole_iff_new :
    SavesWhole {} {} "a1" { written := 2 } ↔ RenamesWhole {} "a1" { written := 2 } :=
  savesWhole_iff {} {} { written := 2 } (by decide)

/-- A write that fails half-way leaves half of the ID, for good. -/
theorem saveUUID_truncates :
    ¬ ∀ (files : Files) (c : Client) (uuid : String) (o : SaveOutcome),
      '\n' ∉ uuid.toList → SavesWhole files c uuid o := by
  intro hall
  rcases hall {} {} "a1" { written := 1 } (by decide) with ⟨hfile, -⟩ | ⟨hfile, -⟩
  · exact absurd hfile (by decide)
  · exact absurd hfile (by decide)

end Client

/-! ### Commands to stream -/

namespace Streaming

structure State where
  files : Files := {}
  client : Client

/-- The completion callback of a call only logs. -/
inductive Action where
  | message (msg : ControlMessage) (o : SaveOutcome)
  | readFails (k : ℕ)
  | writeFails (k : ℕ)
  | done (k : ℕ)

def step (s : State) : Action → Option State
  | .message msg o =>
      let (files, client) := s.client.onMessage s.files msg o
      client.map fun client => { files := files, client := client }
  | .readFails k => s.client.rpcs[k]?.map fun _ => s
  | .writeFails k => s.client.rpcs[k]?.map fun _ => s
  | .done k =>
      match s.client.rpcs[k]? with
      | some rpc =>
          if rpc.active then
            some { s with client.rpcs := s.client.rpcs.set k { rpc with active := false } }
          else none
      | none => none

/-- A client with a buffer that has just connected. -/
def init (files : Files) : State := { files := files, client := Client.connect files {} }

def AtMostOneActive (s : State) : Prop :=
  (s.client.rpcs.filter fun rpc => rpc.active).length ≤ 1

def NoneActive (s : State) : Prop := ∀ rpc ∈ s.client.rpcs, rpc.active = false

/-- A step on `MESSAGE_STREAM_DATA` does what it should: with no call active it
starts one and answers `MESSAGE_OK`, and it answers `MESSAGE_ERROR` only when
one is active. -/
def Answers (s : State) (a : Action) : Prop :=
  ∀ msg o t, a = .message msg o → msg.type = .streamData → step s a = some t →
    (NoneActive s → t.client.rpcs = s.client.rpcs ++ [{ agentId := s.client.id }] ∧
      t.client.enqueued = s.client.enqueued ++ [ConnectReactor.createMessage .ok]) ∧
    (∀ answer, t.client.enqueued = s.client.enqueued ++ [answer] → answer.type = .error →
      ¬ NoneActive s)

/-- The condition on a step: no call has finished when a command to stream
comes. -/
def NoneFinished (s : State) (a : Action) : Prop :=
  ∀ msg o, a = .message msg o → msg.type = .streamData → ∀ rpc ∈ s.client.rpcs, rpc.active = true

/-! ### One reactor for good -/

/-- The reactor of the first call stays in place when the call has finished. -/
structure Inv (s : State) : Prop where
  hasBuffer : s.client.hasBuffer = true
  connected : s.client.connectReactor.isSome
  not_started : s.client.streamDataReactor = none → s.client.rpcs = []
  started : ∀ k, s.client.streamDataReactor = some k → s.client.rpcs.length = 1

theorem inv_init (files : Files) : Inv (init files) where
  hasBuffer := rfl
  connected := rfl
  not_started _ := rfl
  started _ h := nomatch h

namespace Inv

variable {s : State}

theorem length_le (h : Inv s) : s.client.rpcs.length ≤ 1 := by
  cases hr : s.client.streamDataReactor with
  | none =>
    rw [h.not_started hr]
    exact Nat.zero_le 1
  | some k => exact Nat.le_of_eq (h.started k hr)

theorem atMostOneActive (h : Inv s) : AtMostOneActive s :=
  Nat.le_trans (List.length_filter_le _ _) h.length_le

/-- The first command starts a call, every later one is refused. -/
theorem streamData (h : Inv s) {c : Client} (hc : s.client.streamData = some c) :
    (s.client.streamDataReactor = none ∧ (∃ r k, c = { s.client with
        connectReactor := some r
        streamDataReactor := some k
        rpcs := s.client.rpcs ++ [{ agentId := s.client.id }] }) ∧
      c.enqueued = s.client.enqueued ++ [ConnectReactor.createMessage .ok]) ∨
    (s.client.rpcs.length = 1 ∧ (∃ r, c = { s.client with connectReactor := some r }) ∧
      c.enqueued = s.client.enqueued
        ++ [ConnectReactor.createMessage .error "StreamData RPC already active"]) := by
  rw [Client.streamData, if_pos h.hasBuffer] at hc
  split at hc
  · rename_i k hk
    obtain ⟨r, hr, henq⟩ := Client.enqueueWrite_eq_some hc
    exact .inr ⟨h.started k hk, ⟨r, hr⟩, henq⟩
  · rename_i hnone
    obtain ⟨r, hr, henq⟩ := Client.enqueueWrite_eq_some hc
    exact .inl ⟨hnone, ⟨r, _, hr⟩, henq⟩

theorem step (h : Inv s) {a : Action} {t : State} (ht : Streaming.step s a = some t) : Inv t := by
  cases a with
  | message msg o =>
    simp only [Streaming.step] at ht
    obtain ⟨c, hc, rfl⟩ := Option.map_eq_some_iff.mp ht
    by_cases htype : msg.type = .streamData
    · have hstream : s.client.streamData = some c := by
        simpa only [Client.onMessage, htype] using hc
      rcases h.streamData hstream with ⟨hnone, ⟨r, k, rfl⟩, -⟩ | ⟨hlen, ⟨r, rfl⟩, -⟩
      · refine ⟨h.hasBuffer, rfl, nofun, fun _ _ => ?_⟩
        simp [h.not_started hnone]
      · exact ⟨h.hasBuffer, rfl, h.not_started, fun _ _ => hlen⟩
    · obtain ⟨hbuf, hreactor, hrpcs, hconn⟩ := Client.onMessage_keeps htype hc
      refine ⟨hbuf.trans h.hasBuffer, hconn h.connected, fun hn => ?_, fun k hk => ?_⟩
      · exact hrpcs.trans (h.not_started (hreactor ▸ hn))
      · rw [show { files := _, client := c : State }.client.rpcs = s.client.rpcs from hrpcs]
        exact h.started k (hreactor ▸ hk)
  | readFails k =>
    obtain ⟨rpc, -, rfl⟩ := Option.map_eq_some_iff.mp ht
    exact h
  | writeFails k =>
    obtain ⟨rpc, -, rfl⟩ := Option.map_eq_some_iff.mp ht
    exact h
  | done k =>
    simp only [Streaming.step] at ht
    split at ht
    · split at ht
      · rename_i hk _
        cases ht
        refine ⟨h.hasBuffer, h.connected, fun hn => ?_, fun k' hk' => ?_⟩
        · simp [h.not_started hn] at hk
        · simpa using h.started k' hk'
      · exact absurd ht (by simp)
    · exact absurd ht (by simp)

end Inv

/-- Where the invariant holds, a command is answered as it should be exactly
when no call has finished. -/
theorem answers_iff {s t : State} {a : Action} (h : Inv s) (ht : step s a = some t) :
    Answers s a ↔ NoneFinished s a := by
  by_cases ha : ∃ msg o, a = .message msg o ∧ msg.type = .streamData
  · obtain ⟨msg, o, rfl, htype⟩ := ha
    obtain ⟨c, hc, rfl⟩ := Option.map_eq_some_iff.mp ht
    have hstream : s.client.streamData = some c := by
      simpa only [Client.onMessage, htype] using hc
    rcases h.streamData hstream with ⟨hnone, ⟨r, k, hrpcs⟩, henq⟩ | ⟨hlen, ⟨r, hrpcs⟩, henq⟩
    · -- the first command: there is no call yet
      have hnil := h.not_started hnone
      constructor
      · intro _ msg' o' _ _ rpc hrpc
        rw [hnil] at hrpc
        exact absurd hrpc List.not_mem_nil
      · intro _ msg' o' t' heq _ ht'
        cases heq
        rw [ht, Option.some_inj] at ht'
        subst ht'
        refine ⟨fun _ => ⟨by rw [hrpcs], henq⟩, fun answer hans herr => ?_⟩
        rw [henq, List.append_cancel_left_eq, List.singleton_inj] at hans
        rw [← hans] at herr
        exact absurd herr (by simp [ConnectReactor.createMessage])
    · -- the command is refused, with the one call there is active or finished
      obtain ⟨rpc, hrpc⟩ := List.length_eq_one_iff.mp hlen
      have hactive : NoneFinished s (.message msg o) ↔ rpc.active = true := by
        simp [NoneFinished, hrpc, htype]
      have hnone : NoneActive s ↔ rpc.active = false := by
        simp [NoneActive, hrpc]
      rw [hactive]
      constructor
      · intro hans
        by_contra hfin
        have hstart := ((hans msg o _ rfl htype ht).1 (hnone.mpr (by simpa using hfin))).1
        rw [hrpcs] at hstart
        simp at hstart
      · intro hact msg' o' t' heq _ ht'
        have hnot : ¬ NoneActive s := by
          rw [hnone, hact]
          exact Bool.noConfusion
        exact ⟨fun hn => absurd hn hnot, fun _ _ _ => hnot⟩
  · constructor
    · exact fun _ msg o heq htype => absurd ⟨msg, o, heq, htype⟩ ha
    · exact fun _ msg o t heq htype => absurd ⟨msg, o, heq, htype⟩ ha

/-- **Streaming is never doubled, and can be restarted exactly while no call
has finished.**  In every run at most one `StreamMetrics` call is active at any
time; and every `MESSAGE_STREAM_DATA` of the run starts a call and is answered
`MESSAGE_OK` when none is active, and is answered `MESSAGE_ERROR` only when one
is, exactly if no `MESSAGE_STREAM_DATA` comes after a call has finished. -/
theorem streaming_iff (files : Files) {as : List Action} {s : State}
    (hs : Run.exec step (init files) as = some s) :
    Run.Along step AtMostOneActive (init files) as ∧
      (Run.Meets step Answers (init files) as ↔ Run.Meets step NoneFinished (init files) as) := by
  constructor
  · exact Run.along_of_invariant (fun h => h.atMostOneActive) (fun h ht => h.step ht) as
      (inv_init files)
  · exact Run.meets_congr (I := Inv) (fun h ht => h.step ht) (fun h ht => answers_iff h ht)
      (inv_init files) hs

/-- A command to stream, a call that ends, and a second command. -/
def streamTwice : List Action :=
  [.message { type := .streamData } { written := 0 }, .readFails 0, .done 0,
    .message { type := .streamData } { written := 0 }]

theorem streaming_iff_twice :
    ∃ s, Run.exec step (init {}) streamTwice = some s ∧
      Run.Along step AtMostOneActive (init {}) streamTwice ∧
        (Run.Meets step Answers (init {}) streamTwice
          ↔ Run.Meets step NoneFinished (init {}) streamTwice) := by
  obtain ⟨s, hs⟩ := Option.isSome_iff_exists.mp
    (show (Run.exec step (init {}) streamTwice).isSome from rfl)
  exact ⟨s, hs, streaming_iff {} hs⟩

/-- After a call has ended, a command to stream is refused. -/
theorem streamData_refused :
    ¬ ∀ (as : List Action) (s : State), Run.exec step (init {}) as = some s →
      Run.Meets step Answers (init {}) as := by
  intro hall
  have hlast : streamTwice
      = streamTwice.take 3 ++ [.message { type := .streamData } { written := 0 }] := rfl
  obtain ⟨s, hs⟩ := Option.isSome_iff_exists.mp
    (show (Run.exec step (init {}) streamTwice).isSome from rfl)
  have hmeets := (Run.meets_congr (I := Inv) (fun h ht => h.step ht)
    (fun h ht => answers_iff h ht) (inv_init {}) hs).mp (hall _ s hs)
  have hrun : (Run.exec step (init {}) (streamTwice.take 3)).map (fun t => t.client.rpcs)
      = some [{ agentId := "", active := false }] := rfl
  obtain ⟨t, ht, hrpcs⟩ := Option.map_eq_some_iff.mp hrun
  rw [hlast, Run.meets_append] at hmeets
  have hactive := (hmeets.2 t ht).1 _ _ rfl rfl { agentId := "", active := false }
    (by rw [hrpcs]; exact List.mem_singleton_self _)
  exact absurd hactive (by simp)

end Streaming

end Volta
