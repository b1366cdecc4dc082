/-
A session of the server with one agent (`session.go`), from `Run` to its
removal from the registry.

`Run` waits for two goroutines.  `recv` reads from the stream and answers some
messages through `Send`; `send` takes messages from the unbuffered `sendCh` and
writes them to the stream.  `Send`, also when a REST request calls it, and
`send` give up when the session's context is done, which is derived from the
stream's; `Run` cancels it when it returns.

* `tornDown_iff` — once a goroutine has returned the server can finish the
  session by itself, exactly in the runs in which no goroutine is the first to
  return while the context of the stream is live.
-/
import Volta.Run
import Volta.Server

namespace Volta

namespace Session

/-- What `stream.Recv` and `stream.Send` can fail with. -/
inductive StreamError where
  | eof
  | status (s : Status)

/-- In `sending`, `recv` is in the `Send` of `handleMessage`. -/
inductive RecvPc where
  | receiving
  | sending (msg : ControlMessage)
  | returned (err : StreamError)

/-- In `streaming`, `send` is in `stream.Send`. -/
inductive SendPc where
  | selecting
  | streaming (msg : ControlMessage)
  | returned (err : Option StreamError)

inductive RunPc where
  | waiting
  | returned (err : Option StreamError)
  | removed

structure State where
  recv : RecvPc := .receiving
  send : SendPc := .selecting
  run : RunPc := .waiting
  /-- The messages of REST requests that wait in `Send`. -/
  callers : List ControlMessage := []
  /-- `stream.Context()` is done. -/
  streamDone : Bool := false
  /-- `cancel` has been called. -/
  canceled : Bool := false
  /-- The first error that a goroutine returned. -/
  err : Option StreamError := none

/-- The session's context is done. -/
def State.ctxDone (s : State) : Bool := s.streamDone || s.canceled

/-- What `handleMessage` sends back. -/
def answer (msg : ControlMessage) : Option ControlMessage :=
  match msg.type with
  | .ping => some { type := .pong }
  | .sendData => some
      { type := .error, payload := some (msg.type.string ++ " is only for agents") }
  | .streamData => some
      { type := .error, payload := some (msg.type.string ++ " is only for agents") }
  | _ => none

/-- The goroutine's result reaches the error group, which keeps the first
error. -/
def State.recvReturns (s : State) (err : StreamError) : State :=
  { s with recv := .returned err, err := s.err.orElse fun _ => some err }

def State.sendReturns (s : State) (err : Option StreamError) : State :=
  { s with send := .returned err, err := s.err.orElse fun _ => err }

/-- The server's own steps: those of its goroutines that need nothing from the
agent, and what gRPC returns from a stream whose context is done. -/
inductive ServerAction where
  | recvCanceled
  | recvSends
  | recvGivesUp
  | callerSends (i : ℕ)
  | callerGivesUp (i : ℕ)
  | streamSendReturns
  | streamSendCanceled
  | sendCtxDone
  | runReturns
  | remove

/-- The steps of the agent, of its connection and of REST clients. -/
inductive ClientAction where
  | message (msg : ControlMessage)
  | recvFails (err : StreamError)
  | streamSendFails (err : StreamError)
  | restCall (msg : ControlMessage)
  | disconnect

def canceledError : StreamError := .status ⟨.canceled, "context canceled"⟩

def serverStep (s : State) : ServerAction → Option State
  | .recvCanceled =>
      if s.streamDone then
        match s.recv with
        | .receiving => some (s.recvReturns canceledError)
        | _ => none
      else none
  | .recvSends =>
      -- `sendCh` has no buffer: the two goroutines meet
      match s.recv, s.send with
      | .sending msg, .selecting => some { s with recv := .receiving, send := .streaming msg }
      | _, _ => none
  | .recvGivesUp =>
      -- `recv` drops the error of `handleMessage` and reads on
      if s.ctxDone then
        match s.recv with
        | .sending _ => some { s with recv := .receiving }
        | _ => none
      else none
  | .callerSends i =>
      match s.callers[i]?, s.send with
      | some msg, .selecting => some
          { s with callers := s.callers.eraseIdx i, send := .streaming msg }
      | _, _ => none
  | .callerGivesUp i =>
      if s.ctxDone then
        match s.callers[i]? with
        | some _ => some { s with callers := s.callers.eraseIdx i }
        | none => none
      else none
  | .streamSendReturns =>
      match s.send with
      | .streaming _ => some { s with send := .selecting }
      | _ => none
  | .streamSendCanceled =>
      if s.streamDone then
        match s.send with
        | .streaming _ => some (s.sendReturns (some canceledError))
        | _ => none
      else none
  | .sendCtxDone =>
      if s.ctxDone then
        match s.send with
        | .selecting => some (s.sendReturns none)
        | _ => none
      else none
  | .runReturns =>
      -- `eg.Wait` waits for both goroutines, and `cancel` is deferred
      match s.recv, s.send, s.run with
      | .returned _, .returned _, .waiting => some
          { s with run := .returned s.err, canceled := true }
      | _, _, _ => none
  | .remove =>
      -- `Connect` returns, and with it the stream ends
      match s.run with
      | .returned _ => some { s with run := .removed, streamDone := true }
      | _ => none

def clientStep (s : State) : ClientAction → Option State
  | .message msg =>
      match s.recv with
      | .receiving =>
          match answer msg with
          | some reply => some { s with recv := .sending reply }
          | none => some s
      | _ => none
  | .recvFails err =>
      match s.recv with
      | .receiving => some (s.recvReturns err)
      | _ => none
  | .streamSendFails err =>
      match s.send with
      | .streaming _ => some (s.sendReturns (some err))
      | _ => none
  | .restCall msg => some { s with callers := s.callers ++ [msg] }
  | .disconnect => some { s with streamDone := true }

inductive Action where
  | server (a : ServerAction)
  | client (a : ClientAction)

def step (s : State) : Action → Option State
  | .server a => serverStep s a
  | .client a => clientStep s a

/-! ### Teardown -/

def RecvPc.Returned : RecvPc → Prop
  | .returned _ => True
  | _ => False

def SendPc.Returned : SendPc → Prop
  | .returned _ => True
  | _ => False

def RunPc.Returned : RunPc → Prop
  | .waiting => False
  | _ => True

def Action.Own : Action → Prop
  | .server _ => True
  | .client _ => False

theorem own_server (a : ServerAction) : (Action.server a).Own := trivial

/-- If a goroutine has returned, `Run` has, or the server's own steps lead to
that. -/
def TornDown (s : State) : Prop :=
  s.recv.Returned ∨ s.send.Returned → ∃ t, Run.Reaches step Action.Own s t ∧ t.run.Returned

/-- The step makes a goroutine return. -/
def Returns : Action → Prop
  | .server .recvCanceled => True
  | .server .streamSendCanceled => True
  | .server .sendCtxDone => True
  | .client (.recvFails _) => True
  | .client (.streamSendFails _) => True
  | _ => False

/-- The condition on a step: the goroutine that returns first does so when the
context of the stream is done. -/
def FirstReturnsDone (s : State) (a : Action) : Prop :=
  Returns a → ¬ s.recv.Returned → ¬ s.send.Returned → s.streamDone = true

structure Inv (s : State) : Prop where
  done : s.recv.Returned ∨ s.send.Returned → s.streamDone = true ∨ s.run.Returned
  both : s.run.Returned → s.recv.Returned ∧ s.send.Returned
  canceled : s.canceled = true → s.run.Returned

theorem inv_init : Inv {} where
  done h := h.elim False.elim False.elim
  both h := h.elim
  canceled h := nomatch h

theorem ctxDone_of_streamDone {s : State} (h : s.streamDone = true) : s.ctxDone = true := by
  rw [State.ctxDone, h]
  rfl

theorem RecvPc.Returned.exists {p : RecvPc} (h : p.Returned) : ∃ err, p = .returned err := by
  cases p with
  | returned err => exact ⟨err, rfl⟩
  | receiving => exact h.elim
  | sending msg => exact h.elim

theorem SendPc.Returned.exists {p : SendPc} (h : p.Returned) : ∃ err, p = .returned err := by
  cases p with
  | returned err => exact ⟨err, rfl⟩
  | selecting => exact h.elim
  | streaming msg => exact h.elim

/-! ### The server finishes a session whose stream is done -/

theorem recv_returns {s : State} (hdone : s.streamDone = true) :
    ∃ t, Run.Reaches step Action.Own s t ∧ t.recv.Returned ∧ t.run = s.run ∧
      t.streamDone = true := by
  have hrecv : ∀ u : State, u.recv = .receiving → u.streamDone = true →
      step u (.server .recvCanceled) = some (u.recvReturns canceledError) := by
    intro u hpc hd
    simp [step, serverStep, hpc, hd]
  cases hpc : s.recv with
  | receiving =>
    exact ⟨_, .single (own_server _) (hrecv s hpc hdone), trivial, rfl, hdone⟩
  | sending msg =>
    have hgive : step s (.server .recvGivesUp) = some { s with recv := .receiving } := by
      simp [step, serverStep, hpc, ctxDone_of_streamDone hdone]
    have hreach : Run.Reaches step Action.Own s { s with recv := .receiving } :=
      .single (own_server _) hgive
    exact ⟨_, hreach.trans (.single (own_server _) (hrecv _ rfl hdone)), trivial, rfl, hdone⟩
  | returned err =>
    refine ⟨s, .refl s, ?_, rfl, hdone⟩
    rw [hpc]
    exact trivial

theorem send_returns {s : State} (hdone : s.streamDone = true) :
    ∃ t, Run.Reaches step Action.Own s t ∧ t.send.Returned ∧ t.recv = s.recv ∧ t.run = s.run := by
  cases hpc : s.send with
  | selecting =>
    have hstep : step s (.server .sendCtxDone) = some (s.sendReturns none) := by
      simp [step, serverStep, hpc, ctxDone_of_streamDone hdone]
    exact ⟨_, .single (own_server _) hstep, trivial, rfl, rfl⟩
  | streaming msg =>
    have hstep : step s (.server .streamSendCanceled)
        = some (s.sendReturns (some canceledError)) := by
      simp [step, serverStep, hpc, hdone]
    exact ⟨_, .single (own_server _) hstep, trivial, rfl, rfl⟩
  | returned err =>
    refine ⟨s, .refl s, ?_, rfl, rfl⟩
    rw [hpc]
    exact trivial

theorem run_returns {s : State} (hdone : s.streamDone = true) :
    ∃ t, Run.Reaches step Action.Own s t ∧ t.run.Returned := by
  cases hrun : s.run with
  | returned err =>
    refine ⟨s, .refl s, ?_⟩
    rw [hrun]
    exact trivial
  | removed =>
    refine ⟨s, .refl s, ?_⟩
    rw [hrun]
    exact trivial
  | waiting =>
    -- first `recv`, then `send`, then `Run`
    obtain ⟨t, hst, hrecv, hrunt, hdonet⟩ := recv_returns hdone
    obtain ⟨u, htu, hsend, hrecvu, hrunu⟩ := send_returns hdonet
    obtain ⟨err, herr⟩ := hrecv.exists
    obtain ⟨err', herr'⟩ := hsend.exists
    have hwait : u.run = .waiting := hrunu.trans (hrunt.trans hrun)
    have hstep : step u (.server .runReturns)
        = some { u with run := .returned u.err, canceled := true } := by
      simp only [step, serverStep, hrecvu.trans herr, herr', hwait]
    exact ⟨_, (hst.trans htu).trans (.single (own_server _) hstep), trivial⟩

theorem Inv.tornDown {s : State} (h : Inv s) : TornDown s := by
  intro hret
  obtain hdone | hrun := h.done hret
  · exact run_returns hdone
  · exact ⟨s, .refl s, hrun⟩

namespace Inv

variable {s t : State}

/-- A step that makes no goroutine return, and neither `Run`. -/
theorem of_same (h : Inv s) (hrecv : t.recv.Returned ↔ s.recv.Returned)
    (hsend : t.send.Returned ↔ s.send.Returned) (hrun : t.run = s.run)
    (hdone : s.streamDone = true → t.streamDone = true) (hcanceled : t.canceled = s.canceled) :
    Inv t where
  done hret := by
    rw [hrecv, hsend] at hret
    rw [hrun]
    exact (h.done hret).imp_left hdone
  both := by
    rw [hrun, hrecv, hsend]
    exact h.both
  canceled := by
    rw [hcanceled, hrun]
    exact h.canceled

theorem recvReturns (h : Inv s) (err : StreamError)
    (hdone : s.streamDone = true ∨ s.run.Returned) : Inv (s.recvReturns err) where
  done _ := hdone
  both hrun := ⟨trivial, (h.both hrun).2⟩
  canceled := h.canceled

theorem sendReturns (h : Inv s) (err : Option StreamError)
    (hdone : s.streamDone = true ∨ s.run.Returned) : Inv (s.sendReturns err) where
  done _ := hdone
  both hrun := ⟨(h.both hrun).1, trivial⟩
  canceled := h.canceled

theorem done_of_returns (h : Inv s) {a : Action} (hok : FirstReturnsDone s a) (ha : Returns a) :
    s.streamDone = true ∨ s.run.Returned := by
  by_cases hret : s.recv.Returned ∨ s.send.Returned
  · exact h.done hret
  · rw [not_or] at hret
    exact .inl (hok ha hret.1 hret.2)

theorem serverStep (h : Inv s) {a : ServerAction} (hok : FirstReturnsDone s (.server a))
    (ht : Session.serverStep s a = some t) : Inv t := by
  cases a with
  | recvCanceled =>
    have hdone := h.done_of_returns hok trivial
    simp only [Session.serverStep] at ht
    split at ht
    · split at ht
      · cases ht
        exact h.recvReturns _ hdone
      · exact absurd ht (by simp)
    · exact absurd ht (by simp)
  | recvSends =>
    simp only [Session.serverStep] at ht
    split at ht
    · rename_i hr hs
      cases ht
      refine h.of_same ?_ ?_ rfl id rfl
      · simp only [hr, RecvPc.Returned]
      · simp only [hs, SendPc.Returned]
    · exact absurd ht (by simp)
  | recvGivesUp =>
    simp only [Session.serverStep] at ht
    split at ht
    · split at ht
      · rename_i hr
        cases ht
        refine h.of_same ?_ Iff.rfl rfl id rfl
        simp only [hr, RecvPc.Returned]
      · exact absurd ht (by simp)
    · exact absurd ht (by simp)
  | callerSends i =>
    simp only [Session.serverStep] at ht
    split at ht
    · rename_i hs
      cases ht
      refine h.of_same Iff.rfl ?_ rfl id rfl
      simp only [hs, SendPc.Returned]
    · exact absurd ht (by simp)
  | callerGivesUp i =>
    simp only [Session.serverStep] at ht
    split at ht
    · split at ht
      · cases ht
        exact h.of_same Iff.rfl Iff.rfl rfl id rfl
      · exact absurd ht (by simp)
    · exact absurd ht (by simp)
  | streamSendReturns =>
    simp only [Session.serverStep] at ht
    split at ht
    · rename_i hs
      cases ht
      refine h.of_same Iff.rfl ?_ rfl id rfl
      simp only [hs, SendPc.Returned]
    · exact absurd ht (by simp)
  | streamSendCanceled =>
    have hdone := h.done_of_returns hok trivial
    simp only [Session.serverStep] at ht
    split at ht
    · split at ht
      · cases ht
        exact h.sendReturns _ hdone
      · exact absurd ht (by simp)
    · exact absurd ht (by simp)
  | sendCtxDone =>
    have hdone := h.done_of_returns hok trivial
    simp only [Session.serverStep] at ht
    split at ht
    · split at ht
      · cases ht
        exact h.sendReturns _ hdone
      · exact absurd ht (by simp)
    · exact absurd ht (by simp)
  | runReturns =>
    simp only [Session.serverStep] at ht
    split at ht
    · rename_i hr hs _
      cases ht
      refine ⟨fun _ => .inr trivial, fun _ => ?_, fun _ => trivial⟩
      rw [hr, hs]
      exact ⟨trivial, trivial⟩
    · exact absurd ht (by simp)
  | remove =>
    simp only [Session.serverStep] at ht
    split at ht
    · rename_i hr
      cases ht
      refine ⟨fun _ => .inr trivial, fun _ => h.both ?_, fun _ => trivial⟩
      rw [hr]
      exact trivial
    · exact absurd ht (by simp)

theorem clientStep (h : Inv s) {a : ClientAction} (hok : FirstReturnsDone s (.client a))
    (ht : Session.clientStep s a = some t) : Inv t := by
  cases a with
  | message msg =>
    simp only [Session.clientStep] at ht
    split at ht
    · rename_i hr
      split at ht
      · cases ht
        refine h.of_same ?_ Iff.rfl rfl id rfl
        simp only [hr, RecvPc.Returned]
      · cases ht
        exact h
    · exact absurd ht (by simp)
  | recvFails err =>
    have hdone := h.done_of_returns hok trivial
    simp only [Session.clientStep] at ht
    split at ht
    · cases ht
      exact h.recvReturns _ hdone
    · exact absurd ht (by simp)
  | streamSendFails err =>
    have hdone := h.done_of_returns hok trivial
    simp only [Session.clientStep] at ht
    split at ht
    · cases ht
      exact h.sendReturns _ hdone
    · exact absurd ht (by simp)
  | restCall msg =>
    cases ht
    exact h.of_same Iff.rfl Iff.rfl rfl id rfl
  | disconnect =>
    cases ht
    exact h.of_same Iff.rfl Iff.rfl rfl (fun _ => rfl) rfl

theorem step (h : Inv s) {a : Action} (hok : FirstReturnsDone s a)
    (ht : Session.step s a = some t) : Inv t := by
  obtain a | a := a
  · exact h.serverStep hok ht
  · exact h.clientStep hok ht

end Inv

/-! ### A session that nothing wakes -/

/-- One goroutine has returned, and nothing tells the other. -/
structure Stuck (s : State) : Prop where
  live : s.streamDone = false
  not_canceled : s.canceled = false
  waiting : s.run = .waiting
  one : (s.recv.Returned ∧ ¬ s.send.Returned) ∨ (s.send.Returned ∧ ¬ s.recv.Returned)

namespace Stuck

variable {s : State}

theorem ctxDone (h : Stuck s) : s.ctxDone = false := by
  rw [State.ctxDone, h.live, h.not_canceled]
  rfl

theorem step (h : Stuck s) {a : Action} {t : State} (hown : a.Own)
    (ht : Session.step s a = some t) : Stuck t := by
  obtain a | a := a
  · cases a with
    | recvCanceled => simp [Session.step, serverStep, h.live] at ht
    | recvGivesUp => simp [Session.step, serverStep, h.ctxDone] at ht
    | callerGivesUp i => simp [Session.step, serverStep, h.ctxDone] at ht
    | streamSendCanceled => simp [Session.step, serverStep, h.live] at ht
    | sendCtxDone => simp [Session.step, serverStep, h.ctxDone] at ht
    | remove => simp [Session.step, serverStep, h.waiting] at ht
    | recvSends =>
      -- a goroutine that has returned meets no one
      simp only [Session.step, serverStep] at ht
      split at ht
      · rename_i hr hs
        have hone := h.one
        rw [hr, hs] at hone
        exact (hone.elim And.left And.left).elim
      · exact absurd ht (by simp)
    | callerSends i =>
      simp only [Session.step, serverStep] at ht
      split at ht
      · rename_i hs
        cases ht
        have hone := h.one
        rw [hs] at hone
        exact ⟨h.live, h.not_canceled, h.waiting, hone⟩
      · exact absurd ht (by simp)
    | streamSendReturns =>
      simp only [Session.step, serverStep] at ht
      split at ht
      · rename_i hs
        cases ht
        have hone := h.one
        rw [hs] at hone
        exact ⟨h.live, h.not_canceled, h.waiting, hone⟩
      · exact absurd ht (by simp)
    | runReturns =>
      simp only [Session.step, serverStep] at ht
      split at ht
      · rename_i hr hs _
        have hone := h.one
        rw [hr, hs] at hone
        exact (hone.elim (fun h => h.2 trivial) (fun h => h.2 trivial)).elim
      · exact absurd ht (by simp)
  · exact hown.elim

theorem not_tornDown (h : Stuck s) : ¬ TornDown s := by
  intro htorn
  obtain ⟨t, hst, hret⟩ := htorn (h.one.imp And.left And.left)
  have ht := hst.invariant (fun hown hs ht => hs.step hown ht) h
  rw [ht.waiting] at hret
  exact hret

end Stuck

/-- The first goroutine to return while the stream is live leaves the other
waiting. -/
theorem Inv.stuck {s t : State} (h : Inv s) {a : Action} (hno : ¬ FirstReturnsDone s a)
    (ht : Session.step s a = some t) : Stuck t := by
  have hret : Returns a ∧ ¬ s.recv.Returned ∧ ¬ s.send.Returned ∧ ¬ s.streamDone = true := by
    by_contra hcon
    exact hno fun ha hr hs => by_contra fun hd => hcon ⟨ha, hr, hs, hd⟩
  obtain ⟨ha, hr, hs, hd⟩ := hret
  have hlive : s.streamDone = false := Bool.eq_false_iff.mpr hd
  -- `Run` waits for both, so it has not returned, and nothing else cancels
  have hrun : ¬ s.run.Returned := fun hrun => hr (h.both hrun).1
  have hcanceled : s.canceled = false := Bool.eq_false_iff.mpr fun hc => hrun (h.canceled hc)
  have hctx : s.ctxDone = false := by
    rw [State.ctxDone, hlive, hcanceled]
    rfl
  have hwait : s.run = .waiting := by
    cases hpc : s.run with
    | waiting => rfl
    | returned err => exact (hrun (by rw [hpc]; exact trivial)).elim
    | removed => exact (hrun (by rw [hpc]; exact trivial)).elim
  obtain a | a := a
  · cases a with
    | recvCanceled => simp [Session.step, Session.serverStep, hlive] at ht
    | streamSendCanceled => simp [Session.step, Session.serverStep, hlive] at ht
    | sendCtxDone => simp [Session.step, Session.serverStep, hctx] at ht
    | _ => exact ha.elim
  · cases a with
    | recvFails err =>
      simp only [Session.step, Session.clientStep] at ht
      split at ht
      · cases ht
        exact ⟨hlive, hcanceled, hwait, .inl ⟨trivial, hs⟩⟩
      · exact absurd ht (by simp)
    | streamSendFails err =>
      simp only [Session.step, Session.clientStep] at ht
      split at ht
      · cases ht
        exact ⟨hlive, hcanceled, hwait, .inr ⟨trivial, hr⟩⟩
      · exact absurd ht (by simp)
    | _ => exact ha.elim

/-- **Teardown**: the server can finish a session once a goroutine of it has
returned, exactly while no goroutine is the first to return with the stream
live. -/
theorem tornDown_iff {as : List Action} {s : State} (hs : Run.exec step {} as = some s) :
    Run.Along step TornDown {} as ↔ Run.Meets step FirstReturnsDone {} as :=
  Run.along_iff_meets (I := Inv) (fun h => h.tornDown) (fun h hok ht => h.step hok ht)
    (fun h hno ht => (h.stuck hno ht).not_tornDown) inv_init hs

/-- The agent disconnects during a REST request's message. -/
def disconnectRun : List Action :=
  [.client (.message { type := .ping }), .server .recvSends,
    .client (.restCall { type := .streamData }), .client .disconnect, .server .streamSendCanceled,
    .server .recvCanceled, .server (.callerGivesUp 0), .server .runReturns, .server .remove]

theorem tornDown_iff_disconnect :
    Run.Along step TornDown {} disconnectRun ↔ Run.Meets step FirstReturnsDone {} disconnectRun :=
  tornDown_iff rfl

/-- The agent half-closes its side of the stream: `recv` returns `io.EOF`, and
`send` waits for ever. -/
theorem half_close_stuck :
    ¬ ∀ (as : List Action) (s : State), Run.exec step {} as = some s → TornDown s := by
  intro h
  have hstuck : Stuck (State.recvReturns {} .eof) := ⟨rfl, rfl, rfl, .inl ⟨trivial, id⟩⟩
  exact hstuck.not_tornDown (h [.client (.recvFails .eof)] _ rfl)

end Session
end Volta
