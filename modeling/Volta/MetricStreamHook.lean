/-
The effect of `useMetricStream` (`features/metrics/use-metric-stream.ts`).

React runs the effect with the values that were last rendered, after the
clean-up of the run before.  A run keeps its variables in a closure; its sockets
and timers call back into that closure also after the clean-up, unless the
clean-up took the handlers away.  Runs, sockets and timers are numbered.
-/
import Volta.Metric
import Mathlib.Logic.Function.Basic
import Mathlib.Algebra.Group.Nat.Defs

namespace Volta

namespace Dashboard

def backoffMinMs : ℕ := 1000

def backoffMaxMs : ℕ := 30000

/-- The dependencies of the effect. -/
structure Deps where
  baseUrl : String
  connected : Bool
  agentId : Option String

/-- The agent that a run streams; without one it has nothing to do. -/
def Deps.active (d : Deps) : Option String :=
  if d.connected then d.agentId.filter fun id => id ≠ "" else none

inductive StreamStatus where
  | idle
  | connecting
  | opened
  | reconnecting
  deriving DecidableEq

/-- The variables of a run of the effect, and what it captured. -/
structure EffectRun where
  baseUrl : String
  agentId : String
  socket : Option ℕ := none
  reconnectTimer : Option ℕ := none
  attempt : ℕ := 0
  disposed : Bool := false

inductive ReadyState where
  | connecting
  | opened
  | closing
  | closed
  deriving DecidableEq

/-- `handlers` are set until the clean-up of the run. -/
structure Socket where
  run : ℕ
  readyState : ReadyState := .connecting
  handlers : Bool := true

/-- A timer that has not expired. -/
structure Timer where
  run : ℕ
  delay : ℕ

structure Hook where
  /-- What React rendered the component with, while it is there. -/
  rendered : Option Deps := none
  /-- The run whose clean-up React has. -/
  mounted : Option ℕ := none
  runs : ℕ → Option EffectRun := fun _ => none
  nextRun : ℕ := 0
  sockets : ℕ → Option Socket := fun _ => none
  nextSocket : ℕ := 0
  timers : ℕ → Option Timer := fun _ => none
  nextTimer : ℕ := 0
  streamStatus : StreamStatus := .idle
  /-- The batches ingested since the last `reset`, with their sockets. -/
  ingested : List (ℕ × MetricBatch) := []

def Socket.close (s : Socket) : Socket :=
  match s.readyState with
  | .connecting => { s with readyState := .closing }
  | .opened => { s with readyState := .closing }
  | _ => s

namespace Hook

def setRun (h : Hook) (i : ℕ) (r : EffectRun) : Hook :=
  { h with runs := Function.update h.runs i (some r) }

def setSocket (h : Hook) (k : ℕ) (s : Socket) : Hook :=
  { h with sockets := Function.update h.sockets k (some s) }

def setStreamStatus (h : Hook) (status : StreamStatus) : Hook := { h with streamStatus := status }

/-- `scheduleReconnect` of run `i`. -/
def scheduleReconnect (h : Hook) (i : ℕ) (r : EffectRun) : Hook :=
  if r.disposed then h
  else
    { (h.setStreamStatus .reconnecting).setRun i
        { r with attempt := r.attempt + 1, reconnectTimer := some h.nextTimer } with
      timers := Function.update h.timers h.nextTimer
        (some { run := i, delay := min (backoffMinMs * 2 ^ r.attempt) backoffMaxMs })
      nextTimer := h.nextTimer + 1 }

/-- `connect` of run `i`. -/
def connect (h : Hook) (i : ℕ) (r : EffectRun) : Hook :=
  if r.disposed then h
  else
    { ((h.setStreamStatus (if r.attempt = 0 then .connecting else .reconnecting)).setSocket
        h.nextSocket { run := i }).setRun i { r with socket := some h.nextSocket } with
      nextSocket := h.nextSocket + 1 }

/-- The effect. -/
def effect (h : Hook) (d : Deps) : Hook :=
  match d.active with
  | none => { h.setStreamStatus .idle with mounted := none }
  | some agentId =>
      connect { h with ingested := [], mounted := some h.nextRun, nextRun := h.nextRun + 1 }
        h.nextRun { baseUrl := d.baseUrl, agentId := agentId }

/-- The clean-up of run `i`. -/
def cleanup (h : Hook) (i : ℕ) (r : EffectRun) : Hook :=
  { (h.setStreamStatus .idle).setRun i { r with disposed := true } with
    timers :=
      match r.reconnectTimer with
      | some t => Function.update h.timers t none
      | none => h.timers
    sockets :=
      match r.socket with
      | some k =>
          Function.update h.sockets k
            ((h.sockets k).map fun s => { s.close with handlers := false })
      | none => h.sockets }

/-- React runs the clean-up that it has. -/
def cleanupMounted (h : Hook) : Hook :=
  match h.mounted with
  | none => h
  | some i =>
      match h.runs i with
      | none => h
      | some r => { h.cleanup i r with mounted := none }

def onopen (h : Hook) (i : ℕ) (r : EffectRun) : Hook × Option String :=
  if r.disposed then (h, none)
  else
    -- `fetchAgents(baseUrl).then(setAgents)`: what comes later is not guarded
    ((h.setStreamStatus .opened).setRun i { r with attempt := 0 }, some r.baseUrl)

def onmessage (h : Hook) (k : ℕ) (data : Option MetricBatch) : Hook :=
  match data with
  | none => h
  | some batch => { h with ingested := h.ingested ++ [(k, batch)] }

def onclose (h : Hook) (i : ℕ) (r : EffectRun) : Hook :=
  if r.disposed then h else h.scheduleReconnect i { r with socket := none }

end Hook

/-- What React and the browser do.  `data` is what a message decodes to. -/
inductive HookAction where
  | render
  | effect
  | unmount
  | socketOpens (k : ℕ)
  | socketMessage (k : ℕ) (data : Option MetricBatch)
  | socketError (k : ℕ)
  | socketCloses (k : ℕ)
  | timerFires (t : ℕ)

namespace Hook

/-- The run that a socket calls back into. -/
def caller (h : Hook) (s : Socket) : Option EffectRun := if s.handlers then h.runs s.run else none

/-- The new state and the base URL of the fetch that the step starts, if it
starts one.  `stores` are the values of the stores. -/
def step (stores : Deps) (h : Hook) : HookAction → Option (Hook × Option String)
  | .render =>
      -- only a dashboard that is connected mounts the component
      if h.rendered.isNone ∧ stores.connected = false then none
      else some ({ h with rendered := some stores }, none)
  | .effect =>
      match h.rendered with
      | none => none
      | some d => some (h.cleanupMounted.effect d, none)
  | .unmount =>
      match h.rendered with
      | none => none
      | some d =>
          if d.connected then none else some ({ h.cleanupMounted with rendered := none }, none)
  | .socketOpens k =>
      match h.sockets k with
      | none => none
      | some s =>
          if s.readyState = .connecting then
            let h' := h.setSocket k { s with readyState := .opened }
            match h.caller s with
            | none => some (h', none)
            | some r => some (h'.onopen s.run r)
          else none
  | .socketMessage k data =>
      match h.sockets k with
      | none => none
      | some s =>
          if s.readyState = .opened then
            match h.caller s with
            | none => some (h, none)
            | some _ => some (h.onmessage k data, none)
          else none
  | .socketError k =>
      match h.sockets k with
      | none => none
      | some s =>
          if s.readyState = .closed then none
          else
            match h.caller s with
            | none => some (h, none)
            | some _ => some (h.setSocket k s.close, none)
  | .socketCloses k =>
      match h.sockets k with
      | none => none
      | some s =>
          if s.readyState = .closed then none
          else
            let h' := h.setSocket k { s with readyState := .closed }
            match h.caller s with
            | none => some (h', none)
            | some r => some (h'.onclose s.run r, none)
  | .timerFires t =>
      match h.timers t with
      | none => none
      | some timer =>
          let h' := { h with timers := Function.update h.timers t none }
          match h.runs timer.run with
          | none => some (h', none)
          | some r => some (h'.connect timer.run r, none)

end Hook

end Dashboard
end Volta
