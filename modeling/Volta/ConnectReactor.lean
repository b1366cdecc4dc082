/-
The write side of the agent's `Connect` stream (`connect_reactor.cc`).

`EnqueueWrite` and `OnWriteDone` run wholly under `mu_`, so each is one step;
gRPC completes a write in a step of its own, before it calls `OnWriteDone`.

* `inv_of_exec` — in every run the queue is in order, and nothing is left
  queued unless something is being written.
-/
import Volta.Run
import Volta.Writer
import Volta.ControlMessage

namespace Volta

structure ConnectReactor where
  writer : Writer ControlMessage := {}
  /-- `OnWriteDone(true)` calls that wait for `mu_`. -/
  completed : ℕ := 0

namespace ConnectReactor

/-- Only an error carries the payload. -/
def createMessage (type : MessageType) (payload : String := "") : ControlMessage :=
  { type := type, payload := if type = .error then some payload else none }

def enqueueWrite (r : ConnectReactor) (msg : ControlMessage) : ConnectReactor :=
  { r with writer := (r.writer.push msg).write }

def onWriteDone (r : ConnectReactor) : ConnectReactor :=
  { r with writer := r.writer.pop.write }

/-- The constructor asks for the agent's ID. -/
def init : ConnectReactor := enqueueWrite {} (createMessage .id)

inductive Action where
  | enqueueWrite (msg : ControlMessage)
  | writeCompletes (ok : Bool)
  | onWriteDone

def step (r : ConnectReactor) : Action → Option ConnectReactor
  | .enqueueWrite msg => some (r.enqueueWrite msg)
  | .writeCompletes ok =>
      if r.writer.outstanding = [] then none
      else some
        { writer := r.writer.complete
          completed := if ok then r.completed + 1 else r.completed }
  | .onWriteDone =>
      match r.completed with
      | 0 => none
      | n + 1 => some { r.onWriteDone with completed := n }

/-- What every step keeps: every locked section ends with `Write()`. -/
def Inv (r : ConnectReactor) : Prop :=
  r.writer.Ordered r.completed ∧ (r.writer.writing = false → r.writer.writerqu = [])

theorem inv_init : Inv init :=
  ⟨(Writer.ordered_init.push _).write, Writer.writerqu_eq_nil_of_write _⟩

theorem inv_step {r r' : ConnectReactor} {a : Action} (h : Inv r) (hs : step r a = some r') :
    Inv r' := by
  cases a with
  | enqueueWrite msg =>
    rw [step, Option.some_inj] at hs
    subst hs
    exact ⟨(h.1.push msg).write, Writer.writerqu_eq_nil_of_write _⟩
  | writeCompletes ok =>
    simp only [step] at hs
    split at hs
    · exact absurd hs (by simp)
    · rename_i hout
      rw [Option.some_inj] at hs
      subst hs
      exact ⟨h.1.complete hout ok, h.2⟩
  | onWriteDone =>
    simp only [step] at hs
    split at hs
    · exact absurd hs (by simp)
    · rename_i n hn
      rw [Option.some_inj] at hs
      subst hs
      have hord : r.writer.Ordered (n + 1) := by
        have hord := h.1
        rwa [hn] at hord
      exact ⟨hord.pop.write, Writer.writerqu_eq_nil_of_write _⟩

theorem inv_of_exec {as : List Action} {r : ConnectReactor}
    (h : Run.exec step init as = some r) : Inv r :=
  Run.exec_invariant inv_step inv_init h

end ConnectReactor
end Volta
