/-
The agent's command queue (`message_queue.cc`), a POSIX message queue.

`mq_notify` registers for one notification, sent when a message arrives on an
empty queue; registering for a queue that already holds a message says nothing.
The senders are other processes and may run between any two steps of the
receiver.  `stop_listening` is not modelled: the agent calls it once, when it
ends.

* `noStranded_iff` — no message is left without a callback to deliver it exactly
  in the runs that register for notification only while the queue is empty;
* `deaf` — after a registration with a message in the queue no command is
  delivered any more.
-/
import Volta.Run

namespace Volta

namespace MessageQueue

structure Options where
  maxMessages : ℕ := 10
  maxMsgSize : ℕ := 4096

structure Message where
  text : String
  priority : ℕ := 0
  deriving DecidableEq

/-- Where the notification thread is in `drain_and_rearm`. -/
inductive Callback where
  | idle
  | notified
  | receiving
  | handling (message : Message)
  | rearming
  deriving DecidableEq

structure State where
  opts : Options := {}
  opened : Bool := false
  queue : List Message := []
  /-- A registration of `mq_notify` is in force. -/
  registered : Bool := false
  listening : Bool := false
  callback : Callback := .idle
  /-- The messages given to `handler_`. -/
  handled : List Message := []

/-- A queue keeps its messages by priority, then by age. -/
def insert (message : Message) (queue : List Message) : List Message :=
  queue.takeWhile (fun m => message.priority ≤ m.priority) ++
    message :: queue.dropWhile (fun m => message.priority ≤ m.priority)

/-- `mq_send` on an `O_NONBLOCK` descriptor: `false`, and no change, when the
queue is full. -/
def mqSend (s : State) (message : Message) : State × Bool :=
  if s.queue.length < s.opts.maxMessages then
    -- the notification uses up the registration
    let notify := s.queue.isEmpty && s.registered
    ({ s with
        queue := insert message s.queue
        registered := s.registered && !notify
        callback := if notify then .notified else s.callback }, true)
  else (s, false)

/-- `MessageQueue::send`; the exception for a long message changes nothing. -/
def send (s : State) (message : Message) : State × Bool :=
  if message.text.utf8ByteSize > s.opts.maxMsgSize then (s, false) else mqSend s message

def armNotify (s : State) : State := { s with registered := true }

def listen (s : State) : State :=
  if s.listening then s else armNotify { s with listening := true }

inductive Action where
  | openQueue
  | send (message : Message)
  | listen
  /-- The thread of a notification starts. -/
  | onNotify
  | receive
  /-- `mq_receive` fails with another error than `EAGAIN`. -/
  | receiveFails
  | handlerReturns
  | rearm

def step (s : State) : Action → Option State
  | .openQueue => if s.opened then none else some { s with opened := true }
  | .send message => if s.opened then some (send s message).1 else none
  | .listen => if s.opened then some (listen s) else none
  | .onNotify =>
      match s.callback with
      | .notified => some { s with callback := .receiving }
      | _ => none
  | .receive =>
      match s.callback, s.queue with
      | .receiving, message :: rest =>
          some
            { s with
              queue := rest
              callback := .handling message
              handled := s.handled ++ [message] }
      | .receiving, [] => some { s with callback := .rearming }  -- EAGAIN
      | _, _ => none
  | .receiveFails =>
      match s.callback with
      | .receiving => some { s with listening := false, callback := .idle }
      | _ => none
  | .handlerReturns =>
      match s.callback with
      | .handling _ => some { s with callback := .receiving }
      | _ => none
  | .rearm =>
      match s.callback with
      | .rearming =>
          some { (if s.listening then armNotify s else s) with callback := .idle }
      | _ => none

/-! ### What no run should reach -/

/-- If the receiver listens and no callback is on its way, the queue is empty. -/
def NoStranded (s : State) : Prop :=
  s.listening = true → s.callback = .idle → s.queue = []

/-- The step calls `mq_notify`. -/
def Registers (s : State) : Action → Prop
  | .listen => s.listening = false
  | .rearm => s.listening = true
  | _ => False

/-- The condition on a step: `mq_notify` is called on an empty queue only. -/
def RegistersEmpty (s : State) (a : Action) : Prop := Registers s a → s.queue = []

structure Inv (s : State) : Prop where
  closed : s.opened = false → s.listening = false
  registered_iff : s.registered = true ↔ s.listening = true ∧ s.callback = .idle
  idle : s.listening = false → s.callback = .idle
  noStranded : NoStranded s

theorem inv_init (opts : Options) : Inv { opts := opts } where
  closed _ := rfl
  registered_iff := by simp
  idle _ := rfl
  noStranded h := nomatch h

namespace Inv

variable {s : State}

theorem mqSend (h : Inv s) (message : Message) : Inv (mqSend s message).1 := by
  rw [MessageQueue.mqSend]
  split
  · cases hreg : s.registered with
    | true =>
      -- the receiver waits, so the queue is empty and the notification is sent
      obtain ⟨hl, hc⟩ := h.registered_iff.mp hreg
      have hq : s.queue = [] := h.noStranded hl hc
      exact
        { closed := h.closed
          registered_iff := by simp [hq]
          idle := fun hl' => by simp [hl] at hl'
          noStranded := fun _ hc' => by simp [hq] at hc' }
    | false =>
      -- nobody is told: a callback is on its way already
      refine ⟨h.closed, ?_, fun hl => ?_, fun hl hc => ?_⟩
      · have hiff := h.registered_iff
        simpa [hreg] using hiff
      · simpa using h.idle hl
      · have hreg' := h.registered_iff.mpr ⟨hl, by simpa using hc⟩
        exact absurd (hreg.symm.trans hreg') (by simp)
  · exact h

theorem send (h : Inv s) (message : Message) : Inv (send s message).1 := by
  rw [MessageQueue.send]
  split
  · exact h
  · exact h.mqSend message

/-- The notification thread goes on to another place of `drain_and_rearm`. -/
theorem goOn (h : Inv s) {queue : List Message} {callback : Callback} {handled : List Message}
    (hc : s.callback ≠ .idle) (hc' : callback ≠ .idle) :
    Inv { s with queue := queue, callback := callback, handled := handled } where
  closed := h.closed
  registered_iff := by simp [h.registered_iff, hc, hc']
  idle hl := absurd (h.idle hl) hc
  noStranded _ hidle := absurd hidle hc'

theorem step (h : Inv s) {a : Action} {t : State} (hok : RegistersEmpty s a)
    (ht : MessageQueue.step s a = some t) : Inv t := by
  cases a with
  | openQueue =>
    simp only [MessageQueue.step] at ht
    split at ht
    · exact absurd ht (by simp)
    · cases ht
      exact { h with closed := nofun }
  | send message =>
    simp only [MessageQueue.step] at ht
    split at ht
    · cases ht
      exact h.send message
    · exact absurd ht (by simp)
  | listen =>
    simp only [MessageQueue.step] at ht
    split at ht
    · rename_i hopen
      cases ht
      rw [MessageQueue.listen]
      split
      · exact h
      · rename_i hl
        rw [Bool.not_eq_true] at hl
        exact
          { closed := fun hc => absurd hopen (by simp [show s.opened = false from hc])
            registered_iff := by simp [armNotify, h.idle hl]
            idle := nofun
            noStranded := fun _ _ => hok hl }
    · exact absurd ht (by simp)
  | onNotify =>
    simp only [MessageQueue.step] at ht
    split at ht
    · rename_i hc
      cases ht
      exact h.goOn (by simp [hc]) (by simp)
    · exact absurd ht (by simp)
  | receive =>
    simp only [MessageQueue.step] at ht
    split at ht
    · rename_i hc _
      cases ht
      exact h.goOn (by simp [hc]) (by simp)
    · rename_i hc _
      cases ht
      exact h.goOn (by simp [hc]) (by simp)
    · exact absurd ht (by simp)
  | receiveFails =>
    simp only [MessageQueue.step] at ht
    split at ht
    · rename_i hc
      cases ht
      exact
        { closed := fun _ => rfl
          registered_iff := by simp [h.registered_iff, hc]
          idle := fun _ => rfl
          noStranded := nofun }
    · exact absurd ht (by simp)
  | handlerReturns =>
    simp only [MessageQueue.step] at ht
    split at ht
    · rename_i hc
      cases ht
      exact h.goOn (by simp [hc]) (by simp)
    · exact absurd ht (by simp)
  | rearm =>
    simp only [MessageQueue.step] at ht
    split at ht
    · rename_i hc
      have hl : s.listening = true := by
        by_contra hl
        rw [Bool.not_eq_true] at hl
        exact absurd (h.idle hl) (by simp [hc])
      rw [if_pos hl] at ht
      cases ht
      exact
        { closed := h.closed
          registered_iff := by simp [armNotify, hl]
          idle := fun _ => rfl
          noStranded := fun _ _ => hok hl }
    · exact absurd ht (by simp)

/-- A registration for a queue that holds a message strands the message. -/
theorem not_noStranded (h : Inv s) {a : Action} {t : State} (hok : ¬ RegistersEmpty s a)
    (ht : MessageQueue.step s a = some t) : ¬ NoStranded t := by
  rw [RegistersEmpty, Classical.not_imp] at hok
  obtain ⟨hreg, hq⟩ := hok
  cases a with
  | listen =>
    have hl : s.listening = false := hreg
    simp only [MessageQueue.step] at ht
    split at ht
    · cases ht
      intro hno
      refine hq ?_
      simpa [listen, hl, armNotify] using hno (by simp [listen, hl, armNotify])
        (by simp [listen, hl, armNotify, h.idle hl])
    · exact absurd ht (by simp)
  | rearm =>
    have hl : s.listening = true := hreg
    simp only [MessageQueue.step] at ht
    split at ht
    · rw [if_pos hl] at ht
      cases ht
      exact fun hno => hq (hno hl rfl)
    · exact absurd ht (by simp)
  | openQueue | send _ | onNotify | receive | receiveFails | handlerReturns => exact hreg.elim

end Inv

/-! ### A stranded message stays, and so does every later one -/

structure Stranded (s : State) : Prop where
  listening : s.listening = true
  idle : s.callback = .idle
  waiting : s.queue ≠ []

theorem Stranded.step {s t : State} {a : Action} (h : Stranded s) (ht : step s a = some t) :
    Stranded t ∧ t.handled = s.handled := by
  have hl := h.listening
  have hc := h.idle
  have hq := h.waiting
  cases a with
  | openQueue =>
    simp only [MessageQueue.step] at ht
    split at ht
    · exact absurd ht (by simp)
    · cases ht
      exact ⟨⟨hl, hc, hq⟩, rfl⟩
  | send message =>
    simp only [MessageQueue.step] at ht
    split at ht
    · cases ht
      unfold send mqSend
      split
      · exact ⟨h, rfl⟩
      · split
        · refine ⟨⟨hl, ?_, ?_⟩, rfl⟩
          · simp [hq, hc]
          · simp [insert]
        · exact ⟨h, rfl⟩
    · exact absurd ht (by simp)
  | listen =>
    simp only [MessageQueue.step, listen, hl, if_true] at ht
    split at ht
    · cases ht
      exact ⟨h, rfl⟩
    · exact absurd ht (by simp)
  | onNotify | receive | receiveFails | handlerReturns | rearm =>
    simp [MessageQueue.step, hc] at ht

/-- Once a message is stranded, no command is handled any more. -/
theorem deaf {s t : State} {as : List Action} (h : Stranded s)
    (ht : Run.exec step s as = some t) : Stranded t ∧ t.handled = s.handled := by
  refine Run.exec_invariant (I := fun u => Stranded u ∧ u.handled = s.handled) ?_ ⟨h, rfl⟩ ht
  rintro u a v ⟨hu, heq⟩ hv
  obtain ⟨hv', heq'⟩ := hu.step hv
  exact ⟨hv', heq'.trans heq⟩

/-! ### When no command is stranded -/

/-- **No command is stranded, exactly when every registration finds the queue
empty.** -/
theorem noStranded_iff (opts : Options) {as : List Action} {s : State}
    (hs : Run.exec step { opts := opts } as = some s) :
    Run.Along step NoStranded { opts := opts } as
      ↔ Run.Meets step RegistersEmpty { opts := opts } as :=
  Run.along_iff_meets (fun h => h.noStranded) (fun h hok ht => h.step hok ht)
    (fun h hok ht => h.not_noStranded hok ht) (inv_init opts) hs

/-- One command delivered, and the next sent before the re-arming. -/
def sendBeforeRearm : List Action :=
  [.openQueue, .listen, .send ⟨"dump_start;", 0⟩, .onNotify, .receive, .handlerReturns, .receive,
    .send ⟨"dump_end", 0⟩, .rearm]

theorem noStranded_iff_first :
    ∃ s, Run.exec step {} (sendBeforeRearm.take 7) = some s ∧
      (Run.Along step NoStranded {} (sendBeforeRearm.take 7)
        ↔ Run.Meets step RegistersEmpty {} (sendBeforeRearm.take 7)) := by
  obtain ⟨s, hs⟩ := Option.isSome_iff_exists.mp
    (show (Run.exec step {} (sendBeforeRearm.take 7)).isSome from rfl)
  exact ⟨s, hs, noStranded_iff {} hs⟩

/-- A command sent between the last `mq_receive` and the `mq_notify` that
follows is stranded. -/
theorem command_stranded :
    ¬ ∀ (as : List Action) (s : State), Run.exec step {} as = some s → NoStranded s := by
  intro hall
  have hrun : (Run.exec step {} sendBeforeRearm).map
      (fun s => (s.listening, s.callback, s.queue)) = some (true, .idle, [⟨"dump_end", 0⟩]) := rfl
  obtain ⟨s, hs, heq⟩ := Option.map_eq_some_iff.mp hrun
  simp only [Prod.mk.injEq] at heq
  obtain ⟨hl, hc, hq⟩ := heq
  rw [hall _ s hs hl hc] at hq
  exact absurd hq (by simp)

end MessageQueue
end Volta
