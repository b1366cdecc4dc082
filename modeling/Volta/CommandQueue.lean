/-
What becomes of the commands that the queue has accepted.

The queue keeps its messages by priority, and within a priority by age, so a
message is overtaken by more urgent ones only.

* `InOrder` — what was handled and what is in the queue, of each priority in the
  order of sending, are the messages accepted;
* `handled_once` — so each is handled at most once, and is in the queue until then;
* `commands_executed` — the agent does what the `volta export` commands meant, in
  the order in which they were given, each once.
-/
import Volta.ExportCommand
import Mathlib.Data.List.TakeWhile
import Mathlib.Order.Nat

namespace Volta

namespace MessageQueue

/-! ### A queue by priority -/

/-- The more urgent messages come first. -/
abbrev Sorted (queue : List Message) : Prop :=
  queue.Pairwise fun m m' => m'.priority ≤ m.priority

/-- The messages of one priority. -/
def ofPriority (p : ℕ) (messages : List Message) : List Message :=
  messages.filter fun m => m.priority = p

section Insert

variable {queue : List Message} (message : Message)

/-- What comes after the new message is less urgent. -/
theorem lt_of_mem_dropWhile (h : Sorted queue) :
    ∀ m ∈ queue.dropWhile (fun m => message.priority ≤ m.priority),
      m.priority < message.priority := by
  induction queue with
  | nil => exact fun _ hm => absurd hm List.not_mem_nil
  | cons m queue ih =>
    obtain ⟨hle, hrest⟩ := List.pairwise_cons.mp h
    rw [List.dropWhile_cons]
    split
    · exact ih hrest
    · rename_i hlt
      have hlt : m.priority < message.priority := by simpa using hlt
      intro m' hm'
      obtain rfl | hm' := List.mem_cons.mp hm'
      · exact hlt
      · exact (hle m' hm').trans_lt hlt

theorem sorted_insert (h : Sorted queue) : Sorted (insert message queue) := by
  have hsplit : queue.takeWhile (fun m => message.priority ≤ m.priority)
      ++ queue.dropWhile (fun m => message.priority ≤ m.priority) = queue :=
    List.takeWhile_append_dropWhile
  have hbefore : ∀ m ∈ queue.takeWhile (fun m => message.priority ≤ m.priority),
      message.priority ≤ m.priority := by
    intro m hm
    simpa using List.mem_takeWhile_imp hm
  have hafter := lt_of_mem_dropWhile message h
  rw [Sorted, ← hsplit, List.pairwise_append] at h
  obtain ⟨htake, hdrop, hcross⟩ := h
  refine List.pairwise_append.mpr ⟨htake, List.pairwise_cons.mpr ⟨?_, hdrop⟩, ?_⟩
  · exact fun m hm => (hafter m hm).le
  · intro m hm m' hm'
    obtain rfl | hm' := List.mem_cons.mp hm'
    · exact hbefore m hm
    · exact hcross m hm m' hm'

/-- Among its like the new message is the last. -/
theorem ofPriority_insert (h : Sorted queue) (p : ℕ) :
    ofPriority p (insert message queue) = ofPriority p (queue ++ [message]) := by
  have hsplit : queue.takeWhile (fun m => message.priority ≤ m.priority)
      ++ queue.dropWhile (fun m => message.priority ≤ m.priority) = queue :=
    List.takeWhile_append_dropWhile
  have hafter := lt_of_mem_dropWhile message h
  rw [ofPriority, ofPriority, insert, List.filter_append, List.filter_append]
  by_cases hp : message.priority = p
  · have hnil : (queue.dropWhile fun m => message.priority ≤ m.priority).filter
        (fun m => m.priority = p) = [] := by
      refine List.filter_eq_nil_iff.mpr fun m hm => ?_
      have hlt := hafter m hm
      simp only [decide_eq_true_eq]
      omega
    have hqueue : queue.filter (fun m => m.priority = p)
        = (queue.takeWhile fun m => message.priority ≤ m.priority).filter
          fun m => m.priority = p := by
      conv_lhs => rw [← hsplit]
      rw [List.filter_append, hnil, List.append_nil]
    rw [hqueue, List.filter_cons_of_pos (by simpa using hp),
      List.filter_cons_of_pos (by simpa using hp), hnil, List.filter_nil]
  · rw [List.filter_cons_of_neg (by simpa using hp), List.filter_cons_of_neg (by simpa using hp),
      List.filter_nil, List.append_nil, ← List.filter_append, hsplit]

end Insert

/-! ### The messages accepted -/

/-- What a step adds to the messages that `send` has accepted. -/
def acceptedBy (s : State) : Action → List Message
  | .send message => if (send s message).2 then [message] else []
  | _ => []

/-- A step, with the messages accepted so far. -/
def logStep (s : State × List Message) (a : Action) : Option (State × List Message) :=
  (step s.1 a).map fun t => (t, s.2 ++ acceptedBy s.1 a)

/-- Of each priority, what was handled and what is queued are the messages
accepted, in the order of their sending. -/
structure InOrder (s : State) (log : List Message) : Prop where
  sorted : Sorted s.queue
  kept : ∀ p, ofPriority p (s.handled ++ s.queue) = ofPriority p log

theorem inOrder_init (opts : Options) : InOrder { opts := opts } [] where
  sorted := List.Pairwise.nil
  kept _ := rfl

theorem InOrder.congr {s t : State} {log : List Message} (h : InOrder s log)
    (hqueue : t.queue = s.queue) (hhandled : t.handled = s.handled) : InOrder t log where
  sorted := hqueue ▸ h.sorted
  kept p := by rw [hqueue, hhandled, h.kept p]

theorem InOrder.mqSend {s : State} {log : List Message} (h : InOrder s log) (message : Message) :
    InOrder (mqSend s message).1 (log ++ if (mqSend s message).2 then [message] else []) := by
  rw [MessageQueue.mqSend]
  split
  · refine ⟨sorted_insert message h.sorted, fun p => ?_⟩
    have hkept := h.kept p
    have hinsert := ofPriority_insert message h.sorted p
    simp only [ofPriority, List.filter_append] at hkept hinsert ⊢
    rw [if_pos trivial, hinsert, ← List.append_assoc, hkept]
  · rw [if_neg (by simp), List.append_nil]
    exact h

theorem InOrder.send {s : State} {log : List Message} (h : InOrder s log) (message : Message) :
    InOrder (send s message).1 (log ++ if (send s message).2 then [message] else []) := by
  rw [MessageQueue.send]
  split
  · rw [if_neg (by simp), List.append_nil]
    exact h
  · exact h.mqSend message

theorem InOrder.step {s t : State} {log : List Message} (h : InOrder s log) {a : Action}
    (ht : step s a = some t) : InOrder t (log ++ acceptedBy s a) := by
  cases a with
  | send message =>
    simp only [MessageQueue.step] at ht
    split at ht <;> cases ht
    exact h.send message
  | receive =>
    rw [show acceptedBy s .receive = [] from rfl, List.append_nil]
    simp only [MessageQueue.step] at ht
    split at ht
    · rename_i message rest _ hq
      cases ht
      -- the message goes from the front of the queue to the end of what was handled
      have hsorted := h.sorted
      rw [hq] at hsorted
      refine ⟨(List.pairwise_cons.mp hsorted).2, fun p => ?_⟩
      rw [← h.kept p, hq, List.append_assoc, List.singleton_append]
    · cases ht
      exact h.congr rfl rfl
    · exact absurd ht (by simp)
  | openQueue =>
    simp only [MessageQueue.step] at ht
    split at ht <;> cases ht
    exact (List.append_nil log).symm ▸ h.congr rfl rfl
  | listen =>
    simp only [MessageQueue.step] at ht
    split at ht <;> cases ht
    refine (List.append_nil log).symm ▸ h.congr ?_ ?_
    · rw [listen]
      split <;> rfl
    · rw [listen]
      split <;> rfl
  | rearm =>
    simp only [MessageQueue.step] at ht
    split at ht <;> cases ht
    refine (List.append_nil log).symm ▸ h.congr ?_ ?_
    · dsimp only
      split <;> rfl
    · dsimp only
      split <;> rfl
  | onNotify | receiveFails | handlerReturns =>
    simp only [MessageQueue.step] at ht
    split at ht <;> cases ht
    exact (List.append_nil log).symm ▸ h.congr rfl rfl

theorem InOrder.logStep {s t : State × List Message} (h : InOrder s.1 s.2) {a : Action}
    (ht : logStep s a = some t) : InOrder t.1 t.2 := by
  obtain ⟨u, hu, rfl⟩ := Option.map_eq_some_iff.mp ht
  exact h.step hu

/-- The messages of all priorities together. -/
theorem InOrder.perm {s : State} {log : List Message} (h : InOrder s log) :
    (s.handled ++ s.queue).Perm log := by
  refine List.perm_iff_count.mpr fun m => ?_
  have hcount : ∀ l : List Message, l.count m = (ofPriority m.priority l).count m := by
    intro l
    rw [ofPriority, List.count_filter]
    simp
  rw [hcount, hcount log, h.kept]

/-- **Each command is handled once, in order.**  In every run of the queue, whoever
sends: of each priority, the messages handled and then those in the queue are the
messages accepted, in the order of their sending, so none is lost, none is handled
twice and none is overtaken by its like; the next to be handled is one of the most
urgent. -/
theorem handled_once (opts : Options) {as : List Action} {s : State} {log : List Message}
    (hs : Run.exec logStep ({ opts := opts }, []) as = some (s, log)) :
    (∀ p, ofPriority p s.handled ++ ofPriority p s.queue = ofPriority p log) ∧
      (s.handled ++ s.queue).Perm log ∧
      ∀ message rest, s.queue = message :: rest → ∀ m ∈ rest, m.priority ≤ message.priority := by
  have h : InOrder s log := Run.exec_invariant (I := fun s => InOrder s.1 s.2)
    (fun h ht => h.logStep ht) (inOrder_init opts) hs
  refine ⟨fun p => ?_, h.perm, fun message rest hq => ?_⟩
  · rw [← h.kept p]
    exact (List.filter_append ..).symm
  · have hsorted := h.sorted
    rw [hq] at hsorted
    exact (List.pairwise_cons.mp hsorted).1

/-- An urgent message overtakes one that was sent before it. -/
def urgent : List Action :=
  [.openQueue, .send ⟨"a", 0⟩, .send ⟨"b", 1⟩, .listen]

theorem handled_once_urgent :
    ∃ s log, Run.exec logStep ({}, []) urgent = some (s, log) ∧
      s.queue = [⟨"b", 1⟩, ⟨"a", 0⟩] ∧ (s.handled ++ s.queue).Perm log := by
  have hrun : (Run.exec logStep ({}, []) urgent).map (fun s => s.1.queue)
      = some [⟨"b", 1⟩, ⟨"a", 0⟩] := rfl
  obtain ⟨⟨s, log⟩, hs, hq⟩ := Option.map_eq_some_iff.mp hrun
  exact ⟨s, log, hs, hq, (handled_once {} hs).2.1⟩

end MessageQueue

/-! ### From the command line to the exporter -/

namespace CommandQueue

open ExportCommand (Text Call)
open MessageQueue (Message)

/-- The queue, the calls that its handler has made on the exporter, and what the
commands that it has accepted meant. -/
structure State where
  queue : MessageQueue.State := {}
  calls : List Call := []
  commands : List Call := []

inductive Action where
  /-- `volta export subcommand args`. -/
  | cli (subcommand : Text) (args : List Text)
  /-- A step of the agent. -/
  | agent (a : MessageQueue.Action)

/-- What the handler does with a message. -/
def handle (message : Message) : Option (List Call) :=
  ExportCommand.handleMessage message.text.toList

def step (absolute : Text → Text) (s : State) : Action → Option State
  | .cli subcommand args =>
      match ExportCommand.cliMode absolute
          ("volta".toList :: "export".toList :: subcommand :: args), s.queue.opened with
      | .sent message, true =>
          let sent := MessageQueue.mqSend s.queue ⟨String.ofList message, 0⟩
          some
            { s with
              queue := sent.1
              commands := s.commands ++
                if sent.2 then [ExportCommand.meant absolute subcommand args] else [] }
      | _, _ => some s
  | .agent (.send _) => none
  | .agent .receive =>
      match s.queue.queue with
      | [] => (MessageQueue.step s.queue .receive).map fun queue => { s with queue := queue }
      | message :: _ =>
          (MessageQueue.step s.queue .receive).bind fun queue =>
            (handle message).map fun calls =>
              { s with queue := queue, calls := s.calls ++ calls }
  | .agent a => (MessageQueue.step s.queue a).map fun queue => { s with queue := queue }

/-! ### What a message does -/

/-- A command that is to stop, or that names a path, does what it means. -/
theorem handleMessage_sent {absolute : Text → Text}
    (habs : ∀ path, ∃ rest, absolute path = '/' :: rest) {subcommand : Text} {args : List Text}
    (hpath : subcommand = "start".toList → args ≠ []) {message : Text}
    (hsent : ExportCommand.cliMode absolute
      ("volta".toList :: "export".toList :: subcommand :: args) = .sent message) :
    ExportCommand.handleMessage message = some [ExportCommand.meant absolute subcommand args] := by
  unfold ExportCommand.cliMode at hsent
  dsimp only at hsent
  rw [if_pos rfl] at hsent
  rw [ExportCommand.meant]
  split at hsent
  · rename_i hstart
    obtain ⟨path, args, rfl⟩ := List.exists_cons_of_ne_nil (hpath hstart)
    rw [if_pos hstart, ExportCommand.send_eq_sent hsent]
    exact ExportCommand.handleMessage_path (habs path)
  · rename_i hstart
    rw [if_neg hstart]
    split at hsent
    · rw [ExportCommand.send_eq_sent hsent]
      exact ExportCommand.handleMessage_stop
    · exact absurd hsent (by simp)

/-- Where nothing is less urgent the message comes last. -/
theorem insert_eq_append {queue : List Message} {message : Message}
    (h : ∀ m ∈ queue, message.priority ≤ m.priority) :
    MessageQueue.insert message queue = queue ++ [message] := by
  have hall : ∀ m ∈ queue, decide (message.priority ≤ m.priority) = true :=
    fun m hm => decide_eq_true (h m hm)
  rw [MessageQueue.insert, List.takeWhile_eq_self_iff.mpr hall, List.dropWhile_eq_nil_iff.mpr hall]

/-! ### The invariant -/

/-- The calls made, and those that the queued messages will make, are the commands. -/
structure Faithful (s : State) : Prop where
  priority : ∀ m ∈ s.queue.queue, m.priority = 0
  executes : ∃ pending, s.commands = s.calls ++ pending ∧
    s.queue.queue.map handle = pending.map fun call => some [call]

theorem faithful_init : Faithful {} where
  priority _ h := absurd h List.not_mem_nil
  executes := ⟨[], rfl, rfl⟩

section Faithful

variable {absolute : Text → Text} {s t : State}

/-- A step of the agent that takes no message. -/
theorem Faithful.congr (h : Faithful s) {queue : MessageQueue.State}
    (hqueue : queue.queue = s.queue.queue) : Faithful { s with queue := queue } where
  priority := by
    dsimp only
    rw [hqueue]
    exact h.priority
  executes := by
    dsimp only
    rw [hqueue]
    exact h.executes

theorem Faithful.cli (h : Faithful s) (habs : ∀ path, ∃ rest, absolute path = '/' :: rest)
    {subcommand : Text} {args : List Text} (hpath : subcommand = "start".toList → args ≠ [])
    (ht : step absolute s (.cli subcommand args) = some t) : Faithful t := by
  simp only [step] at ht
  split at ht
  · rename_i message hsent _
    cases ht
    have hmessage := handleMessage_sent habs hpath hsent
    obtain ⟨pending, hcommands, hhandle⟩ := h.executes
    rw [MessageQueue.mqSend]
    split
    · -- the message is the last of the queue, as its command is the last
      rw [if_pos rfl]
      dsimp only
      rw [insert_eq_append fun m hm => (h.priority m hm).ge]
      refine ⟨?_, pending ++ [ExportCommand.meant absolute subcommand args], ?_, ?_⟩
      · exact List.forall_mem_append.mpr ⟨h.priority, List.forall_mem_singleton.mpr rfl⟩
      · rw [hcommands, List.append_assoc]
      · rw [List.map_append, hhandle, List.map_append, List.map_singleton, List.map_singleton,
          handle, String.toList_ofList, hmessage]
    · rw [if_neg (by simp), List.append_nil]
      exact ⟨h.priority, pending, hcommands, hhandle⟩
  · cases ht
    exact h

theorem queue_of_receive {q q' : MessageQueue.State}
    (h : MessageQueue.step q .receive = some q') : q'.queue = q.queue.tail := by
  simp only [MessageQueue.step] at h
  split at h
  · rename_i hq
    cases h
    rw [hq]
    rfl
  · rename_i hq
    cases h
    rw [hq]
    rfl
  · exact absurd h (by simp)

theorem Faithful.receive (h : Faithful s) (ht : step absolute s (.agent .receive) = some t) :
    Faithful t := by
  simp only [step] at ht
  split at ht
  · rename_i hq
    obtain ⟨queue, hqueue, rfl⟩ := Option.map_eq_some_iff.mp ht
    refine h.congr ?_
    rw [queue_of_receive hqueue, hq]
    rfl
  · rename_i message rest hq
    obtain ⟨queue, hqueue, ht⟩ := Option.bind_eq_some_iff.mp ht
    obtain ⟨calls, hcalls, rfl⟩ := Option.map_eq_some_iff.mp ht
    have hrest : queue.queue = rest := by
      rw [queue_of_receive hqueue, hq]
      rfl
    obtain ⟨pending, hcommands, hhandle⟩ := h.executes
    have hpriority := h.priority
    rw [hq] at hhandle hpriority
    cases pending with
    | nil => exact absurd hhandle (by simp)
    | cons call pending =>
      rw [List.map_cons, List.map_cons, List.cons.injEq, hcalls, Option.some_inj] at hhandle
      refine ⟨?_, pending, ?_, ?_⟩
      · dsimp only
        rw [hrest]
        exact fun m hm => hpriority m (List.mem_cons_of_mem _ hm)
      · dsimp only
        rw [hhandle.1, hcommands, List.append_assoc, List.singleton_append]
      · dsimp only
        rw [hrest]
        exact hhandle.2

/-- The other steps of the agent leave the queue alone. -/
theorem queue_of_step {a : MessageQueue.Action} {q q' : MessageQueue.State}
    (hsend : ∀ message, a ≠ .send message) (hreceive : a ≠ .receive)
    (h : MessageQueue.step q a = some q') : q'.queue = q.queue := by
  cases a with
  | send message => exact absurd rfl (hsend message)
  | receive => exact absurd rfl hreceive
  | listen =>
    simp only [MessageQueue.step] at h
    split at h <;> cases h
    rw [MessageQueue.listen]
    split <;> rfl
  | rearm =>
    simp only [MessageQueue.step] at h
    split at h <;> cases h
    dsimp only
    split <;> rfl
  | openQueue | onNotify | receiveFails | handlerReturns =>
    simp only [MessageQueue.step] at h
    split at h <;> cases h
    rfl

theorem Faithful.step (h : Faithful s) (habs : ∀ path, ∃ rest, absolute path = '/' :: rest)
    {a : Action} (hpath : ∀ args, a = .cli "start".toList args → args ≠ [])
    (ht : CommandQueue.step absolute s a = some t) : Faithful t := by
  cases a with
  | cli subcommand args =>
    exact h.cli habs (fun hstart => hpath args (hstart ▸ rfl)) ht
  | agent a =>
    cases a with
    | send message => exact absurd ht (by simp [CommandQueue.step])
    | receive => exact h.receive ht
    | _ =>
      obtain ⟨queue, hqueue, rfl⟩ := Option.map_eq_some_iff.mp ht
      exact h.congr (queue_of_step (by simp) (by simp) hqueue)

end Faithful

/-- `mq_notify` finds the queue empty. -/
def RegistersEmpty (s : State) : Action → Prop
  | .cli _ _ => True
  | .agent a => MessageQueue.RegistersEmpty s.queue a

theorem queueInv_step {absolute : Text → Text} {s t : State} (h : MessageQueue.Inv s.queue)
    {a : Action} (hok : RegistersEmpty s a) (ht : step absolute s a = some t) :
    MessageQueue.Inv t.queue := by
  cases a with
  | cli subcommand args =>
    simp only [step] at ht
    split at ht <;> cases ht
    · exact h.mqSend _
    · exact h
  | agent a =>
    cases a with
    | send message => exact absurd ht (by simp [step])
    | receive =>
      simp only [step] at ht
      split at ht
      · obtain ⟨queue, hqueue, rfl⟩ := Option.map_eq_some_iff.mp ht
        exact h.step hok hqueue
      · obtain ⟨queue, hqueue, ht⟩ := Option.bind_eq_some_iff.mp ht
        obtain ⟨calls, -, rfl⟩ := Option.map_eq_some_iff.mp ht
        exact h.step hok hqueue
    | _ =>
      obtain ⟨queue, hqueue, rfl⟩ := Option.map_eq_some_iff.mp ht
      exact h.step hok hqueue

/-- **The agent executes the commands, in order and each once.**  In every run in
which no `export start` is without a path, the calls made on the exporter are what
the first commands accepted by the queue meant, one call for each, and the messages in
the queue are those of the rest, of which each makes the one call that its command
meant; and if every `mq_notify` finds the queue empty, all commands have been executed
whenever the agent waits for one. -/
theorem commands_executed {absolute : Text → Text}
    (habs : ∀ path, ∃ rest, absolute path = '/' :: rest) {as : List Action} {s : State}
    (hpath : ∀ args, Action.cli "start".toList args ∈ as → args ≠ [])
    (hs : Run.exec (step absolute) {} as = some s) :
    (∃ pending, s.commands = s.calls ++ pending ∧
        s.queue.queue.map handle = pending.map fun call => some [call]) ∧
      (Run.Meets (step absolute) RegistersEmpty {} as →
        s.queue.listening = true → s.queue.callback = .idle → s.calls = s.commands) := by
  have hmeets : Run.Meets (step absolute)
      (fun _ a => ∀ args, a = .cli "start".toList args → args ≠ []) {} as := by
    refine Run.meets_of_forall (fun a ha _ args heq => ?_) _
    exact hpath args (heq ▸ ha)
  have h : Faithful s := Run.exec_invariant_of_meets
    (fun h hpath ht => h.step habs hpath ht) faithful_init hmeets hs
  refine ⟨h.executes, fun hregisters hlistening hidle => ?_⟩
  have hinv : MessageQueue.Inv s.queue := Run.exec_invariant_of_meets
    (I := fun s => MessageQueue.Inv s.queue) (fun h hok ht => queueInv_step h hok ht)
    (MessageQueue.inv_init {}) hregisters hs
  -- nothing is left in the queue, so no command is pending
  obtain ⟨pending, hcommands, hhandle⟩ := h.executes
  rw [hinv.noStranded hlistening hidle, List.map_nil] at hhandle
  rw [hcommands, List.map_eq_nil_iff.mp hhandle.symm, List.append_nil]

/-- A dump that is started and ended, and another that is still to be started. -/
def startAndStop : List Action :=
  [.agent .openQueue, .agent .listen, .cli "start".toList ["a".toList], .agent .onNotify,
    .agent .receive, .agent .handlerReturns, .cli "stop".toList [], .agent .receive,
    .cli "start".toList ["b".toList]]

theorem commands_executed_two :
    ∃ s, Run.exec (step fun path => '/' :: path) {} startAndStop = some s ∧
      s.calls = [.startDump (some "/a".toList), .endDump] ∧
      ∃ pending, s.commands = s.calls ++ pending ∧
        s.queue.queue.map handle = pending.map fun call => some [call] := by
  have hrun : (Run.exec (step fun path => '/' :: path) {} startAndStop).map (fun s => s.calls)
      = some [.startDump (some "/a".toList), .endDump] := by rfl
  obtain ⟨s, hs, hcalls⟩ := Option.map_eq_some_iff.mp hrun
  have hpath : ∀ args, Action.cli "start".toList args ∈ startAndStop → args ≠ [] := by
    rintro args hmem rfl
    simp [startAndStop] at hmem
  exact ⟨s, hs, hcalls, (commands_executed (fun path => ⟨path, rfl⟩) hpath hs).1⟩

end CommandQueue
end Volta
