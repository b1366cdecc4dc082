/-
The agent's side of the `Connect` stream: what a client answers, and what its
reactor delivers of it.

* `Responder` — what the agent's side of the conversation comes to;
* `follows_onMessage` — `OnMessage` does what the responder does;
* `Delivers` — the queue delivers what it is given, in order and once, up to the
  first write that fails.
-/
import Volta.ClientConnect
import Volta.Session

namespace Volta

/-- An agent that has a buffer: whether it has an ID file, and whether it has ever
called `StreamMetrics`. -/
structure Responder where
  hasFile : Bool
  started : Bool := false
  deriving DecidableEq

namespace Responder

/-- The agent after a message, and its answer. -/
def respond (r : Responder) (msg : ControlMessage) : Responder × Option ControlMessage :=
  match msg.type with
  | .ping => (r, some (ConnectReactor.createMessage .pong))
  | .sendData => (r, some (ConnectReactor.createMessage .ok))
  | .streamData =>
      if r.started then
        (r, some (ConnectReactor.createMessage .error "StreamData RPC already active"))
      else ({ r with started := true }, some (ConnectReactor.createMessage .ok))
  | .id =>
      if msg.getPayload = "" then
        (r, some (ConnectReactor.createMessage .error "Empty UUID received from server"))
      else if r.hasFile then
        (r, some (ConnectReactor.createMessage .error "UUID file already exists on agent"))
      else ({ r with hasFile := true }, none)
  | _ => (r, none)

def after (r : Responder) (msgs : List ControlMessage) : Responder :=
  msgs.foldl (fun r msg => (r.respond msg).1) r

def answers : Responder → List ControlMessage → List ControlMessage
  | _, [] => []
  | r, msg :: msgs => (r.respond msg).2.toList ++ answers (r.respond msg).1 msgs

theorem after_concat (r : Responder) (msgs : List ControlMessage) (msg : ControlMessage) :
    r.after (msgs ++ [msg]) = ((r.after msgs).respond msg).1 := by
  rw [after, List.foldl_append]
  rfl

theorem answers_concat (r : Responder) (msgs : List ControlMessage) (msg : ControlMessage) :
    r.answers (msgs ++ [msg]) = r.answers msgs ++ ((r.after msgs).respond msg).2.toList := by
  induction msgs generalizing r with
  | nil => exact List.append_nil _
  | cons m msgs ih =>
    rw [List.cons_append, answers, ih, answers, List.append_assoc]
    rfl

/-- No answer asks for another. -/
theorem answer_of_respond {r : Responder} {msg reply : ControlMessage}
    (h : (r.respond msg).2 = some reply) : Session.answer reply = none := by
  rw [respond] at h
  split at h
  case h_3 => split at h <;> cases h <;> rfl
  case h_4 =>
    split at h
    · cases h
      rfl
    · split at h
      · cases h
        rfl
      · exact absurd h (by simp)
  case h_5 => exact absurd h (by simp)
  all_goals
    cases h
    rfl

theorem answer_of_mem {r : Responder} {msgs : List ControlMessage} {reply : ControlMessage}
    (h : reply ∈ r.answers msgs) : Session.answer reply = none := by
  induction msgs generalizing r with
  | nil => exact absurd h List.not_mem_nil
  | cons msg msgs ih =>
    rcases List.mem_append.mp h with h | h
    · exact answer_of_respond (Option.mem_toList.mp h)
    · exact ih h

/-- The responder that a client comes to. -/
def ofClient (files : Files) (c : Client) : Responder where
  hasFile := files.uuid.isSome
  started := c.streamDataReactor.isSome

end Responder

/-! ### The client -/

namespace Client

/-- The client has come to the first component of `p` and has queued the second on
its reactor, which was `r`. -/
structure Follows (r : ConnectReactor) (files : Files) (c : Client)
    (p : Responder × Option ControlMessage) : Prop where
  hasBuffer : c.hasBuffer = true
  responder_eq : Responder.ofClient files c = p.1
  reactor_eq : c.connectReactor = some (p.2.elim r r.enqueueWrite)

section Messages

variable {files : Files} {c c' : Client} {r : ConnectReactor}

theorem follows_enqueueWrite {msg : ControlMessage} (hbuffer : c.hasBuffer = true)
    (hr : c.connectReactor = some r) (h : c.enqueueWrite msg = some c') :
    Follows r files c' (Responder.ofClient files c, some msg) := by
  rw [enqueueWrite, hr, Option.map_some, Option.some_inj] at h
  subst h
  exact ⟨hbuffer, rfl, rfl⟩

theorem follows_streamData (hbuffer : c.hasBuffer = true) (hr : c.connectReactor = some r)
    (h : c.streamData = some c') :
    Follows r files c' (if c.streamDataReactor.isSome then
        (Responder.ofClient files c,
          some (ConnectReactor.createMessage .error "StreamData RPC already active"))
      else ({ Responder.ofClient files c with started := true },
        some (ConnectReactor.createMessage .ok))) := by
  rw [streamData, if_pos hbuffer] at h
  cases hreactor : c.streamDataReactor with
  | some k =>
    simp only [hreactor] at h
    exact follows_enqueueWrite hbuffer hr h
  | none =>
    simp only [hreactor, enqueueWrite, hr, Option.map_some, Option.some_inj] at h
    subst h
    exact ⟨hbuffer, rfl, rfl⟩

theorem follows_saveUUID {uuid : String} {o : SaveOutcome} (hbuffer : c.hasBuffer = true)
    (hr : c.connectReactor = some r) (h : (c.saveUUID files uuid o).2 = some c') :
    Follows r (c.saveUUID files uuid o).1 c' (if uuid = "" then
        (Responder.ofClient files c,
          some (ConnectReactor.createMessage .error "Empty UUID received from server"))
      else if files.uuid.isSome then
        (Responder.ofClient files c,
          some (ConnectReactor.createMessage .error "UUID file already exists on agent"))
      else ({ Responder.ofClient files c with hasFile := true }, none)) := by
  rw [saveUUID] at h ⊢
  split
  · rename_i hempty
    rw [if_pos hempty] at h
    exact follows_enqueueWrite hbuffer hr h
  · rename_i hempty
    rw [if_neg hempty] at h
    split
    · rename_i hfile
      rw [if_pos hfile] at h
      exact follows_enqueueWrite hbuffer hr h
    · rename_i hfile
      rw [if_neg hfile] at h
      dsimp only at h ⊢
      split at h
      · rename_i hrenamed htmp
        cases h
        exact ⟨hbuffer, rfl, hr⟩
      · exact absurd h (by simp)

/-- `OnMessage` does what the responder does. -/
theorem follows_onMessage {msg : ControlMessage} {o : SaveOutcome} (hbuffer : c.hasBuffer = true)
    (hr : c.connectReactor = some r) (h : (c.onMessage files msg o).2 = some c') :
    Follows r (c.onMessage files msg o).1 c' ((Responder.ofClient files c).respond msg) := by
  rw [onMessage] at h ⊢
  rw [Responder.respond]
  split at h
  case h_1 htype | h_3 htype =>
    simp only [htype]
    exact follows_enqueueWrite hbuffer hr h
  case h_4 htype =>
    simp only [htype]
    exact follows_streamData hbuffer hr h
  case h_7 htype =>
    simp only [htype]
    exact follows_saveUUID hbuffer hr h
  all_goals
    rename_i htype
    cases h
    simp only [htype]
    exact ⟨hbuffer, rfl, hr⟩

end Messages

end Client

/-! ### The queue -/

namespace ConnectReactor

/-- No write of the queue has failed. -/
def Live (r : ConnectReactor) : Prop :=
  r.writer.writing = true → r.writer.outstanding ≠ [] ∨ r.completed ≠ 0

/-- What the queue has delivered is what it has started, but for the write that is
outstanding or has failed. -/
structure Delivers (r : ConnectReactor) (delivered : List ControlMessage) : Prop where
  inv : r.Inv
  delivered_prefix : delivered <+: r.writer.started
  started_eq : r.Live → delivered ++ r.writer.outstanding = r.writer.started

theorem delivers_init : init.Delivers [] where
  inv := inv_init
  delivered_prefix := List.nil_prefix
  started_eq _ := rfl

/-- The steps that are left until everything in the queue is read. -/
def work (r : ConnectReactor) : ℕ :=
  3 * (r.writer.waiting.length + r.writer.outstanding.length) + r.completed

section Queue

variable {r r' : ConnectReactor} {delivered : List ControlMessage}

/-- `Write()` ends a locked section, whatever came before it. -/
theorem delivers_write (hr : r.writer.Ordered r.completed)
    (hstarted : delivered <+: r.writer.started)
    (heq : r.Live → delivered ++ r.writer.outstanding = r.writer.started) :
    Delivers { r with writer := r.writer.write } delivered := by
  have hinv : Inv { r with writer := r.writer.write } :=
    ⟨hr.write, Writer.writerqu_eq_nil_of_write _⟩
  cases hmsg : r.writer.toStart with
  | none =>
    have hwrite : r.writer.write = r.writer := by rw [Writer.write, hmsg]
    rw [hwrite] at hinv ⊢
    exact ⟨hinv, hstarted, heq⟩
  | some msg =>
    obtain ⟨rest, hidle, -, -, hwrite⟩ := hr.write_of_some hmsg
    have heq := heq fun htrue => absurd (hidle.symm.trans htrue) (by simp)
    rw [(hr.idle hidle).1, List.append_nil] at heq
    rw [hwrite] at hinv ⊢
    exact ⟨hinv, hstarted.trans (List.prefix_append _ _), fun _ => by rw [heq]⟩

theorem live_write (hr : r.writer.Ordered r.completed) (h : r.Live) :
    Live { r with writer := r.writer.write } := by
  cases hmsg : r.writer.toStart with
  | none =>
    have hwrite : r.writer.write = r.writer := by rw [Writer.write, hmsg]
    rw [hwrite]
    exact h
  | some msg =>
    obtain ⟨rest, -, -, -, hwrite⟩ := hr.write_of_some hmsg
    rw [hwrite]
    exact fun _ => .inl (by simp)

/-- A message that is started goes from one end of the sum to the other. -/
theorem work_write (hr : r.writer.Ordered r.completed) :
    work { r with writer := r.writer.write } = r.work := by
  cases hmsg : r.writer.toStart with
  | none => rw [Writer.write, hmsg]
  | some msg =>
    obtain ⟨rest, hidle, hqueue, -, hwrite⟩ := hr.write_of_some hmsg
    have hout := (hr.idle hidle).1
    simp only [work, hwrite, Writer.waiting, hidle, hqueue, hout, List.length_cons,
      List.length_nil, List.tail_cons, if_true, Bool.false_eq_true, if_false]

theorem enqueued_write (w : Writer ControlMessage) : w.write.enqueued = w.enqueued := by
  rw [Writer.write]
  split <;> rfl

section EnqueueWrite

variable (msg : ControlMessage)

theorem Delivers.enqueueWrite (h : r.Delivers delivered) :
    (r.enqueueWrite msg).Delivers delivered :=
  delivers_write (r := { r with writer := r.writer.push msg }) (h.inv.1.push msg)
    h.delivered_prefix h.started_eq

theorem enqueued_enqueueWrite :
    (r.enqueueWrite msg).writer.enqueued = r.writer.enqueued ++ [msg] :=
  enqueued_write _

theorem Live.enqueueWrite (h : r.Live) (hr : r.Inv) : (r.enqueueWrite msg).Live :=
  live_write (r := { r with writer := r.writer.push msg }) (hr.1.push msg) h

end EnqueueWrite

/-- `OnWriteDone(true)`. -/
theorem onWriteDone_spec (h : r.Delivers delivered) (hr : r.step .onWriteDone = some r') :
    r'.Delivers delivered ∧ r'.Live ∧ r'.work + 1 = r.work ∧
      r'.writer.enqueued = r.writer.enqueued := by
  simp only [step] at hr
  split at hr
  · exact absurd hr (by simp)
  · rename_i n hn
    cases hr
    have hord : r.writer.Ordered (n + 1) := by
      have hord := h.inv.1
      rwa [hn] at hord
    have heq := h.started_eq fun _ => .inr (by omega)
    have hpop : Live { writer := r.writer.pop, completed := n } :=
      fun htrue => absurd htrue (by simp [Writer.pop])
    refine ⟨delivers_write (r := { writer := r.writer.pop, completed := n }) hord.pop
      h.delivered_prefix fun _ => heq, live_write hord.pop hpop, ?_, enqueued_write _⟩
    have hwork := work_write (r := { writer := r.writer.pop, completed := n }) hord.pop
    have hw : r.writer.writing = true := by
      by_contra hw
      exact absurd (hord.idle (by simpa using hw)).2 (Nat.succ_ne_zero n)
    refine (congrArg (· + 1) hwork).trans ?_
    simp only [work, Writer.pop, Writer.waiting, hw, hn, if_true, Bool.false_eq_true, if_false]
    omega

/-- A write completes. -/
theorem writeCompletes_spec {ok : Bool} (h : r.Delivers delivered)
    (hr : r.step (.writeCompletes ok) = some r') :
    ∃ msg, r.writer.outstanding = [msg] ∧
      r'.Delivers (delivered ++ if ok then [msg] else []) ∧
      (ok = true → r'.Live ∧ r'.work + 2 = r.work) ∧ r'.writer.enqueued = r.writer.enqueued := by
  simp only [step] at hr
  split at hr
  · exact absurd hr (by simp)
  · rename_i hout
    cases hr
    have hw : r.writer.writing = true := by
      by_contra hw
      exact hout (h.inv.1.idle (by simpa using hw)).1
    obtain ⟨msg, rest, hqueue, ⟨hmsg, hcompleted⟩ | ⟨hnil, -⟩⟩ := h.inv.1.busy hw
    · have heq := h.started_eq fun _ => .inl hout
      rw [hmsg] at heq
      refine ⟨msg, hmsg, ⟨⟨h.inv.1.complete hout ok, h.inv.2⟩, ?_, fun hlive => ?_⟩,
        fun hok => ⟨fun _ => .inr ?_, ?_⟩, rfl⟩
      · cases ok with
        | false => exact (List.append_nil delivered).symm ▸ h.delivered_prefix
        | true => exact heq ▸ List.prefix_refl _
      · cases ok with
        | false =>
          -- a write that has failed stays at the front for good
          rcases hlive hw with hne | hne
          · exact absurd (by simp [Writer.complete, hmsg]) hne
          · exact absurd hcompleted hne
        | true =>
          show delivered ++ [msg] ++ r.writer.outstanding.tail = r.writer.started
          rw [hmsg, List.tail_cons, List.append_nil, heq]
      · subst hok
        exact Nat.succ_ne_zero _
      · subst hok
        simp only [work, Writer.complete, Writer.waiting, hmsg, hcompleted, if_true,
          List.tail_cons, List.length_nil, List.length_singleton]
        omega
    · exact absurd hnil hout

end Queue

end ConnectReactor

end Volta
