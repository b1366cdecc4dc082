/-
The server's `Connect` call and its handshake (`server.go`).

Each `Connect` runs in a goroutine of its own: the handshake, which looks the
agent's ID up, `registry.Add`, the session's run and `registry.Remove` are
separate steps, and the steps of different calls interleave.

* `exclusive_iff` — the registry shows every session that is live, and no two
  sessions of one ID run, exactly in the runs that add a session only while its
  ID is not registered;
* `Exclusive.handshake_refused` — an agent whose session is live cannot connect
  again.
-/
import Volta.Run
import Volta.Registry
import Volta.ControlMessage

namespace Volta

/-- The status codes that the server uses. -/
inductive Code where
  | canceled
  | unknown
  | invalidArgument
  | deadlineExceeded
  | notFound
  | alreadyExists
  | internal
  | unavailable
  deriving DecidableEq

structure Status where
  code : Code
  message : String
  deriving DecidableEq

namespace Server

/-- The values of metadata key `agent-id`; `none` when there is no metadata. -/
abbrev AgentIds := Option (List String)

def getIdFromContext : AgentIds → Except Status String
  | none => .error ⟨.invalidArgument, "missing metadata"⟩
  | some [] => .error ⟨.invalidArgument, "missing agent-id in metadata"⟩
  | some (id :: _) => .ok id

/-- What the `select` of `handshake` sees first. -/
inductive First where
  | timeout
  | recvError (err : Status)
  | message (msg : ControlMessage)

/-- `uuid` is the fresh ID, `sendError` what `stream.Send` returns.  The result
is the reply sent, if any, and the ID or the error. -/
def handshake (registry : AgentRegistry) (ids : AgentIds) (first : First) (uuid : String)
    (sendError : Option String) : Option ControlMessage × Except Status String :=
  match first with
  | .timeout => (none, .error ⟨.deadlineExceeded, "handshake timeout"⟩)
  | .recvError err => (none, .error err)
  | .message msg =>
      if msg.type ≠ .id then
        (none, .error ⟨.invalidArgument, "expected MESSAGE_ID, got " ++ msg.type.string⟩)
      else
        match getIdFromContext ids with
        | .error err => (none, .error err)
        | .ok id =>
            if id ≠ "" then
              match registry.get id with
              | some _ =>
                  (none, .error ⟨.alreadyExists, "agent with ID " ++ id ++ " already exists"⟩)
              | none => (none, .ok id)
            else
              let reply : ControlMessage := { type := .id, payload := some uuid }
              match sendError with
              | some err => (none, .error ⟨.internal, "failed to send agent ID: " ++ err⟩)
              | none => (some reply, .ok uuid)

/-- Where a `Connect` call is. -/
inductive Connect where
  | handshaking (ids : AgentIds)
  | handshaken (id : String)
  | added (sess : AgentSession)
  | running (sess : AgentSession)
  | ended (sess : AgentSession) (err : Option Status)
  | returned (err : Option Status)

/-- The session that has been added and not yet removed. -/
def Connect.session : Connect → Option AgentSession
  | .added sess => some sess
  | .running sess => some sess
  | .ended sess _ => some sess
  | _ => none

structure State where
  connects : ℕ → Option Connect := fun _ => none
  registry : AgentRegistry := .empty

def State.set (s : State) (i : ℕ) (c : Connect) : State :=
  { s with connects := Function.update s.connects i (some c) }

inductive Action where
  | call (i : ℕ) (ids : AgentIds)
  | handshake (i : ℕ) (first : First) (uuid : String) (sendError : Option String)
  | add (i : ℕ)
  | run (i : ℕ)
  | runReturns (i : ℕ) (err : Option Status)
  | remove (i : ℕ)

def step (s : State) : Action → Option State
  | .call i ids =>
      match s.connects i with
      | none => some (s.set i (.handshaking ids))
      | some _ => none
  | .handshake i first uuid sendError =>
      match s.connects i with
      | some (.handshaking ids) =>
          match (handshake s.registry ids first uuid sendError).2 with
          | .error err => some (s.set i (.returned (some err)))
          | .ok id => some (s.set i (.handshaken id))
      | _ => none
  | .add i =>
      match s.connects i with
      | some (.handshaken id) =>
          -- `Add` does not look whether the ID is taken
          let sess : AgentSession := { id := id, stream := i }
          some { s.set i (.added sess) with registry := s.registry.add sess }
      | _ => none
  | .run i =>
      match s.connects i with
      | some (.added sess) => some (s.set i (.running sess))
      | _ => none
  | .runReturns i err =>
      match s.connects i with
      | some (.running sess) => some (s.set i (.ended sess err))
      | _ => none
  | .remove i =>
      -- `Remove` goes by the ID, whoever is registered under it
      match s.connects i with
      | some (.ended sess err) =>
          some { s.set i (.returned err) with registry := s.registry.remove sess.id }
      | _ => none

/-! ### Exclusivity -/

/-- The session of call `i` has been added and not yet removed. -/
def State.Live (s : State) (i : ℕ) (sess : AgentSession) : Prop :=
  (s.connects i).bind Connect.session = some sess

structure Exclusive (s : State) : Prop where
  running_once : ∀ i j a b, s.connects i = some (.running a) → s.connects j = some (.running b) →
    a.id = b.id → i = j
  registered : ∀ i sess, s.Live i sess → s.registry.get sess.id = some sess

/-- The condition on a step: a session is added while its ID is free. -/
def AddsFree (s : State) : Action → Prop
  | .add i => ∀ id, s.connects i = some (.handshaken id) → s.registry.get id = none
  | _ => True

structure Inv (s : State) : Prop where
  stream_eq : ∀ i sess, s.Live i sess → sess.stream = i
  registered : ∀ i sess, s.Live i sess → s.registry.get sess.id = some sess
  listed : ∀ id sess, s.registry.get id = some sess → s.Live sess.stream sess

theorem inv_init : Inv {} where
  stream_eq _ _ h := nomatch h
  registered _ _ h := nomatch h
  listed _ _ h := nomatch h

theorem live_set (s : State) (i j : ℕ) (c : Connect) (sess : AgentSession) :
    (s.set i c).Live j sess ↔ if j = i then c.session = some sess else s.Live j sess := by
  by_cases h : j = i
  · subst h
    simp [State.Live, State.set]
  · simp [State.Live, State.set, h]

namespace Inv

variable {s : State}

theorem exclusive (h : Inv s) : Exclusive s where
  running_once i j a b hi hj hid := by
    have ha : s.Live i a := by rw [State.Live, hi]; rfl
    have hb : s.Live j b := by rw [State.Live, hj]; rfl
    -- both are what the registry holds for this ID
    have hab : a = b := by
      have hreg := h.registered i a ha
      rw [hid, h.registered j b hb, Option.some_inj] at hreg
      exact hreg.symm
    rw [← h.stream_eq i a ha, ← h.stream_eq j b hb, hab]
  registered := h.registered

/-- A call that goes on with the same session, or with none before and after,
changes nothing. -/
theorem set (h : Inv s) {i : ℕ} {c : Connect}
    (hc : c.session = (s.connects i).bind Connect.session) : Inv (s.set i c) := by
  have hlive : ∀ j sess, (s.set i c).Live j sess ↔ s.Live j sess := by
    intro j sess
    rw [live_set]
    by_cases hj : j = i
    · rw [if_pos hj, hc, hj, State.Live]
    · rw [if_neg hj]
  exact
    { stream_eq := fun j sess hl => h.stream_eq j sess ((hlive j sess).mp hl)
      registered := fun j sess hl => h.registered j sess ((hlive j sess).mp hl)
      listed := fun id sess hget => (hlive _ sess).mpr (h.listed id sess hget) }

theorem add (h : Inv s) {i : ℕ} {id : String} (hi : s.connects i = some (.handshaken id))
    (hfree : s.registry.get id = none) :
    Inv { s.set i (.added ⟨id, i⟩) with registry := s.registry.add ⟨id, i⟩ } := by
  have hdead : ∀ sess, ¬ s.Live i sess := by
    intro sess hl
    rw [State.Live, hi] at hl
    exact absurd hl (by simp [Connect.session])
  refine ⟨fun j sess hl => ?_, fun j sess hl => ?_, fun id' sess hget => ?_⟩
  · replace hl := (live_set s i j _ sess).mp hl
    split at hl
    · rename_i hj
      cases hl
      exact hj.symm
    · exact h.stream_eq j sess hl
  · replace hl := (live_set s i j _ sess).mp hl
    show (s.registry.add ⟨id, i⟩).get sess.id = some sess
    rw [s.registry.get_add]
    split at hl
    · cases hl
      rw [if_pos rfl]
    · have hget := h.registered j sess hl
      rw [if_neg ?_]
      · exact hget
      · intro heq
        rw [heq, hfree] at hget
        exact absurd hget (by simp)
  · refine (live_set s i sess.stream _ sess).mpr ?_
    replace hget : (s.registry.add ⟨id, i⟩).get id' = some sess := hget
    rw [s.registry.get_add] at hget
    split at hget
    · cases hget
      rw [if_pos rfl]
      rfl
    · have hl := h.listed id' sess hget
      have hne : sess.stream ≠ i := fun hj => hdead sess (hj ▸ hl)
      rw [if_neg hne]
      exact hl

theorem remove (h : Inv s) {i : ℕ} {sess : AgentSession} {err : Option Status}
    (hi : s.connects i = some (.ended sess err)) :
    Inv { s.set i (.returned err) with registry := s.registry.remove sess.id } := by
  have hlive : s.Live i sess := by rw [State.Live, hi]; rfl
  refine ⟨fun j sess' hl => ?_, fun j sess' hl => ?_, fun id' sess' hget => ?_⟩
  · replace hl := (live_set s i j _ sess').mp hl
    split at hl
    · exact absurd hl (by simp [Connect.session])
    · exact h.stream_eq j sess' hl
  · replace hl := (live_set s i j _ sess').mp hl
    show (s.registry.remove sess.id).get sess'.id = some sess'
    rw [s.registry.get_remove]
    split at hl
    · exact absurd hl (by simp [Connect.session])
    · rename_i hj
      have hget := h.registered j sess' hl
      rw [if_neg ?_]
      · exact hget
      · -- the session under the removed ID is the removed one, of another call
        intro heq
        rw [heq, h.registered i sess hlive, Option.some_inj] at hget
        exact hj (by rw [← h.stream_eq j sess' hl, ← hget, h.stream_eq i sess hlive])
  · refine (live_set s i sess'.stream _ sess').mpr ?_
    replace hget : (s.registry.remove sess.id).get id' = some sess' := hget
    rw [s.registry.get_remove] at hget
    split at hget
    · exact absurd hget (by simp)
    · rename_i hid
      have hl := h.listed id' sess' hget
      rw [if_neg ?_]
      · exact hl
      · intro hj
        rw [hj, State.Live, hi] at hl
        cases hl
        exact hid (s.registry.id_of_get hget).symm

theorem step (h : Inv s) {a : Action} {t : State} (hok : AddsFree s a)
    (ht : Server.step s a = some t) : Inv t := by
  cases a with
  | call i ids =>
    simp only [Server.step] at ht
    split at ht
    · rename_i hi
      cases ht
      exact h.set (by rw [hi]; rfl)
    · exact absurd ht (by simp)
  | handshake i first uuid sendError =>
    simp only [Server.step] at ht
    split at ht
    · rename_i hi
      split at ht <;> cases ht <;> exact h.set (by rw [hi]; rfl)
    · exact absurd ht (by simp)
  | add i =>
    simp only [Server.step] at ht
    split at ht
    · rename_i id hi
      cases ht
      exact h.add hi (hok id hi)
    · exact absurd ht (by simp)
  | run i =>
    simp only [Server.step] at ht
    split at ht
    · rename_i hi
      cases ht
      exact h.set (by rw [hi]; rfl)
    · exact absurd ht (by simp)
  | runReturns i err =>
    simp only [Server.step] at ht
    split at ht
    · rename_i hi
      cases ht
      exact h.set (by rw [hi]; rfl)
    · exact absurd ht (by simp)
  | remove i =>
    simp only [Server.step] at ht
    split at ht
    · rename_i hi
      cases ht
      exact h.remove hi
    · exact absurd ht (by simp)

/-- Adding a session under an ID that is taken hides the session it had. -/
theorem not_exclusive (h : Inv s) {a : Action} {t : State} (hok : ¬ AddsFree s a)
    (ht : Server.step s a = some t) : ¬ Exclusive t := by
  cases a with
  | add i =>
    simp only [AddsFree, not_forall] at hok
    obtain ⟨id, hi, hget⟩ := hok
    obtain ⟨old, hold⟩ := Option.ne_none_iff_exists'.mp hget
    simp only [Server.step, hi, Option.some_inj] at ht
    subst ht
    intro hex
    have hl := h.listed id old hold
    have hne : old.stream ≠ i := by
      intro hj
      rw [hj, State.Live, hi] at hl
      exact absurd hl (by simp [Connect.session])
    have hl' : (s.set i (.added ⟨id, i⟩)).Live old.stream old := by
      rw [live_set, if_neg hne]
      exact hl
    have hreg : (s.registry.add ⟨id, i⟩).get old.id = some old := hex.registered old.stream old hl'
    rw [s.registry.get_add, if_pos (s.registry.id_of_get hold), Option.some_inj] at hreg
    exact hne (by rw [← hreg])
  | call _ _ | handshake _ _ _ _ | run _ | runReturns _ _ | remove _ => exact absurd trivial hok

end Inv

/-- **The registry is exclusive, exactly when every session is added while its
ID is free.** -/
theorem exclusive_iff {as : List Action} {s : State} (hs : Run.exec step {} as = some s) :
    Run.Along step Exclusive {} as ↔ Run.Meets step AddsFree {} as :=
  Run.along_iff_meets (fun h => h.exclusive) (fun h hok ht => h.step hok ht)
    (fun h hok ht => h.not_exclusive hok ht) inv_init hs

/-- While a session is live, its agent's next handshake is refused. -/
theorem Exclusive.handshake_refused {s : State} (h : Exclusive s) {i : ℕ} {sess : AgentSession}
    (hlive : s.Live i sess) (hid : sess.id ≠ "") {msg : ControlMessage} (hmsg : msg.type = .id)
    (ids : List String) (uuid : String) (sendError : Option String) :
    handshake s.registry (some (sess.id :: ids)) (.message msg) uuid sendError
      = (none, .error ⟨.alreadyExists, "agent with ID " ++ sess.id ++ " already exists"⟩) := by
  have hget := h.registered i sess hlive
  simp [handshake, hmsg, getIdFromContext, hid, hget]

/-- An agent connects, is served, leaves and connects again. -/
def reconnect : List Action :=
  [.call 0 (some ["a"]), .handshake 0 (.message { type := .id }) "" none, .add 0, .run 0,
    .runReturns 0 none, .remove 0, .call 1 (some ["a"]),
    .handshake 1 (.message { type := .id }) "" none, .add 1]

theorem exclusive_iff_reconnect :
    ∃ s, Run.exec step {} reconnect = some s ∧
      (Run.Along step Exclusive {} reconnect ↔ Run.Meets step AddsFree {} reconnect) := by
  obtain ⟨s, hs⟩ := Option.isSome_iff_exists.mp
    (show (Run.exec step {} reconnect).isSome from rfl)
  exact ⟨s, hs, exclusive_iff hs⟩

/-- Two calls with one ID that both look it up before either adds. -/
def lookUpTwice : List Action :=
  [.call 0 (some ["a"]), .call 1 (some ["a"]), .handshake 0 (.message { type := .id }) "" none,
    .handshake 1 (.message { type := .id }) "" none, .add 0, .add 1, .run 0, .run 1]

theorem both_running :
    ¬ ∀ (as : List Action) (s : State), Run.exec step {} as = some s → Exclusive s := by
  intro hall
  have hrun : (Run.exec step {} lookUpTwice).map (fun s => (s.connects 0, s.connects 1))
      = some (some (.running ⟨"a", 0⟩), some (.running ⟨"a", 1⟩)) := rfl
  obtain ⟨s, hs, heq⟩ := Option.map_eq_some_iff.mp hrun
  simp only [Prod.mk.injEq] at heq
  exact absurd ((hall _ s hs).running_once 0 1 _ _ heq.1 heq.2 rfl) (by decide)

end Server
end Volta
