/-
The event bus between `StreamMetrics` handlers and WebSocket clients
(`eventBus.go`, `hub.go`).

Any number of `Publish` calls run beside the hub.  A client is named by its
subscriber.  Only the hub unsubscribes; its `remove` channel gets a client when
the client's pump has seen its channel closed, so in fact only the shutdown of
the hub does.

* `moves` — what each step does, and where;
* `Lifecycle` — what holds of the clients and their channels in every run;
* `safe_of_clear` — in a run in which every removal from a subscriber slice is
  clear of the `Publish` calls under way, no closed channel is sent to or closed
  again, and every `Publish` tries every subscriber that stays exactly once;
* `publish_panics` — without that, a `Publish` sends on a closed channel.
-/
import Volta.Run
import Volta.EventBus

namespace Volta

namespace Hub

/-- Where `Run` is; the three `remove…` places are its `remove` case. -/
inductive HubPc where
  | select
  | removing (sub : ℕ)
  | closing (sub : ℕ)
  | deleting (sub : ℕ)
  | shuttingDown
  | shutdownClosing (sub : ℕ)
  | returned

/-- A `pumpToClient` goroutine: `ended` is its deferred send to `h.remove`. -/
inductive Pump where
  | notStarted
  | running
  | ended
  | returned

/-- A call of `Publish`.  When it returns, `kept` are the subscribers that were
there when it began and still are. -/
inductive Call where
  | running (p : Publish)
  | returned (kept sent : List ℕ)
  | panicked

structure State where
  bus : EventBus := {}
  calls : ℕ → Option Call := fun _ => none
  /-- `HandleWS` calls that wait to send to `h.register`. -/
  handlers : List ℕ := []
  register : List ℕ := []
  remove : List ℕ := []
  clients : List ℕ := []
  shutdown : Bool := false
  pc : HubPc := .select
  pumps : ℕ → Pump := fun _ => .notStarted
  /-- A send on a closed channel panicked. -/
  sendOnClosed : Bool := false
  /-- A closed channel was closed. -/
  closedTwice : Bool := false

def chanCapacity : ℕ := 16

def setCall (s : State) (i : ℕ) (c : Call) : State :=
  { s with calls := Function.update s.calls i (some c) }

/-- The `close` at the end of `Unsubscribe`. -/
def close (s : State) (sub : ℕ) : State :=
  { s with
    bus := s.bus.close sub
    closedTwice := s.closedTwice || (s.bus.subscribers sub).closed }

/-- The steps of the `i`-th call of `Publish`. -/
inductive PublishAction where
  | call (i : ℕ) (agentID : String) (batch : MetricBatch)
  | fetch (i : ℕ)
  | trySend (i : ℕ)
  | finish (i : ℕ)

def publishStep (s : State) : PublishAction → Option State
  | .call i agentID batch =>
      match s.calls i with
      | none => some (setCall s i (.running (s.bus.publish agentID batch)))
      | some _ => none
  | .fetch i =>
      match s.calls i with
      | some (.running p) =>
          if p.held = none ∧ p.next < p.len then
            some (setCall s i (.running (p.fetch (s.bus.subs p.agentID))))
          else none
      | _ => none
  | .trySend i =>
      match s.calls i with
      | some (.running p) =>
          match p.held with
          | none => none
          | some sub =>
              -- a `default` case does not help against a closed channel
              if (s.bus.subscribers sub).closed then
                some { setCall s i .panicked with sendOnClosed := true }
              else
                some
                  { setCall s i (.running (p.attempted sub)) with
                    bus := s.bus.trySend sub p.batch }
      | _ => none
  | .finish i =>
      match s.calls i with
      | some (.running p) =>
          if p.held = none ∧ p.len ≤ p.next then
            let kept := p.start.filter fun sub => sub ∈ (s.bus.subs p.agentID).contents
            some (setCall s i (.returned kept p.sent))
          else none
      | _ => none

/-- The steps of the hub's goroutine: the cases of its `select`, the clients of
its shutdown loop in any order, and `next` everywhere else. -/
inductive HubAction where
  | takeRegister
  | takeRemove
  | takeShutdown
  | shutdownClient (sub : ℕ)
  | next

def hubStep (s : State) : HubAction → Option State
  | .takeRegister =>
      match s.pc, s.register with
      | .select, sub :: rest => some
          { s with
            register := rest
            clients := s.clients ++ [sub]
            pumps := Function.update s.pumps sub .running }
      | _, _ => none
  | .takeRemove =>
      match s.pc, s.remove with
      | .select, sub :: rest => some { s with remove := rest, pc := .removing sub }
      | _, _ => none
  | .takeShutdown =>
      match s.pc with
      | .select => if s.shutdown then some { s with pc := .shuttingDown } else none
      | _ => none
  | .shutdownClient sub =>
      match s.pc with
      | .shuttingDown =>
          -- `range` goes over a map, in any order
          if sub ∈ s.clients then
            some { s with bus := s.bus.removeSub sub, pc := .shutdownClosing sub }
          else none
      | _ => none
  | .next =>
      match s.pc with
      | .removing sub => some { s with bus := s.bus.removeSub sub, pc := .closing sub }
      | .closing sub => some { close s sub with pc := .deleting sub }
      | .deleting sub => some { s with clients := s.clients.erase sub, pc := .select }
      | .shutdownClosing sub => some
          { close s sub with clients := s.clients.erase sub, pc := .shuttingDown }
      | .shuttingDown => if s.clients = [] then some { s with pc := .returned } else none
      | .select => none
      | .returned => none

inductive Action where
  | handleWS (agentID : String) (spare : ℕ)
  | sendRegister (sub : ℕ)
  | publish (a : PublishAction)
  | hub (a : HubAction)
  | closeHub
  | pumpReceives (sub : ℕ)
  | pumpEnds (sub : ℕ)
  | pumpRemoves (sub : ℕ)

def step (s : State) : Action → Option State
  | .handleWS agentID spare => some
      { s with
        bus := s.bus.subscribe agentID spare
        handlers := s.handlers ++ [s.bus.next] }
  | .sendRegister sub =>
      if sub ∈ s.handlers ∧ s.register.length < chanCapacity then
        some { s with handlers := s.handlers.erase sub, register := s.register ++ [sub] }
      else none
  | .publish a => publishStep s a
  | .hub a => hubStep s a
  | .closeHub => if s.shutdown then none else some { s with shutdown := true }
  | .pumpReceives sub =>
      match s.pumps sub, (s.bus.subscribers sub).buf with
      | .running, _ :: rest => some { s with bus := s.bus.setBuf sub rest }
      | _, _ => none
  | .pumpEnds sub =>
      -- `range` over a channel ends when it is closed and empty
      match s.pumps sub, (s.bus.subscribers sub).buf with
      | .running, [] =>
          if (s.bus.subscribers sub).closed then
            some { s with pumps := Function.update s.pumps sub .ended }
          else none
      | _, _ => none
  | .pumpRemoves sub =>
      match s.pumps sub with
      | .ended =>
          if s.remove.length < chanCapacity then
            some
              { s with
                remove := s.remove ++ [sub]
                pumps := Function.update s.pumps sub .returned }
          else none
      | _ => none

/-! ### Safety -/

structure Safe (s : State) : Prop where
  no_sendOnClosed : s.sendOnClosed = false
  no_closedTwice : s.closedTwice = false
  once : ∀ i kept sent, s.calls i = some (.returned kept sent) → ∀ sub ∈ kept, sent.count sub = 1

/-- The subscriber that a step removes from its slice. -/
def removes (s : State) : Action → Option ℕ
  | .hub (.shutdownClient sub) => some sub
  | .hub .next =>
      match s.pc with
      | .removing sub => some sub
      | _ => none
  | _ => none

/-- The condition on a step: a removal is clear of all calls under way. -/
def RemovesClear (s : State) (a : Action) : Prop :=
  ∀ sub, removes s a = some sub → ∀ i p, s.calls i = some (.running p) →
    p.agentID = (s.bus.subscribers sub).agentID → ∀ k,
      (s.bus.subs p.agentID).contents.idxOf? sub = some k →
        Publish.Clear (s.bus.subs p.agentID) sub k p

/-- The clients that the hub has or will get. -/
def State.known (s : State) : List ℕ := s.handlers ++ s.register ++ s.clients

/-- Nothing is closed before the shutdown loop, and then a client's channel
only after the client is in no slice. -/
def PcOk (s : State) : Prop :=
  match s.pc with
  | .select => ∀ u, (s.bus.subscribers u).closed = false
  | .shutdownClosing sub => sub ∈ s.clients ∧ ∀ agentID, sub ∉ (s.bus.subs agentID).contents
  | .shuttingDown => True
  | .returned => True
  | .removing _ => False
  | .closing _ => False
  | .deleting _ => False

/-- What the hub is doing stays right while nothing is closed that was open, and
no client of its is lost or subscribed again. -/
theorem PcOk.mono {s t : State} (h : PcOk s) (hpc : t.pc = s.pc)
    (hopen : ∀ u, (s.bus.subscribers u).closed = false → (t.bus.subscribers u).closed = false)
    (hclients : ∀ u ∈ s.clients, u ∈ t.clients)
    (hsubs : ∀ u ∈ s.clients, ∀ agentID, u ∉ (s.bus.subs agentID).contents →
      u ∉ (t.bus.subs agentID).contents) : PcOk t := by
  rw [PcOk] at h ⊢
  rw [hpc]
  split at h
  case h_1 => exact fun u => hopen u (h u)
  case h_2 sub _ => exact ⟨hclients sub h.1, fun agentID => hsubs sub h.1 agentID (h.2 agentID)⟩
  all_goals exact h

/-! ### The steps, one by one -/

/-- What each step does, and where it is enabled. -/
inductive Moves (s : State) : Action → State → Prop where
  | handleWS (agentID : String) (spare : ℕ) : Moves s (.handleWS agentID spare)
      { s with
        bus := s.bus.subscribe agentID spare
        handlers := s.handlers ++ [s.bus.next] }
  | sendRegister {sub : ℕ} (hsub : sub ∈ s.handlers) : Moves s (.sendRegister sub)
      { s with handlers := s.handlers.erase sub, register := s.register ++ [sub] }
  | call {i : ℕ} {agentID : String} {batch : MetricBatch} :
      Moves s (.publish (.call i agentID batch))
        (setCall s i (.running (s.bus.publish agentID batch)))
  | fetch {i : ℕ} {p : Publish} (hi : s.calls i = some (.running p)) (hheld : p.held = none)
      (hlt : p.next < p.len) :
      Moves s (.publish (.fetch i)) (setCall s i (.running (p.fetch (s.bus.subs p.agentID))))
  | panic {i : ℕ} {p : Publish} {sub : ℕ} (hi : s.calls i = some (.running p))
      (hheld : p.held = some sub) (hclosed : (s.bus.subscribers sub).closed = true) :
      Moves s (.publish (.trySend i)) { setCall s i .panicked with sendOnClosed := true }
  | trySend {i : ℕ} {p : Publish} {sub : ℕ} (hi : s.calls i = some (.running p))
      (hheld : p.held = some sub) (hopen : (s.bus.subscribers sub).closed = false) :
      Moves s (.publish (.trySend i))
        { setCall s i (.running (p.attempted sub)) with bus := s.bus.trySend sub p.batch }
  | finish {i : ℕ} {p : Publish} (hi : s.calls i = some (.running p)) (hheld : p.held = none)
      (hend : p.len ≤ p.next) :
      Moves s (.publish (.finish i))
        (setCall s i (.returned
          (p.start.filter fun sub => sub ∈ (s.bus.subs p.agentID).contents) p.sent))
  | takeRegister {sub : ℕ} {rest : List ℕ} (hreg : s.register = sub :: rest) :
      Moves s (.hub .takeRegister)
        { s with
          register := rest
          clients := s.clients ++ [sub]
          pumps := Function.update s.pumps sub .running }
  | takeRemove {sub : ℕ} {rest : List ℕ} (hpc : s.pc = .select) (hrem : s.remove = sub :: rest) :
      Moves s (.hub .takeRemove) { s with remove := rest, pc := .removing sub }
  | takeShutdown : Moves s (.hub .takeShutdown) { s with pc := .shuttingDown }
  | shutdownClient {sub : ℕ} (hsub : sub ∈ s.clients) : Moves s (.hub (.shutdownClient sub))
      { s with bus := s.bus.removeSub sub, pc := .shutdownClosing sub }
  | removeSub {sub : ℕ} (hpc : s.pc = .removing sub) :
      Moves s (.hub .next) { s with bus := s.bus.removeSub sub, pc := .closing sub }
  | close {sub : ℕ} (hpc : s.pc = .closing sub) :
      Moves s (.hub .next) { close s sub with pc := .deleting sub }
  | delete {sub : ℕ} (hpc : s.pc = .deleting sub) :
      Moves s (.hub .next) { s with clients := s.clients.erase sub, pc := .select }
  | shutdownClose {sub : ℕ} (hpc : s.pc = .shutdownClosing sub) : Moves s (.hub .next)
      { close s sub with clients := s.clients.erase sub, pc := .shuttingDown }
  | exit (hpc : s.pc = .shuttingDown) : Moves s (.hub .next) { s with pc := .returned }
  | closeHub : Moves s .closeHub { s with shutdown := true }
  | pumpReceives {sub : ℕ} {batch : MetricBatch} {rest : List MetricBatch}
      (hpump : s.pumps sub = .running) (hbuf : (s.bus.subscribers sub).buf = batch :: rest) :
      Moves s (.pumpReceives sub) { s with bus := s.bus.setBuf sub rest }
  | pumpEnds {sub : ℕ} (hpump : s.pumps sub = .running)
      (hclosed : (s.bus.subscribers sub).closed = true) :
      Moves s (.pumpEnds sub) { s with pumps := Function.update s.pumps sub .ended }
  | pumpRemoves {sub : ℕ} (hpump : s.pumps sub = .ended) : Moves s (.pumpRemoves sub)
      { s with
        remove := s.remove ++ [sub]
        pumps := Function.update s.pumps sub .returned }

theorem moves_publish {s t : State} {a : PublishAction} (ht : publishStep s a = some t) :
    Moves s (.publish a) t := by
  cases a with
  | call i agentID batch =>
    simp only [publishStep] at ht
    split at ht
    · cases ht
      exact .call
    · exact absurd ht (by simp)
  | fetch i =>
    simp only [publishStep] at ht
    split at ht
    · rename_i p hi
      split at ht
      · rename_i hguard
        cases ht
        exact .fetch hi hguard.1 hguard.2
      · exact absurd ht (by simp)
    · exact absurd ht (by simp)
  | trySend i =>
    simp only [publishStep] at ht
    split at ht
    · rename_i p hi
      split at ht
      · exact absurd ht (by simp)
      · rename_i sub hheld
        split at ht
        · rename_i hclosed
          cases ht
          exact .panic hi hheld hclosed
        · rename_i hopen
          cases ht
          exact .trySend hi hheld (by simpa using hopen)
    · exact absurd ht (by simp)
  | finish i =>
    simp only [publishStep] at ht
    split at ht
    · rename_i p hi
      split at ht
      · rename_i hguard
        cases ht
        exact .finish hi hguard.1 hguard.2
      · exact absurd ht (by simp)
    · exact absurd ht (by simp)

theorem moves_hub {s t : State} {a : HubAction} (ht : hubStep s a = some t) :
    Moves s (.hub a) t := by
  cases a with
  | takeRegister =>
    simp only [hubStep] at ht
    split at ht
    · rename_i hreg
      cases ht
      exact .takeRegister hreg
    · exact absurd ht (by simp)
  | takeRemove =>
    simp only [hubStep] at ht
    split at ht
    · rename_i hpc hrem
      cases ht
      exact .takeRemove hpc hrem
    · exact absurd ht (by simp)
  | takeShutdown =>
    simp only [hubStep] at ht
    split at ht
    · split at ht
      · cases ht
        exact .takeShutdown
      · exact absurd ht (by simp)
    · exact absurd ht (by simp)
  | shutdownClient sub =>
    simp only [hubStep] at ht
    split at ht
    · split at ht
      · rename_i hsub
        cases ht
        exact .shutdownClient hsub
      · exact absurd ht (by simp)
    · exact absurd ht (by simp)
  | next =>
    simp only [hubStep] at ht
    split at ht
    case h_1 sub hpc =>
      cases ht
      exact .removeSub hpc
    case h_2 sub hpc =>
      cases ht
      exact .close hpc
    case h_3 sub hpc =>
      cases ht
      exact .delete hpc
    case h_4 sub hpc =>
      cases ht
      exact .shutdownClose hpc
    case h_5 hpc =>
      split at ht
      · cases ht
        exact .exit hpc
      · exact absurd ht (by simp)
    case h_6 | h_7 => exact absurd ht (by simp)

theorem moves {s t : State} {a : Action} (ht : step s a = some t) : Moves s a t := by
  cases a with
  | handleWS agentID spare =>
    cases ht
    exact .handleWS agentID spare
  | sendRegister sub =>
    simp only [step] at ht
    split at ht
    · rename_i hguard
      cases ht
      exact .sendRegister hguard.1
    · exact absurd ht (by simp)
  | publish a => exact moves_publish ht
  | hub a => exact moves_hub ht
  | closeHub =>
    simp only [step] at ht
    split at ht
    · exact absurd ht (by simp)
    · cases ht
      exact .closeHub
  | pumpReceives sub =>
    simp only [step] at ht
    split at ht
    · rename_i hpump hbuf
      cases ht
      exact .pumpReceives hpump hbuf
    · exact absurd ht (by simp)
  | pumpEnds sub =>
    simp only [step] at ht
    split at ht
    · rename_i hpump _
      split at ht
      · rename_i hclosed
        cases ht
        exact .pumpEnds hpump hclosed
      · exact absurd ht (by simp)
    · exact absurd ht (by simp)
  | pumpRemoves sub =>
    simp only [step] at ht
    split at ht
    · rename_i hpump
      split at ht
      · cases ht
        exact .pumpRemoves hpump
      · exact absurd ht (by simp)
    · exact absurd ht (by simp)

/-! ### The life of a client -/

/-- What holds of the clients and their channels in every run. -/
structure Lifecycle (s : State) : Prop where
  bus : s.bus.Ok
  known_nodup : s.known.Nodup
  known_lt : ∀ u ∈ s.known, u < s.bus.next
  known_open : ∀ u ∈ s.known, (s.bus.subscribers u).closed = false
  closed_lt : ∀ u, (s.bus.subscribers u).closed = true → u < s.bus.next
  pc : PcOk s
  ended : ∀ u, s.pumps u = .ended → (s.bus.subscribers u).closed = true
  removed : ∀ u ∈ s.remove, (s.bus.subscribers u).closed = true

theorem lifecycle_init : Lifecycle {} where
  bus := EventBus.ok_init
  known_nodup := List.nodup_nil
  known_lt _ h := nomatch h
  known_open _ h := nomatch h
  closed_lt _ h := nomatch h
  pc _ := rfl
  ended _ h := nomatch h
  removed _ h := nomatch h

namespace Lifecycle

variable {s : State}

/-- What happens to the contents of a channel changes nothing else. -/
theorem setBuf (h : Lifecycle s) (sub : ℕ) (buf : List MetricBatch) :
    Lifecycle { s with bus := s.bus.setBuf sub buf } := by
  have hclosed : ∀ u, ((s.bus.setBuf sub buf).subscribers u).closed
      = (s.bus.subscribers u).closed := fun u => EventBus.closed_setBuf _ _ _ _
  exact
    { h with
      bus := h.bus.setBuf sub buf
      known_open := fun u hu => (hclosed u).trans (h.known_open u hu)
      closed_lt := fun u hu => h.closed_lt u ((hclosed u).symm.trans hu)
      pc := h.pc.mono rfl (fun u hu => (hclosed u).trans hu) (fun _ hu => hu) fun _ _ _ hu => hu
      ended := fun u hu => (hclosed u).trans (h.ended u hu)
      removed := fun u hu => (hclosed u).trans (h.removed u hu) }

/-- A client moves from one list of the hub to the next. -/
theorem move (h : Lifecycle s) {handlers register clients : List ℕ}
    (hperm : (handlers ++ register ++ clients).Perm s.known)
    (hclients : ∀ u ∈ s.clients, u ∈ clients) :
    Lifecycle { s with handlers := handlers, register := register, clients := clients } :=
  { h with
    known_nodup := hperm.nodup_iff.mpr h.known_nodup
    known_lt := fun u hu => h.known_lt u (hperm.subset hu)
    known_open := fun u hu => h.known_open u (hperm.subset hu)
    pc := h.pc.mono rfl (fun _ hu => hu) hclients fun _ _ _ hu => hu }

theorem setPump (h : Lifecycle s) {sub : ℕ} {pump : Pump}
    (hpump : pump = .ended → (s.bus.subscribers sub).closed = true) :
    Lifecycle { s with pumps := Function.update s.pumps sub pump } :=
  { h with
    ended := fun u hu => by
      by_cases hus : u = sub
      · subst hus
        exact hpump (by simpa using hu)
      · exact h.ended u (by simpa [hus] using hu) }

/-- The shutdown loop unsubscribes a client. -/
theorem shutdownClient (h : Lifecycle s) {sub : ℕ} (hsub : sub ∈ s.clients) :
    Lifecycle { s with bus := s.bus.removeSub sub, pc := .shutdownClosing sub } := by
  have hsubs := s.bus.subscribers_removeSub sub
  have hnext := s.bus.next_removeSub sub
  refine
    { h with
      bus := h.bus.removeSub sub
      known_lt := fun u hu => ?_
      known_open := fun u hu => ?_
      closed_lt := fun u hu => ?_
      pc := ⟨hsub, fun agentID hmem => ((h.bus.mem_removeSub sub).mp hmem).1 rfl⟩
      ended := fun u hu => ?_
      removed := fun u hu => ?_ }
  · rw [hnext]
    exact h.known_lt u hu
  · rw [hsubs]
    exact h.known_open u hu
  · rw [hsubs] at hu
    rw [hnext]
    exact h.closed_lt u hu
  · rw [hsubs]
    exact h.ended u hu
  · rw [hsubs]
    exact h.removed u hu

/-- The client that the shutdown loop closes is still one of the hub's. -/
theorem mem_clients_of_shutdownClosing (h : Lifecycle s) {sub : ℕ}
    (hpc : s.pc = .shutdownClosing sub) :
    sub ∈ s.clients ∧ ∀ agentID, sub ∉ (s.bus.subs agentID).contents := by
  have hpcok := h.pc
  rwa [PcOk, hpc] at hpcok

/-- It then closes the client's channel, which nothing has closed before. -/
theorem shutdownClose (h : Lifecycle s) {sub : ℕ} (hpc : s.pc = .shutdownClosing sub) :
    (s.bus.subscribers sub).closed = false ∧
      Lifecycle { close s sub with clients := s.clients.erase sub, pc := .shuttingDown } := by
  obtain ⟨hsub, hnot⟩ := h.mem_clients_of_shutdownClosing hpc
  have hperm : s.known.Perm (sub :: (s.handlers ++ s.register ++ s.clients.erase sub)) :=
    ((List.perm_cons_erase hsub).append_left _).trans List.perm_middle
  obtain ⟨hfresh, hnodup⟩ := List.nodup_cons.mp (hperm.nodup_iff.mp h.known_nodup)
  have hknown : ∀ u ∈ s.handlers ++ s.register ++ s.clients.erase sub, u ∈ s.known :=
    fun u hu => hperm.symm.subset (List.mem_cons_of_mem _ hu)
  have hmono : ∀ u, (s.bus.subscribers u).closed = true →
      ((s.bus.close sub).subscribers u).closed = true := by
    intro u hu
    rw [EventBus.closed_close]
    split
    · rfl
    · exact hu
  refine ⟨h.known_open sub (hperm.symm.subset List.mem_cons_self), ?_⟩
  exact
    { bus := h.bus.close hnot
      known_nodup := hnodup
      known_lt := fun u hu => h.known_lt u (hknown u hu)
      known_open := fun u hu => by
        have hne : u ≠ sub := fun heq => hfresh (heq ▸ hu)
        show ((s.bus.close sub).subscribers u).closed = false
        rw [EventBus.closed_close, if_neg hne]
        exact h.known_open u (hknown u hu)
      closed_lt := fun u hu => by
        replace hu : ((s.bus.close sub).subscribers u).closed = true := hu
        rw [EventBus.closed_close] at hu
        split at hu
        · rename_i heq
          rw [heq]
          exact h.known_lt sub (hperm.symm.subset List.mem_cons_self)
        · exact h.closed_lt u hu
      pc := trivial
      ended := fun u hu => hmono u (h.ended u hu)
      removed := fun u hu => hmono u (h.removed u hu) }

/-- Only a closed client is removed, and none is closed yet while the hub takes
from its channels. -/
theorem not_takeRemove (h : Lifecycle s) {sub : ℕ} {rest : List ℕ} (hpc : s.pc = .select) :
    s.remove ≠ sub :: rest := by
  intro hrem
  have hclosed := h.removed sub (by rw [hrem]; exact List.mem_cons_self)
  have hopen : ∀ u, (s.bus.subscribers u).closed = false := by
    have hpcok := h.pc
    rwa [PcOk, hpc] at hpcok
  rw [hopen sub] at hclosed
  exact absurd hclosed (by simp)

/-- So the hub is never in its `remove` case. -/
theorem not_removing (h : Lifecycle s) (sub : ℕ) :
    s.pc ≠ .removing sub ∧ s.pc ≠ .closing sub ∧ s.pc ≠ .deleting sub := by
  have hpcok := h.pc
  refine ⟨fun hpc => ?_, fun hpc => ?_, fun hpc => ?_⟩
  all_goals
    rw [PcOk, hpc] at hpcok
    exact hpcok

/-- A new subscriber is open, and no other channel changes. -/
theorem closed_subscribe (h : Lifecycle s) (agentID : String) (spare u : ℕ) :
    ((s.bus.subscribe agentID spare).subscribers u).closed = (s.bus.subscribers u).closed := by
  by_cases hu : u = s.bus.next
  · have hopen : (s.bus.subscribers u).closed = false := by
      by_contra hc
      have hlt := h.closed_lt u (by simpa using hc)
      omega
    rw [hopen, hu]
    simp [EventBus.subscribe]
  · rw [EventBus.subscribers_subscribe _ _ _ hu]

theorem handleWS (h : Lifecycle s) (agentID : String) (spare : ℕ) :
    Lifecycle
      { s with
        bus := s.bus.subscribe agentID spare
        handlers := s.handlers ++ [s.bus.next] } := by
  have hclosed := h.closed_subscribe agentID spare
  have hperm : (s.handlers ++ [s.bus.next] ++ s.register ++ s.clients).Perm
      (s.bus.next :: s.known) := by
    simp only [State.known, List.append_assoc, List.singleton_append]
    exact List.perm_middle
  have hknown : ∀ u ∈ s.handlers ++ [s.bus.next] ++ s.register ++ s.clients,
      u = s.bus.next ∨ u ∈ s.known := fun u hu => List.mem_cons.mp (hperm.subset hu)
  refine
    { h with
      bus := h.bus.subscribe agentID spare
      known_nodup := ?_
      known_lt := fun u hu => ?_
      known_open := fun u hu => ?_
      closed_lt := fun u hu => Nat.lt_succ_of_lt (h.closed_lt u ((hclosed u).symm.trans hu))
      pc := ?_
      ended := fun u hu => (hclosed u).trans (h.ended u hu)
      removed := fun u hu => (hclosed u).trans (h.removed u hu) }
  · refine hperm.nodup_iff.mpr (List.nodup_cons.mpr ⟨?_, h.known_nodup⟩)
    exact fun hmem => Nat.lt_irrefl _ (h.known_lt _ hmem)
  · rcases hknown u hu with rfl | hu
    · exact Nat.lt_succ_self _
    · exact Nat.lt_succ_of_lt (h.known_lt u hu)
  · rcases hknown u hu with rfl | hu
    · simp [EventBus.subscribe]
    · exact (hclosed u).trans (h.known_open u hu)
  · refine h.pc.mono rfl (fun u hu => (hclosed u).trans hu) (fun _ hu => hu) ?_
    -- the new subscriber is none of the hub's clients
    intro u hu a hnot hmem
    rw [EventBus.subs_subscribe] at hmem
    split at hmem
    · rw [GoSlice.contents_append, List.mem_append, List.mem_singleton] at hmem
      rcases hmem with hmem | rfl
      · exact hnot hmem
      · exact Nat.lt_irrefl _ (h.known_lt _ (List.mem_append_right _ hu))
    · exact hnot hmem

theorem sendRegister (h : Lifecycle s) {sub : ℕ} (hsub : sub ∈ s.handlers) :
    Lifecycle { s with handlers := s.handlers.erase sub, register := s.register ++ [sub] } := by
  refine h.move ?_ fun _ hu => hu
  have hcons : (s.handlers.erase sub ++ (s.register ++ [sub]) ++ s.clients).Perm
      (sub :: s.handlers.erase sub ++ s.register ++ s.clients) := by
    rw [← List.append_assoc, List.append_assoc _ [sub], List.singleton_append]
    simp only [List.cons_append]
    exact List.perm_middle
  exact hcons.trans (((List.perm_cons_erase hsub).symm.append_right _).append_right _)

theorem takeRegister (h : Lifecycle s) {sub : ℕ} {rest : List ℕ}
    (hreg : s.register = sub :: rest) :
    Lifecycle
      { s with
        register := rest
        clients := s.clients ++ [sub]
        pumps := Function.update s.pumps sub .running } := by
  have hmove : Lifecycle { s with register := rest, clients := s.clients ++ [sub] } := by
    refine h.move ?_ fun u hu => List.mem_append_left _ hu
    rw [State.known, hreg]
    simp only [List.append_assoc]
    refine List.Perm.append_left _ ?_
    rw [← List.append_assoc]
    exact List.perm_append_singleton sub (rest ++ s.clients)
  have hpump : Pump.running = .ended → (s.bus.subscribers sub).closed = true := nofun
  exact hmove.setPump hpump

theorem pumpRemoves (h : Lifecycle s) {sub : ℕ} (hpump : s.pumps sub = .ended) :
    Lifecycle
      { s with
        remove := s.remove ++ [sub]
        pumps := Function.update s.pumps sub .returned } := by
  have hreturned : Pump.returned = .ended → (s.bus.subscribers sub).closed = true := nofun
  exact
    { h.setPump hreturned with
      removed := List.forall_mem_append.mpr
        ⟨h.removed, List.forall_mem_singleton.mpr (h.ended sub hpump)⟩ }

theorem step (h : Lifecycle s) {a : Action} {t : State} (hm : Moves s a t) : Lifecycle t := by
  cases hm with
  | handleWS agentID spare => exact h.handleWS agentID spare
  | sendRegister hsub => exact h.sendRegister hsub
  | call => exact { h with }
  | fetch => exact { h with }
  | panic => exact { h with }
  | @trySend i p sub hi hheld hopen =>
    obtain ⟨buf, hbuf⟩ := s.bus.trySend_eq sub p.batch
    rw [hbuf]
    exact { h.setBuf sub buf with }
  | finish => exact { h with }
  | takeRegister hreg => exact h.takeRegister hreg
  | takeRemove hpc hrem => exact absurd hrem (h.not_takeRemove hpc)
  | takeShutdown => exact { h with pc := trivial }
  | shutdownClient hsub => exact h.shutdownClient hsub
  | removeSub hpc => exact absurd hpc (h.not_removing _).1
  | close hpc => exact absurd hpc (h.not_removing _).2.1
  | delete hpc => exact absurd hpc (h.not_removing _).2.2
  | shutdownClose hpc => exact (h.shutdownClose hpc).2
  | exit => exact { h with pc := trivial }
  | closeHub => exact { h with }
  | pumpReceives => exact h.setBuf _ _
  | pumpEnds _ hclosed => exact h.setPump fun _ => hclosed
  | pumpRemoves hpump => exact h.pumpRemoves hpump

end Lifecycle

/-! ### The invariant -/

structure Inv (s : State) : Prop where
  bus : s.bus.Ok
  tracks : ∀ i p, s.calls i = some (.running p) → p.Tracks (s.bus.subs p.agentID)
  start_lt : ∀ i p, s.calls i = some (.running p) → ∀ u ∈ p.start, u < s.bus.next
  known_nodup : s.known.Nodup
  known_lt : ∀ u ∈ s.known, u < s.bus.next
  known_open : ∀ u ∈ s.known, (s.bus.subscribers u).closed = false
  closed_lt : ∀ u, (s.bus.subscribers u).closed = true → u < s.bus.next
  pc : PcOk s
  ended : ∀ u, s.pumps u = .ended → (s.bus.subscribers u).closed = true
  removed : ∀ u ∈ s.remove, (s.bus.subscribers u).closed = true
  safe : Safe s

theorem inv_init : Inv {} :=
  { lifecycle_init with
    tracks := fun _ _ h => nomatch h
    start_lt := fun _ _ h => nomatch h
    safe := ⟨rfl, rfl, fun _ _ _ h => nomatch h⟩ }

namespace Inv

variable {s : State}

theorem lifecycle (h : Inv s) : Lifecycle s := { h with }

/-! ### The calls of `Publish` -/

theorem setCall (h : Inv s) {i : ℕ} {c : Call}
    (hrun : ∀ p, c = .running p →
      p.Tracks (s.bus.subs p.agentID) ∧ ∀ u ∈ p.start, u < s.bus.next)
    (hret : ∀ kept sent, c = .returned kept sent → ∀ sub ∈ kept, sent.count sub = 1) :
    Inv (setCall s i c) := by
  have hcall : ∀ {j c'}, (Hub.setCall s i c).calls j = some c' →
      c' = c ∨ s.calls j = some c' := by
    intro j c' hj
    by_cases hji : j = i
    · subst hji
      left
      simpa [Hub.setCall, eq_comm] using hj
    · right
      simpa [Hub.setCall, hji] using hj
  exact
    { h with
      tracks := fun j p hj => by
        rcases hcall hj with hc | hj
        · exact (hrun p hc.symm).1
        · exact h.tracks j p hj
      start_lt := fun j p hj => by
        rcases hcall hj with hc | hj
        · exact (hrun p hc.symm).2
        · exact h.start_lt j p hj
      safe :=
        { h.safe with
          once := fun j kept sent hj => by
            rcases hcall hj with hc | hj
            · exact hret kept sent hc.symm
            · exact h.safe.once j kept sent hj } }

theorem setBuf (h : Inv s) (sub : ℕ) (buf : List MetricBatch) :
    Inv { s with bus := s.bus.setBuf sub buf } :=
  { h.lifecycle.setBuf sub buf with
    tracks := h.tracks
    start_lt := h.start_lt
    safe := { h.safe with } }

theorem call (h : Inv s) (i : ℕ) (agentID : String) (batch : MetricBatch) :
    Inv (Hub.setCall s i (.running (s.bus.publish agentID batch))) := by
  refine h.setCall (fun p hp => ?_) nofun
  cases hp
  exact ⟨.publish s.bus agentID batch (h.bus.nodup agentID), h.bus.lt_next agentID⟩

section Call

variable {i : ℕ} {p : Publish} (hi : s.calls i = some (.running p))

include hi

theorem fetch (h : Inv s) (hheld : p.held = none) (hlt : p.next < p.len) :
    Inv (Hub.setCall s i (.running (p.fetch (s.bus.subs p.agentID)))) := by
  refine h.setCall (fun p' hp => ?_) nofun
  cases hp
  exact ⟨(h.tracks i p hi).fetch hheld hlt, h.start_lt i p hi⟩

/-- What the call holds is still subscribed, so its channel is open. -/
theorem isOpen (h : Inv s) {sub : ℕ} (hheld : p.held = some sub) :
    (s.bus.subscribers sub).closed = false := by
  have hsub : sub ∈ (s.bus.subs p.agentID).contents := by
    refine (h.tracks i p hi).subscribed sub (List.mem_append_left _ ?_)
    rw [hheld]
    exact List.mem_singleton_self sub
  exact h.bus.isOpen _ sub hsub

theorem trySend (h : Inv s) {sub : ℕ} (hheld : p.held = some sub) :
    Inv { Hub.setCall s i (.running (p.attempted sub)) with
      bus := s.bus.trySend sub p.batch } := by
  obtain ⟨buf, hbuf⟩ := s.bus.trySend_eq sub p.batch
  rw [hbuf]
  refine (h.setBuf sub buf).setCall (fun p' hp => ?_) nofun
  cases hp
  exact ⟨(h.tracks i p hi).attempted hheld, h.start_lt i p hi⟩

theorem finish (h : Inv s) (hheld : p.held = none) (hend : p.len ≤ p.next) :
    Inv (Hub.setCall s i (.returned
      (p.start.filter fun sub => sub ∈ (s.bus.subs p.agentID).contents) p.sent)) := by
  refine h.setCall nofun fun kept sent heq sub hsub => ?_
  cases heq
  obtain ⟨hstart, hmem⟩ := List.mem_filter.mp hsub
  exact (h.tracks i p hi).count_eq_one hheld hend hstart (of_decide_eq_true hmem)

end Call

/-! ### The hub, the handlers and the pumps -/

theorem tracks_removeSub (h : Inv s) {sub : ℕ}
    (hclear : ∀ i p, s.calls i = some (.running p) →
      p.agentID = (s.bus.subscribers sub).agentID → ∀ k,
        (s.bus.subs p.agentID).contents.idxOf? sub = some k →
          p.Clear (s.bus.subs p.agentID) sub k) {i : ℕ} {p : Publish}
    (hi : s.calls i = some (.running p)) : p.Tracks ((s.bus.removeSub sub).subs p.agentID) := by
  -- a slice of another agent does not change
  rcases s.bus.subs_removeSub sub p.agentID with ⟨heq, -⟩ | ⟨ha, k, hk, heq⟩
  · rw [heq]
    exact h.tracks i p hi
  · have hclear' := hclear i p hi ha k hk
    obtain ⟨hlt, hget, -⟩ := List.idxOf?_eq_some_iff.mp hk
    rw [heq]
    refine (h.tracks i p hi).removeAt (h.bus.nodup p.agentID) hlt ?_
    rw [hget]
    exact hclear'

theorem step (h : Inv s) {a : Action} {t : State} (hok : RemovesClear s a)
    (ht : Hub.step s a = some t) : Inv t := by
  have hm := moves ht
  have hlife := h.lifecycle.step hm
  cases hm with
  | handleWS agentID spare =>
    refine
      { hlife with
        tracks := fun i p hi => ?_
        start_lt := fun i p hi u hu => Nat.lt_succ_of_lt (h.start_lt i p hi u hu)
        safe := { h.safe with } }
    show p.Tracks ((s.bus.subscribe agentID spare).subs p.agentID)
    rw [EventBus.subs_subscribe]
    split
    · refine (h.tracks i p hi).append ?_ spare
      exact fun hmem => Nat.lt_irrefl _ (h.start_lt i p hi _ hmem)
    · exact h.tracks i p hi
  | call => exact h.call _ _ _
  | fetch hi hheld hlt => exact h.fetch hi hheld hlt
  | panic hi hheld hclosed =>
    rw [h.isOpen hi hheld] at hclosed
    exact absurd hclosed (by simp)
  | trySend hi hheld => exact h.trySend hi hheld
  | finish hi hheld hend => exact h.finish hi hheld hend
  | @shutdownClient sub hsub =>
    refine
      { hlife with
        tracks := fun i p hi => h.tracks_removeSub (hok sub rfl) hi
        start_lt := fun i p hi u hu => ?_
        safe := { h.safe with } }
    show u < (s.bus.removeSub sub).next
    rw [EventBus.next_removeSub]
    exact h.start_lt i p hi u hu
  | removeSub hpc => exact absurd hpc (h.lifecycle.not_removing _).1
  | close hpc => exact absurd hpc (h.lifecycle.not_removing _).2.1
  | @shutdownClose sub hpc =>
    exact
      { hlife with
        tracks := h.tracks
        start_lt := h.start_lt
        safe :=
          { no_sendOnClosed := h.safe.no_sendOnClosed
            no_closedTwice := by
              show (s.closedTwice || (s.bus.subscribers sub).closed) = false
              rw [h.safe.no_closedTwice, (h.lifecycle.shutdownClose hpc).1]
              rfl
            once := h.safe.once } }
  | sendRegister | takeRegister | takeRemove | takeShutdown | delete | exit | closeHub
  | pumpReceives | pumpEnds | pumpRemoves =>
    exact { hlife with tracks := h.tracks, start_lt := h.start_lt, safe := { h.safe with } }

end Inv

/-- **The bus is safe while removals are clear of the calls under way.**  In
every run in which each removal from a subscriber slice is clear of every
`Publish` call under way for that agent, no send is performed on a closed
channel, no channel is closed twice, and every `Publish` that returns has tried
each subscriber that stayed subscribed throughout the call exactly once. -/
theorem safe_of_clear {as : List Action} {s : State} (hclear : Run.Meets step RemovesClear {} as)
    (hs : Run.exec step {} as = some s) : Safe s :=
  (Run.exec_invariant_of_meets (fun h hok ht => h.step hok ht) inv_init hclear hs).safe

/-- The server shuts down while three batches of an agent are being published: call 0
began before the third client came into its array, call 1 reads the array of the first
client alone, and call 2 has sent to every client that it knows. -/
def shutdownBesidePublish : List Action :=
  [.handleWS "a" 0, .publish (.call 1 "a" {}), .publish (.call 2 "a" {}), .publish (.fetch 2),
    .publish (.trySend 2), .handleWS "a" 1, .sendRegister 0, .sendRegister 1,
    .hub .takeRegister, .hub .takeRegister, .publish (.call 0 "a" {}), .publish (.fetch 0),
    .publish (.trySend 0), .handleWS "a" 0, .closeHub, .hub .takeShutdown]

/-- The channel is closed, and the calls go on. -/
def thenRemoved : List Action :=
  [.hub .next, .publish (.fetch 0), .publish (.trySend 0), .publish (.finish 0),
    .publish (.fetch 1), .publish (.trySend 1), .publish (.finish 1), .publish (.finish 2)]

/-- A call of that run. -/
def callOn (gen len next : ℕ) (sent start : List ℕ) : Publish :=
  { agentID := "a"
    batch := {}
    gen := gen
    len := len
    next := next
    sent := sent
    start := start }

@[simp] theorem agentID_callOn {gen len next : ℕ} {sent start : List ℕ} :
    (callOn gen len next sent start).agentID = "a" := rfl

theorem clear_shutdownBesidePublish {t : State}
    (ht : Run.exec step {} shutdownBesidePublish = some t) :
    RemovesClear t (.hub (.shutdownClient 1)) := by
  have hrun : (Run.exec step {} shutdownBesidePublish).map (fun t => (t.calls 0, t.calls 1,
      t.calls 2, (t.bus.subs "a").contents, (t.bus.subs "a").gen, (t.bus.subs "a").len,
      (callOn 1 1 0 [] [0]).remaining (t.bus.subs "a")))
      = some (some (.running (callOn 2 2 1 [0] [0, 1])), some (.running (callOn 1 1 0 [] [0])),
        some (.running (callOn 1 1 1 [0] [0])), [0, 1, 2], 2, 3, [0]) := rfl
  have hother : ∀ n, (Run.exec step {} shutdownBesidePublish).map (fun t => t.calls (n + 3))
      = some none := fun _ => rfl
  simp only [ht, Option.map_some, Option.some_inj, Prod.mk.injEq] at hrun hother
  obtain ⟨h0, h1, h2, hcontents, hgen, hlen, hremaining⟩ := hrun
  intro sub hsub i p hi _ k hk
  obtain rfl : 1 = sub := Option.some.inj hsub
  rcases i with _ | _ | _ | n
  · obtain rfl : callOn 2 2 1 [0] [0, 1] = p := by simpa [h0] using hi
    have hk : some 1 = some k := by
      rw [← hk, agentID_callOn, hcontents]
      rfl
    obtain rfl : 1 = k := Option.some.inj hk
    refine ⟨by simp [callOn], .inr (.inl ⟨hgen.symm, le_rfl, ?_⟩)⟩
    rw [agentID_callOn, hlen]
    decide
  · obtain rfl : callOn 1 1 0 [] [0] = p := by simpa [h1] using hi
    refine ⟨by simp [callOn], .inr (.inr ⟨?_, ?_⟩)⟩
    · rw [agentID_callOn, hgen]
      decide
    · rw [agentID_callOn, hremaining]
      decide
  · obtain rfl : callOn 1 1 1 [0] [0] = p := by simpa [h2] using hi
    exact ⟨by simp [callOn], .inl le_rfl⟩
  · rw [hother n] at hi
    exact absurd hi (by simp)

/-- Closing the channel removes nothing. -/
theorem clear_afterShutdownClient {t u : State} {sub : ℕ}
    (hu : step t (.hub (.shutdownClient sub)) = some u) : RemovesClear u (.hub .next) := by
  have hpc : u.pc = .shutdownClosing sub := by
    simp only [step, hubStep] at hu
    split at hu
    · split at hu
      · cases hu
        rfl
      · exact absurd hu (by simp)
    · exact absurd hu (by simp)
  intro sub' hsub'
  simp [removes, hpc] at hsub'

theorem safe_of_clear_shutdown :
    Run.Meets step RemovesClear {}
        (shutdownBesidePublish ++ .hub (.shutdownClient 1) :: thenRemoved) ∧
      ∃ s, Run.exec step {} (shutdownBesidePublish ++ .hub (.shutdownClient 1) :: thenRemoved)
          = some s ∧
        s.calls 0 = some (.returned [0] [0, 2]) ∧ Safe s := by
  have hmeets : Run.Meets step RemovesClear {}
      (shutdownBesidePublish ++ .hub (.shutdownClient 1) :: thenRemoved) := by
    refine Run.meets_append.mpr ⟨Run.meets_of_forall ?_ _, fun t ht =>
      ⟨clear_shutdownBesidePublish ht, fun u hu =>
        ⟨clear_afterShutdownClient hu, fun v _ => Run.meets_of_forall ?_ v⟩⟩⟩
    · simp [shutdownBesidePublish, RemovesClear, removes]
    · simp [RemovesClear, removes]
  have hrun : (Run.exec step {}
      (shutdownBesidePublish ++ .hub (.shutdownClient 1) :: thenRemoved)).map (fun s => s.calls 0)
        = some (some (.returned [0] [0, 2])) := rfl
  obtain ⟨s, hs, hcalls⟩ := Option.map_eq_some_iff.mp hrun
  exact ⟨hmeets, s, hs, hcalls, safe_of_clear hmeets hs⟩

/-- The server shuts down while a `Publish` has read a subscriber and not yet
sent to it. -/
def shutdownDuringPublish : List Action :=
  [.handleWS "a" 0, .sendRegister 0, .hub .takeRegister, .publish (.call 0 "a" {}),
    .publish (.fetch 0), .closeHub, .hub .takeShutdown, .hub (.shutdownClient 0), .hub .next,
    .publish (.trySend 0)]

theorem publish_panics :
    ¬ ∀ (as : List Action) (s : State), Run.exec step {} as = some s → Safe s := by
  intro hall
  have hrun : (Run.exec step {} shutdownDuringPublish).map (fun s => s.sendOnClosed)
      = some true := rfl
  obtain ⟨s, hs, heq⟩ := Option.map_eq_some_iff.mp hrun
  rw [(hall _ s hs).no_sendOnClosed] at heq
  exact absurd heq (by simp)

end Hub
end Volta
