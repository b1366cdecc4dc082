/-
The connections of the WebSocket clients (`hub.go`).

`pumpToClient` writes every batch that it receives to its client's connection
and looks at no error, so it leaves its loop only when its channel is closed:
by the hub, which waits for the pump, or by the shutdown of the hub.

* `dropped_iff` — the client of a failed connection is dropped exactly in the
  runs in which a `WriteMessage` fails only on the last batch of a closed
  channel.
-/
import Volta.Hub

namespace Volta

namespace ClientPump

/-- A client is named by its subscriber, as in `Hub`. -/
structure State where
  hub : Hub.State := {}
  /-- The connection has failed, or the hub has closed it. -/
  broken : ℕ → Bool := fun _ => false
  /-- The batch that the pump has received and not written. -/
  holding : ℕ → Option MetricBatch := fun _ => none
  /-- History: a `WriteMessage` on the connection has returned an error. -/
  failed : ℕ → Bool := fun _ => false
  /-- History: `WriteMessage` was called on such a connection. -/
  writeAfterError : Bool := false
  /-- History: how often the subscriber has been closed. -/
  closes : ℕ → ℕ := fun _ => 0

inductive Action where
  | hub (a : Hub.Action)
  | connFails (sub : ℕ)
  | writeMessage (sub : ℕ) (ok : Bool)

/-- The pump that takes a step of the hub's model is still writing. -/
def writing (s : State) : Hub.Action → Bool
  | .pumpReceives sub => (s.holding sub).isSome
  | .pumpEnds sub => (s.holding sub).isSome
  | _ => false

/-- What the pumps hold after a step of the hub's model. -/
def received (s : State) : Hub.Action → ℕ → Option MetricBatch
  | .pumpReceives sub => Function.update s.holding sub (s.hub.bus.subscribers sub).buf.head?
  | _ => s.holding

/-- The subscriber that a step closes. -/
def closing (s : Hub.State) : Hub.Action → Option ℕ
  | .hub .next =>
      match s.pc with
      | .closing sub => some sub
      | .shutdownClosing sub => some sub
      | _ => none
  | _ => none

/-- The client whose connection a step closes. -/
def connClosing (s : Hub.State) : Hub.Action → Option ℕ
  | .hub .next =>
      match s.pc with
      | .shutdownClosing sub => some sub
      | _ => none
  | _ => none

def step (s : State) : Action → Option State
  | .hub a =>
      if writing s a then none
      else
        (Hub.step s.hub a).map fun hub =>
          { s with
            hub := hub
            holding := received s a
            broken := match connClosing s.hub a with
              | some sub => Function.update s.broken sub true
              | none => s.broken
            closes := match closing s.hub a with
              | some sub => Function.update s.closes sub (s.closes sub + 1)
              | none => s.closes }
  | .connFails sub => some { s with broken := Function.update s.broken sub true }
  | .writeMessage sub ok =>
      -- the result of `WriteMessage` is dropped
      if (s.holding sub).isSome ∧ (ok ∨ s.broken sub) then
        some
          { s with
            holding := Function.update s.holding sub none
            failed := if ok then s.failed else Function.update s.failed sub true
            writeAfterError := s.writeAfterError || s.failed sub }
      else none

/-- The pump has nothing left to do but to send its client to `h.remove`, or it
has done so. -/
def Leaving (s : State) (sub : ℕ) : Prop :=
  (s.hub.pumps sub = .running ∧ s.holding sub = none ∧
      (s.hub.bus.subscribers sub).closed = true ∧ (s.hub.bus.subscribers sub).buf = []) ∨
    s.hub.pumps sub = .ended ∨ s.hub.pumps sub = .returned

/-- The hub has processed its channels. -/
def Settled (h : Hub.State) : Prop :=
  (h.pc = .select ∧ h.register = [] ∧ h.remove = []) ∨ h.pc = .returned

/-- Dead clients are dropped. -/
structure Dropped (s : State) : Prop where
  no_writeAfterError : s.writeAfterError = false
  leaving : ∀ sub, s.failed sub = true → Leaving s sub
  released : Settled s.hub → ∀ sub, s.failed sub = true → s.hub.pumps sub = .returned →
    sub ∉ s.hub.clients ∧ (∀ agentID, sub ∉ (s.hub.bus.subs agentID).contents) ∧
      s.closes sub = 1

/-- The condition on a step: a write that fails is that of the last batch of a
closed channel. -/
def FailsLast (s : State) (a : Action) : Prop :=
  ∀ sub, a = .writeMessage sub false →
    (s.hub.bus.subscribers sub).closed = true ∧ (s.hub.bus.subscribers sub).buf = []

/-! ### What a step of the hub does to a client -/

section Moves

variable {s t : Hub.State} {a : Hub.Action}

/-- A channel is closed by the step that closes it, and stays closed. -/
theorem closed_of_moves (h : Hub.Lifecycle s) (hm : Hub.Moves s a t) (u : ℕ) :
    (t.bus.subscribers u).closed
      = if closing s a = some u then true else (s.bus.subscribers u).closed := by
  cases hm with
  | handleWS agentID spare => exact h.closed_subscribe agentID spare u
  | @trySend i p sub =>
    show ((s.bus.trySend sub p.batch).subscribers u).closed = _
    rw [EventBus.closed_trySend]
    rfl
  | @shutdownClient sub =>
    show ((s.bus.removeSub sub).subscribers u).closed = _
    rw [EventBus.subscribers_removeSub]
    rfl
  | removeSub hpc => exact absurd hpc (h.not_removing _).1
  | close hpc => exact absurd hpc (h.not_removing _).2.1
  | delete hpc => exact absurd hpc (h.not_removing _).2.2
  | @shutdownClose sub hpc =>
    show ((s.bus.close sub).subscribers u).closed = _
    rw [EventBus.closed_close]
    simp only [closing, hpc, Option.some_inj, eq_comm]
  | exit hpc =>
    simp only [closing, hpc]
    rfl
  | pumpReceives =>
    show ((s.bus.setBuf _ _).subscribers u).closed = _
    rw [EventBus.closed_setBuf]
    rfl
  | sendRegister | call | fetch | panic | finish | takeRegister | takeRemove | takeShutdown
  | closeHub | pumpEnds | pumpRemoves => rfl

/-- Nothing gets into a closed channel. -/
theorem buf_of_moves (h : Hub.Lifecycle s) (hm : Hub.Moves s a t) {u : ℕ}
    (hclosed : (s.bus.subscribers u).closed = true) (hbuf : (s.bus.subscribers u).buf = []) :
    (t.bus.subscribers u).buf = [] := by
  have hlt := h.closed_lt u hclosed
  cases hm with
  | handleWS agentID spare =>
    show ((s.bus.subscribe agentID spare).subscribers u).buf = []
    rw [EventBus.subscribers_subscribe _ _ _ (by omega), hbuf]
  | @trySend i p sub hi hheld hopen =>
    have hne : u ≠ sub := by
      rintro rfl
      rw [hopen] at hclosed
      exact absurd hclosed (by simp)
    obtain ⟨buf, heq⟩ := s.bus.trySend_eq sub p.batch
    show ((s.bus.trySend sub p.batch).subscribers u).buf = []
    rw [heq, EventBus.setBuf]
    simp [hne, hbuf]
  | @shutdownClient sub | @removeSub sub =>
    show ((s.bus.removeSub sub).subscribers u).buf = []
    rw [EventBus.subscribers_removeSub, hbuf]
  | @close sub | @shutdownClose sub =>
    show ((s.bus.close sub).subscribers u).buf = []
    by_cases hu : u = sub
    · subst hu
      simp [EventBus.close, hbuf]
    · simp [EventBus.close, hu, hbuf]
  | @pumpReceives sub batch rest hpump hfull =>
    have hne : u ≠ sub := by
      rintro rfl
      rw [hbuf] at hfull
      exact absurd hfull (by simp)
    show ((s.bus.setBuf sub rest).subscribers u).buf = []
    simp [EventBus.setBuf, hne, hbuf]
  | sendRegister | call | fetch | panic | finish | takeRegister | takeRemove | takeShutdown
  | delete | exit | closeHub | pumpEnds | pumpRemoves => exact hbuf

/-- A running pump goes on running unless it ends. -/
theorem running_of_moves (hm : Hub.Moves s a t) {u : ℕ} (hu : s.pumps u = .running)
    (ha : a ≠ .pumpEnds u) : t.pumps u = .running := by
  cases hm with
  | @takeRegister sub =>
    show Function.update s.pumps sub .running u = .running
    by_cases hsub : u = sub
    · rw [hsub, Function.update_self]
    · rw [Function.update_of_ne hsub, hu]
  | @pumpEnds sub =>
    have hsub : u ≠ sub := by
      rintro rfl
      exact ha rfl
    show Function.update s.pumps sub .ended u = .running
    rw [Function.update_of_ne hsub, hu]
  | @pumpRemoves sub hpump =>
    have hsub : u ≠ sub := by
      rintro rfl
      rw [hu] at hpump
      exact absurd hpump (by simp)
    show Function.update s.pumps sub .returned u = .running
    rw [Function.update_of_ne hsub, hu]
  | handleWS | sendRegister | call | fetch | panic | trySend | finish | takeRemove | takeShutdown
  | shutdownClient | removeSub | close | delete | shutdownClose | exit | closeHub
  | pumpReceives => exact hu

/-- A pump that has started has started for good. -/
theorem started_of_moves (hm : Hub.Moves s a t) {u : ℕ} (hu : s.pumps u ≠ .notStarted) :
    t.pumps u ≠ .notStarted := by
  have hupdate : ∀ {sub : ℕ} {pump : Hub.Pump}, pump ≠ .notStarted →
      Function.update s.pumps sub pump u ≠ .notStarted := by
    intro sub pump hpump
    by_cases hsub : u = sub
    · rw [hsub, Function.update_self]
      exact hpump
    · rw [Function.update_of_ne hsub]
      exact hu
  cases hm with
  | takeRegister => exact hupdate (by simp)
  | pumpEnds => exact hupdate (by simp)
  | pumpRemoves => exact hupdate (by simp)
  | handleWS | sendRegister | call | fetch | panic | trySend | finish | takeRemove | takeShutdown
  | shutdownClient | removeSub | close | delete | shutdownClose | exit | closeHub
  | pumpReceives => exact hu

end Moves

/-! ### The invariant -/

/-- A client whose connection has failed has a channel that is closed and
empty, and nothing left to write. -/
structure Inv (s : State) : Prop where
  life : Hub.Lifecycle s.hub
  no_writeAfterError : s.writeAfterError = false
  holding : ∀ sub, (s.holding sub).isSome = true → s.hub.pumps sub = .running
  failed : ∀ sub, s.failed sub = true →
    s.holding sub = none ∧ s.hub.pumps sub ≠ .notStarted ∧
      (s.hub.bus.subscribers sub).closed = true ∧ (s.hub.bus.subscribers sub).buf = []
  closes : ∀ sub, s.closes sub = if (s.hub.bus.subscribers sub).closed then 1 else 0

theorem inv_init : Inv {} where
  life := Hub.lifecycle_init
  no_writeAfterError := rfl
  holding _ h := nomatch h
  failed _ h := nomatch h
  closes _ := rfl

namespace Inv

variable {s t : State}

theorem dropped (h : Inv s) : Dropped s where
  no_writeAfterError := h.no_writeAfterError
  leaving sub hfail := by
    obtain ⟨hholding, hstarted, hclosed, hbuf⟩ := h.failed sub hfail
    cases hpump : s.hub.pumps sub with
    | notStarted => exact absurd hpump hstarted
    | running => exact Or.inl ⟨hpump, hholding, hclosed, hbuf⟩
    | ended => exact Or.inr (Or.inl hpump)
    | returned => exact Or.inr (Or.inr hpump)
  released _ sub hfail _ := by
    obtain ⟨-, -, hclosed, -⟩ := h.failed sub hfail
    refine ⟨fun hmem => ?_, fun agentID hmem => ?_, ?_⟩
    · have hopen := h.life.known_open sub (List.mem_append_right _ hmem)
      rw [hclosed] at hopen
      exact absurd hopen (by simp)
    · have hopen := h.life.bus.isOpen agentID sub hmem
      rw [hclosed] at hopen
      exact absurd hopen (by simp)
    · rw [h.closes sub, if_pos hclosed]

/-- A step of the hub closes only what is open. -/
theorem open_of_closing (h : Inv s) {a : Hub.Action} {hub : Hub.State}
    (hm : Hub.Moves s.hub a hub) {sub : ℕ} (hclosing : closing s.hub a = some sub) :
    (s.hub.bus.subscribers sub).closed = false := by
  cases hm with
  | removeSub hpc => exact absurd hpc (h.life.not_removing _).1
  | close hpc => exact absurd hpc (h.life.not_removing _).2.1
  | delete hpc => exact absurd hpc (h.life.not_removing _).2.2
  | shutdownClose hpc =>
    rw [closing, hpc, Option.some_inj] at hclosing
    subst hclosing
    exact (h.life.shutdownClose hpc).1
  | exit hpc =>
    rw [closing, hpc] at hclosing
    exact absurd hclosing (by simp)
  | handleWS | sendRegister | call | fetch | panic | trySend | finish | takeRegister | takeRemove
  | takeShutdown | shutdownClient | closeHub | pumpReceives | pumpEnds | pumpRemoves =>
    exact absurd hclosing (by simp [closing])

/-- A pump holds a batch only while it runs. -/
theorem running_of_received (h : Inv s) {a : Hub.Action} {hub : Hub.State}
    (hm : Hub.Moves s.hub a hub) (hidle : writing s a = false) {sub : ℕ}
    (hsub : (received s a sub).isSome = true) : hub.pumps sub = .running := by
  by_cases ha : a = .pumpReceives sub
  · subst ha
    cases hm with
    | pumpReceives hpump => exact hpump
  · have hheld : (s.holding sub).isSome = true := by
      unfold received at hsub
      split at hsub
      · rename_i u
        have hu : sub ≠ u := by
          rintro rfl
          exact ha rfl
        rwa [Function.update_of_ne hu] at hsub
      · exact hsub
    refine running_of_moves hm (h.holding sub hheld) ?_
    rintro rfl
    rw [writing, hheld] at hidle
    exact absurd hidle (by simp)

/-- A pump whose channel is empty receives nothing. -/
theorem received_eq_none {a : Hub.Action} {sub : ℕ} (hholding : s.holding sub = none)
    (hbuf : (s.hub.bus.subscribers sub).buf = []) : received s a sub = none := by
  unfold received
  split
  · rename_i u
    by_cases hu : sub = u
    · subst hu
      rw [Function.update_self, hbuf, List.head?_nil]
    · rw [Function.update_of_ne hu]
      exact hholding
  · exact hholding

theorem hub (h : Inv s) {a : Hub.Action} (ht : step s (.hub a) = some t) : Inv t := by
  rw [step] at ht
  split at ht
  · exact absurd ht (by simp)
  rename_i hidle
  obtain ⟨hub, hstep, rfl⟩ := Option.map_eq_some_iff.mp ht
  have hm := Hub.moves hstep
  have hclosed := closed_of_moves h.life hm
  refine ⟨h.life.step hm, h.no_writeAfterError, fun sub hsub => ?_, fun sub hfail => ?_,
    fun sub => ?_⟩
  · exact h.running_of_received hm (by simpa using hidle) hsub
  · obtain ⟨hholding, hstarted, hc, hbuf⟩ := h.failed sub hfail
    refine ⟨received_eq_none hholding hbuf, started_of_moves hm hstarted, ?_,
      buf_of_moves h.life hm hc hbuf⟩
    rw [hclosed, hc]
    exact ite_self true
  · show (match closing s.hub a with
      | some u => Function.update s.closes u (s.closes u + 1)
      | none => s.closes) sub = _
    have hc := hclosed sub
    cases hclosing : closing s.hub a with
    | none =>
      rw [hclosing, if_neg (by simp)] at hc
      rw [hc]
      exact h.closes sub
    | some u =>
      rw [hclosing] at hc
      dsimp only
      by_cases hu : sub = u
      · subst hu
        rw [if_pos rfl] at hc
        rw [hc, Function.update_self, h.closes sub, h.open_of_closing hm hclosing]
        rfl
      · rw [if_neg (by simpa using Ne.symm hu)] at hc
        rw [hc, Function.update_of_ne hu]
        exact h.closes sub

/-- A write that fails on the last batch of a closed channel leaves nothing to
be written. -/
theorem writeMessage (h : Inv s) {sub : ℕ} {ok : Bool} (hok : FailsLast s (.writeMessage sub ok))
    (ht : step s (.writeMessage sub ok) = some t) : Inv t := by
  rw [step] at ht
  split at ht
  · rename_i hguard
    cases ht
    have hrunning := h.holding sub hguard.1
    have hnot : s.failed sub = false := by
      by_contra hfail
      have hnone := (h.failed sub (by simpa using hfail)).1
      rw [hnone] at hguard
      exact absurd hguard.1 (by simp)
    refine ⟨h.life, ?_, fun u hu => ?_, fun u hfail => ?_, h.closes⟩
    · show (s.writeAfterError || s.failed sub) = false
      rw [h.no_writeAfterError, hnot]
      rfl
    · by_cases hus : u = sub
      · rw [hus]
        exact hrunning
      · exact h.holding u (by simpa [hus] using hu)
    · by_cases hus : u = sub
      · subst hus
        refine ⟨Function.update_self _ _ _, by simp [hrunning], ?_⟩
        cases ok with
        | false => exact hok u rfl
        | true => exact absurd (hnot.symm.trans hfail) (by simp)
      · have hold : s.failed u = true := by
          cases ok with
          | false => simpa [hus] using hfail
          | true => exact hfail
        obtain ⟨hholding, hrest⟩ := h.failed u hold
        exact ⟨by simpa [hus] using hholding, hrest⟩
  · exact absurd ht (by simp)

theorem step (h : Inv s) {a : Action} (hok : FailsLast s a)
    (ht : ClientPump.step s a = some t) : Inv t := by
  cases a with
  | hub a => exact h.hub ht
  | connFails sub =>
    cases ht
    exact { h with }
  | writeMessage sub ok => exact h.writeMessage hok ht

/-- Any other write that fails leaves a pump that goes on. -/
theorem not_dropped (h : Inv s) {a : Action} (hok : ¬ FailsLast s a)
    (ht : ClientPump.step s a = some t) : ¬ Dropped t := by
  rw [FailsLast] at hok
  push Not at hok
  obtain ⟨sub, rfl, hopen⟩ := hok
  rw [ClientPump.step] at ht
  split at ht
  · rename_i hguard
    cases ht
    have hrunning := h.holding sub hguard.1
    intro hdropped
    rcases hdropped.leaving sub (Function.update_self _ _ _) with ⟨-, -, hclosed, hbuf⟩ | hp | hp
    · exact hopen hclosed hbuf
    · exact absurd (hrunning.symm.trans hp) (by simp)
    · exact absurd (hrunning.symm.trans hp) (by simp)
  · exact absurd ht (by simp)

end Inv

/-- **Dead clients are dropped exactly when writes fail last.**  For every
interleaving of publications, connections that fail, and the steps of the hub,
its handlers and its pumps: in every state of the run no `WriteMessage` has been
called after one on the same connection has failed, the pump of a failed
connection is on its way to `h.remove`, and once the hub has processed its
channels the client is in neither the hub nor the bus and has been closed once,
if and only if each `WriteMessage` that fails is that of the last batch of a
channel that is already closed. -/
theorem dropped_iff {as : List Action} {s : State} (hs : Run.exec step {} as = some s) :
    Run.Along step Dropped {} as ↔ Run.Meets step FailsLast {} as :=
  Run.along_iff_meets (I := Inv) (fun h => h.dropped) (fun h hok ht => h.step hok ht)
    (fun h hok ht => h.not_dropped hok ht) inv_init hs

/-- A client watches, and a batch is published to it. -/
def publishOnce : List Action :=
  [.hub (.handleWS "a" 0), .hub (.sendRegister 0), .hub (.hub .takeRegister),
    .hub (.publish (.call 0 "a" {})), .hub (.publish (.fetch 0)), .hub (.publish (.trySend 0)),
    .hub (.publish (.finish 0))]

/-- The hub shuts down before the batch is written, which then fails. -/
def failsLast : List Action :=
  publishOnce ++ [.hub .closeHub, .hub (.hub .takeShutdown), .hub (.hub (.shutdownClient 0)),
    .hub (.hub .next), .hub (.pumpReceives 0), .writeMessage 0 false, .hub (.pumpEnds 0),
    .hub (.pumpRemoves 0)]

theorem dropped_iff_failsLast :
    ∃ s, Run.exec step {} failsLast = some s ∧
      (Run.Along step Dropped {} failsLast ↔ Run.Meets step FailsLast {} failsLast) := by
  obtain ⟨s, hs⟩ := Option.isSome_iff_exists.mp
    (show (Run.exec step {} failsLast).isSome from rfl)
  exact ⟨s, hs, dropped_iff hs⟩

/-- The connection fails, and the pump goes on to write the next batch. -/
theorem write_after_error :
    ¬ ∀ (as : List Action) (s : State), Run.exec step {} as = some s →
      Run.Along step Dropped {} as := by
  intro hall
  have hrun : (Run.exec step {} (publishOnce ++
      [.connFails 0, .hub (.pumpReceives 0), .writeMessage 0 false,
        .hub (.publish (.call 1 "a" {})), .hub (.publish (.fetch 1)),
        .hub (.publish (.trySend 1)), .hub (.pumpReceives 0), .writeMessage 0 false])).map
      State.writeAfterError = some true := rfl
  obtain ⟨s, hs, heq⟩ := Option.map_eq_some_iff.mp hrun
  have hdropped := (hall _ s hs).last hs
  rw [hdropped.no_writeAfterError] at heq
  exact absurd heq (by simp)

end ClientPump
end Volta
