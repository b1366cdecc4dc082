/-
Whose frames the live series hold (`useMetricStream`).

`StreamView` is the hook with two pieces of history: the base URL and agent
that the last run with an agent was started for, and the delays that each run
has scheduled since its socket last opened.  The stores that a render reads are
arbitrary at every step.

* `Hook.moves` — what each step of the hook does;
* `Hook.Inv` — of all runs only the mounted one is not disposed, and every
  pending timer and every socket that still calls back is the one its run
  remembers;
* `isolated` — so late events of earlier runs find nothing to change.
-/
import Volta.Run
import Volta.MetricStreamHook
import Volta.MetricsStore

namespace Volta

namespace Dashboard

namespace Hook

/-! ### The steps, one by one -/

/-- What each step does to the hook, and where it is enabled.  A socket whose
handlers are off calls no run back. -/
inductive Moves (stores : Deps) (h : Hook) : HookAction → Hook → Prop where
  | render : Moves stores h .render { h with rendered := some stores }
  | effect {d : Deps} (hd : h.rendered = some d) :
      Moves stores h .effect (h.cleanupMounted.effect d)
  | unmount : Moves stores h .unmount { h.cleanupMounted with rendered := none }
  | opensLate {k : ℕ} {s : Socket} (hs : h.sockets k = some s) (hst : s.readyState = .connecting)
      (hcaller : h.caller s = none) :
      Moves stores h (.socketOpens k) (h.setSocket k { s with readyState := .opened })
  | opens {k : ℕ} {s : Socket} {r : EffectRun} (hs : h.sockets k = some s)
      (hst : s.readyState = .connecting) (hcaller : h.caller s = some r) :
      Moves stores h (.socketOpens k)
        ((h.setSocket k { s with readyState := .opened }).onopen s.run r).1
  | messageLate {k : ℕ} {data : Option MetricBatch} {s : Socket} (hs : h.sockets k = some s)
      (hst : s.readyState = .opened) (hcaller : h.caller s = none) :
      Moves stores h (.socketMessage k data) h
  | message {k : ℕ} {data : Option MetricBatch} {s : Socket} {r : EffectRun}
      (hs : h.sockets k = some s) (hst : s.readyState = .opened) (hcaller : h.caller s = some r) :
      Moves stores h (.socketMessage k data) (h.onmessage k data)
  | errorLate {k : ℕ} {s : Socket} (hs : h.sockets k = some s) (hst : s.readyState ≠ .closed)
      (hcaller : h.caller s = none) : Moves stores h (.socketError k) h
  | error {k : ℕ} {s : Socket} {r : EffectRun} (hs : h.sockets k = some s)
      (hst : s.readyState ≠ .closed) (hcaller : h.caller s = some r) :
      Moves stores h (.socketError k) (h.setSocket k s.close)
  | closesLate {k : ℕ} {s : Socket} (hs : h.sockets k = some s) (hst : s.readyState ≠ .closed)
      (hcaller : h.caller s = none) :
      Moves stores h (.socketCloses k) (h.setSocket k { s with readyState := .closed })
  | closes {k : ℕ} {s : Socket} {r : EffectRun} (hs : h.sockets k = some s)
      (hst : s.readyState ≠ .closed) (hcaller : h.caller s = some r) :
      Moves stores h (.socketCloses k)
        ((h.setSocket k { s with readyState := .closed }).onclose s.run r)
  | firesLate {t : ℕ} {x : Timer} (hx : h.timers t = some x) (hr : h.runs x.run = none) :
      Moves stores h (.timerFires t) { h with timers := Function.update h.timers t none }
  | fires {t : ℕ} {x : Timer} {r : EffectRun} (hx : h.timers t = some x)
      (hr : h.runs x.run = some r) :
      Moves stores h (.timerFires t)
        (({ h with timers := Function.update h.timers t none } : Hook).connect x.run r)

theorem moves {stores : Deps} {h : Hook} {a : HookAction} {h' : Hook} {fetch : Option String}
    (ht : h.step stores a = some (h', fetch)) : Moves stores h a h' := by
  cases a with
  | render =>
    simp only [Hook.step] at ht
    split at ht
    · exact absurd ht (by simp)
    · cases ht
      exact .render
  | effect =>
    simp only [Hook.step] at ht
    split at ht
    · exact absurd ht (by simp)
    · rename_i d hd
      cases ht
      exact .effect hd
  | unmount =>
    simp only [Hook.step] at ht
    split at ht
    · exact absurd ht (by simp)
    · split at ht
      · exact absurd ht (by simp)
      · cases ht
        exact .unmount
  | socketOpens k =>
    simp only [Hook.step] at ht
    split at ht
    · exact absurd ht (by simp)
    · rename_i s hs
      split at ht
      · rename_i hst
        split at ht
        · rename_i hcaller
          cases ht
          exact .opensLate hs hst hcaller
        · rename_i r hcaller
          rw [Option.some_inj] at ht
          rw [show h' = ((h.setSocket k { s with readyState := .opened }).onopen s.run r).1 from
            (congrArg Prod.fst ht).symm]
          exact .opens hs hst hcaller
      · exact absurd ht (by simp)
  | socketMessage k data =>
    simp only [Hook.step] at ht
    split at ht
    · exact absurd ht (by simp)
    · rename_i s hs
      split at ht
      · rename_i hst
        split at ht
        · rename_i hcaller
          cases ht
          exact .messageLate hs hst hcaller
        · rename_i r hcaller
          cases ht
          exact .message hs hst hcaller
      · exact absurd ht (by simp)
  | socketError k =>
    simp only [Hook.step] at ht
    split at ht
    · exact absurd ht (by simp)
    · rename_i s hs
      split at ht
      · exact absurd ht (by simp)
      · rename_i hst
        split at ht
        · rename_i hcaller
          cases ht
          exact .errorLate hs hst hcaller
        · rename_i r hcaller
          cases ht
          exact .error hs hst hcaller
  | socketCloses k =>
    simp only [Hook.step] at ht
    split at ht
    · exact absurd ht (by simp)
    · rename_i s hs
      split at ht
      · exact absurd ht (by simp)
      · rename_i hst
        split at ht
        · rename_i hcaller
          cases ht
          exact .closesLate hs hst hcaller
        · rename_i r hcaller
          cases ht
          exact .closes hs hst hcaller
  | timerFires t =>
    simp only [Hook.step] at ht
    split at ht
    · exact absurd ht (by simp)
    · rename_i x hx
      split at ht
      · rename_i hr
        cases ht
        exact .firesLate hx hr
      · rename_i r hr
        cases ht
        exact .fires hx hr

/-! ### Sockets, timers and their runs -/

/-- A socket that can still call back: not closed, its handlers in place. -/
def LiveSocket (h : Hook) (k : ℕ) : Prop :=
  ∃ s, h.sockets k = some s ∧ s.handlers = true ∧ s.readyState ≠ .closed

def PendingTimer (h : Hook) (t : ℕ) : Prop := ∃ x, h.timers t = some x

/-- The socket that a run remembers is the only one of it that calls back, its
timer the only one that is pending, and there are not both. -/
structure Inv (h : Hook) : Prop where
  runs_lt : ∀ i r, h.runs i = some r → i < h.nextRun
  sockets_lt : ∀ k s, h.sockets k = some s → k < h.nextSocket
  timers_lt : ∀ t x, h.timers t = some x → t < h.nextTimer
  mounted_run : ∀ i, h.mounted = some i →
    i + 1 = h.nextRun ∧ ∃ r, h.runs i = some r ∧ r.disposed = false
  undisposed : ∀ i r, h.runs i = some r → r.disposed = false → h.mounted = some i
  socket_owner : ∀ k s, h.sockets k = some s → s.handlers = true → s.readyState ≠ .closed →
    ∃ r, h.runs s.run = some r ∧ r.disposed = false ∧ r.socket = some k
  timer_owner : ∀ t x, h.timers t = some x →
    ∃ r, h.runs x.run = some r ∧ r.disposed = false ∧ r.socket = none ∧
      r.reconnectTimer = some t
  ingested_run : ∀ p ∈ h.ingested, ∃ s, h.sockets p.1 = some s ∧ s.run + 1 = h.nextRun

theorem setSocket_self {h : Hook} {k : ℕ} {s : Socket} : (h.setSocket k s).sockets k = some s :=
  Function.update_self k _ _

theorem setSocket_ne {h : Hook} {k k' : ℕ} {s : Socket} (hk : k' ≠ k) :
    (h.setSocket k s).sockets k' = h.sockets k' := Function.update_of_ne hk _ _

theorem setRun_self {h : Hook} {i : ℕ} {r : EffectRun} : (h.setRun i r).runs i = some r :=
  Function.update_self i _ _

theorem setRun_ne {h : Hook} {i j : ℕ} {r : EffectRun} (hj : j ≠ i) :
    (h.setRun i r).runs j = h.runs j := Function.update_of_ne hj _ _

theorem cleanup_runs (h : Hook) (i j : ℕ) (r : EffectRun) :
    (h.cleanup i r).runs j = if j = i then some { r with disposed := true } else h.runs j :=
  Function.update_apply _ i _ j

theorem cleanup_sockets (h : Hook) (i k : ℕ) (r : EffectRun) :
    (h.cleanup i r).sockets k
      = if r.socket = some k then
          (h.sockets k).map fun s => { s.close with handlers := false }
        else h.sockets k := by
  simp only [cleanup]
  cases hsocket : r.socket with
  | none => rfl
  | some k' =>
    show Function.update h.sockets k' _ k = _
    rw [Function.update_apply]
    by_cases hk : k = k'
    · rw [if_pos hk, if_pos (by rw [hk]), hk]
    · rw [if_neg hk, if_neg fun heq => hk (Option.some_inj.mp heq).symm]

theorem cleanup_timers (h : Hook) (i t : ℕ) (r : EffectRun) :
    (h.cleanup i r).timers t = if r.reconnectTimer = some t then none else h.timers t := by
  simp only [cleanup]
  cases htimer : r.reconnectTimer with
  | none => rfl
  | some t' =>
    show Function.update h.timers t' none t = _
    rw [Function.update_apply]
    by_cases ht : t = t'
    · rw [if_pos ht, if_pos (by rw [ht])]
    · rw [if_neg ht, if_neg fun heq => ht (Option.some_inj.mp heq).symm]

theorem close_run (s : Socket) : s.close.run = s.run := by
  rw [Socket.close]
  split <;> rfl

theorem close_eq (s : Socket) :
    ∃ st, s.close = { s with readyState := st } ∧ (st ≠ .closed → s.readyState ≠ .closed) := by
  rw [Socket.close]
  split
  · rename_i hst
    exact ⟨.closing, rfl, fun _ => by rw [hst]; decide⟩
  · rename_i hst
    exact ⟨.closing, rfl, fun _ => by rw [hst]; decide⟩
  · exact ⟨s.readyState, rfl, fun h => h⟩

theorem caller_eq_some {h : Hook} {s : Socket} {r : EffectRun} :
    h.caller s = some r ↔ s.handlers = true ∧ h.runs s.run = some r := by
  rw [caller]
  split
  · rename_i hh
    exact (and_iff_right hh).symm
  · rename_i hh
    exact iff_of_false (by simp) fun h => hh h.1

theorem inv_init : Inv {} where
  runs_lt _ _ h := absurd h (by simp)
  sockets_lt _ _ h := absurd h (by simp)
  timers_lt _ _ h := absurd h (by simp)
  mounted_run _ h := absurd h (by simp)
  undisposed _ _ h := absurd h (by simp)
  socket_owner _ _ h := absurd h (by simp)
  timer_owner _ _ h := absurd h (by simp)
  ingested_run _ h := absurd h List.not_mem_nil

namespace Inv

variable {h : Hook}

/-- Two runs that are not disposed are one. -/
theorem same_run (hi : Inv h) {i j : ℕ} {r r' : EffectRun} (hr : h.runs i = some r)
    (hr' : h.runs j = some r') (hd : r.disposed = false) (hd' : r'.disposed = false) : i = j := by
  have hmi := hi.undisposed i r hr hd
  have hmj := hi.undisposed j r' hr' hd'
  rw [hmi, Option.some_inj] at hmj
  exact hmj

theorem liveSocket_unique (hi : Inv h) {k k' : ℕ} (hk : h.LiveSocket k) (hk' : h.LiveSocket k') :
    k = k' := by
  obtain ⟨s, hs, hh, hc⟩ := hk
  obtain ⟨s', hs', hh', hc'⟩ := hk'
  obtain ⟨r, hr, hd, hsocket⟩ := hi.socket_owner k s hs hh hc
  obtain ⟨r', hr', hd', hsocket'⟩ := hi.socket_owner k' s' hs' hh' hc'
  rw [hi.same_run hr hr' hd hd', hr', Option.some_inj] at hr
  rw [← hr, hsocket', Option.some_inj] at hsocket
  exact hsocket.symm

theorem pendingTimer_unique (hi : Inv h) {t t' : ℕ} (ht : h.PendingTimer t)
    (ht' : h.PendingTimer t') : t = t' := by
  obtain ⟨x, hx⟩ := ht
  obtain ⟨x', hx'⟩ := ht'
  obtain ⟨r, hr, hd, -, htimer⟩ := hi.timer_owner t x hx
  obtain ⟨r', hr', hd', -, htimer'⟩ := hi.timer_owner t' x' hx'
  rw [hi.same_run hr hr' hd hd', hr', Option.some_inj] at hr
  rw [← hr, htimer', Option.some_inj] at htimer
  exact htimer.symm

theorem not_both (hi : Inv h) {k t : ℕ} (hk : h.LiveSocket k) (ht : h.PendingTimer t) : False := by
  obtain ⟨s, hs, hh, hc⟩ := hk
  obtain ⟨x, hx⟩ := ht
  obtain ⟨r, hr, hd, hsocket⟩ := hi.socket_owner k s hs hh hc
  obtain ⟨r', hr', hd', hnone, -⟩ := hi.timer_owner t x hx
  rw [hi.same_run hr hr' hd hd', hr', Option.some_inj] at hr
  rw [← hr, hnone] at hsocket
  exact absurd hsocket (by simp)

/-! ### What the operations keep -/

/-- A socket moves on, and not out of the closed state. -/
theorem setReadyState (hi : Inv h) {k : ℕ} {s : Socket} (st : ReadyState)
    (hs : h.sockets k = some s) (hst : st ≠ .closed → s.readyState ≠ .closed) :
    Inv (h.setSocket k { s with readyState := st }) where
  runs_lt := hi.runs_lt
  sockets_lt k' s' hs' := by
    rcases eq_or_ne k' k with rfl | hk
    · exact hi.sockets_lt k' s hs
    · rw [setSocket_ne hk] at hs'
      exact hi.sockets_lt k' s' hs'
  timers_lt := hi.timers_lt
  mounted_run := hi.mounted_run
  undisposed := hi.undisposed
  socket_owner k' s' hs' hh hc := by
    rcases eq_or_ne k' k with rfl | hk
    · rw [setSocket_self, Option.some_inj] at hs'
      subst hs'
      exact hi.socket_owner k' s hs hh (hst hc)
    · rw [setSocket_ne hk] at hs'
      exact hi.socket_owner k' s' hs' hh hc
  timer_owner := hi.timer_owner
  ingested_run p hp := by
    obtain ⟨s', hs', hrun⟩ := hi.ingested_run p hp
    rcases eq_or_ne p.1 k with hk | hk
    · rw [hk, hs, Option.some_inj] at hs'
      refine ⟨{ s with readyState := st }, ?_, hs' ▸ hrun⟩
      rw [hk, setSocket_self]
    · refine ⟨s', ?_, hrun⟩
      rw [setSocket_ne hk]
      exact hs'

/-- The variables of a run that is not disposed change, but not what it remembers
of its socket and timer while these can call back. -/
theorem setRun (hi : Inv h) {i : ℕ} {r : EffectRun} (r' : EffectRun) (hr : h.runs i = some r)
    (hd : r'.disposed = r.disposed)
    (hsocket : ∀ k, h.LiveSocket k → r.socket = some k → r'.socket = some k)
    (htimer : ∀ t, h.PendingTimer t → r.socket = none → r.reconnectTimer = some t →
      r'.socket = none ∧ r'.reconnectTimer = some t) :
    Inv (h.setRun i r') where
  runs_lt j q hq := by
    rcases eq_or_ne j i with rfl | hj
    · exact hi.runs_lt j r hr
    · rw [setRun_ne hj] at hq
      exact hi.runs_lt j q hq
  sockets_lt := hi.sockets_lt
  timers_lt := hi.timers_lt
  mounted_run j hj := by
    obtain ⟨hnext, q, hq, hqd⟩ := hi.mounted_run j hj
    refine ⟨hnext, ?_⟩
    rcases eq_or_ne j i with rfl | hne
    · rw [hr, Option.some_inj] at hq
      exact ⟨r', setRun_self, hd.trans (hq ▸ hqd)⟩
    · exact ⟨q, (setRun_ne hne).trans hq, hqd⟩
  undisposed j q hq hqd := by
    rcases eq_or_ne j i with rfl | hj
    · rw [setRun_self, Option.some_inj] at hq
      exact hi.undisposed j r hr (hd.symm.trans (hq ▸ hqd))
    · rw [setRun_ne hj] at hq
      exact hi.undisposed j q hq hqd
  socket_owner k s hs hh hc := by
    obtain ⟨q, hq, hqd, hqs⟩ := hi.socket_owner k s hs hh hc
    rcases eq_or_ne s.run i with hrun | hrun
    · rw [hrun, hr, Option.some_inj] at hq
      rw [← hq] at hqd hqs
      exact ⟨r', hrun ▸ setRun_self, hd.trans hqd, hsocket k ⟨s, hs, hh, hc⟩ hqs⟩
    · exact ⟨q, (setRun_ne hrun).trans hq, hqd, hqs⟩
  timer_owner t x hx := by
    obtain ⟨q, hq, hqd, hqs, hqt⟩ := hi.timer_owner t x hx
    rcases eq_or_ne x.run i with hrun | hrun
    · rw [hrun, hr, Option.some_inj] at hq
      rw [← hq] at hqd hqs hqt
      obtain ⟨hns, hnt⟩ := htimer t ⟨x, hx⟩ hqs hqt
      exact ⟨r', hrun ▸ setRun_self, hd.trans hqd, hns, hnt⟩
    · exact ⟨q, (setRun_ne hrun).trans hq, hqd, hqs, hqt⟩
  ingested_run := hi.ingested_run

theorem setStreamStatus (hi : Inv h) (status : StreamStatus) : Inv (h.setStreamStatus status) :=
  ⟨hi.runs_lt, hi.sockets_lt, hi.timers_lt, hi.mounted_run, hi.undisposed, hi.socket_owner,
    hi.timer_owner, hi.ingested_run⟩

theorem onopen (hi : Inv h) {i : ℕ} {r : EffectRun} (hr : h.runs i = some r) :
    Inv (h.onopen i r).1 := by
  rw [Hook.onopen]
  split
  · exact hi
  · exact (hi.setStreamStatus .opened).setRun _ hr rfl (fun _ _ hs => hs) fun _ _ hs ht => ⟨hs, ht⟩

theorem onmessage (hi : Inv h) {k : ℕ} {s : Socket} (hs : h.sockets k = some s)
    (hh : s.handlers = true) (hc : s.readyState ≠ .closed) (data : Option MetricBatch) :
    Inv (h.onmessage k data) := by
  cases data with
  | none => exact hi
  | some batch =>
    obtain ⟨r, hr, hd, -⟩ := hi.socket_owner k s hs hh hc
    have hrun : s.run + 1 = h.nextRun := (hi.mounted_run _ (hi.undisposed _ r hr hd)).1
    refine ⟨hi.runs_lt, hi.sockets_lt, hi.timers_lt, hi.mounted_run, hi.undisposed,
      hi.socket_owner, hi.timer_owner, ?_⟩
    exact List.forall_mem_append.mpr
      ⟨hi.ingested_run, List.forall_mem_singleton.mpr ⟨s, hs, hrun⟩⟩

/-- With nothing that can call back, the run that is not disposed sets a timer. -/
theorem scheduleReconnect (hi : Inv h) {i : ℕ} {r : EffectRun} (hr : h.runs i = some r)
    (hd : r.disposed = false) (hlive : ∀ k, ¬ h.LiveSocket k) (hpend : ∀ t, ¬ h.PendingTimer t) :
    Inv (h.scheduleReconnect i { r with socket := none }) := by
  rw [Hook.scheduleReconnect, if_neg (by simp [hd])]
  have hrun := (hi.setStreamStatus .reconnecting).setRun
    { r with socket := none, attempt := r.attempt + 1, reconnectTimer := some h.nextTimer }
    hr rfl (fun k hk => absurd hk (hlive k)) fun t ht => absurd ht (hpend t)
  refine ⟨hrun.runs_lt, hrun.sockets_lt, fun t x hx => ?_, hrun.mounted_run, hrun.undisposed,
    hrun.socket_owner, fun t x hx => ?_, hrun.ingested_run⟩
  · rcases eq_or_ne t h.nextTimer with rfl | ht
    · exact Nat.lt_succ_self _
    · have hx' : h.timers t = some x := (Function.update_of_ne ht _ _).symm.trans hx
      exact Nat.lt_succ_of_lt (hi.timers_lt t x hx')
  · rcases eq_or_ne t h.nextTimer with rfl | ht
    · have hx' := (Function.update_self h.nextTimer _ h.timers).symm.trans hx
      rw [Option.some_inj] at hx'
      subst hx'
      exact ⟨_, setRun_self, hd, rfl, rfl⟩
    · have hx' : h.timers t = some x := (Function.update_of_ne ht _ _).symm.trans hx
      exact absurd ⟨x, hx'⟩ (hpend t)

/-- With nothing that can call back, the run that is not disposed opens a
socket. -/
theorem connect (hi : Inv h) {i : ℕ} {r : EffectRun} (hr : h.runs i = some r)
    (hd : r.disposed = false) (hlive : ∀ k, ¬ h.LiveSocket k) (hpend : ∀ t, ¬ h.PendingTimer t) :
    Inv (h.connect i r) := by
  rw [Hook.connect, if_neg (by simp [hd])]
  have hrun := (hi.setStreamStatus (if r.attempt = 0 then .connecting else .reconnecting)).setRun
    { r with socket := some h.nextSocket }
    hr rfl (fun k hk => absurd hk (hlive k)) fun t ht => absurd ht (hpend t)
  have hfresh : h.sockets h.nextSocket = none := by
    by_contra hne
    obtain ⟨s, hs⟩ := Option.ne_none_iff_exists'.mp hne
    exact Nat.lt_irrefl _ (hi.sockets_lt _ s hs)
  refine ⟨hrun.runs_lt, fun k s hs => ?_, hrun.timers_lt, hrun.mounted_run, hrun.undisposed,
    fun k s hs hh hc => ?_, hrun.timer_owner, fun p hp => ?_⟩
  · rcases eq_or_ne k h.nextSocket with rfl | hk
    · exact Nat.lt_succ_self _
    · have hs' : h.sockets k = some s := (Function.update_of_ne hk _ _).symm.trans hs
      exact Nat.lt_succ_of_lt (hi.sockets_lt k s hs')
  · rcases eq_or_ne k h.nextSocket with rfl | hk
    · have hs' := (Function.update_self h.nextSocket _ h.sockets).symm.trans hs
      rw [Option.some_inj] at hs'
      subst hs'
      exact ⟨_, setRun_self, hd, rfl⟩
    · have hs' : h.sockets k = some s := (Function.update_of_ne hk _ _).symm.trans hs
      exact absurd ⟨s, hs', hh, hc⟩ (hlive k)
  · obtain ⟨s, hs, hnext⟩ := hi.ingested_run p hp
    have hk : p.1 ≠ h.nextSocket := fun heq => by
      rw [heq, hfresh] at hs
      exact absurd hs (by simp)
    exact ⟨s, (Function.update_of_ne hk _ _).trans hs, hnext⟩

theorem removeTimer (hi : Inv h) (t : ℕ) :
    Inv { h with timers := Function.update h.timers t none } where
  runs_lt := hi.runs_lt
  sockets_lt := hi.sockets_lt
  timers_lt t' x hx := by
    rcases eq_or_ne t' t with rfl | ht
    · exact absurd ((Function.update_self t' _ h.timers).symm.trans hx) (by simp)
    · exact hi.timers_lt t' x ((Function.update_of_ne ht _ _).symm.trans hx)
  mounted_run := hi.mounted_run
  undisposed := hi.undisposed
  socket_owner := hi.socket_owner
  timer_owner t' x hx := by
    rcases eq_or_ne t' t with rfl | ht
    · exact absurd ((Function.update_self t' _ h.timers).symm.trans hx) (by simp)
    · exact hi.timer_owner t' x ((Function.update_of_ne ht _ _).symm.trans hx)
  ingested_run := hi.ingested_run

/-- The clean-up of the mounted run leaves nothing that can call back. -/
theorem cleanup (hi : Inv h) {i : ℕ} {r : EffectRun} (hm : h.mounted = some i)
    (hr : h.runs i = some r) : Inv { h.cleanup i r with mounted := none } := by
  obtain ⟨-, q, hq, hd⟩ := hi.mounted_run i hm
  rw [hr, Option.some_inj] at hq
  subst hq
  -- what is not disposed is run `i`, and what calls back is what `r` remembers
  have hruns (j : ℕ) (q : EffectRun) (hq : (h.cleanup i r).runs j = some q) :
      q.disposed = true ∧ j < h.nextRun := by
    rw [cleanup_runs] at hq
    split at hq
    · rename_i hj
      rw [← Option.some_inj.mp hq, hj]
      exact ⟨rfl, hi.runs_lt i r hr⟩
    · rename_i hj
      refine ⟨?_, hi.runs_lt j q hq⟩
      by_contra hne
      exact hj (hi.same_run hq hr (by simpa using hne) hd)
  have hsockets (k : ℕ) (s : Socket) (hs : (h.cleanup i r).sockets k = some s) :
      (s.handlers = false ∨ s.readyState = .closed) ∧ k < h.nextSocket := by
    rw [cleanup_sockets] at hs
    split at hs
    · obtain ⟨s', hs', rfl⟩ := Option.map_eq_some_iff.mp hs
      exact ⟨.inl rfl, hi.sockets_lt k s' hs'⟩
    · rename_i hk
      refine ⟨?_, hi.sockets_lt k s hs⟩
      by_contra hcall
      obtain ⟨hh, hc⟩ := not_or.mp hcall
      obtain ⟨q, hq, hqd, hqs⟩ := hi.socket_owner k s hs (by simpa using hh) hc
      rw [hi.same_run hq hr hqd hd, hr, Option.some_inj] at hq
      exact hk (hq ▸ hqs)
  have htimers (t : ℕ) : (h.cleanup i r).timers t = none := by
    rw [cleanup_timers]
    split
    · rfl
    · rename_i ht
      by_contra hne
      obtain ⟨x, hx⟩ := Option.ne_none_iff_exists'.mp hne
      obtain ⟨q, hq, hqd, -, hqt⟩ := hi.timer_owner t x hx
      rw [hi.same_run hq hr hqd hd, hr, Option.some_inj] at hq
      exact ht (hq ▸ hqt)
  refine ⟨fun j q hq => (hruns j q hq).2, fun k s hs => (hsockets k s hs).2, fun t x hx => ?_,
    fun j hj => absurd hj (by simp), fun j q hq hqd => ?_, fun k s hs hh hc => ?_,
    fun t x hx => ?_, fun p hp => ?_⟩
  · exact absurd ((htimers t).symm.trans hx) (by simp)
  · rw [(hruns j q hq).1] at hqd
    exact absurd hqd (by simp)
  · rcases (hsockets k s hs).1 with hoff | hclosed
    · rw [hoff] at hh
      exact absurd hh (by simp)
    · exact absurd hclosed hc
  · exact absurd ((htimers t).symm.trans hx) (by simp)
  · obtain ⟨s, hs, hnext⟩ := hi.ingested_run p hp
    show ∃ s, (h.cleanup i r).sockets p.1 = some s ∧ s.run + 1 = h.nextRun
    rw [cleanup_sockets, hs]
    split
    · exact ⟨_, rfl, (congrArg (· + 1) (close_run s)).trans hnext⟩
    · exact ⟨s, rfl, hnext⟩

theorem cleanupMounted (hi : Inv h) :
    Inv h.cleanupMounted ∧ h.cleanupMounted.mounted = none := by
  rw [Hook.cleanupMounted]
  split
  · rename_i hm
    exact ⟨hi, hm⟩
  · rename_i i hm
    obtain ⟨-, r, hr, -⟩ := hi.mounted_run i hm
    rw [hr]
    exact ⟨hi.cleanup hm hr, rfl⟩

/-- With no run mounted nothing calls back. -/
theorem not_liveSocket (hi : Inv h) (hm : h.mounted = none) (k : ℕ) : ¬ h.LiveSocket k := by
  rintro ⟨s, hs, hh, hc⟩
  obtain ⟨r, hr, hd, -⟩ := hi.socket_owner k s hs hh hc
  rw [hi.undisposed _ r hr hd] at hm
  exact absurd hm (by simp)

theorem not_pendingTimer (hi : Inv h) (hm : h.mounted = none) (t : ℕ) : ¬ h.PendingTimer t := by
  rintro ⟨x, hx⟩
  obtain ⟨r, hr, hd, -⟩ := hi.timer_owner t x hx
  rw [hi.undisposed _ r hr hd] at hm
  exact absurd hm (by simp)

/-- A run starts while none is mounted. -/
theorem start (hi : Inv h) (hm : h.mounted = none) (r : EffectRun) (hd : r.disposed = false) :
    Inv { h.setRun h.nextRun r with
      ingested := [], mounted := some h.nextRun, nextRun := h.nextRun + 1 } := by
  have hold {j : ℕ} {q : EffectRun} (hq : h.runs j = some q) : q.disposed = true := by
    by_contra hne
    rw [hi.undisposed j q hq (by simpa using hne)] at hm
    exact absurd hm (by simp)
  refine ⟨fun j q hq => ?_, hi.sockets_lt, hi.timers_lt, fun j hj => ?_, fun j q hq hqd => ?_,
    fun k s hs hh hc => absurd ⟨s, hs, hh, hc⟩ (hi.not_liveSocket hm k),
    fun t x hx => absurd ⟨x, hx⟩ (hi.not_pendingTimer hm t), fun p hp => absurd hp List.not_mem_nil⟩
  · rcases eq_or_ne j h.nextRun with rfl | hj
    · exact Nat.lt_succ_self _
    · exact Nat.lt_succ_of_lt (hi.runs_lt j q ((setRun_ne hj).symm.trans hq))
  · cases hj
    exact ⟨rfl, r, setRun_self, hd⟩
  · rcases eq_or_ne j h.nextRun with rfl | hj
    · rfl
    · rw [hold ((setRun_ne hj).symm.trans hq)] at hqd
      exact absurd hqd (by simp)

theorem effect (hi : Inv h) (hm : h.mounted = none) (d : Deps) : Inv (h.effect d) := by
  rw [Hook.effect]
  split
  · exact ⟨hi.runs_lt, hi.sockets_lt, hi.timers_lt, fun i hj => absurd hj (by simp),
      fun i r hr hd => absurd (hi.undisposed i r hr hd) (by rw [hm]; simp), hi.socket_owner,
      hi.timer_owner, hi.ingested_run⟩
  · rename_i agentId _
    have hstart := hi.start hm { baseUrl := d.baseUrl, agentId := agentId } rfl
    have hconnect := hstart.connect setRun_self rfl (hi.not_liveSocket hm) (hi.not_pendingTimer hm)
    -- `connect` sets the run again, with its socket
    have hagain : ({ h.setRun h.nextRun { baseUrl := d.baseUrl, agentId := agentId } with
          ingested := [], mounted := some h.nextRun, nextRun := h.nextRun + 1 } : Hook).connect
          h.nextRun { baseUrl := d.baseUrl, agentId := agentId }
        = ({ h with ingested := [], mounted := some h.nextRun, nextRun := h.nextRun + 1 } :
            Hook).connect h.nextRun { baseUrl := d.baseUrl, agentId := agentId } := by
      simp only [Hook.connect, Hook.setRun, Hook.setSocket, Hook.setStreamStatus,
        Function.update_idem]
      rfl
    rw [← hagain]
    exact hconnect

theorem timerFires (hi : Inv h) {t : ℕ} {x : Timer} (hx : h.timers t = some x) :
    ∃ r, h.runs x.run = some r ∧ r.disposed = false ∧
      Inv ({ h with timers := Function.update h.timers t none }.connect x.run r) := by
  obtain ⟨r, hr, hd, -, -⟩ := hi.timer_owner t x hx
  refine ⟨r, hr, hd, (hi.removeTimer t).connect hr hd (fun k hk => ?_) fun t' ht' => ?_⟩
  · exact hi.not_both hk ⟨x, hx⟩
  · obtain ⟨x', hx'⟩ := ht'
    rcases eq_or_ne t' t with rfl | ht
    · exact absurd ((Function.update_self t' _ h.timers).symm.trans hx') (by simp)
    · have hp : h.PendingTimer t' := ⟨x', (Function.update_of_ne ht _ _).symm.trans hx'⟩
      exact ht (hi.pendingTimer_unique hp ⟨x, hx⟩)

/-- The socket that closes is the last thing that could call back. -/
theorem onclose (hi : Inv h) {k : ℕ} {s : Socket} {r : EffectRun} (hs : h.sockets k = some s)
    (hh : s.handlers = true) (hc : s.readyState ≠ .closed) (hr : h.runs s.run = some r) :
    Inv ((h.setSocket k { s with readyState := .closed }).onclose s.run r) := by
  have hclosed := hi.setReadyState .closed hs fun hne => absurd rfl hne
  obtain ⟨q, hq, hd, -⟩ := hi.socket_owner k s hs hh hc
  rw [hr, Option.some_inj] at hq
  subst hq
  rw [Hook.onclose, if_neg (by simp [hd])]
  refine hclosed.scheduleReconnect hr hd (fun k' hk' => ?_) fun t ht => ?_
  · obtain ⟨s', hs', hh', hc'⟩ := hk'
    rcases eq_or_ne k' k with rfl | hne
    · rw [setSocket_self, Option.some_inj] at hs'
      exact hc' (hs' ▸ rfl)
    · rw [setSocket_ne hne] at hs'
      exact hne (hi.liveSocket_unique ⟨s', hs', hh', hc'⟩ ⟨s, hs, hh, hc⟩)
  · exact hi.not_both ⟨s, hs, hh, hc⟩ ht

theorem step (hi : Inv h) {stores : Deps} {a : HookAction} {h' : Hook}
    (hm : Moves stores h a h') : Inv h' := by
  cases hm with
  | render =>
    exact ⟨hi.runs_lt, hi.sockets_lt, hi.timers_lt, hi.mounted_run, hi.undisposed,
      hi.socket_owner, hi.timer_owner, hi.ingested_run⟩
  | effect => exact hi.cleanupMounted.1.effect hi.cleanupMounted.2 _
  | unmount =>
    have hc := hi.cleanupMounted.1
    exact ⟨hc.runs_lt, hc.sockets_lt, hc.timers_lt, hc.mounted_run, hc.undisposed,
      hc.socket_owner, hc.timer_owner, hc.ingested_run⟩
  | opensLate hs hst => exact hi.setReadyState .opened hs fun _ => by rw [hst]; decide
  | opens hs hst hcaller =>
    have hopened := hi.setReadyState .opened hs fun _ => by rw [hst]; decide
    exact hopened.onopen (caller_eq_some.mp hcaller).2
  | messageLate => exact hi
  | message hs hst hcaller =>
    exact hi.onmessage hs (caller_eq_some.mp hcaller).1 (by rw [hst]; decide) _
  | errorLate => exact hi
  | @error k s _ hs =>
    obtain ⟨st, hclose, hst⟩ := close_eq s
    rw [hclose]
    exact hi.setReadyState st hs hst
  | closesLate hs => exact hi.setReadyState .closed hs fun hne => absurd rfl hne
  | closes hs hst hcaller =>
    obtain ⟨hh, hrun⟩ := caller_eq_some.mp hcaller
    exact hi.onclose hs hh hst hrun
  | firesLate hx hr =>
    obtain ⟨r, hr', -, -⟩ := hi.timerFires hx
    rw [hr] at hr'
    exact absurd hr' (by simp)
  | fires hx hr =>
    obtain ⟨r, hr', -, hconnect⟩ := hi.timerFires hx
    rw [hr, Option.some_inj] at hr'
    subst hr'
    exact hconnect

end Inv

/-! ### Late events -/

/-- The run that the socket or timer of an event belongs to. -/
def eventRun (h : Hook) : HookAction → Option ℕ
  | .socketOpens k => (h.sockets k).map Socket.run
  | .socketMessage k _ => (h.sockets k).map Socket.run
  | .socketError k => (h.sockets k).map Socket.run
  | .socketCloses k => (h.sockets k).map Socket.run
  | .timerFires t => (h.timers t).map Timer.run
  | _ => none

/-- Nothing is ingested, the status stays, no socket is opened. -/
def Quiet (h h' : Hook) : Prop :=
  h'.ingested = h.ingested ∧ h'.streamStatus = h.streamStatus ∧ h'.nextSocket = h.nextSocket

theorem Inv.caller_eq_none {h : Hook} (hi : Inv h) {k i : ℕ} {s : Socket} {r : EffectRun}
    (hs : h.sockets k = some s) (hc : s.readyState ≠ .closed) (hrun : s.run = i)
    (hr : h.runs i = some r) (hd : r.disposed = true) : h.caller s = none := by
  rw [caller]
  split
  · rename_i hh
    obtain ⟨q, hq, hqd, -⟩ := hi.socket_owner k s hs hh hc
    rw [hrun, hr, Option.some_inj] at hq
    rw [← hq, hd] at hqd
    exact absurd hqd (by simp)
  · rfl

/-- The events of a run that has been cleaned up. -/
theorem Inv.quiet {h : Hook} (hi : Inv h) {stores : Deps} {a : HookAction} {h' : Hook}
    (hm : Moves stores h a h') {i : ℕ} {r : EffectRun}
    (ha : h.eventRun a = some i) (hr : h.runs i = some r) (hd : r.disposed = true) :
    Quiet h h' := by
  have hlate : ∀ {k s q}, h.sockets k = some s → (h.sockets k).map Socket.run = some i →
      s.readyState ≠ .closed → h.caller s ≠ some q := by
    intro k s q hs hrun hc hcaller
    rw [hs, Option.map_some, Option.some_inj] at hrun
    rw [hi.caller_eq_none hs hc hrun hr hd] at hcaller
    exact absurd hcaller (by simp)
  cases hm with
  | render => exact absurd ha (by simp [eventRun])
  | effect => exact absurd ha (by simp [eventRun])
  | unmount => exact absurd ha (by simp [eventRun])
  | opens hs hst hcaller => exact absurd hcaller (hlate hs ha (by rw [hst]; decide))
  | message hs hst hcaller => exact absurd hcaller (hlate hs ha (by rw [hst]; decide))
  | error hs hst hcaller => exact absurd hcaller (hlate hs ha hst)
  | closes hs hst hcaller => exact absurd hcaller (hlate hs ha hst)
  | opensLate | messageLate | errorLate | closesLate | firesLate => exact ⟨rfl, rfl, rfl⟩
  | fires hx =>
    -- the clean-up has cleared the timer
    obtain ⟨q, hq, hqd, -⟩ := hi.timer_owner _ _ hx
    have hrun : _ = some i := (congrArg (Option.map Timer.run) hx).symm.trans ha
    rw [Option.map_some, Option.some_inj] at hrun
    rw [hrun, hr, Option.some_inj] at hq
    rw [← hq, hd] at hqd
    exact absurd hqd (by simp)

end Hook

/-! ### The hook with its history -/

structure StreamView where
  hook : Hook := {}
  /-- History: what the last run with an agent was started for. -/
  started : Option (String × String) := none
  /-- History: the delays a run has scheduled since its socket last opened. -/
  delays : ℕ → List ℕ := fun _ => []

namespace StreamView

/-- What a run that starts in this step is started for. -/
def starts (h : Hook) : HookAction → Option (String × String)
  | .effect => h.rendered.bind fun d => d.active.map fun agentId => (d.baseUrl, agentId)
  | _ => none

def observeDelays (h h' : Hook) (a : HookAction) (delays : ℕ → List ℕ) : ℕ → List ℕ :=
  match a with
  | .socketOpens k =>
      match h.sockets k with
      | none => delays
      | some s => if s.handlers then Function.update delays s.run [] else delays
  | _ =>
      -- the timer that the step has set
      match h'.timers h.nextTimer with
      | none => delays
      | some x => Function.update delays x.run (delays x.run ++ [x.delay])

def step (v : StreamView) (a : Deps × HookAction) : Option StreamView :=
  (v.hook.step a.1 a.2).map fun r =>
    { hook := r.1
      started := (starts v.hook a.2).orElse fun _ => v.started
      delays := observeDelays v.hook r.1 a.2 v.delays }

end StreamView

namespace Hook

/-! ### What a step does to the runs -/

def backoff (attempt : ℕ) : ℕ := min (backoffMinMs * 2 ^ attempt) backoffMaxMs

def attempts (h : Hook) (i : ℕ) : ℕ := ((h.runs i).map EffectRun.attempt).getD 0

/-- What a run captured. -/
def captured (h : Hook) (i : ℕ) : Option (String × String) :=
  (h.runs i).map fun r => (r.baseUrl, r.agentId)

section Runs

variable {h : Hook} {i : ℕ} {r : EffectRun}

theorem attempts_setRun (h : Hook) (i : ℕ) (r : EffectRun) (j : ℕ) :
    (h.setRun i r).attempts j = if j = i then r.attempt else h.attempts j := by
  rcases eq_or_ne j i with rfl | hj
  · rw [attempts, setRun_self, if_pos rfl]
    rfl
  · rw [attempts, setRun_ne hj, if_neg hj]
    rfl

theorem captured_setRun (h : Hook) (i : ℕ) (r : EffectRun) (j : ℕ) :
    (h.setRun i r).captured j = if j = i then some (r.baseUrl, r.agentId) else h.captured j := by
  rcases eq_or_ne j i with rfl | hj
  · rw [captured, setRun_self, if_pos rfl]
    rfl
  · rw [captured, setRun_ne hj, if_neg hj]
    rfl

/-- A run that is written back keeps what it captured. -/
theorem captured_setRun_eq (hr : h.runs i = some r) (r' : EffectRun)
    (hbase : r'.baseUrl = r.baseUrl) (hagent : r'.agentId = r.agentId) (j : ℕ) :
    (h.setRun i r').captured j = h.captured j := by
  rw [captured_setRun]
  split
  · rename_i hj
    rw [captured, hj, hr, hbase, hagent]
    rfl
  · rfl

/-- The runs count and have captured what they did before. -/
structure SameRuns (h h' : Hook) : Prop where
  attempts : ∀ j, h'.attempts j = h.attempts j
  captured : ∀ j, h'.captured j = h.captured j

theorem SameRuns.refl (h : Hook) : SameRuns h h := ⟨fun _ => rfl, fun _ => rfl⟩

theorem SameRuns.of_runs {h h' : Hook} (heq : h'.runs = h.runs) : SameRuns h h' where
  attempts j := by rw [Hook.attempts, heq]; rfl
  captured j := by rw [Hook.captured, heq]; rfl

/-- A run is written back with other sockets and timers. -/
theorem SameRuns.setRun (hr : h.runs i = some r) (r' : EffectRun)
    (hattempt : r'.attempt = r.attempt) (hbase : r'.baseUrl = r.baseUrl)
    (hagent : r'.agentId = r.agentId) : SameRuns h (h.setRun i r') where
  attempts j := by
    rw [attempts_setRun]
    split
    · rename_i hj
      rw [Hook.attempts, hj, hr, hattempt]
      rfl
    · rfl
  captured := captured_setRun_eq hr r' hbase hagent

theorem sameRuns_connect (hr : h.runs i = some r) : SameRuns h (h.connect i r) := by
  rw [connect]
  split
  · exact SameRuns.refl h
  · have hset := SameRuns.setRun hr { r with socket := some h.nextSocket } rfl rfl rfl
    exact ⟨hset.attempts, hset.captured⟩

theorem sameRuns_cleanupMounted (h : Hook) : SameRuns h h.cleanupMounted := by
  rw [cleanupMounted]
  split
  · exact SameRuns.refl h
  · split
    · exact SameRuns.refl h
    · rename_i r hr
      have hset := SameRuns.setRun hr { r with disposed := true } rfl rfl rfl
      exact ⟨hset.attempts, hset.captured⟩

theorem cleanupMounted_nextRun (h : Hook) : h.cleanupMounted.nextRun = h.nextRun := by
  rw [cleanupMounted]
  split
  · rfl
  · split <;> rfl

theorem cleanupMounted_nextTimer (h : Hook) : h.cleanupMounted.nextTimer = h.nextTimer := by
  rw [cleanupMounted]
  split
  · rfl
  · split <;> rfl

end Runs

theorem Inv.timers_nextTimer {h h' : Hook} (hi : Inv h') (hnext : h'.nextTimer = h.nextTimer) :
    h'.timers h.nextTimer = none := by
  by_contra hne
  obtain ⟨x, hx⟩ := Option.ne_none_iff_exists'.mp hne
  exact Nat.lt_irrefl _ (hnext ▸ hi.timers_lt _ x hx)

theorem connect_frame (h : Hook) (i : ℕ) (r : EffectRun) :
    (h.connect i r).nextRun = h.nextRun ∧ (h.connect i r).nextTimer = h.nextTimer := by
  rw [connect]
  split
  · exact ⟨rfl, rfl⟩
  · exact ⟨rfl, rfl⟩

/-- The timer that `onclose` sets. -/
theorem onclose_timers {h : Hook} {i : ℕ} {r : EffectRun} (hd : r.disposed = false) :
    (h.onclose i r).timers h.nextTimer = some { run := i, delay := backoff r.attempt } := by
  rw [onclose, if_neg (by simp [hd]), scheduleReconnect, if_neg (by simp [hd])]
  exact Function.update_self h.nextTimer _ h.timers

/-- The runs after the first `connect` of a run. -/
theorem connect_runs {h : Hook} {i : ℕ} {r : EffectRun} (hd : r.disposed = false) (j : ℕ) :
    (h.connect i r).attempts j = (if j = i then r.attempt else h.attempts j) ∧
      (h.connect i r).captured j
        = if j = i then some (r.baseUrl, r.agentId) else h.captured j := by
  rw [connect, if_neg (by simp [hd])]
  exact ⟨attempts_setRun h i { r with socket := some h.nextSocket } j,
    captured_setRun h i { r with socket := some h.nextSocket } j⟩

theorem effect_nextTimer (h : Hook) (d : Deps) : (h.effect d).nextTimer = h.nextTimer := by
  rw [effect]
  split
  · rfl
  · exact (connect_frame _ _ _).2

theorem onmessage_frame (h : Hook) (k : ℕ) (data : Option MetricBatch) :
    (h.onmessage k data).runs = h.runs ∧ (h.onmessage k data).nextRun = h.nextRun ∧
      (h.onmessage k data).nextTimer = h.nextTimer := by
  cases data with
  | none => exact ⟨rfl, rfl, rfl⟩
  | some batch => exact ⟨rfl, rfl, rfl⟩

end Hook

namespace StreamView

open Hook (backoff)

structure Inv (v : StreamView) : Prop where
  hook : v.hook.Inv
  started : ∀ i, i + 1 = v.hook.nextRun → ∃ c, v.hook.captured i = some c ∧ v.started = some c
  delays : ∀ i, v.delays i = (List.range (v.hook.attempts i)).map backoff

theorem inv_init : Inv {} where
  hook := Hook.inv_init
  started _ h := absurd h (Nat.succ_ne_zero _)
  delays _ := rfl

namespace Inv

variable {v : StreamView}

/-- A step that neither starts a run, nor sets a timer, nor opens a socket. -/
theorem frame (hv : Inv v) {h' : Hook} (hi : h'.Inv) (hruns : Hook.SameRuns v.hook h')
    (hnext : h'.nextRun = v.hook.nextRun) {started : Option (String × String)}
    (hstarted : started = v.started) {delays : ℕ → List ℕ} (hdelays : delays = v.delays) :
    Inv { hook := h', started := started, delays := delays } where
  hook := hi
  started i hi' := by
    obtain ⟨c, hc, hvs⟩ := hv.started i (hi'.trans hnext)
    exact ⟨c, (hruns.captured i).trans hc, hstarted.trans hvs⟩
  delays i := by
    show delays i = (List.range (h'.attempts i)).map backoff
    rw [hdelays, hv.delays, hruns.attempts]

theorem observeDelays_eq (delays : ℕ → List ℕ) {h h' : Hook} {a : HookAction}
    (ha : ∀ k, a ≠ .socketOpens k) (htimer : h'.timers h.nextTimer = none) :
    observeDelays h h' a delays = delays := by
  cases a with
  | socketOpens k => exact absurd rfl (ha k)
  | _ => simp only [observeDelays, htimer]

/-- The run whose socket has opened starts counting again. -/
theorem socketOpens (hv : Inv v) {k : ℕ} {s : Socket} {r : EffectRun}
    (hs : v.hook.sockets k = some s) (hst : s.readyState = .connecting)
    (hr : v.hook.caller s = some r) :
    Inv
      { hook := ((v.hook.setSocket k { s with readyState := .opened }).onopen s.run r).1
        started := v.started
        delays := Function.update v.delays s.run [] } := by
  obtain ⟨hh, hrun⟩ := Hook.caller_eq_some.mp hr
  have hc : s.readyState ≠ .closed := by rw [hst]; decide
  obtain ⟨q, hq, hd, -⟩ := hv.hook.socket_owner k s hs hh hc
  rw [hrun, Option.some_inj] at hq
  subst hq
  have hi := (hv.hook.setReadyState .opened hs fun _ => hc).onopen (i := s.run) hrun
  rw [Hook.onopen, if_neg (by simp [hd])] at hi ⊢
  refine ⟨hi, fun i hnext => ?_, fun i => ?_⟩
  · obtain ⟨c, hc, hvs⟩ := hv.started i hnext
    exact ⟨c, (Hook.captured_setRun_eq hrun { r with attempt := 0 } rfl rfl i).trans hc, hvs⟩
  · have hattempts := Hook.attempts_setRun v.hook s.run { r with attempt := 0 } i
    show Function.update v.delays s.run [] i
      = (List.range ((v.hook.setRun s.run { r with attempt := 0 }).attempts i)).map backoff
    rw [hattempts, Function.update_apply]
    split
    · rfl
    · exact hv.delays i

/-- The run whose socket has closed counts its next delay. -/
theorem socketCloses (hv : Inv v) {k : ℕ} {s : Socket} {r : EffectRun}
    (hs : v.hook.sockets k = some s) (hst : s.readyState ≠ .closed)
    (hr : v.hook.caller s = some r) :
    Inv
      { hook := (v.hook.setSocket k { s with readyState := .closed }).onclose s.run r
        started := v.started
        delays := Function.update v.delays s.run (v.delays s.run ++ [backoff r.attempt]) } := by
  obtain ⟨hh, hrun⟩ := Hook.caller_eq_some.mp hr
  obtain ⟨q, hq, hd, -⟩ := hv.hook.socket_owner k s hs hh hst
  rw [hrun, Option.some_inj] at hq
  subst hq
  have hi := hv.hook.onclose hs hh hst hrun
  rw [Hook.onclose, if_neg (by simp [hd]), Hook.scheduleReconnect, if_neg (by simp [hd])] at hi ⊢
  have hdelays : v.delays s.run = (List.range r.attempt).map backoff := by
    rw [hv.delays, Hook.attempts, hrun]
    rfl
  let r' : EffectRun :=
    { r with socket := none, attempt := r.attempt + 1, reconnectTimer := some v.hook.nextTimer }
  refine ⟨hi, fun i hnext => ?_, fun i => ?_⟩
  · obtain ⟨c, hc, hvs⟩ := hv.started i hnext
    exact ⟨c, (Hook.captured_setRun_eq hrun r' rfl rfl i).trans hc, hvs⟩
  · show Function.update v.delays s.run (v.delays s.run ++ [backoff r.attempt]) i
      = (List.range ((v.hook.setRun s.run r').attempts i)).map backoff
    rw [Hook.attempts_setRun, Function.update_apply]
    split
    · rw [hdelays, List.range_succ, List.map_append]
      rfl
    · exact hv.delays i

theorem effect (hv : Inv v) {d : Deps} (hd : v.hook.rendered = some d) :
    Inv
      { hook := v.hook.cleanupMounted.effect d
        started := (starts v.hook .effect).orElse fun _ => v.started
        delays := v.delays } := by
  obtain ⟨hc, hm⟩ := hv.hook.cleanupMounted
  have hi := hc.effect hm d
  have hruns := Hook.sameRuns_cleanupMounted v.hook
  have hnext := Hook.cleanupMounted_nextRun v.hook
  rw [starts, hd, Option.bind_some]
  rw [Hook.effect] at hi ⊢
  split at hi
  · rename_i hactive
    rw [hactive]
    exact hv.frame hi ⟨hruns.attempts, hruns.captured⟩ hnext rfl rfl
  · rename_i agentId hactive
    rw [hactive]
    have hnew (j : ℕ) := Hook.connect_runs (i := v.hook.cleanupMounted.nextRun)
      (r := { baseUrl := d.baseUrl, agentId := agentId })
      (h := { v.hook.cleanupMounted with
        ingested := []
        mounted := some v.hook.cleanupMounted.nextRun
        nextRun := v.hook.cleanupMounted.nextRun + 1 }) rfl j
    have hzero : v.hook.attempts v.hook.nextRun = 0 := by
      have hnone : v.hook.runs v.hook.nextRun = none := by
        by_contra hne
        obtain ⟨r, hr⟩ := Option.ne_none_iff_exists'.mp hne
        exact Nat.lt_irrefl _ (hv.hook.runs_lt _ r hr)
      rw [Hook.attempts, hnone]
      rfl
    refine ⟨hi, fun i hlast => ⟨(d.baseUrl, agentId), ?_, rfl⟩, fun i => ?_⟩
    · have hi' : i = v.hook.cleanupMounted.nextRun :=
        Nat.succ_injective (hlast.trans (Hook.connect_frame _ _ _).1)
      exact (hnew i).2.trans (if_pos hi')
    · refine (hv.delays i).trans (congrArg (fun n => (List.range n).map backoff) ?_)
      rw [(hnew i).1]
      split
      · rename_i hi'
        rw [hi', hnext, hzero]
      · exact (hruns.attempts i).symm

theorem step (hv : Inv v) {a : Deps × HookAction} {v' : StreamView}
    (ht : StreamView.step v a = some v') : Inv v' := by
  obtain ⟨stores, a⟩ := a
  obtain ⟨⟨h', fetch⟩, hstep, rfl⟩ := Option.map_eq_some_iff.mp ht
  have hm := Hook.moves hstep
  have hi := hv.hook.step hm
  have hkeep (hnext : h'.nextTimer = v.hook.nextTimer) (ha : ∀ k, a ≠ .socketOpens k) :
      observeDelays v.hook h' a v.delays = v.delays :=
    observeDelays_eq v.delays ha (hi.timers_nextTimer hnext)
  dsimp only at hm hi ⊢
  cases hm with
  | render => exact hv.frame hi (.of_runs rfl) rfl rfl (hkeep rfl (by simp))
  | @effect d hd =>
    have htimer : (v.hook.cleanupMounted.effect d).nextTimer = v.hook.nextTimer :=
      (Hook.effect_nextTimer _ d).trans (Hook.cleanupMounted_nextTimer v.hook)
    rw [hkeep htimer (by simp)]
    exact hv.effect hd
  | unmount =>
    have hruns := Hook.sameRuns_cleanupMounted v.hook
    exact hv.frame hi ⟨hruns.attempts, hruns.captured⟩ (Hook.cleanupMounted_nextRun v.hook) rfl
      (hkeep (Hook.cleanupMounted_nextTimer v.hook) (by simp))
  | @opensLate k s hs hst hcaller =>
    have hh : s.handlers = false := by
      by_contra hne
      have hon : s.handlers = true := by simpa using hne
      obtain ⟨r, hrun, -, -⟩ := hv.hook.socket_owner k s hs hon (by rw [hst]; decide)
      rw [Hook.caller_eq_some.mpr ⟨hon, hrun⟩] at hcaller
      exact absurd hcaller (by simp)
    refine hv.frame hi (.of_runs rfl) rfl rfl ?_
    simp only [observeDelays, hs, hh]
    rfl
  | @opens k s r hs hst hcaller =>
    have hdelays : ∀ h' : Hook, observeDelays v.hook h' (.socketOpens k) v.delays
        = Function.update v.delays s.run [] := by
      intro h'
      simp only [observeDelays, hs, (Hook.caller_eq_some.mp hcaller).1]
      rfl
    rw [hdelays]
    exact hv.socketOpens hs hst hcaller
  | messageLate => exact hv.frame hi (.refl _) rfl rfl (hkeep rfl (by simp))
  | @message k data =>
    obtain ⟨hruns, hnext, htimer⟩ := Hook.onmessage_frame v.hook k data
    exact hv.frame hi (.of_runs hruns) hnext rfl (hkeep htimer (by simp))
  | errorLate => exact hv.frame hi (.refl _) rfl rfl (hkeep rfl (by simp))
  | error => exact hv.frame hi (.of_runs rfl) rfl rfl (hkeep rfl (by simp))
  | closesLate => exact hv.frame hi (.of_runs rfl) rfl rfl (hkeep rfl (by simp))
  | @closes k s r hs hst hcaller =>
    obtain ⟨hh, hrun⟩ := Hook.caller_eq_some.mp hcaller
    obtain ⟨q, hq, hd, -⟩ := hv.hook.socket_owner k s hs hh hst
    rw [hrun, Option.some_inj] at hq
    subst hq
    have htimer := Hook.onclose_timers (i := s.run)
      (h := v.hook.setSocket k { s with readyState := .closed }) hd
    have hdelays : observeDelays v.hook
        ((v.hook.setSocket k { s with readyState := .closed }).onclose s.run r)
        (.socketCloses k) v.delays
          = Function.update v.delays s.run (v.delays s.run ++ [backoff r.attempt]) := by
      simp only [observeDelays]
      rw [show ((v.hook.setSocket k { s with readyState := .closed }).onclose s.run r).timers
        v.hook.nextTimer = _ from htimer]
    rw [hdelays]
    exact hv.socketCloses hs hst hcaller
  | firesLate hx hr =>
    obtain ⟨r, hr', -, -⟩ := hv.hook.timerFires hx
    rw [hr] at hr'
    exact absurd hr' (by simp)
  | @fires t x r hx hr =>
    have hruns := Hook.sameRuns_connect
      (h := { v.hook with timers := Function.update v.hook.timers t none }) hr
    obtain ⟨hnext, htimer⟩ := Hook.connect_frame
      { v.hook with timers := Function.update v.hook.timers t none } x.run r
    exact hv.frame hi ⟨hruns.attempts, hruns.captured⟩ hnext rfl (hkeep htimer (by simp))

end Inv

theorem inv_of_exec {as : List (Deps × HookAction)} {v : StreamView}
    (hv : Run.exec step {} as = some v) : Inv v :=
  Run.exec_invariant (fun hi ht => hi.step ht) inv_init hv

theorem backoff_mono {m n : ℕ} (h : m ≤ n) : backoff m ≤ backoff n := by
  have hpow : 2 ^ m ≤ 2 ^ n := Nat.pow_le_pow_right (by decide) h
  exact min_le_min_right _ (Nat.mul_le_mul_left _ hpow)

theorem backoff_bounds (n : ℕ) : 1000 ≤ backoff n ∧ backoff n ≤ 30000 := by
  have hpow : 1 ≤ 2 ^ n := Nat.one_le_two_pow
  refine ⟨le_min ?_ (by decide), min_le_right _ _⟩
  show 1000 ≤ 1000 * 2 ^ n
  omega

theorem Inv.delays_sorted {v : StreamView} (hv : Inv v) (i : ℕ) :
    (v.delays i).Pairwise (· ≤ ·) ∧ ∀ delay ∈ v.delays i, 1000 ≤ delay ∧ delay ≤ 30000 := by
  rw [hv.delays]
  constructor
  · rw [List.pairwise_map]
    exact List.pairwise_lt_range.imp fun h => backoff_mono h.le
  · intro delay hmem
    obtain ⟨n, -, rfl⟩ := List.mem_map.mp hmem
    exact backoff_bounds n

/-- The live series of the store. -/
def series (v : StreamView) : SeriesRecord :=
  (v.hook.ingested.map Prod.snd).foldl SeriesRecord.ingest SeriesRecord.reset

theorem series_eq_window (v : StreamView) : v.series = window (v.hook.ingested.map Prod.snd) :=
  ingestAll_window [] _

/-- The socket was opened by the run that was started last, for what it was
started for. -/
def OwnSocket (v : StreamView) (k : ℕ) : Prop :=
  ∃ s r, v.hook.sockets k = some s ∧ s.run + 1 = v.hook.nextRun ∧
    v.hook.runs s.run = some r ∧ v.started = some (r.baseUrl, r.agentId)

theorem Inv.ownSocket {v : StreamView} (hv : Inv v) {p : ℕ × MetricBatch}
    (hp : p ∈ v.hook.ingested) : v.OwnSocket p.1 := by
  obtain ⟨s, hs, hnext⟩ := hv.hook.ingested_run p hp
  obtain ⟨c, hc, hvs⟩ := hv.started s.run hnext
  obtain ⟨r, hr, rfl⟩ := Option.map_eq_some_iff.mp hc
  exact ⟨s, r, hs, hnext, hr, hvs⟩

/-- **A stream only feeds its own agent's view.** -/
theorem isolated {as : List (Deps × HookAction)} {v : StreamView}
    (hv : Run.exec step {} as = some v) :
    ((∀ k k', v.hook.LiveSocket k → v.hook.LiveSocket k' → k = k') ∧
      (∀ t t', v.hook.PendingTimer t → v.hook.PendingTimer t' → t = t') ∧
      ∀ k t, ¬ (v.hook.LiveSocket k ∧ v.hook.PendingTimer t)) ∧
    ((∀ p ∈ v.hook.ingested, v.OwnSocket p.1) ∧
      ∀ key, v.series key ≠ none → ∃ p ∈ v.hook.ingested, Feeds key p.2) ∧
    (∀ stores a v' i r, step v (stores, a) = some v' → v.hook.eventRun a = some i →
      v.hook.runs i = some r → r.disposed = true → v.hook.Quiet v'.hook) ∧
    ∀ i, (v.delays i).Pairwise (· ≤ ·) ∧
      ∀ delay ∈ v.delays i, 1000 ≤ delay ∧ delay ≤ 30000 := by
  have hi : Inv v := inv_of_exec hv
  refine ⟨⟨fun k k' => hi.hook.liveSocket_unique, fun t t' => hi.hook.pendingTimer_unique,
    fun k t h => hi.hook.not_both h.1 h.2⟩, ⟨fun p hp => hi.ownSocket hp, fun key hkey => ?_⟩,
    fun stores a v' i r hstep ha hr hd => ?_, hi.delays_sorted⟩
  · rw [series_eq_window, window_ne_none_iff] at hkey
    obtain ⟨batch, hmem, hfeeds⟩ := hkey
    obtain ⟨p, hp, rfl⟩ := List.mem_map.mp hmem
    exact ⟨p, hp, hfeeds⟩
  · obtain ⟨⟨h', fetch⟩, ht, rfl⟩ := Option.map_eq_some_iff.mp hstep
    exact hi.hook.quiet (Hook.moves ht) ha hr hd

/-- Agent `b` is selected while the stream of `a` waits to reconnect; the new
run's socket opens and brings a batch, then closes twice in a row. -/
def switchAgents : List (Deps × HookAction) :=
  let a : Deps := { baseUrl := "http://volta", connected := true, agentId := some "a" }
  let b : Deps := { a with agentId := some "b" }
  [(a, .render), (a, .effect), (a, .socketOpens 0), (a, .socketMessage 0 (some { id := 1 })),
    (a, .socketCloses 0), (b, .render), (b, .effect), (b, .socketOpens 1),
    (b, .socketMessage 1 (some { id := 2 })), (b, .socketCloses 1), (b, .timerFires 1),
    (b, .socketCloses 2)]

theorem isolated_switch :
    ∃ v, Run.exec step {} switchAgents = some v ∧ v.started = some ("http://volta", "b") ∧
      v.hook.ingested.map (fun p => (p.1, p.2.id)) = [(1, 2)] ∧ v.delays 1 = [1000, 2000] ∧
      ∀ p ∈ v.hook.ingested, v.OwnSocket p.1 := by
  have hrun : (Run.exec step {} switchAgents).map (fun v =>
      (v.started, v.hook.ingested.map (fun p => (p.1, p.2.id)), v.delays 1))
        = some (some ("http://volta", "b"), [(1, 2)], [1000, 2000]) := by
    decide
  obtain ⟨v, hv, heq⟩ := Option.map_eq_some_iff.mp hrun
  obtain ⟨hstarted, hrest⟩ := Prod.mk.inj heq
  obtain ⟨hingested, hdelays⟩ := Prod.mk.inj hrest
  exact ⟨v, hv, hstarted, hingested, hdelays, (isolated hv).2.1.1⟩

end StreamView

end Dashboard
end Volta
