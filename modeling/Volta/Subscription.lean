/-
What a live subscriber of the event bus sees (`eventBus.go`).

`Subscribe`, `Publish` and `Unsubscribe` are each taken as one step here; the
steps inside `Publish` are in `Hub`, and `publish_uninterrupted` says that they
come to the same when nothing happens between them.

* `view` — the events of a run that concern one subscriber;
* `Matches` — what the bus holds for a subscriber is a mailbox that has seen
  only these events;
* `live_subscriber` — so it gets the batches published for its agent, less
  those that came when 16 were unread, whatever the other subscribers do.
-/
import Volta.Hub
import Volta.Mailbox

namespace Volta

namespace EventBus

/-- The loop of `Publish`; a send on a closed channel panics. -/
def sendAll (batch : MetricBatch) : List ℕ → EventBus → Option EventBus
  | [], b => some b
  | sub :: rest, b =>
      if (b.subscribers sub).closed then none else sendAll batch rest (b.trySend sub batch)

theorem subscribers_trySend (b : EventBus) (u v : ℕ) (batch : MetricBatch) :
    (b.trySend u batch).subscribers v
      = if v = u then
          { b.subscribers v with
            buf := Mailbox.enqueue chanCapacity (b.subscribers v).buf batch }
        else b.subscribers v := by
  rw [trySend, Mailbox.enqueue]
  by_cases h : v = u
  · subst h
    rw [if_pos rfl]
    split
    · simp [setBuf]
    · rfl
  · rw [if_neg h]
    split
    · simp [setBuf, h]
    · rfl

/-- Every subscriber in the loop is sent to once, and nothing else changes. -/
structure Sent (batch : MetricBatch) (l : List ℕ) (b b' : EventBus) : Prop where
  subs : b'.subs = b.subs
  next : b'.next = b.next
  subscribers : ∀ u, b'.subscribers u
    = if u ∈ l then
        { b.subscribers u with buf := Mailbox.enqueue chanCapacity (b.subscribers u).buf batch }
      else b.subscribers u

theorem sendAll_sent (batch : MetricBatch) {l : List ℕ} {b : EventBus} (hnodup : l.Nodup)
    (hopen : ∀ u ∈ l, (b.subscribers u).closed = false) :
    ∃ b', sendAll batch l b = some b' ∧ Sent batch l b b' := by
  induction l generalizing b with
  | nil => exact ⟨b, rfl, rfl, rfl, fun u => (if_neg List.not_mem_nil).symm⟩
  | cons sub rest ih =>
    obtain ⟨hnot, hnodup⟩ := List.nodup_cons.mp hnodup
    have hopen' : ∀ u ∈ rest, ((b.trySend sub batch).subscribers u).closed = false := by
      intro u hu
      rw [closed_trySend]
      exact hopen u (List.mem_cons_of_mem _ hu)
    obtain ⟨b', hb', hsent⟩ := ih hnodup hopen'
    refine ⟨b', ?_, ?_, ?_, fun u => ?_⟩
    · rw [sendAll, if_neg (by simp [hopen sub List.mem_cons_self])]
      exact hb'
    · rw [hsent.subs, subs_trySend]
    · rw [hsent.next, next_trySend]
    · rw [hsent.subscribers, subscribers_trySend]
      by_cases hu : u = sub
      · subst hu
        rw [if_neg hnot, if_pos rfl, if_pos List.mem_cons_self]
      · rw [if_neg hu]
        simp only [List.mem_cons, hu, false_or]

theorem Ok.of_sent {batch : MetricBatch} {l : List ℕ} {b b' : EventBus} (h : b.Ok)
    (hs : Sent batch l b b') : b'.Ok := by
  have hrest : ∀ u, (b'.subscribers u).agentID = (b.subscribers u).agentID ∧
      (b'.subscribers u).closed = (b.subscribers u).closed := by
    intro u
    rw [hs.subscribers]
    split
    · exact ⟨rfl, rfl⟩
    · exact ⟨rfl, rfl⟩
  refine ⟨fun a => ?_, fun a u hu => ?_, fun a u hu => ?_, fun a u hu => ?_⟩
  · rw [hs.subs]
    exact h.nodup a
  · rw [hs.subs] at hu
    rw [hs.next]
    exact h.lt_next a u hu
  · rw [hs.subs] at hu
    rw [(hrest u).1]
    exact h.agentID_eq a u hu
  · rw [hs.subs] at hu
    rw [(hrest u).2]
    exact h.isOpen a u hu

end EventBus

namespace Subscription

structure State where
  bus : EventBus := {}
  /-- What has been read from the channels. -/
  received : ℕ → List MetricBatch := fun _ => []
  /-- History: what was published while in the agent's slice, with the number of
  unread batches then. -/
  offers : ℕ → List (MetricBatch × ℕ) := fun _ => []
  panicked : Bool := false

inductive Action where
  | subscribe (agentID : String) (spare : ℕ)
  | publish (agentID : String) (batch : MetricBatch)
  | unsubscribe (sub : ℕ)
  | receive (sub : ℕ)

def publish (s : State) (agentID : String) (batch : MetricBatch) : State :=
  let subs := (s.bus.subs agentID).contents
  match s.bus.sendAll batch subs with
  | none => { s with panicked := true }
  | some bus =>
      { s with
        bus := bus
        offers := fun u =>
          if u ∈ subs then s.offers u ++ [(batch, (s.bus.subscribers u).buf.length)]
          else s.offers u }

def step (s : State) : Action → Option State
  | .subscribe agentID spare => some { s with bus := s.bus.subscribe agentID spare }
  | .publish agentID batch => some (publish s agentID batch)
  | .unsubscribe sub =>
      -- each subscriber is unsubscribed at most once
      if sub < s.bus.next ∧ (s.bus.subscribers sub).closed = false then
        some { s with bus := (s.bus.removeSub sub).close sub }
      else none
  | .receive sub =>
      match (s.bus.subscribers sub).buf with
      | [] => none
      | batch :: rest => some
          { s with
            bus := s.bus.setBuf sub rest
            received := Function.update s.received sub (s.received sub ++ [batch]) }

/-! ### The events of one subscriber -/

/-- What an action is to subscriber `u`, if `n` subscribers were made before. -/
def eventOf (u n : ℕ) : Action → Option (MailEvent String MetricBatch)
  | .subscribe agentID _ => if u = n then some (.join agentID) else none
  | .publish agentID batch => some (.broadcast agentID batch)
  | .unsubscribe sub => if sub = u then some .leave else none
  | .receive sub => if sub = u then some .receive else none

def nextOf (n : ℕ) : Action → ℕ
  | .subscribe _ _ => n + 1
  | _ => n

/-- All publications, and of the other actions those of `u`. -/
def view (u : ℕ) : ℕ → List Action → List (MailEvent String MetricBatch)
  | _, [] => []
  | n, a :: as => (eventOf u n a).toList ++ view u (nextOf n a) as

structure Inv (s : State) : Prop where
  bus : s.bus.Ok
  not_panicked : s.panicked = false

/-- What the bus holds for `u` is in the mailbox. -/
structure Matches (u : ℕ) (s : State) (m : Mailbox String MetricBatch) : Prop where
  queue_eq : (s.bus.subscribers u).buf = m.queue
  received_eq : s.received u = m.received
  offers_eq : s.offers u = m.offers
  joined_iff : ∀ agentID, u ∈ (s.bus.subs agentID).contents ↔ m.topic = some agentID
  fresh : s.bus.next ≤ u → m.queue = []

theorem inv_init : Inv {} := ⟨EventBus.ok_init, rfl⟩

theorem matches_init (u : ℕ) : Matches u {} {} where
  queue_eq := rfl
  received_eq := rfl
  offers_eq := rfl
  joined_iff _ := ⟨fun h => absurd h List.not_mem_nil, fun h => absurd h (by simp)⟩
  fresh _ := rfl

/-- What a step can be. -/
theorem step_cases {s t : State} {a : Action} (h : step s a = some t) :
    (∃ agentID spare, a = .subscribe agentID spare ∧
      t = { s with bus := s.bus.subscribe agentID spare }) ∨
    (∃ agentID batch, a = .publish agentID batch ∧ t = publish s agentID batch) ∨
    (∃ sub, a = .unsubscribe sub ∧ sub < s.bus.next ∧ (s.bus.subscribers sub).closed = false ∧
      t = { s with bus := (s.bus.removeSub sub).close sub }) ∨
    ∃ sub batch rest, a = .receive sub ∧ (s.bus.subscribers sub).buf = batch :: rest ∧
      t = { s with
            bus := s.bus.setBuf sub rest
            received := Function.update s.received sub (s.received sub ++ [batch]) } := by
  cases a with
  | subscribe agentID spare => exact .inl ⟨agentID, spare, rfl, (Option.some.inj h).symm⟩
  | publish agentID batch => exact .inr (.inl ⟨agentID, batch, rfl, (Option.some.inj h).symm⟩)
  | unsubscribe sub =>
    simp only [step] at h
    split at h
    · rename_i hguard
      exact .inr (.inr (.inl ⟨sub, rfl, hguard.1, hguard.2, (Option.some.inj h).symm⟩))
    · exact absurd h (by simp)
  | receive sub =>
    simp only [step] at h
    split at h
    · exact absurd h (by simp)
    · rename_i batch rest hbuf
      exact .inr (.inr (.inr ⟨sub, batch, rest, rfl, hbuf, (Option.some.inj h).symm⟩))

namespace Inv

variable {s t : State}

theorem sendAll (h : Inv s) (agentID : String) (batch : MetricBatch) :
    ∃ bus, s.bus.sendAll batch (s.bus.subs agentID).contents = some bus ∧
      EventBus.Sent batch (s.bus.subs agentID).contents s.bus bus :=
  EventBus.sendAll_sent batch (h.bus.nodup agentID) (h.bus.isOpen agentID)

theorem step (h : Inv s) {a : Action} (ht : Subscription.step s a = some t) :
    Inv t ∧ t.bus.next = nextOf s.bus.next a := by
  obtain ⟨agentID, spare, rfl, rfl⟩ | ⟨agentID, batch, rfl, rfl⟩ | ⟨sub, rfl, -, -, rfl⟩ |
    ⟨sub, batch, rest, rfl, -, rfl⟩ := step_cases ht
  · exact ⟨⟨h.bus.subscribe agentID spare, h.not_panicked⟩, rfl⟩
  · obtain ⟨bus, hbus, hsent⟩ := h.sendAll agentID batch
    rw [publish, hbus]
    exact ⟨⟨h.bus.of_sent hsent, h.not_panicked⟩, hsent.next⟩
  · have hgone : ∀ agentID, sub ∉ ((s.bus.removeSub sub).subs agentID).contents :=
      fun agentID hmem => ((h.bus.mem_removeSub sub).mp hmem).1 rfl
    exact ⟨⟨(h.bus.removeSub sub).close hgone, h.not_panicked⟩, s.bus.next_removeSub sub⟩
  · exact ⟨⟨h.bus.setBuf sub rest, h.not_panicked⟩, rfl⟩

end Inv

namespace Matches

open EventBus (chanCapacity)

variable {u : ℕ} {s t : State} {m : Mailbox String MetricBatch}

theorem subscribe (h : Matches u s m) (hs : Inv s) (agentID : String) (spare : ℕ) :
    Matches u { s with bus := s.bus.subscribe agentID spare }
      (m.run chanCapacity (eventOf u s.bus.next (.subscribe agentID spare)).toList) := by
  by_cases hu : u = s.bus.next
  · subst hu
    have hnew : ∀ a, s.bus.next ∉ (s.bus.subs a).contents :=
      fun a hmem => Nat.lt_irrefl _ (hs.bus.lt_next a _ hmem)
    rw [eventOf, if_pos rfl]
    refine ⟨?_, h.received_eq, h.offers_eq, fun a => ?_, fun _ => h.fresh (Nat.le_refl _)⟩
    · simp only [EventBus.subscribe, Function.update_self]
      exact (h.fresh (Nat.le_refl _)).symm
    · show s.bus.next ∈ ((s.bus.subscribe agentID spare).subs a).contents
        ↔ some agentID = some a
      rw [EventBus.subs_subscribe, Option.some_inj, eq_comm (a := agentID)]
      by_cases ha : a = agentID
      · rw [if_pos ha, GoSlice.contents_append]
        exact iff_of_true (List.mem_append_right _ (List.mem_singleton_self _)) ha
      · rw [if_neg ha]
        exact iff_of_false (hnew a) ha
  · rw [eventOf, if_neg hu]
    refine ⟨?_, h.received_eq, h.offers_eq, fun a => ?_, fun hle => ?_⟩
    · rw [EventBus.subscribers_subscribe _ _ _ hu]
      exact h.queue_eq
    · refine Iff.trans ?_ (h.joined_iff a)
      rw [EventBus.subs_subscribe]
      split
      · rw [GoSlice.contents_append, List.mem_append, List.mem_singleton, or_iff_left hu]
      · exact Iff.rfl
    · exact h.fresh (Nat.le_of_succ_le hle)

theorem publish (h : Matches u s m) (hs : Inv s) (agentID : String) (batch : MetricBatch) :
    Matches u (publish s agentID batch) (m.step chanCapacity (.broadcast agentID batch)) := by
  obtain ⟨bus, hbus, hsent⟩ := hs.sendAll agentID batch
  have hjoined : ∀ a, u ∈ (bus.subs a).contents ↔ m.topic = some a := by
    intro a
    rw [hsent.subs]
    exact h.joined_iff a
  rw [Subscription.publish, hbus]
  by_cases hu : u ∈ (s.bus.subs agentID).contents
  · have hstep : m.step chanCapacity (.broadcast agentID batch) = m.offer chanCapacity batch :=
      if_pos ((h.joined_iff agentID).mp hu)
    have hlt : u < bus.next := hsent.next ▸ hs.bus.lt_next agentID u hu
    rw [hstep]
    refine ⟨?_, h.received_eq, ?_, hjoined, fun hle => absurd hle (Nat.not_le.mpr hlt)⟩
    · rw [hsent.subscribers, if_pos hu]
      exact congrArg (fun queue => Mailbox.enqueue chanCapacity queue batch) h.queue_eq
    · show (if u ∈ _ then _ else _) = _
      rw [if_pos hu, h.offers_eq, h.queue_eq]
      rfl
  · have hstep : m.step chanCapacity (.broadcast agentID batch) = m :=
      if_neg fun htopic => hu ((h.joined_iff agentID).mpr htopic)
    rw [hstep]
    refine ⟨?_, h.received_eq, ?_, hjoined, fun hle => h.fresh (hsent.next ▸ hle)⟩
    · rw [hsent.subscribers, if_neg hu]
      exact h.queue_eq
    · show (if u ∈ _ then _ else _) = _
      rw [if_neg hu]
      exact h.offers_eq

theorem unsubscribe (h : Matches u s m) (hs : Inv s) (sub : ℕ) :
    Matches u { s with bus := (s.bus.removeSub sub).close sub }
      (m.run chanCapacity (eventOf u s.bus.next (.unsubscribe sub)).toList) := by
  have hbuf : (((s.bus.removeSub sub).close sub).subscribers u).buf
      = (s.bus.subscribers u).buf := by
    by_cases hu : u = sub
    · subst hu
      simp [EventBus.close]
    · simp [EventBus.close, hu]
  have hmem : ∀ a, u ∈ (((s.bus.removeSub sub).close sub).subs a).contents
      ↔ u ≠ sub ∧ u ∈ (s.bus.subs a).contents := fun a => hs.bus.mem_removeSub sub
  have hnext : ((s.bus.removeSub sub).close sub).next = s.bus.next := s.bus.next_removeSub sub
  by_cases hu : sub = u
  · rw [eventOf, if_pos hu]
    refine ⟨hbuf.trans h.queue_eq, h.received_eq, h.offers_eq, fun a => ?_, fun hle => ?_⟩
    · refine (hmem a).trans (iff_of_false (fun hne => hne.1 hu.symm) ?_)
      show ¬ none = some a
      simp
    · exact h.fresh (hnext ▸ hle)
  · rw [eventOf, if_neg hu]
    refine ⟨hbuf.trans h.queue_eq, h.received_eq, h.offers_eq, fun a => ?_, fun hle => ?_⟩
    · rw [hmem, and_iff_right (Ne.symm hu)]
      exact h.joined_iff a
    · exact h.fresh (hnext ▸ hle)

theorem receive (h : Matches u s m) {sub : ℕ} {batch : MetricBatch} {rest : List MetricBatch}
    (hbuf : (s.bus.subscribers sub).buf = batch :: rest) :
    Matches u
      { s with
        bus := s.bus.setBuf sub rest
        received := Function.update s.received sub (s.received sub ++ [batch]) }
      (m.run chanCapacity (eventOf u s.bus.next (.receive sub)).toList) := by
  by_cases hu : sub = u
  · subst hu
    have hqueue : m.queue = batch :: rest := h.queue_eq.symm.trans hbuf
    have hstep : m.step chanCapacity .receive
        = { m with queue := rest, received := m.received ++ [batch] } := by
      simp only [Mailbox.step]
      split
      · rename_i hnil
        rw [hqueue] at hnil
        exact absurd hnil (by simp)
      · rename_i heq
        rw [hqueue, List.cons_eq_cons] at heq
        rw [heq.1, heq.2]
    rw [eventOf, if_pos rfl]
    show Matches sub _ (m.step chanCapacity .receive)
    rw [hstep]
    refine ⟨?_, ?_, h.offers_eq, h.joined_iff, fun hle => ?_⟩
    · simp [EventBus.setBuf]
    · simp [h.received_eq]
    · have hnil := h.fresh hle
      rw [hqueue] at hnil
      exact absurd hnil (by simp)
  · rw [eventOf, if_neg hu]
    have hne : u ≠ sub := Ne.symm hu
    refine ⟨?_, ?_, h.offers_eq, h.joined_iff, h.fresh⟩
    · simp only [EventBus.setBuf, Function.update_of_ne hne]
      exact h.queue_eq
    · simp only [Function.update_of_ne hne]
      exact h.received_eq

theorem step (h : Matches u s m) (hs : Inv s) {a : Action}
    (ht : Subscription.step s a = some t) :
    Matches u t (m.run chanCapacity (eventOf u s.bus.next a).toList) := by
  obtain ⟨agentID, spare, rfl, rfl⟩ | ⟨agentID, batch, rfl, rfl⟩ | ⟨sub, rfl, -, -, rfl⟩ |
    ⟨sub, batch, rest, rfl, hbuf, rfl⟩ := step_cases ht
  · exact h.subscribe hs agentID spare
  · exact h.publish hs agentID batch
  · exact h.unsubscribe hs sub
  · exact h.receive hbuf

end Matches

open EventBus (chanCapacity)

/-- What a subscriber sees of a run is a mailbox run on its view of it. -/
theorem matches_run {as : List Action} {s t : State} {u : ℕ} {m : Mailbox String MetricBatch}
    (hs : Inv s) (h : Matches u s m) (ht : Run.exec step s as = some t) :
    Inv t ∧ Matches u t (m.run chanCapacity (view u s.bus.next as)) := by
  induction as generalizing s m with
  | nil =>
    rw [Run.exec_nil, Option.some_inj] at ht
    subst ht
    exact ⟨hs, h⟩
  | cons a as ih =>
    obtain ⟨r, hr, hrt⟩ := Run.exec_cons_eq_some.mp ht
    obtain ⟨hsr, hnext⟩ := hs.step hr
    have hrun := ih hsr (h.step hs hr) hrt
    rw [view, Mailbox.run_append, ← hnext]
    exact hrun

/-- The batches published for the subscriber's agent between its `Subscribe` and
its `Unsubscribe`. -/
def published (u : ℕ) (as : List Action) : List MetricBatch :=
  Mailbox.broadcasts none (view u 0 as)

/-- **What a live subscriber sees.**  No call panics.  A subscriber is offered
the batches published for its agent between its `Subscribe` and its
`Unsubscribe`, each once and in order; it has read, or can still read, those
that came when fewer than 16 were unread, and never are more unread.  What it
has read is the same after any other run that is the same to it. -/
theorem live_subscriber {as : List Action} {s : State} (hs : Run.exec step {} as = some s)
    (u : ℕ) :
    s.panicked = false ∧
      (s.received u).Sublist (published u as) ∧
      (s.offers u).map Prod.fst = published u as ∧
      s.received u ++ (s.bus.subscribers u).buf
        = ((s.offers u).filter fun o => o.2 < 16).map Prod.fst ∧
      (∀ o ∈ s.offers u, o.2 ≤ 16) ∧
      ∀ (bs : List Action) (t : State) (v : ℕ), Run.exec step {} bs = some t →
        view v 0 bs = view u 0 as → t.received v = s.received u := by
  obtain ⟨hinv, h⟩ := matches_run inv_init (matches_init u) hs
  have hkept : Mailbox.Kept chanCapacity (Mailbox.run chanCapacity {} (view u 0 as)) :=
    Mailbox.kept_init.run (view u 0 as)
  refine ⟨hinv.not_panicked, ?_, ?_, ?_, ?_, ?_⟩
  · rw [h.received_eq]
    exact Mailbox.received_sublist _
  · rw [h.offers_eq]
    exact Mailbox.offered _
  · rw [h.received_eq, h.queue_eq, h.offers_eq]
    exact hkept.kept
  · rw [h.offers_eq]
    exact hkept.unread_le
  · intro bs t v ht hview
    have ht' := (matches_run inv_init (matches_init v) ht).2
    have hmail : Mailbox.run chanCapacity {} (view v 0 bs)
        = Mailbox.run chanCapacity {} (view u 0 as) := by
      rw [hview]
    exact ht'.received_eq.trans ((congrArg Mailbox.received hmail).trans h.received_eq.symm)

/-- Two clients of one agent; the first leaves before the second publication. -/
def twoClients : List Action :=
  [.subscribe "a" 0, .subscribe "a" 1, .publish "a" { id := 0 }, .unsubscribe 0,
    .publish "a" { id := 1 }, .receive 1]

theorem live_subscriber_two :
    ∃ s, Run.exec step {} twoClients = some s ∧ s.received 1 = [{ id := 0 }] ∧
      published 1 twoClients = [{ id := 0 }, { id := 1 }] ∧
      (s.received 1).Sublist (published 1 twoClients) := by
  have hrun : (Run.exec step {} twoClients).map (fun s => s.received 1) = some [{ id := 0 }] := by
    rfl
  obtain ⟨s, hs, hreceived⟩ := Option.map_eq_some_iff.mp hrun
  exact ⟨s, hs, hreceived, rfl, (live_subscriber hs 1).2.1⟩

/-! ### `Publish` as one step -/

/-- The rest of a call of `Publish` that has `n` subscribers to send to. -/
def uninterrupted (i : ℕ) : ℕ → List Hub.Action
  | 0 => [.publish (.finish i)]
  | n + 1 => .publish (.fetch i) :: .publish (.trySend i) :: uninterrupted i n

/-- One turn of the loop of `Publish`. -/
theorem exec_turn {i : ℕ} {sub : ℕ} {rest : List ℕ} {s : Hub.State} {p : Publish}
    (hcall : s.calls i = some (.running p)) (hheld : p.held = none)
    (hrem : p.remaining (s.bus.subs p.agentID) = sub :: rest)
    (hopen : (s.bus.subscribers sub).closed = false) :
    ∃ t q, Run.exec Hub.step s [.publish (.fetch i), .publish (.trySend i)] = some t ∧
      t.calls i = some (.running q) ∧ q.held = none ∧ q.batch = p.batch ∧
      t.bus = s.bus.trySend sub p.batch ∧ q.remaining (t.bus.subs q.agentID) = rest := by
  have hlt : p.next < p.len := by
    by_contra hend
    rw [Publish.remaining, GoSlice.window_eq_nil _ (Nat.le_of_not_lt hend)] at hrem
    exact absurd hrem (by simp)
  rw [Publish.remaining, GoSlice.window_cons _ hlt, List.cons_eq_cons] at hrem
  have hsub : (p.fetch (s.bus.subs p.agentID)).held = some sub := congrArg some hrem.1
  have hfetch : Hub.step s (.publish (.fetch i))
      = some (Hub.setCall s i (.running (p.fetch (s.bus.subs p.agentID)))) := by
    simp only [Hub.step, Hub.publishStep, hcall]
    exact if_pos ⟨hheld, hlt⟩
  have hsend : Hub.step (Hub.setCall s i (.running (p.fetch (s.bus.subs p.agentID))))
      (.publish (.trySend i))
        = some
          { Hub.setCall (Hub.setCall s i (.running (p.fetch (s.bus.subs p.agentID)))) i
              (.running ((p.fetch (s.bus.subs p.agentID)).attempted sub)) with
            bus := s.bus.trySend sub p.batch } := by
    simp only [Hub.step, Hub.publishStep, Hub.setCall, Function.update_self, hsub, hopen]
    rfl
  refine ⟨_, (p.fetch (s.bus.subs p.agentID)).attempted sub,
    Run.exec_cons_eq_some.mpr ⟨_, hfetch, Run.exec_cons_eq_some.mpr ⟨_, hsend, rfl⟩⟩,
    Function.update_self _ _ _, rfl, rfl, rfl, ?_⟩
  -- a send leaves the subscriber slices as they are
  show GoSlice.window ((s.bus.trySend sub p.batch).subs p.agentID) p.gen (p.next + 1) p.len = rest
  rw [EventBus.subs_trySend]
  exact hrem.2

theorem exec_uninterrupted {i : ℕ} {l : List ℕ} {s : Hub.State} {p : Publish}
    (hcall : s.calls i = some (.running p)) (hheld : p.held = none)
    (hrem : p.remaining (s.bus.subs p.agentID) = l)
    (hopen : ∀ u ∈ l, (s.bus.subscribers u).closed = false) :
    ∃ t, Run.exec Hub.step s (uninterrupted i l.length) = some t ∧
      s.bus.sendAll p.batch l = some t.bus := by
  induction l generalizing s p with
  | nil =>
    have hend : p.len ≤ p.next := by
      by_contra hlt
      rw [Publish.remaining, GoSlice.window_cons _ (Nat.lt_of_not_le hlt)] at hrem
      exact absurd hrem (by simp)
    have hfinish : Hub.step s (.publish (.finish i))
        = some (Hub.setCall s i (.returned
          (p.start.filter fun sub => sub ∈ (s.bus.subs p.agentID).contents) p.sent)) := by
      simp only [Hub.step, Hub.publishStep, hcall]
      exact if_pos ⟨hheld, hend⟩
    exact ⟨_, Run.exec_cons_eq_some.mpr ⟨_, hfinish, rfl⟩, rfl⟩
  | cons sub rest ih =>
    have hclosed := hopen sub List.mem_cons_self
    obtain ⟨r, q, hturn, hcall', hheld', hbatch, hbus, hrem'⟩ :=
      exec_turn hcall hheld hrem hclosed
    have hopen' : ∀ u ∈ rest, (r.bus.subscribers u).closed = false := by
      intro u hu
      rw [hbus, EventBus.closed_trySend]
      exact hopen u (List.mem_cons_of_mem _ hu)
    obtain ⟨t, ht, hsend⟩ := ih hcall' hheld' hrem' hopen'
    rw [hbatch, hbus] at hsend
    refine ⟨t, Run.exec_append_eq_some.mpr ⟨r, hturn, ht⟩, ?_⟩
    rw [EventBus.sendAll, hclosed]
    exact hsend

/-- A call of `Publish` beside which nothing moves leaves the bus as the one
step here does. -/
theorem publish_uninterrupted {s : Hub.State} (hok : s.bus.Ok) {i : ℕ} (hi : s.calls i = none)
    (agentID : String) (batch : MetricBatch) :
    ∃ t, Run.exec Hub.step s (.publish (.call i agentID batch) ::
        uninterrupted i (s.bus.subs agentID).contents.length) = some t ∧
      (publish { bus := s.bus } agentID batch).bus = t.bus := by
  have hcall : Hub.step s (.publish (.call i agentID batch))
      = some (Hub.setCall s i (.running (s.bus.publish agentID batch))) := by
    simp only [Hub.step, Hub.publishStep, hi]
  obtain ⟨t, ht, hbus⟩ := exec_uninterrupted
    (s := Hub.setCall s i (.running (s.bus.publish agentID batch)))
    (p := s.bus.publish agentID batch) (Function.update_self _ _ _) rfl rfl
    (hok.isOpen agentID)
  have hsend : s.bus.sendAll batch (s.bus.subs agentID).contents = some t.bus := hbus
  refine ⟨t, Run.exec_cons_eq_some.mpr ⟨_, hcall, ht⟩, ?_⟩
  rw [publish, hsend]

end Subscription
end Volta
