/-
From the agent's buffer to the dashboard's series, through every component on
the way: the `StreamMetrics` stream, the server's event bus, the hub's pump and
the dashboard's store.

One agent streams under its ID; any other agents, and any other clients of the
hub, come and go.  The dashboard shows this agent: it opens a socket, loses it
and opens another, and its store is reset now and then.  Frames of a socket come
in order, and those of a closed socket are gone (`StreamIsolation`); a batch goes
into its frame and out of it unchanged.

A call on the bus is one step here.  `Publish` sends after it has given back the lock,
so that an `Unsubscribe` may come in between and a subscriber get the batch twice, or
its channel be closed before it is sent to: that is `Hub`, with the condition under
which it does not happen.

* `Inv` — what the dashboard has, what is on its way to it and what the hub
  still holds for it are, in this order, batches of the stream;
* `Inv.shown_was_pushed` — so a live series shows samples of one series of the
  agent's buffer, in the order they were pushed, none of them twice;
* `shown_is_prefix` — and, while nothing is dropped on the way, all of them up to
  the last.
-/
import Volta.StreamDelivery
import Volta.BatchHeader
import Volta.Subscription
import Volta.MetricsStore
import Volta.Segments

namespace Volta

namespace Pipeline

structure State where
  stream : MetricsStream.State
  bus : Subscription.State := {}
  /-- The subscriber that the hub made for the dashboard's socket. -/
  socket : Option ℕ := none
  /-- The frames written to the socket that `onmessage` has not seen. -/
  frames : List MetricBatch := []
  series : Dashboard.SeriesRecord := Dashboard.SeriesRecord.reset
  /-- History: the batches ingested since the last `reset`. -/
  ingested : List MetricBatch := []

def init (capacity : ℕ) : State := { stream := MetricsStream.init capacity }

/-- The batch that the handler publishes in this step. -/
def toPublish (s : MetricsStream.State) : MetricsStream.Action → Option MetricBatch
  | .server =>
      match s.handler with
      | .publish batch => some batch
      | _ => none
  | _ => none

inductive Action where
  | stream (a : MetricsStream.Action)
  | publishOther (other : String) (batch : MetricBatch)
  | subscribe (other : String) (spare : ℕ)
  | unsubscribe (sub : ℕ)
  /-- The pump of a subscriber reads a batch and writes its frame. -/
  | pump (sub : ℕ) (written : Bool)
  | openSocket (spare : ℕ)
  | closeSocket
  | message
  | reset

/-- `agentID` is the ID that the agent streams under.  `Publish`, `Subscribe` and
`Unsubscribe` are not interrupted by each other. -/
def step (agentID : String) (s : State) : Action → Option State
  | .stream a =>
      (MetricsStream.step s.stream a).map fun stream =>
        match toPublish s.stream a with
        | none => { s with stream := stream }
        | some batch =>
            { s with stream := stream, bus := Subscription.publish s.bus agentID batch }
  | .publishOther other batch =>
      if other = agentID then none
      else some { s with bus := Subscription.publish s.bus other batch }
  | .subscribe other spare =>
      (Subscription.step s.bus (.subscribe other spare)).map fun bus => { s with bus := bus }
  | .unsubscribe sub =>
      (Subscription.step s.bus (.unsubscribe sub)).map fun bus => { s with bus := bus }
  | .pump sub written =>
      match (s.bus.bus.subscribers sub).buf with
      | [] => none
      | batch :: _ =>
          (Subscription.step s.bus (.receive sub)).map fun bus =>
            { s with
              bus := bus
              frames := if written ∧ s.socket = some sub then s.frames ++ [batch] else s.frames }
  | .openSocket spare =>
      match s.socket with
      | some _ => none
      | none =>
          (Subscription.step s.bus (.subscribe agentID spare)).map fun bus =>
            { s with bus := bus, socket := some s.bus.bus.next }
  | .closeSocket => some { s with socket := none, frames := [] }
  | .message =>
      match s.frames with
      | [] => none
      | batch :: frames =>
          some
            { s with
              frames := frames
              series := s.series.ingest batch
              ingested := s.ingested ++ [batch] }
  | .reset => some { s with series := Dashboard.SeriesRecord.reset, ingested := [] }

/-- What the hub holds for the dashboard. -/
def State.queue (s : State) : List MetricBatch :=
  match s.socket with
  | none => []
  | some u => (s.bus.bus.subscribers u).buf

/-- Everything that the dashboard has or can still get of what was published. -/
def State.ahead (s : State) : List MetricBatch := s.ingested ++ s.frames ++ s.queue

/-! ### One step of a component -/

/-- A step of the pipeline is a step of its stream, or leaves the stream alone. -/
theorem stream_of_step {agentID : String} {s t : State} {a : Action}
    (h : step agentID s a = some t) :
    (∃ b, a = .stream b ∧ MetricsStream.step s.stream b = some t.stream) ∨
      t.stream = s.stream := by
  cases a with
  | stream b =>
    obtain ⟨stream, hstream, rfl⟩ := Option.map_eq_some_iff.mp h
    refine .inl ⟨b, rfl, ?_⟩
    cases toPublish s.stream b <;> exact hstream
  | publishOther other batch =>
    simp only [step] at h
    split at h <;> cases h
    exact .inr rfl
  | subscribe other spare =>
    rw [step, Option.map_eq_some_iff] at h
    obtain ⟨bus, -, rfl⟩ := h
    exact .inr rfl
  | unsubscribe sub =>
    rw [step, Option.map_eq_some_iff] at h
    obtain ⟨bus, -, rfl⟩ := h
    exact .inr rfl
  | pump sub written =>
    simp only [step] at h
    split at h
    · exact absurd h (by simp)
    · obtain ⟨bus, -, rfl⟩ := Option.map_eq_some_iff.mp h
      exact .inr rfl
  | openSocket spare =>
    simp only [step] at h
    split at h
    · exact absurd h (by simp)
    · obtain ⟨bus, -, rfl⟩ := Option.map_eq_some_iff.mp h
      exact .inr rfl
  | message =>
    simp only [step] at h
    split at h <;> cases h
    exact .inr rfl
  | closeSocket | reset =>
    cases h
    exact .inr rfl

/-- A stream's step publishes the batch in the handler's hands, or nothing. -/
theorem published_of_step {s t : MetricsStream.State} {a : MetricsStream.Action}
    (h : MetricsStream.step s a = some t) :
    t.published = s.published ++ (toPublish s a).toList := by
  cases a with
  | server =>
    simp only [MetricsStream.step, MetricsStream.serverStep] at h
    split at h
    case h_1 hpc _ | h_3 hpc | h_4 hpc =>
      cases h
      simp [toPublish, hpc]
    case h_2 | h_5 => exact absurd h (by simp)
  | poll =>
    rw [MetricsStream.pollStep_eq h]
    exact (List.append_nil _).symm
  | read =>
    rw [MetricsStream.readStep_eq h]
    exact (List.append_nil _).symm
  | addMetric =>
    simp only [MetricsStream.step] at h
    split at h
    · exact absurd h (by simp)
    · rename_i metric metrics _
      cases h
      show (MetricsStream.addMetric s metric).published = _
      rw [MetricsStream.addMetric]
      split
      · exact (List.append_nil _).symm
      · exact (List.append_nil _).symm
  | _ =>
    simp only [MetricsStream.step] at h
    split at h <;> cases h
    all_goals exact (List.append_nil _).symm

/-! ### What a call on the bus does to one subscriber -/

theorem subscribers_publish {bus : Subscription.State} (h : Subscription.Inv bus)
    (other : String) (batch : MetricBatch) (u : ℕ) :
    (Subscription.publish bus other batch).bus.subscribers u
      = if u ∈ (bus.bus.subs other).contents then
          { bus.bus.subscribers u with
            buf := Mailbox.enqueue EventBus.chanCapacity (bus.bus.subscribers u).buf batch }
        else bus.bus.subscribers u := by
  obtain ⟨bus', hbus', hsent⟩ := h.sendAll other batch
  rw [Subscription.publish, hbus']
  exact hsent.subscribers u

theorem next_publish {bus : Subscription.State} (h : Subscription.Inv bus) (other : String)
    (batch : MetricBatch) : (Subscription.publish bus other batch).bus.next = bus.bus.next := by
  obtain ⟨bus', hbus', hsent⟩ := h.sendAll other batch
  rw [Subscription.publish, hbus']
  exact hsent.next

theorem inv_publish {bus : Subscription.State} (h : Subscription.Inv bus) (other : String)
    (batch : MetricBatch) : Subscription.Inv (Subscription.publish bus other batch) :=
  (h.step (a := .publish other batch) rfl).1

/-- Room or not, what is in a channel stays in it, in front. -/
theorem enqueue_sublist (capacity : ℕ) (queue : List MetricBatch) (batch : MetricBatch) :
    (Mailbox.enqueue capacity queue batch).Sublist (queue ++ [batch]) := by
  rw [Mailbox.enqueue]
  split
  · exact List.Sublist.refl _
  · exact List.sublist_append_left queue [batch]

/-! ### The invariant -/

/-- The dashboard's subscriber and what its channel holds are as they were. -/
def SameFor (s : State) (bus : Subscription.State) : Prop :=
  ∀ u, s.socket = some u →
    (bus.bus.subscribers u).agentID = (s.bus.bus.subscribers u).agentID ∧
      (bus.bus.subscribers u).buf = (s.bus.bus.subscribers u).buf

theorem SameFor.queue_eq {s : State} {bus : Subscription.State} (h : SameFor s bus) :
    State.queue { s with bus := bus } = s.queue := by
  rw [State.queue, State.queue]
  dsimp only
  cases hu : s.socket with
  | none => rfl
  | some u => exact (h u hu).2

structure Inv (C : ℕ) (agentID : String) (s : State) : Prop where
  stream : MetricsStream.Inv C s.stream
  bus : Subscription.Inv s.bus
  mine : ∀ u, s.socket = some u →
    u < s.bus.bus.next ∧ (s.bus.bus.subscribers u).agentID = agentID
  frames_nil : s.socket = none → s.frames = []
  order : s.ahead.Sublist s.stream.published
  series_eq : s.series = Dashboard.window s.ingested

theorem inv_init {C : ℕ} (hC : 0 < C) (agentID : String) : Inv C agentID (init C) where
  stream := MetricsStream.inv_init hC
  bus := Subscription.inv_init
  mine _ h := nomatch h
  frames_nil _ := rfl
  order := List.Sublist.refl _
  series_eq := rfl

namespace Inv

variable {C : ℕ} {agentID : String} {s : State}

/-- A call on the bus that is not about the dashboard's subscriber. -/
theorem withBus (h : Inv C agentID s) {bus : Subscription.State} (hbus : Subscription.Inv bus)
    (hnext : s.bus.bus.next ≤ bus.bus.next) (hsame : SameFor s bus) :
    Inv C agentID { s with bus := bus } := by
  refine ⟨h.stream, hbus, fun u hu => ?_, h.frames_nil, ?_, h.series_eq⟩
  · obtain ⟨hlt, hagent⟩ := h.mine u hu
    exact ⟨hlt.trans_le hnext, (hsame u hu).1.trans hagent⟩
  · rw [State.ahead, hsame.queue_eq]
    exact h.order

/-- A step of the stream that publishes nothing. -/
theorem withStream (h : Inv C agentID s) {a : MetricsStream.Action} {stream : MetricsStream.State}
    (ht : MetricsStream.step s.stream a = some stream) (hpub : toPublish s.stream a = none) :
    Inv C agentID { s with stream := stream } := by
  refine ⟨h.stream.step ht, h.bus, h.mine, h.frames_nil, ?_, h.series_eq⟩
  show s.ahead.Sublist stream.published
  rw [published_of_step ht, hpub]
  exact (List.append_nil _).symm ▸ h.order

/-- The batch of the stream comes last in the dashboard's channel, or is dropped. -/
theorem publish (h : Inv C agentID s) {a : MetricsStream.Action} {stream : MetricsStream.State}
    {batch : MetricBatch} (ht : MetricsStream.step s.stream a = some stream)
    (hpub : toPublish s.stream a = some batch) :
    Inv C agentID
      { s with stream := stream, bus := Subscription.publish s.bus agentID batch } := by
  refine ⟨h.stream.step ht, inv_publish h.bus agentID batch, fun u hu => ?_, h.frames_nil, ?_,
    h.series_eq⟩
  · obtain ⟨hlt, hagent⟩ := h.mine u hu
    rw [subscribers_publish h.bus, next_publish h.bus]
    split
    · exact ⟨hlt, hagent⟩
    · exact ⟨hlt, hagent⟩
  · have hqueue : (State.queue
        { s with stream := stream, bus := Subscription.publish s.bus agentID batch }).Sublist
        (s.queue ++ [batch]) := by
      rw [State.queue, State.queue]
      dsimp only
      cases s.socket with
      | none => exact List.nil_sublist _
      | some u =>
        dsimp only
        rw [subscribers_publish h.bus]
        split
        · exact enqueue_sublist _ _ _
        · exact List.sublist_append_left _ _
    show List.Sublist (s.ingested ++ s.frames ++ _) stream.published
    rw [published_of_step ht, hpub]
    refine (hqueue.append_left (s.ingested ++ s.frames)).trans ?_
    rw [← List.append_assoc]
    exact h.order.append_right [batch]

/-- Another agent's batch is not for the dashboard. -/
theorem sameFor_publishOther (h : Inv C agentID s) {other : String} (hne : other ≠ agentID)
    (batch : MetricBatch) : SameFor s (Subscription.publish s.bus other batch) := by
  intro u hu
  have hnot : u ∉ (s.bus.bus.subs other).contents := by
    intro hmem
    exact hne ((h.bus.bus.agentID_eq other u hmem).symm.trans (h.mine u hu).2)
  rw [subscribers_publish h.bus, if_neg hnot]
  exact ⟨rfl, rfl⟩

theorem publishOther (h : Inv C agentID s) {other : String} (hne : other ≠ agentID)
    (batch : MetricBatch) :
    Inv C agentID { s with bus := Subscription.publish s.bus other batch } :=
  h.withBus (inv_publish h.bus other batch) (next_publish h.bus other batch).ge
    (h.sameFor_publishOther hne batch)

theorem sameFor_subscribe (h : Inv C agentID s) {other : String} {spare : ℕ}
    {bus : Subscription.State}
    (ht : Subscription.step s.bus (.subscribe other spare) = some bus) : SameFor s bus := by
  intro u hu
  cases ht
  rw [EventBus.subscribers_subscribe _ _ _ (h.mine u hu).1.ne]
  exact ⟨rfl, rfl⟩

theorem subscribe (h : Inv C agentID s) {other : String} {spare : ℕ} {bus : Subscription.State}
    (ht : Subscription.step s.bus (.subscribe other spare) = some bus) :
    Inv C agentID { s with bus := bus } := by
  obtain ⟨hbus, hnext⟩ := h.bus.step ht
  exact h.withBus hbus (hnext ▸ Nat.le_succ _) (h.sameFor_subscribe ht)

/-- `Unsubscribe` closes the channel and leaves what is in it. -/
theorem sameFor_unsubscribe {sub : ℕ} {bus : Subscription.State}
    (ht : Subscription.step s.bus (.unsubscribe sub) = some bus) : SameFor s bus := by
  intro u _
  simp only [Subscription.step] at ht
  split at ht
  · cases ht
    refine ⟨?_, ?_⟩
    · rw [EventBus.agentID_close, EventBus.subscribers_removeSub]
    · by_cases hsub : u = sub
      · subst hsub
        simp [EventBus.close]
      · simp [EventBus.close, hsub]
  · exact absurd ht (by simp)

theorem unsubscribe (h : Inv C agentID s) {sub : ℕ} {bus : Subscription.State}
    (ht : Subscription.step s.bus (.unsubscribe sub) = some bus) :
    Inv C agentID { s with bus := bus } := by
  obtain ⟨hbus, hnext⟩ := h.bus.step ht
  exact h.withBus hbus hnext.ge (sameFor_unsubscribe ht)

/-- The oldest batch in a channel is read, and goes into a frame or is lost. -/
theorem pump (h : Inv C agentID s) {sub : ℕ} {batch : MetricBatch} {rest : List MetricBatch}
    {bus : Subscription.State} (hbuf : (s.bus.bus.subscribers sub).buf = batch :: rest)
    (ht : Subscription.step s.bus (.receive sub) = some bus) (written : Bool) :
    Inv C agentID
      { s with
        bus := bus
        frames := if written ∧ s.socket = some sub then s.frames ++ [batch] else s.frames } := by
  obtain ⟨hbus, hnext⟩ := h.bus.step ht
  have heq : bus.bus = s.bus.bus.setBuf sub rest := by
    simp only [Subscription.step, hbuf] at ht
    cases ht
    rfl
  by_cases hmine : s.socket = some sub
  · have hqueue : s.queue = batch :: rest := by
      rw [State.queue, hmine]
      exact hbuf
    refine ⟨h.stream, hbus, fun u hu => ?_, fun hnone => ?_, ?_, h.series_eq⟩
    · obtain ⟨hlt, hagent⟩ := h.mine u hu
      rw [heq]
      exact ⟨hlt, (EventBus.agentID_setBuf _ _ _ _).trans hagent⟩
    · exact absurd (hmine.symm.trans hnone) (by simp)
    · have hqueue' : State.queue
          { s with
            bus := bus
            frames := if written ∧ s.socket = some sub then s.frames ++ [batch] else s.frames }
          = rest := by
        rw [State.queue]
        dsimp only
        rw [hmine, heq]
        simp [EventBus.setBuf]
      have horder := h.order
      rw [State.ahead, hqueue] at horder
      rw [State.ahead, hqueue']
      refine List.Sublist.trans ?_ horder
      dsimp only
      split
      · simp
      · exact (List.sublist_cons_self batch rest).append_left (s.ingested ++ s.frames)
  · rw [if_neg fun hand => hmine hand.2]
    refine h.withBus hbus hnext.ge fun u hu => ?_
    have hne : u ≠ sub := fun hus => hmine (hus ▸ hu)
    rw [heq]
    simp [EventBus.setBuf, hne]

theorem openSocket (h : Inv C agentID s) {spare : ℕ} {bus : Subscription.State}
    (hsocket : s.socket = none)
    (ht : Subscription.step s.bus (.subscribe agentID spare) = some bus) :
    Inv C agentID { s with bus := bus, socket := some s.bus.bus.next } := by
  obtain ⟨hbus, hnext⟩ := h.bus.step ht
  have hnew : bus.bus.subscribers s.bus.bus.next = { agentID := agentID } := by
    cases ht
    exact Function.update_self _ _ _
  refine ⟨h.stream, hbus, fun u hu => ?_, nofun, ?_, h.series_eq⟩
  · obtain rfl := Option.some_inj.mp hu
    rw [hnew, hnext]
    exact ⟨Nat.lt_succ_self _, rfl⟩
  · have horder := h.order
    rw [State.ahead, State.queue, hsocket] at horder
    rw [State.ahead, State.queue]
    dsimp only
    rw [hnew]
    exact horder

theorem closeSocket (h : Inv C agentID s) :
    Inv C agentID { s with socket := none, frames := [] } := by
  refine ⟨h.stream, h.bus, nofun, fun _ => rfl, ?_, h.series_eq⟩
  have hingested : s.ingested.Sublist s.ahead :=
    (List.sublist_append_left _ _).trans (List.sublist_append_left _ _)
  refine List.Sublist.trans ?_ (hingested.trans h.order)
  simp [State.ahead, State.queue]

theorem message (h : Inv C agentID s) {batch : MetricBatch} {frames : List MetricBatch}
    (hframes : s.frames = batch :: frames) :
    Inv C agentID
      { s with
        frames := frames
        series := s.series.ingest batch
        ingested := s.ingested ++ [batch] } := by
  refine ⟨h.stream, h.bus, h.mine, fun hnone => ?_, ?_, ?_⟩
  · exact absurd (hframes.symm.trans (h.frames_nil hnone)) (by simp)
  · have horder := h.order
    rw [State.ahead, hframes] at horder
    show List.Sublist (s.ingested ++ [batch] ++ frames ++ s.queue) _
    rwa [List.append_assoc s.ingested [batch] frames, List.singleton_append]
  · show s.series.ingest batch = _
    rw [h.series_eq, Dashboard.ingest_window]

theorem reset (h : Inv C agentID s) :
    Inv C agentID { s with series := Dashboard.SeriesRecord.reset, ingested := [] } := by
  refine ⟨h.stream, h.bus, h.mine, h.frames_nil, ?_, rfl⟩
  refine List.Sublist.trans ?_ h.order
  show List.Sublist ([] ++ s.frames ++ s.queue) (s.ingested ++ s.frames ++ s.queue)
  exact ((List.nil_sublist s.ingested).append_right s.frames).append_right s.queue

theorem step (h : Inv C agentID s) {a : Action} {t : State}
    (ht : Pipeline.step agentID s a = some t) : Inv C agentID t := by
  cases a with
  | stream a =>
    obtain ⟨stream, hstream, rfl⟩ := Option.map_eq_some_iff.mp ht
    cases hpub : toPublish s.stream a with
    | none => exact h.withStream hstream hpub
    | some batch => exact h.publish hstream hpub
  | publishOther other batch =>
    simp only [Pipeline.step] at ht
    split at ht
    · exact absurd ht (by simp)
    · rename_i hne
      cases ht
      exact h.publishOther hne batch
  | subscribe other spare =>
    rw [Pipeline.step, Option.map_eq_some_iff] at ht
    obtain ⟨bus, hbus, rfl⟩ := ht
    exact h.subscribe hbus
  | unsubscribe sub =>
    obtain ⟨bus, hbus, rfl⟩ := Option.map_eq_some_iff.mp ht
    exact h.unsubscribe hbus
  | pump sub written =>
    simp only [Pipeline.step] at ht
    split at ht
    · exact absurd ht (by simp)
    · rename_i batch rest hbuf
      obtain ⟨bus, hbus, rfl⟩ := Option.map_eq_some_iff.mp ht
      exact h.pump hbuf hbus written
  | openSocket spare =>
    simp only [Pipeline.step] at ht
    split at ht
    · exact absurd ht (by simp)
    · rename_i hsocket
      obtain ⟨bus, hbus, rfl⟩ := Option.map_eq_some_iff.mp ht
      exact h.openSocket hsocket hbus
  | closeSocket =>
    cases ht
    exact h.closeSocket
  | message =>
    simp only [Pipeline.step] at ht
    split at ht
    · exact absurd ht (by simp)
    · rename_i batch frames hframes
      cases ht
      exact h.message hframes
  | reset =>
    cases ht
    exact h.reset

end Inv

theorem inv_of_exec {C : ℕ} (hC : 1 ≤ C) {agentID : String} {as : List Action} {s : State}
    (hs : Run.exec (step agentID) (init C) as = some s) : Inv C agentID s :=
  Run.exec_invariant (fun h ht => h.step ht) (inv_init hC agentID) hs

/-! ### The keys of the series -/

open MetricsStream (makeHeader key_makeHeader Entry)

/-- The key under which the dashboard keeps the series of a buffer key. -/
def keyText (key : BufferKey) : String :=
  seriesKey (makeHeader key).metricType.toInt (makeHeader key).deviceId

/-- The header made of the key gives the key back. -/
def HeaderKeeps (key : BufferKey) : Prop := (makeHeader key).key = key

theorem keyText_inj {key key' : BufferKey} (h : HeaderKeeps key) (h' : HeaderKeeps key') :
    keyText key = keyText key' ↔ key = key' := by
  refine ⟨fun heq => ?_, fun heq => heq ▸ rfl⟩
  obtain ⟨htype, hdevice⟩ := (seriesKey_eq_iff _ _ _ _).mp heq
  rw [← h, ← h', BatchHeader.key, BatchHeader.key, Int32.toInt_inj.mp htype, hdevice]

/-- The metrics that are still to be added are of the range of their device, and
the keys were made of such metrics. -/
structure Ranged (s : MetricsStream.State) : Prop where
  adding : ∀ metric ∈ s.adding, metric.OfRange
  keys : ∀ key ∈ s.buffer.getAllKeys, HeaderKeeps key

theorem mem_getAllKeys_addMetric {m : MetricsBuffer} {metric : Metric} {key : BufferKey}
    (h : key ∈ (m.addMetric metric).getAllKeys) :
    key ∈ m.getAllKeys ∨ key = makeBufferKey metric := by
  rw [MetricsBuffer.addMetric] at h
  split at h
  · exact .inl h
  · rw [MetricsBuffer.getAllKeys_addSample] at h
    split at h
    · exact .inl h
    · rw [List.mem_append, List.mem_singleton] at h
      exact h

theorem Ranged.step {s t : MetricsStream.State} {a : MetricsStream.Action} (h : Ranged s)
    (hok : ∀ metrics, a = .addMetrics metrics → ∀ metric ∈ metrics, metric.OfRange)
    (ht : MetricsStream.step s a = some t) : Ranged t := by
  cases a with
  | addMetrics metrics =>
    simp only [MetricsStream.step] at ht
    split at ht
    · cases ht
      exact ⟨hok metrics rfl, h.keys⟩
    · exact absurd ht (by simp)
  | addMetric =>
    simp only [MetricsStream.step] at ht
    split at ht
    · exact absurd ht (by simp)
    · rename_i metric metrics hadding
      cases ht
      have hmem : ∀ m ∈ metric :: metrics, m.OfRange := hadding ▸ h.adding
      refine ⟨fun m hm => hmem m (List.mem_cons_of_mem metric hm), fun key hkey => ?_⟩
      rw [show (_ : MetricsStream.State).buffer = s.buffer.addMetric metric from
        MetricsStream.addMetric_buffer s metric] at hkey
      obtain hkey | rfl := mem_getAllKeys_addMetric hkey
      · exact h.keys key hkey
      · exact key_makeHeader (hmem metric List.mem_cons_self)
  | poll =>
    rw [MetricsStream.pollStep_eq ht]
    exact ⟨h.adding, h.keys⟩
  | server =>
    rw [MetricsStream.serverStep_eq ht]
    exact ⟨h.adding, h.keys⟩
  | read =>
    have hadding : t.adding = s.adding := by rw [MetricsStream.readStep_eq ht]
    refine ⟨hadding ▸ h.adding, fun key hkey => ?_⟩
    obtain hbuf | ⟨ha, -⟩ | ⟨-, entry, -, hbuf⟩ := MetricsStream.buffer_of_step ht
    · exact h.keys key (hbuf ▸ hkey)
    · exact absurd ha (by simp)
    · rw [hbuf, MetricsBuffer.getAllKeys_modify] at hkey
      exact h.keys key hkey
  | _ =>
    simp only [MetricsStream.step] at ht
    split at ht <;> cases ht
    all_goals exact ⟨h.adding, h.keys⟩

/-- The metrics that a run adds are of the range of their device. -/
def AddsRanged (as : List Action) : Prop :=
  ∀ metrics, Action.stream (.addMetrics metrics) ∈ as → ∀ metric ∈ metrics, metric.OfRange

theorem ranged_of_exec {C : ℕ} {agentID : String} {as : List Action} {s : State}
    (has : AddsRanged as) (hs : Run.exec (step agentID) (init C) as = some s) :
    Ranged s.stream := by
  have hmeets : Run.Meets (step agentID)
      (fun _ a => ∀ metrics, a = .stream (.addMetrics metrics) → ∀ m ∈ metrics, m.OfRange)
      (init C) as := by
    refine Run.meets_of_forall (fun a ha _ metrics hm => ?_) _
    exact has metrics (hm ▸ ha)
  have hinit : Ranged (init C).stream :=
    ⟨fun _ h => absurd h List.not_mem_nil, fun _ h => absurd h List.not_mem_nil⟩
  refine Run.exec_invariant_of_meets (I := fun s => Ranged s.stream) ?_ hinit hmeets hs
  intro s a t h hok ht
  obtain ⟨b, rfl, hb⟩ | heq := stream_of_step ht
  · exact h.step (fun metrics hm => hok metrics (hm ▸ rfl)) hb
  · exact heq ▸ h

/-! ### From batches to samples -/

/-- A sample as the dashboard keeps it. -/
def shown (x : Sample) : ℕ × Double := (Dashboard.nsToMs x.timestampNs.toUInt64, x.value)

theorem pairs_batch (e : Entry) : Dashboard.pairs e.batch = e.snapshot.samples.map shown := by
  show ((e.snapshot.samples.map _).zip (e.snapshot.samples.map _)).map _ = _
  rw [List.zip_map', List.map_map]
  rfl

/-- The samples of a key among those of all entries. -/
def samplesFor (key : BufferKey) (es : List Entry) : List Sample :=
  (es.filter fun e => e.key = key).flatMap fun e => e.snapshot.samples

theorem received_batches {es : List Entry} {key : BufferKey} (hkey : HeaderKeeps key)
    (hes : ∀ e ∈ es, HeaderKeeps e.key) :
    Dashboard.received (keyText key) (es.map Entry.batch) = (samplesFor key es).map shown := by
  induction es with
  | nil => rfl
  | cons e es ih =>
    have hrest := ih fun e' he' => hes e' (List.mem_cons_of_mem e he')
    have htext : Dashboard.batchKey e.batch = some (keyText e.key) := rfl
    have hiff : Dashboard.batchKey e.batch = some (keyText key) ↔ e.key = key := by
      rw [htext, Option.some_inj]
      exact keyText_inj (hes e List.mem_cons_self) hkey
    rw [Dashboard.received] at hrest
    rw [Dashboard.received, List.map_cons, List.flatMap_cons, hrest, samplesFor, samplesFor]
    by_cases he : e.key = key
    · rw [if_pos (hiff.mpr he), List.filter_cons_of_pos (by simpa using he), List.flatMap_cons,
        List.map_append, pairs_batch]
    · rw [if_neg (fun h => he (hiff.mp h)), List.filter_cons_of_neg (by simpa using he),
        List.nil_append]

/-- The push indices that a snapshot holds. -/
def bounds (e : Entry) : ℕ × ℕ := (e.start, e.snapshot.end)

section Samples

variable {C : ℕ} {s : MetricsStream.State} {es : List Entry}

/-- The snapshots of one series, as segments of what was pushed to it. -/
theorem samplesFor_eq (h : MetricsStream.Inv C s) (hes : es.Sublist s.taken) (key : BufferKey) :
    samplesFor key es
      = ((es.filter fun e => e.key = key).map bounds).flatMap
          (Segments.segment (s.pushed key)) := by
  rw [List.flatMap_map]
  refine List.flatMap_congr fun e he => ?_
  obtain ⟨hmem, hkey⟩ := List.mem_filter.mp he
  rw [← of_decide_eq_true hkey]
  exact (h.fromSeries (hes.subset hmem)).samples_eq

theorem bounds_le (h : MetricsStream.Inv C s) (hes : es.Sublist s.taken) (key : BufferKey) :
    ∀ p ∈ (es.filter fun e => e.key = key).map bounds,
      p.1 ≤ p.2 ∧ p.2 ≤ (s.pushed key).length := by
  intro p hp
  obtain ⟨e, he, rfl⟩ := List.mem_map.mp hp
  obtain ⟨hmem, hkey⟩ := List.mem_filter.mp he
  rw [← of_decide_eq_true hkey]
  exact ⟨Nat.sub_le _ _, (h.fromSeries (hes.subset hmem)).end_le⟩

theorem bounds_inOrder (h : MetricsStream.Inv C s) (hes : es.Sublist s.taken)
    (key : BufferKey) : Segments.InOrder ((es.filter fun e => e.key = key).map bounds) := by
  have hinc : s.taken.Pairwise fun e f => e.key = f.key → e.snapshot.end ≤ f.start :=
    List.pairwise_map.mp (List.pairwise_append.mp h.increasing).1
  have hsub : (es.filter fun e => e.key = key).Sublist s.taken := List.filter_sublist.trans hes
  refine List.pairwise_map.mpr ((hinc.sublist hsub).imp_of_mem fun {e f} he hf hef => ?_)
  have hekey := of_decide_eq_true (List.mem_filter.mp he).2
  have hfkey := of_decide_eq_true (List.mem_filter.mp hf).2
  exact hef (hekey.trans hfkey.symm)

/-- Whatever entries are left out, the samples come in the order of their push. -/
theorem samplesFor_sublist (h : MetricsStream.Inv C s) (hes : es.Sublist s.taken)
    (key : BufferKey) : (samplesFor key es).Sublist (s.pushed key) := by
  rw [samplesFor_eq h hes]
  exact Segments.flatMap_sublist (fun p hp => (bounds_le h hes key p hp).1)
    (fun p hp => (bounds_le h hes key p hp).2) (bounds_inOrder h hes key)

/-- With no overflow, all that was published is the beginning of the series. -/
theorem samplesFor_published (h : MetricsStream.Inv C s) {key : BufferKey}
    (hover : s.overflowed key = []) :
    ∃ n, s.tail key ≤ n ∧
      samplesFor key (s.taken.take s.published.length) = (s.pushed key).take n := by
  have hes : (s.taken.take s.published.length).Sublist s.taken := List.take_sublist _ _
  -- nothing leaves the ring unpublished
  have hgone : ∀ i < s.tail key, Segments.Covers
      (((s.taken.take s.published.length).filter fun e => e.key = key).map bounds) i := by
    intro i hi
    obtain hmem | ⟨e, he, hkey, hstart, hend⟩ := h.gone key i hi
    · rw [hover] at hmem
      exact absurd hmem List.not_mem_nil
    · exact ⟨bounds e, List.mem_map_of_mem (List.mem_filter.mpr ⟨he, decide_eq_true hkey⟩),
        hstart, hend⟩
  obtain ⟨n, hn, hends, -⟩ := Segments.flatMap_eq_take
    (s.pushed key) (fun p hp => (bounds_le h hes key p hp).1) (bounds_inOrder h hes key)
    (fun p hp i hi => by
      obtain ⟨e, he, rfl⟩ := List.mem_map.mp hp
      obtain ⟨hmem, hkey⟩ := List.mem_filter.mp he
      have hstart := (h.fromSeries (List.mem_of_mem_take hmem)).start_le
      rw [of_decide_eq_true hkey] at hstart
      exact hgone i (hi.trans_le hstart))
  refine ⟨n, ?_, (samplesFor_eq h hes key).trans hn⟩
  by_contra hlt
  obtain ⟨p, hp, -, hpn⟩ := hgone n (Nat.lt_of_not_le hlt)
  exact absurd (hends p hp) (Nat.not_le.mpr hpn)

end Samples

/-- What the dashboard got of the stream are batches of entries, in order. -/
theorem entries_of_sublist {C : ℕ} {s : MetricsStream.State} (h : MetricsStream.Inv C s)
    {l : List MetricBatch} (hl : l.Sublist s.published) :
    ∃ es : List Entry, es.Sublist (s.taken.take s.published.length) ∧ l = es.map Entry.batch := by
  rw [h.published_eq] at hl
  exact List.sublist_map_iff.mp hl

/-! ### What the dashboard shows -/

/-- Each live series belongs to one series of the agent's buffer, and to no other;
its points are samples pushed there, in the order of their push, none twice, each
value with its own time. -/
theorem Inv.shown_was_pushed {C : ℕ} {agentID : String} {s : State} (h : Inv C agentID s)
    (hranged : Ranged s.stream) {text : String} {ls : Dashboard.LiveSeries}
    (hls : s.series text = some ls) :
    ∃ key ∈ s.stream.buffer.getAllKeys, text = keyText key ∧
      (∀ key' ∈ s.stream.buffer.getAllKeys, text = keyText key' → key' = key) ∧
      ls.type = key.metricType ∧ ls.times.length = ls.values.length ∧ ls.times ≠ [] ∧
      (ls.times.zip ls.values).Sublist ((s.stream.pushed key).map shown) := by
  have hsub : s.ingested.Sublist s.stream.published :=
    ((List.sublist_append_left _ _).trans (List.sublist_append_left _ _)).trans h.order
  obtain ⟨es, hes, hingested⟩ := entries_of_sublist h.stream hsub
  have hmem : ∀ e ∈ es, e ∈ s.stream.taken := fun e he => List.mem_of_mem_take (hes.subset he)
  have hkeys : ∀ e ∈ es, HeaderKeeps e.key :=
    fun e he => hranged.keys e.key (h.stream.taken_keys e (hmem e he))
  rw [h.series_eq] at hls
  -- the series exists because a batch of one of the entries fed it
  have hfed := (Dashboard.window_ne_none_iff s.ingested text).mp (by simp [hls])
  have htimes : ls.times ≠ [] := by
    have hpos := List.length_pos_of_ne_nil (Dashboard.received_ne_nil hfed)
    have hsize := Dashboard.window_size hls
    have hmax := Dashboard.maxPoints_pos
    refine List.ne_nil_of_length_pos ?_
    omega
  obtain ⟨header, hheader, hseries⟩ := Option.map_eq_some_iff.mp hls
  -- the header that named it is that of such a batch too
  rw [Dashboard.lastHeader, Option.bind_eq_some_iff] at hheader
  obtain ⟨batch, hlast, hheader⟩ := hheader
  obtain ⟨hbatch, hfeeds⟩ := List.mem_filter.mp (List.mem_of_getLast? hlast)
  rw [hingested] at hbatch
  obtain ⟨e, he, rfl⟩ := List.mem_map.mp hbatch
  have htext : text = keyText e.key := (Option.some_inj.mp (of_decide_eq_true hfeeds).1).symm
  refine ⟨e.key, h.stream.taken_keys e (hmem e he), htext, fun key' hkey' htext' => ?_, ?_,
    Dashboard.window_lengths hls, htimes, ?_⟩
  · exact (keyText_inj (hranged.keys key' hkey') (hkeys e he)).mp (htext'.symm.trans htext)
  · rw [← hseries]
    show header.metricType = e.key.metricType
    rw [← Option.some_inj.mp hheader]
    rfl
  · rw [Dashboard.window_pairs hls, hingested, htext, received_batches (hkeys e he) hkeys,
      List.rtake]
    exact (List.drop_sublist _ _).trans
      ((samplesFor_sublist h.stream (hes.trans (List.take_sublist _ _)) e.key).map shown)

/-! ### A run that drops nothing -/

/-- Nothing is dropped in this step: a batch that is published finds the channel
of the dashboard open and with room, one that the dashboard's pump reads gets
into a frame, and a socket is closed and the store reset when nothing is lost
by it. -/
def Lossless (agentID : String) (s : State) : Action → Prop
  | .stream a => toPublish s.stream a ≠ none →
      ∃ u, s.socket = some u ∧ u ∈ (s.bus.bus.subs agentID).contents ∧
        (s.bus.bus.subscribers u).buf.length < EventBus.chanCapacity
  | .pump sub written => s.socket = some sub → written = true
  | .closeSocket => s.frames = [] ∧ s.queue = []
  | .reset => s.ingested = []
  | _ => True

/-- A step that drops nothing leaves all that was published with the dashboard,
or on its way there. -/
theorem Inv.ahead_eq {C : ℕ} {agentID : String} {s t : State} {a : Action}
    (h : Inv C agentID s) (hok : Lossless agentID s a) (ht : Pipeline.step agentID s a = some t)
    (hall : s.ahead = s.stream.published) : t.ahead = t.stream.published := by
  -- a call on the bus that is not about the dashboard
  have hother : ∀ bus, SameFor s bus →
      State.ahead { s with bus := bus } = s.stream.published := by
    intro bus hsame
    rw [State.ahead, hsame.queue_eq]
    exact hall
  cases a with
  | stream a =>
    obtain ⟨stream, hstream, rfl⟩ := Option.map_eq_some_iff.mp ht
    have hpublished := published_of_step hstream
    cases hpub : toPublish s.stream a with
    | none =>
      rw [hpub, Option.toList_none, List.append_nil] at hpublished
      exact hall.trans hpublished.symm
    | some batch =>
      obtain ⟨u, hu, hmem, hroom⟩ := hok (by simp [hpub])
      rw [hpub, Option.toList_some] at hpublished
      have hqueue : State.queue
          { s with stream := stream, bus := Subscription.publish s.bus agentID batch }
          = s.queue ++ [batch] := by
        rw [State.queue, State.queue]
        dsimp only
        rw [hu]
        dsimp only
        rw [subscribers_publish h.bus, if_pos hmem, Mailbox.enqueue, if_pos hroom]
      show s.ingested ++ s.frames ++ _ = stream.published
      rw [hqueue, hpublished, ← hall, State.ahead, List.append_assoc, List.append_assoc,
        List.append_assoc]
  | publishOther other batch =>
    simp only [Pipeline.step] at ht
    split at ht
    · exact absurd ht (by simp)
    · rename_i hne
      cases ht
      exact hother _ (h.sameFor_publishOther hne batch)
  | subscribe other spare =>
    rw [Pipeline.step, Option.map_eq_some_iff] at ht
    obtain ⟨bus, hbus, rfl⟩ := ht
    exact hother bus (h.sameFor_subscribe hbus)
  | unsubscribe sub =>
    obtain ⟨bus, hbus, rfl⟩ := Option.map_eq_some_iff.mp ht
    exact hother bus (sameFor_unsubscribe hbus)
  | pump sub written =>
    simp only [Pipeline.step] at ht
    split at ht
    · exact absurd ht (by simp)
    · rename_i batch rest hbuf
      obtain ⟨bus, hbus, rfl⟩ := Option.map_eq_some_iff.mp ht
      have heq : bus.bus = s.bus.bus.setBuf sub rest := by
        simp only [Subscription.step, hbuf] at hbus
        cases hbus
        rfl
      by_cases hmine : s.socket = some sub
      · -- the batch leaves the channel and is the last of the frames
        rw [if_pos ⟨hok hmine, hmine⟩]
        rw [State.ahead, State.queue, hmine] at hall
        dsimp only at hall
        rw [State.ahead, State.queue]
        dsimp only
        rw [hmine, heq]
        dsimp only
        rw [← hall, hbuf]
        simp [EventBus.setBuf]
      · rw [if_neg fun hand => hmine hand.2]
        refine hother bus fun u hu => ?_
        have hne : u ≠ sub := fun hus => hmine (hus ▸ hu)
        rw [heq]
        simp [EventBus.setBuf, hne]
  | openSocket spare =>
    simp only [Pipeline.step] at ht
    split at ht
    · exact absurd ht (by simp)
    · rename_i hsocket
      obtain ⟨bus, hbus, rfl⟩ := Option.map_eq_some_iff.mp ht
      have hnew : bus.bus.subscribers s.bus.bus.next = { agentID := agentID } := by
        cases hbus
        exact Function.update_self _ _ _
      rw [State.ahead, State.queue, hsocket] at hall
      rw [State.ahead, State.queue]
      dsimp only
      rw [hnew]
      exact hall
  | closeSocket =>
    cases ht
    obtain ⟨hframes, hqueue⟩ := hok
    rw [State.ahead, hframes, hqueue] at hall
    exact hall
  | message =>
    simp only [Pipeline.step] at ht
    split at ht
    · exact absurd ht (by simp)
    · rename_i batch frames hframes
      cases ht
      rw [State.ahead, hframes] at hall
      show s.ingested ++ [batch] ++ frames ++ s.queue = _
      rw [← hall, List.append_assoc s.ingested [batch] frames, List.singleton_append]
  | reset =>
    cases ht
    have hingested : s.ingested = [] := hok
    rw [State.ahead, hingested] at hall
    exact hall

theorem ahead_of_exec {C : ℕ} (hC : 1 ≤ C) {agentID : String} {as : List Action} {s : State}
    (hmeets : Run.Meets (step agentID) (Lossless agentID) (init C) as)
    (hs : Run.exec (step agentID) (init C) as = some s) : s.ahead = s.stream.published :=
  (Run.exec_invariant_of_meets (I := fun s => Inv C agentID s ∧ s.ahead = s.stream.published)
    (fun h hok ht => ⟨h.1.step ht, h.1.ahead_eq hok ht h.2⟩) ⟨inv_init hC agentID, rfl⟩
    hmeets hs).2

/-- **And nothing else is missing.**  In a run that drops nothing, for a series
that has not overflowed, what the dashboard has or will get of it are the first
`n` samples pushed, and what the agent has let go of is among them; the live
series shows the first `m` of these, as far as its 600 points go, and it shows
all `n` when nothing is on its way. -/
theorem shown_is_prefix {C : ℕ} (hC : 1 ≤ C) {agentID : String} {as : List Action} {s : State}
    (has : AddsRanged as) (hmeets : Run.Meets (step agentID) (Lossless agentID) (init C) as)
    (hs : Run.exec (step agentID) (init C) as = some s) {key : BufferKey}
    (hkey : key ∈ s.stream.buffer.getAllKeys) (hover : s.stream.overflowed key = []) :
    ∃ m n, m ≤ n ∧ s.stream.tail key ≤ n ∧ n ≤ (s.stream.pushed key).length ∧
      Dashboard.received (keyText key) s.ahead = ((s.stream.pushed key).take n).map shown ∧
      (∀ ls, s.series (keyText key) = some ls →
        ls.times.zip ls.values
          = (((s.stream.pushed key).take m).map shown).rtake Dashboard.maxPoints) ∧
      (s.series (keyText key) = none → m = 0) ∧
      (s.frames = [] → s.queue = [] → m = n) := by
  have h : Inv C agentID s := inv_of_exec hC hs
  have hranged : Ranged s.stream := ranged_of_exec has hs
  have hkeys : ∀ e ∈ s.stream.taken.take s.stream.published.length, HeaderKeeps e.key :=
    fun e he => hranged.keys e.key (h.stream.taken_keys e (List.mem_of_mem_take he))
  obtain ⟨n, htail, hsamples⟩ := samplesFor_published h.stream hover
  -- an index past the end of the list takes no more than the list
  obtain ⟨n, hn, htail, hsamples⟩ : ∃ n' ≤ (s.stream.pushed key).length, s.stream.tail key ≤ n' ∧
      samplesFor key (s.stream.taken.take s.stream.published.length)
        = (s.stream.pushed key).take n' := by
    refine ⟨min n (s.stream.pushed key).length, min_le_right _ _, le_min htail ?_, ?_⟩
    · exact (h.stream.keeps key).tail_le.trans_eq (h.stream.keeps key).head_eq
    · rw [hsamples, List.take_eq_take_min]
  have hahead : Dashboard.received (keyText key) s.ahead
      = ((s.stream.pushed key).take n).map shown := by
    rw [ahead_of_exec hC hmeets hs, h.stream.published_eq,
      received_batches (hranged.keys key hkey) hkeys, hsamples]
  have hsplit : Dashboard.received (keyText key) s.ahead
      = Dashboard.received (keyText key) s.ingested
        ++ Dashboard.received (keyText key) (s.frames ++ s.queue) := by
    rw [State.ahead, List.append_assoc, Dashboard.received, List.flatMap_append]
    rfl
  have hlength : n = (Dashboard.received (keyText key) s.ingested).length
      + (Dashboard.received (keyText key) (s.frames ++ s.queue)).length := by
    have hlen := congrArg List.length (hahead.symm.trans hsplit)
    rwa [List.length_map, List.length_take, min_eq_left hn, List.length_append] at hlen
  obtain ⟨m, hm⟩ : ∃ m, m = (Dashboard.received (keyText key) s.ingested).length := ⟨_, rfl⟩
  have hle : m ≤ n := by omega
  have hingested : Dashboard.received (keyText key) s.ingested
      = ((s.stream.pushed key).take m).map shown := by
    have htake := congrArg (List.take m) (hahead.symm.trans hsplit)
    rw [List.take_left' hm.symm, ← List.map_take, List.take_take, min_eq_left hle] at htake
    exact htake.symm
  refine ⟨m, n, hle, htail, hn, hahead, fun ls hls => ?_, fun hnone => ?_, fun hframes hqueue => ?_⟩
  · rw [h.series_eq] at hls
    rw [Dashboard.window_pairs hls, hingested]
  · rw [h.series_eq, Dashboard.window, Option.map_eq_none_iff] at hnone
    rw [hm, Dashboard.received_eq_nil hnone]
    rfl
  · rw [hframes, hqueue] at hlength
    rw [hlength, hm]
    rfl

/-- One temperature of the GPU, from the agent to its batch at the server. -/
def oneSample : List Action :=
  [.openSocket 0,
    .stream (.addMetrics [{ type := metricTypeGpuTemperature, value := 40, timestamp := 1 }]),
    .stream .addMetric] ++ List.replicate 10 (.stream .poll)

theorem meets_oneSample : Run.Meets (step "a") (Lossless "a") (init 1)
    ((oneSample ++ [.stream .server]) ++ [.stream .server, .pump 0 true, .message]) := by
  refine Run.meets_append.mpr ⟨Run.meets_append.mpr ⟨Run.meets_of_forall ?_ _, ?_⟩, ?_⟩
  · intro a ha s
    simp only [oneSample, List.mem_append, List.mem_cons, List.mem_replicate, List.not_mem_nil,
      or_false] at ha
    obtain (rfl | rfl | rfl) | ⟨-, rfl⟩ := ha
    · trivial
    all_goals exact fun hpub => absurd rfl hpub
  · -- the handler receives the batch
    intro t ht
    have hpub : (Run.exec (step "a") (init 1) oneSample).map
        (fun t => toPublish t.stream .server) = some none := rfl
    rw [ht] at hpub
    exact ⟨fun hne => absurd (Option.some_inj.mp hpub) hne, fun _ _ => trivial⟩
  · -- and publishes it while the dashboard's channel is empty
    intro t ht
    have hsocket : (Run.exec (step "a") (init 1) (oneSample ++ [.stream .server])).map
        (fun t => (t.socket, (t.bus.bus.subs "a").contents, (t.bus.bus.subscribers 0).buf))
          = some (some 0, [0], []) := rfl
    rw [ht] at hsocket
    simp only [Option.map_some, Option.some_inj, Prod.mk.injEq] at hsocket
    obtain ⟨hsocket, hmem, hbuf⟩ := hsocket
    refine ⟨fun _ => ⟨0, hsocket, ?_, ?_⟩, fun t' _ => ⟨fun _ => rfl, fun _ _ => ⟨trivial, ?_⟩⟩⟩
    · rw [hmem]
      exact List.mem_singleton_self 0
    · rw [hbuf]
      exact Nat.succ_pos 15
    · exact fun _ _ => trivial

theorem shown_is_prefix_oneSample :
    ∃ s, Run.exec (step "a") (init 1)
        ((oneSample ++ [.stream .server]) ++ [.stream .server, .pump 0 true, .message]) = some s ∧
      ∃ m n, m ≤ n ∧
        Dashboard.received (keyText { metricType := metricTypeGpuTemperature }) s.ahead
          = ((s.stream.pushed { metricType := metricTypeGpuTemperature }).take n).map shown ∧
        (s.frames = [] → s.queue = [] → m = n) := by
  have hrun : (Run.exec (step "a") (init 1)
      ((oneSample ++ [.stream .server]) ++ [.stream .server, .pump 0 true, .message])).map
      (fun s => (s.stream.overflowed { metricType := metricTypeGpuTemperature },
        s.stream.buffer.getAllKeys)) = some ([], [{ metricType := metricTypeGpuTemperature }]) :=
    rfl
  obtain ⟨s, hs, heq⟩ := Option.map_eq_some_iff.mp hrun
  obtain ⟨hover, hkeys⟩ := Prod.mk.injEq _ _ _ _ ▸ heq
  have has : AddsRanged
      ((oneSample ++ [.stream .server]) ++ [.stream .server, .pump 0 true, .message]) := by
    intro metrics hmem metric hmetric
    simp [oneSample] at hmem
    rw [hmem, List.mem_singleton] at hmetric
    rw [hmetric]
    trivial
  have hkey : { metricType := metricTypeGpuTemperature } ∈ s.stream.buffer.getAllKeys := by
    rw [hkeys]
    simp
  obtain ⟨m, n, hle, -, -, hahead, -, -, hall⟩ := shown_is_prefix (le_refl 1) has meets_oneSample
    hs hkey hover
  exact ⟨s, hs, m, n, hle, hahead, hall⟩

end Pipeline
end Volta
