/-
The sample ring of one series (`SeriesBuffer` in `buffer.h` and `buffer.cc`).

`head` and `tail` count samples since the last resize; the sample number `i`
is in slot `i % capacity`.  Both counters are naturals (a series is taken to
see fewer than 2^64 pushes), but their difference is the `size_t` difference
of the source, which wraps when `tail` is ahead.

* `Keeps b xs` — what a buffer of positive capacity knows of the list `xs` of
  all samples pushed: kept by `push` and by acknowledging any snapshot that
  ends within `xs`;
* `Keeps.getSnapshot_eq`, `Keeps.latest_eq` — what its readers then return;
* `Log` — the purpose of the buffer: the whole list, and how much of it has
  been acknowledged;
* `seriesBuffer_refines_log` — under any client the ring answers as the list.
-/
import Volta.Run
import Volta.Circular
import Volta.Metric
import Mathlib.Algebra.Group.Nat.Defs
import Mathlib.Order.Lattice
import Mathlib.Order.Nat

namespace Volta

structure Sample where
  timestampNs : Int64 := 0
  value : Double := 0
  deriving DecidableEq

instance : Inhabited Sample := ⟨{}⟩

/-- Difference of two `size_t`. -/
def sizeSub (a b : ℕ) : ℕ := if b ≤ a then a - b else a + 2 ^ 64 - b

@[simp] theorem sizeSub_of_le {a b : ℕ} (h : b ≤ a) : sizeSub a b = a - b := if_pos h

structure SeriesBuffer where
  capacity : ℕ := 0
  samples : List Sample := []
  head : ℕ := 0
  tail : ℕ := 0
  samples_length : samples.length = capacity

namespace SeriesBuffer

structure Snapshot where
  samples : List Sample
  «end» : ℕ
  deriving DecidableEq

/-- `SetCapacity` empties the slots and restarts `head`; `tail` stays. -/
def setCapacity (b : SeriesBuffer) (capacity : ℕ) : SeriesBuffer where
  capacity := capacity
  samples := List.replicate capacity default
  head := 0
  tail := b.tail
  samples_length := List.length_replicate

/-- The constructor. -/
def ofCapacity (capacity : ℕ) : SeriesBuffer :=
  setCapacity { samples_length := rfl } capacity

def push (b : SeriesBuffer) (sample : Sample) : SeriesBuffer :=
  if b.capacity = 0 then b
  else
    { capacity := b.capacity
      samples := b.samples.set (b.head % b.capacity) sample
      head := b.head + 1
      -- a full ring drops the oldest unsent sample
      tail := if sizeSub b.head b.tail ≥ b.capacity then b.tail + 1 else b.tail
      samples_length := by rw [List.length_set, b.samples_length] }

def latest (b : SeriesBuffer) : Option Sample :=
  if b.head = 0 then none
  else some (b.samples.getD ((b.head - 1) % b.capacity) default)

def getNextSnapshotSize (b : SeriesBuffer) : ℕ := sizeSub b.head b.tail

/-- `none` is the `std::length_error` of `reserve` when `head - tail` wraps. -/
def getSnapshot (b : SeriesBuffer) : Option Snapshot :=
  if b.head < b.tail then none
  else
    some
      { samples := (List.range' b.tail (b.head - b.tail)).map fun i =>
          b.samples.getD (i % b.capacity) default
        «end» := b.head }

def ackSnapshot (b : SeriesBuffer) (snapshot : Snapshot) : SeriesBuffer :=
  if snapshot.end > b.tail then { b with tail := snapshot.end } else b

/-! ### What the ring keeps of the pushed list -/

/-- `b` is a buffer of positive capacity to which `xs` has been pushed. -/
structure Keeps (b : SeriesBuffer) (xs : List Sample) : Prop where
  capacity_pos : 0 < b.capacity
  head_eq : b.head = xs.length
  tail_le : b.tail ≤ b.head
  head_le : b.head ≤ b.tail + b.capacity
  holds : Circular.Holds b.samples xs

theorem keeps_ofCapacity {capacity : ℕ} (h : 0 < capacity) : Keeps (ofCapacity capacity) [] where
  capacity_pos := h
  head_eq := rfl
  tail_le := Nat.le_refl 0
  head_le := Nat.zero_le _
  holds := Circular.holds_nil _

@[simp] theorem push_capacity (b : SeriesBuffer) (x : Sample) :
    (b.push x).capacity = b.capacity := by
  rw [push]
  split <;> rfl

@[simp] theorem ackSnapshot_capacity (b : SeriesBuffer) (snap : Snapshot) :
    (b.ackSnapshot snap).capacity = b.capacity := by
  rw [ackSnapshot]
  split <;> rfl

/-- With a slot to put it in, a pushed sample is the latest. -/
theorem latest_push {b : SeriesBuffer} (h : 0 < b.capacity) (x : Sample) :
    (b.push x).latest = some x := by
  have hslot : b.head % b.capacity < b.samples.length := by
    rw [b.samples_length]
    exact Nat.mod_lt _ h
  simp only [push, latest, if_neg h.ne', if_neg (Nat.succ_ne_zero b.head), Nat.add_sub_cancel,
    List.getD_eq_getElem?_getD, List.getElem?_set_self hslot, Option.getD_some]

theorem ackSnapshot_tail (b : SeriesBuffer) (snap : Snapshot) :
    (b.ackSnapshot snap).tail = max b.tail snap.end := by
  rw [ackSnapshot]
  split
  · rename_i hgt
    exact (max_eq_right hgt.le).symm
  · rename_i hle
    exact (max_eq_left (not_lt.mp hle)).symm

namespace Keeps

variable {b : SeriesBuffer} {xs : List Sample}

/-- `Push` moves `tail` exactly when the ring is full, and then by one. -/
theorem push_tail (h : Keeps b xs) (x : Sample) :
    (b.push x).tail = if b.head = b.tail + b.capacity then b.tail + 1 else b.tail := by
  have hpos := h.capacity_pos
  have htl := h.tail_le
  have hhl := h.head_le
  have hfull : sizeSub b.head b.tail ≥ b.capacity ↔ b.head = b.tail + b.capacity := by
    rw [sizeSub_of_le htl]
    omega
  simp only [push, if_neg hpos.ne', hfull]

theorem push (h : Keeps b xs) (x : Sample) : Keeps (b.push x) (xs ++ [x]) := by
  have hpos := h.capacity_pos
  have hne : b.capacity ≠ 0 := hpos.ne'
  have htl := h.tail_le
  have hhl := h.head_le
  have htail := h.push_tail x
  have hhead : (b.push x).head = b.head + 1 := by simp only [SeriesBuffer.push, if_neg hne]
  refine ⟨?_, ?_, ?_, ?_, ?_⟩
  · rwa [push_capacity]
  · rw [hhead, h.head_eq, List.length_append, List.length_singleton]
  · rw [htail, hhead]
    split <;> omega
  · rw [htail, hhead, push_capacity]
    split <;> omega
  · have hset : (b.push x).samples = b.samples.set (xs.length % b.samples.length) x := by
      simp only [SeriesBuffer.push, if_neg hne, h.head_eq, b.samples_length]
    rw [hset]
    exact h.holds.push (by rwa [b.samples_length]) x

theorem ackSnapshot (h : Keeps b xs) {snap : Snapshot} (hend : snap.end ≤ xs.length) :
    Keeps (b.ackSnapshot snap) xs := by
  have htl := h.tail_le
  have hhl := h.head_le
  have hhd := h.head_eq
  rw [SeriesBuffer.ackSnapshot]
  split
  · exact ⟨h.capacity_pos, hhd, by dsimp only; omega, by dsimp only; omega, h.holds⟩
  · exact h

theorem getNextSnapshotSize_eq (h : Keeps b xs) :
    b.getNextSnapshotSize = (xs.drop b.tail).length := by
  rw [getNextSnapshotSize, sizeSub_of_le h.tail_le, List.length_drop, h.head_eq]

theorem getSnapshot_eq (h : Keeps b xs) :
    b.getSnapshot = some ⟨xs.drop b.tail, xs.length⟩ := by
  have hread : Circular.readFrom default b.samples b.tail xs.length = xs.drop b.tail :=
    h.holds.readFrom_eq default (by rw [b.samples_length, ← h.head_eq]; exact h.head_le)
  rw [getSnapshot, if_neg (by exact Nat.not_lt.mpr h.tail_le), ← hread, Circular.readFrom,
    b.samples_length, h.head_eq]

theorem latest_eq (h : Keeps b xs) : b.latest = xs.getLast? := by
  have hpos := h.capacity_pos
  rcases Nat.eq_zero_or_pos xs.length with h0 | hlen
  · rw [List.eq_nil_of_length_eq_zero h0, latest, if_pos (by rw [h.head_eq, h0])]
    rfl
  · have hget : b.samples.getD ((xs.length - 1) % b.capacity) default = xs[xs.length - 1] := by
      rw [← b.samples_length]
      exact h.holds.getD_eq default (by omega) (by rw [b.samples_length]; omega)
    rw [latest, h.head_eq, if_neg hlen.ne', hget, List.getLast?_eq_getElem?,
      List.getElem?_eq_getElem (by omega)]

end Keeps

end SeriesBuffer

/-! ### The list a series buffer stands for -/

/-- The operations of a sample buffer. -/
structure BufferOps (β : Type) where
  push : β → Sample → β
  latest : β → Option Sample
  getNextSnapshotSize : β → ℕ
  getSnapshot : β → Option SeriesBuffer.Snapshot
  ackSnapshot : β → SeriesBuffer.Snapshot → β

/-- The purpose of a series buffer of the given capacity: all samples ever
pushed, and the largest `end` acknowledged so far. -/
structure Log where
  capacity : ℕ
  xs : List Sample := []
  acked : ℕ := 0

namespace Log

/-- What is neither acknowledged nor older than the last `capacity` samples. -/
def unsent (l : Log) : List Sample := l.xs.drop (max l.acked (l.xs.length - l.capacity))

def ops : BufferOps Log where
  push l x := { l with xs := l.xs ++ [x] }
  latest l := l.xs.getLast?
  getNextSnapshotSize l := l.unsent.length
  getSnapshot l := some ⟨l.unsent, l.xs.length⟩
  ackSnapshot l snap := { l with acked := max l.acked snap.end }

end Log

namespace SeriesBuffer

def ops : BufferOps SeriesBuffer where
  push := push
  latest := latest
  getNextSnapshotSize := getNextSnapshotSize
  getSnapshot := getSnapshot
  ackSnapshot := ackSnapshot

/-- `ackSnapshot i` acknowledges the snapshot that the `i`-th successful
`getSnapshot` returned; it may come late and more than once. -/
inductive Call where
  | push (sample : Sample)
  | getSnapshot
  | getNextSnapshotSize
  | latest
  | ackSnapshot (i : ℕ)

inductive Answer where
  | snapshot (result : Option Snapshot)
  | size (n : ℕ)
  | latest (sample : Option Sample)

/-- A buffer and its client: the snapshots it holds and all answers it got. -/
structure Client (β : Type) where
  buf : β
  taken : List Snapshot := []
  answers : List Answer := []

def Client.call {β : Type} (ops : BufferOps β) (c : Client β) : Call → Option (Client β)
  | .push sample => some { c with buf := ops.push c.buf sample }
  | .getSnapshot => some
      { c with
        taken := c.taken ++ (ops.getSnapshot c.buf).toList
        answers := c.answers ++ [.snapshot (ops.getSnapshot c.buf)] }
  | .getNextSnapshotSize => some
      { c with answers := c.answers ++ [.size (ops.getNextSnapshotSize c.buf)] }
  | .latest => some { c with answers := c.answers ++ [.latest (ops.latest c.buf)] }
  | .ackSnapshot i =>
      c.taken[i]?.map fun snap => { c with buf := ops.ackSnapshot c.buf snap }

/-- The ring `b` represents the log `l`. -/
structure Represents (b : SeriesBuffer) (l : Log) : Prop where
  keeps : Keeps b l.xs
  capacity_eq : l.capacity = b.capacity
  tail_eq : b.tail = max l.acked (l.xs.length - l.capacity)

namespace Represents

variable {b : SeriesBuffer} {l : Log}

theorem unsent_eq (h : Represents b l) : l.unsent = l.xs.drop b.tail := by
  rw [Log.unsent, h.tail_eq]

theorem push (h : Represents b l) (x : Sample) :
    Represents (b.push x) (Log.ops.push l x) where
  keeps := h.keeps.push x
  capacity_eq := by
    rw [push_capacity]
    exact h.capacity_eq
  tail_eq := by
    have hhd := h.keeps.head_eq
    have htl := h.keeps.tail_le
    have hhl := h.keeps.head_le
    have hteq := h.tail_eq
    have hcap := h.capacity_eq
    rw [h.keeps.push_tail x]
    simp only [Log.ops, List.length_append, List.length_singleton]
    split <;> omega

theorem ackSnapshot (h : Represents b l) {snap : Snapshot} (hend : snap.end ≤ l.xs.length) :
    Represents (b.ackSnapshot snap) (Log.ops.ackSnapshot l snap) where
  keeps := h.keeps.ackSnapshot hend
  capacity_eq := by
    rw [ackSnapshot_capacity]
    exact h.capacity_eq
  tail_eq := by
    rw [ackSnapshot_tail, h.tail_eq]
    simp only [Log.ops]
    omega

end Represents

/-- Clients of a ring and of the log it represents that got the same answers. -/
structure SameClient (capacity : ℕ) (c : Client SeriesBuffer) (d : Client Log) : Prop where
  capacity_eq : c.buf.capacity = capacity
  represents : Represents c.buf d.buf
  taken_eq : c.taken = d.taken
  answers_eq : c.answers = d.answers
  end_le : ∀ snap ∈ c.taken, snap.end ≤ d.buf.xs.length

theorem SameClient.call {capacity : ℕ} {c : Client SeriesBuffer} {d : Client Log}
    (h : SameClient capacity c d) (a : Call) :
    Option.Rel (SameClient capacity) (c.call ops a) (d.call Log.ops a) := by
  have hk := h.represents.keeps
  have hu := h.represents.unsent_eq
  cases a with
  | push x =>
    refine .some ⟨(push_capacity _ x).trans h.capacity_eq, h.represents.push x, h.taken_eq,
      h.answers_eq, fun snap hsnap => ?_⟩
    simp only [Log.ops, List.length_append]
    exact (h.end_le snap hsnap).trans (Nat.le_add_right _ _)
  | getSnapshot =>
    have hsnap : c.buf.getSnapshot = Log.ops.getSnapshot d.buf := by
      rw [hk.getSnapshot_eq, ← hu]
      rfl
    refine .some ⟨h.capacity_eq, h.represents, ?_, ?_, ?_⟩
    · simp only [ops, hsnap, h.taken_eq]
    · simp only [ops, hsnap, h.answers_eq]
    · intro snap hmem
      simp only [ops, hsnap, Log.ops, Option.toList_some, List.mem_append,
        List.mem_singleton] at hmem
      rcases hmem with hmem | rfl
      · exact h.end_le snap hmem
      · exact Nat.le_refl _
  | getNextSnapshotSize =>
    refine .some ⟨h.capacity_eq, h.represents, h.taken_eq, ?_, h.end_le⟩
    simp only [ops, Log.ops, h.answers_eq, hk.getNextSnapshotSize_eq, hu]
  | latest =>
    refine .some ⟨h.capacity_eq, h.represents, h.taken_eq, ?_, h.end_le⟩
    simp only [ops, Log.ops, h.answers_eq, hk.latest_eq]
  | ackSnapshot i =>
    simp only [Client.call, ← h.taken_eq]
    cases hi : c.taken[i]? with
    | none => exact .none
    | some snap =>
      have hend : snap.end ≤ d.buf.xs.length := h.end_le snap (List.mem_of_getElem? hi)
      exact .some ⟨(ackSnapshot_capacity _ snap).trans h.capacity_eq,
        h.represents.ackSnapshot hend, rfl, h.answers_eq, h.end_le⟩

theorem sameClient_init {capacity : ℕ} (h : 0 < capacity) :
    SameClient capacity { buf := ofCapacity capacity } { buf := { capacity := capacity } } where
  capacity_eq := rfl
  represents := ⟨keeps_ofCapacity h, rfl, by simp [ofCapacity, setCapacity]⟩
  taken_eq := rfl
  answers_eq := rfl
  end_le := by simp

/-- **A series buffer refines its log.**  Whatever a client calls, the ring
gives the answers that the list of all pushed samples gives, is able to take a
call exactly when the list is, and its window never exceeds the capacity. -/
theorem seriesBuffer_refines_log {capacity : ℕ} (hcap : 1 ≤ capacity) (calls : List Call) :
    ((Run.exec (Client.call ops) { buf := ofCapacity capacity } calls).map fun c => c.answers)
      = ((Run.exec (Client.call Log.ops) { buf := { capacity := capacity } } calls).map
          fun d => d.answers) ∧
    ∀ c, Run.exec (Client.call ops) { buf := ofCapacity capacity } calls = some c →
      c.buf.tail ≤ c.buf.head ∧ c.buf.head - c.buf.tail ≤ capacity := by
  have hrel := Run.exec_rel (fun a h => SameClient.call h a) calls (sameClient_init hcap)
  refine ⟨Run.map_eq_of_rel (fun h => h.answers_eq) hrel, fun c hc => ?_⟩
  rw [hc] at hrel
  obtain ⟨d, -, h⟩ := Run.exists_of_rel_some hrel
  have hk := h.represents.keeps
  have hle := hk.head_le
  rw [h.capacity_eq] at hle
  exact ⟨hk.tail_le, Nat.sub_le_iff_le_add'.mpr hle⟩

/-- A ring of two slots, overrun before and after a stale acknowledgement. -/
theorem seriesBuffer_refines_log_two :
    1 ≤ 2 ∧ ((Run.exec (Client.call ops) { buf := ofCapacity 2 }
        [.push ⟨1, 1⟩, .getSnapshot, .push ⟨2, 2⟩, .push ⟨3, 3⟩, .ackSnapshot 0,
          .getSnapshot]).map fun c => c.answers)
      = ((Run.exec (Client.call Log.ops) { buf := { capacity := 2 } }
        [.push ⟨1, 1⟩, .getSnapshot, .push ⟨2, 2⟩, .push ⟨3, 3⟩, .ackSnapshot 0,
          .getSnapshot]).map fun d => d.answers) :=
  ⟨by decide, (seriesBuffer_refines_log (by decide) _).1⟩

end SeriesBuffer
end Volta
