/-
Resizing a series (`SeriesBuffer::SetCapacity` and
`MetricsBuffer::SetCapacityPerSeries` in `buffer.cc`).

A resized buffer is run next to a new one that gets the same calls, except the
acknowledgements of snapshots taken before the resize, and next to the log of
the samples pushed since.

* `AsFresh` — the resized buffer answers as the new one, and its window and its
  unsent samples are those of the log;
* `Lockstep` — what keeps it so: the two buffers are equal;
* `asFresh_iff` — a run keeps it exactly when the buffer was resized with its
  `tail` at 0 and every old acknowledgement comes too late to move the `tail`.
-/
import Volta.MetricsBuffer

namespace Volta
namespace SeriesBuffer

/-- What a call is to a buffer made at the resize, `old` snapshots having been
taken before. -/
def sinceResize (old : ℕ) : Call → Option Call
  | .ackSnapshot i => if i < old then none else some (.ackSnapshot (i - old))
  | call => some call

def Client.next {β : Type} (ops : BufferOps β) (c : Client β) (call : Option Call) : Client β :=
  (call.bind (c.call ops)).getD c

structure Resized where
  client : Client SeriesBuffer
  old : ℕ
  fresh : Client SeriesBuffer
  log : Client Log

def resize (k : Client SeriesBuffer) (capacity : ℕ) : Resized where
  client := { k with buf := k.buf.setCapacity capacity }
  old := k.taken.length
  fresh := { buf := ofCapacity capacity }
  log := { buf := { capacity := capacity } }

def Resized.call (s : Resized) (a : Call) : Option Resized :=
  (s.client.call ops a).map fun client =>
    { client := client
      old := s.old
      fresh := s.fresh.next ops (sinceResize s.old a)
      log := s.log.next Log.ops (sinceResize s.old a) }

/-- The resized buffer is as good as new: the window does not wrap, the readers
answer alike, and the snapshot is what has been pushed since the resize and is
neither acknowledged since nor overrun. -/
structure AsFresh (s : Resized) : Prop where
  tail_le : s.client.buf.tail ≤ s.client.buf.head
  window_le : s.client.buf.head - s.client.buf.tail ≤ s.client.buf.capacity
  getSnapshot_eq : s.client.buf.getSnapshot = s.fresh.buf.getSnapshot
  getNextSnapshotSize_eq : s.client.buf.getNextSnapshotSize = s.fresh.buf.getNextSnapshotSize
  latest_eq : s.client.buf.latest = s.fresh.buf.latest
  unsent_eq : s.client.buf.getSnapshot.map (fun snap => snap.samples) = some s.log.buf.unsent

/-- An acknowledgement of a snapshot taken before the resize ends within what
the current `tail` has passed. -/
def OldAckIsStale (s : Resized) : Call → Prop
  | .ackSnapshot i =>
      i < s.old → ∀ snap, s.client.taken[i]? = some snap → snap.end ≤ s.client.buf.tail
  | _ => True

/-! ### The new buffer and its log -/

theorem SameClient.next {capacity : ℕ} {c : Client SeriesBuffer} {d : Client Log}
    (h : SameClient capacity c d) (call : Option Call) :
    SameClient capacity (c.next ops call) (d.next Log.ops call) := by
  rcases call with _ | a
  · exact h
  · have hrel := h.call a
    simp only [Client.next, Option.bind_some]
    revert hrel
    cases c.call ops a <;> cases d.call Log.ops a <;> intro hrel <;> cases hrel
    · exact h
    · rename_i hnext
      exact hnext

/-- A buffer without slots and its log, in which every sample is overrun. -/
structure Slotless (c : Client SeriesBuffer) (d : Client Log) : Prop where
  buf_eq : c.buf = ofCapacity 0
  capacity_eq : d.buf.capacity = 0
  end_eq : ∀ snap ∈ c.taken, snap.end = 0

theorem capacity_next (d : Client Log) (call : Option Call) :
    (d.next Log.ops call).buf.capacity = d.buf.capacity := by
  rcases call with _ | a
  · rfl
  · cases a with
    | ackSnapshot i =>
      simp only [Client.next, Option.bind_some, Client.call]
      cases d.taken[i]? with
      | none => rfl
      | some snap => rfl
    | _ => rfl

/-- `Push` returns at once and no snapshot ends above 0. -/
theorem Slotless.next {c : Client SeriesBuffer} {d : Client Log} (h : Slotless c d)
    (call : Option Call) : Slotless (c.next ops call) (d.next Log.ops call) := by
  have hbuf := h.buf_eq
  have hcap := (capacity_next d call).trans h.capacity_eq
  rcases call with _ | a
  · exact h
  · cases a with
    | push x =>
      have hpush : c.buf.push x = ofCapacity 0 := by rw [hbuf]; rfl
      exact ⟨hpush, hcap, h.end_eq⟩
    | getSnapshot =>
      refine ⟨hbuf, hcap, fun snap hmem => ?_⟩
      have hsnap : c.buf.getSnapshot = some ⟨[], 0⟩ := by rw [hbuf]; rfl
      simp only [Client.next, Client.call, ops, Option.bind_some, Option.getD_some, hsnap,
        Option.toList_some, List.mem_append, List.mem_singleton] at hmem
      rcases hmem with hmem | rfl
      · exact h.end_eq snap hmem
      · rfl
    | getNextSnapshotSize => exact ⟨hbuf, hcap, h.end_eq⟩
    | latest => exact ⟨hbuf, hcap, h.end_eq⟩
    | ackSnapshot i =>
      have hc : c.next ops (some (.ackSnapshot i)) = c := by
        simp only [Client.next, Option.bind_some, Client.call]
        cases hi : c.taken[i]? with
        | none => rfl
        | some snap =>
          have hend := h.end_eq snap (List.mem_of_getElem? hi)
          simp only [Option.map_some, Option.getD_some, ops, ackSnapshot, hend]
          rw [if_neg (Nat.not_lt_zero _)]
      rw [hc]
      exact ⟨hbuf, hcap, h.end_eq⟩

/-! ### The resized buffer next to the new one -/

structure Lockstep (capacity : ℕ) (s : Resized) : Prop where
  buf_eq : s.client.buf = s.fresh.buf
  old_le : s.old ≤ s.client.taken.length
  taken_eq : s.client.taken.drop s.old = s.fresh.taken
  tracks : SameClient capacity s.fresh s.log ∨ Slotless s.fresh s.log

theorem lockstep_resize {k : Client SeriesBuffer} (htail : k.buf.tail = 0) (capacity : ℕ) :
    Lockstep capacity (resize k capacity) where
  buf_eq := by
    simp only [resize, setCapacity, ofCapacity, htail]
  old_le := Nat.le_refl _
  taken_eq := List.drop_length
  tracks := by
    rcases Nat.eq_zero_or_pos capacity with rfl | hpos
    · exact .inr ⟨rfl, rfl, fun _ h => absurd h List.not_mem_nil⟩
    · exact .inl (sameClient_init hpos)

theorem Lockstep.asFresh {capacity : ℕ} {s : Resized} (h : Lockstep capacity s) : AsFresh s := by
  have hbuf := h.buf_eq
  rcases h.tracks with hsame | hslotless
  · have hkeeps := hsame.represents.keeps
    have hle := hkeeps.head_le
    refine ⟨?_, ?_, by rw [hbuf], by rw [hbuf], by rw [hbuf], ?_⟩
    · rw [hbuf]
      exact hkeeps.tail_le
    · rw [hbuf]
      omega
    · rw [hbuf, hkeeps.getSnapshot_eq, ← hsame.represents.unsent_eq]
      rfl
  · have hempty := hslotless.buf_eq
    refine ⟨?_, ?_, by rw [hbuf], by rw [hbuf], by rw [hbuf], ?_⟩
    · rw [hbuf, hempty]
      exact Nat.le_refl 0
    · rw [hbuf, hempty]
      exact Nat.zero_le _
    · rw [hbuf, hempty, Log.unsent, hslotless.capacity_eq, List.drop_of_length_le (by omega)]
      rfl

/-- The two buffers take the same call, the old snapshots being passed over. -/
theorem Lockstep.call {capacity : ℕ} {s t : Resized} {a : Call} (h : Lockstep capacity s)
    (hok : OldAckIsStale s a) (hcall : s.call a = some t) : Lockstep capacity t := by
  obtain ⟨client, hclient, rfl⟩ := Option.map_eq_some_iff.mp hcall
  have hbuf := h.buf_eq
  have htracks : SameClient capacity (s.fresh.next ops (sinceResize s.old a))
      (s.log.next Log.ops (sinceResize s.old a)) ∨
      Slotless (s.fresh.next ops (sinceResize s.old a))
      (s.log.next Log.ops (sinceResize s.old a)) :=
    h.tracks.imp (fun hsame => hsame.next _) (fun hslotless => hslotless.next _)
  cases a with
  | push x =>
    rw [Client.call, Option.some_inj] at hclient
    subst hclient
    exact ⟨congrArg (fun b => ops.push b x) hbuf, h.old_le, h.taken_eq, htracks⟩
  | getSnapshot =>
    rw [Client.call, Option.some_inj] at hclient
    subst hclient
    refine ⟨hbuf, ?_, ?_, htracks⟩
    · exact h.old_le.trans (by simp)
    · show (s.client.taken ++ (ops.getSnapshot s.client.buf).toList).drop s.old = _
      rw [List.drop_append_of_le_length h.old_le, h.taken_eq, hbuf]
      rfl
  | getNextSnapshotSize =>
    rw [Client.call, Option.some_inj] at hclient
    subst hclient
    exact ⟨hbuf, h.old_le, h.taken_eq, htracks⟩
  | latest =>
    rw [Client.call, Option.some_inj] at hclient
    subst hclient
    exact ⟨hbuf, h.old_le, h.taken_eq, htracks⟩
  | ackSnapshot i =>
    obtain ⟨snap, hsnap, rfl⟩ := Option.map_eq_some_iff.mp hclient
    by_cases hi : i < s.old
    · -- an old snapshot: nothing moves
      have hstale := hok hi snap hsnap
      have hack : s.client.buf.ackSnapshot snap = s.client.buf := by
        rw [SeriesBuffer.ackSnapshot, if_neg (Nat.not_lt.mpr hstale)]
      simp only [sinceResize, if_pos hi] at htracks ⊢
      exact ⟨hack.trans hbuf, h.old_le, h.taken_eq, htracks⟩
    · have hnew : s.fresh.taken[i - s.old]? = some snap := by
        rw [← h.taken_eq, List.getElem?_drop, Nat.add_sub_cancel' (Nat.not_lt.mp hi), hsnap]
      simp only [sinceResize, if_neg hi] at htracks ⊢
      refine ⟨?_, h.old_le, ?_, htracks⟩
      · simp only [Client.next, Option.bind_some, Client.call, hnew, Option.map_some,
          Option.getD_some, hbuf]
      · simp only [Client.next, Option.bind_some, Client.call, hnew, Option.map_some,
          Option.getD_some]
        exact h.taken_eq

/-- An old acknowledgement that moves the `tail` hides a sample or turns the
window over. -/
theorem Lockstep.not_asFresh {capacity : ℕ} {s t : Resized} {a : Call}
    (h : Lockstep capacity s) (hno : ¬ OldAckIsStale s a) (hcall : s.call a = some t) :
    ¬ AsFresh t := by
  cases a with
  | ackSnapshot i =>
    simp only [OldAckIsStale, not_forall, not_le] at hno
    obtain ⟨hi, snap, hsnap, hlt⟩ := hno
    obtain ⟨client, hclient, rfl⟩ := Option.map_eq_some_iff.mp hcall
    simp only [Client.call, hsnap, Option.map_some, Option.some_inj] at hclient
    subst hclient
    intro hfresh
    have hack : ops.ackSnapshot s.client.buf snap = { s.client.buf with tail := snap.end } :=
      if_pos hlt
    have hle := hfresh.tail_le
    have hsize := hfresh.getNextSnapshotSize_eq
    have htail := h.asFresh.tail_le
    simp only [hack, sinceResize, if_pos hi, Client.next, Option.bind_none, Option.getD_none,
      getNextSnapshotSize, ← h.buf_eq] at hle hsize
    rw [sizeSub_of_le hle, sizeSub_of_le htail] at hsize
    omega
  | _ => exact absurd trivial hno

/-- **When a resize starts a series afresh.** -/
theorem asFresh_iff (k : Client SeriesBuffer) (capacity : ℕ) {calls : List Call} {s : Resized}
    (hs : Run.exec Resized.call (resize k capacity) calls = some s) :
    Run.Along Resized.call AsFresh (resize k capacity) calls ↔
      k.buf.tail = 0 ∧ Run.Meets Resized.call OldAckIsStale (resize k capacity) calls := by
  by_cases htail : k.buf.tail = 0
  · rw [and_iff_right htail]
    exact Run.along_iff_meets Lockstep.asFresh Lockstep.call Lockstep.not_asFresh
      (lockstep_resize htail capacity) hs
  · refine iff_of_false (fun halong => htail ?_) (fun h => htail h.1)
    exact Nat.le_zero.mp halong.head.tail_le

/-- A resize of a buffer with one sample out, and a client that acknowledges
only what it takes afterwards. -/
theorem asFresh_iff_unacked :
    let k : Client SeriesBuffer :=
      { buf := (ofCapacity 2).push ⟨1, 1⟩, taken := [⟨[⟨1, 1⟩], 1⟩] }
    let calls : List Call := [.push ⟨2, 2⟩, .getSnapshot, .ackSnapshot 1, .ackSnapshot 0]
    Run.Along Resized.call AsFresh (resize k 3) calls := by
  intro k calls
  have hs : Run.exec Resized.call (resize k 3) calls = some _ := rfl
  refine (asFresh_iff k 3 hs).mpr ⟨rfl, trivial, ?_⟩
  rintro _ ⟨⟩
  refine ⟨trivial, ?_⟩
  rintro _ ⟨⟩
  refine ⟨fun h => absurd h (by decide), ?_⟩
  rintro _ ⟨⟩
  refine ⟨fun _ snap hsnap => ?_, fun _ _ => trivial⟩
  obtain rfl : _ = snap := Option.some_inj.mp hsnap
  decide

/-- After an acknowledgement the `tail` outlives the resize; and an old
acknowledgement that comes after a push hides the new sample. -/
theorem asFresh_fails :
    (∃ k, Run.exec (Client.call ops) { buf := ofCapacity 2 }
        [.push ⟨1, 1⟩, .getSnapshot, .ackSnapshot 0] = some k ∧
      (k.buf.setCapacity 2).getNextSnapshotSize = 2 ^ 64 - 1 ∧
      (k.buf.setCapacity 2).getSnapshot = none ∧ ¬ AsFresh (resize k 2)) ∧
    ∃ k s, Run.exec (Client.call ops) { buf := ofCapacity 2 } [.push ⟨1, 1⟩, .getSnapshot]
        = some k ∧
      Run.exec Resized.call (resize k 2) [.push ⟨2, 2⟩, .ackSnapshot 0] = some s ∧
      s.client.buf.getSnapshot = some ⟨[], 1⟩ ∧ s.fresh.buf.getSnapshot = some ⟨[⟨2, 2⟩], 1⟩ := by
  refine ⟨⟨_, rfl, by decide, by decide, fun h => ?_⟩, _, _, rfl, rfl, by decide, by decide⟩
  exact absurd h.tail_le (by decide)

end SeriesBuffer

namespace MetricsBuffer

def setCapacityPerSeries (m : MetricsBuffer) (capacity : ℕ) : MetricsBuffer where
  capacityPerSeries := capacity
  series key := (m.series key).map fun b => b.setCapacity capacity
  keys := m.keys
  keys_nodup := m.keys_nodup
  mem_keys key := by rw [m.mem_keys key, Option.isSome_map]

/-- A series made later is like one made before any sample and resized. -/
theorem seriesFor_setCapacityPerSeries (m : MetricsBuffer) (capacity : ℕ) (key : BufferKey) :
    (m.setCapacityPerSeries capacity).seriesFor key = (m.seriesFor key).setCapacity capacity := by
  show ((m.series key).map fun b => b.setCapacity capacity).getD _ = _
  rw [seriesFor, getBuffer]
  cases m.series key with
  | none => rfl
  | some b => rfl

end MetricsBuffer
end Volta
