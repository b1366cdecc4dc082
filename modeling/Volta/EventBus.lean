/-
The server's event bus (`eventBus.go`).

`Publish` copies the header of the agent's subscriber slice under the read lock
and then sends to one element after another, read from the backing array
without the lock.  `Unsubscribe` removes the subscriber from the array in place
and then closes its channel.

* `Tracks p sl` — what a call of `Publish` that is under way knows of the
  agent's slice `sl`;
* `Tracks.append`, `Tracks.removeAt` — it survives every `Subscribe`, and an
  `Unsubscribe` that is `Clear` of it.
-/
import Volta.GoSlice
import Volta.Metric
import Mathlib.Data.List.Nodup
import Mathlib.Data.List.InsertIdx
import Mathlib.Order.Lattice
import Mathlib.Order.Nat

namespace Volta

structure Subscriber where
  agentID : String := ""
  /-- The batches in `ch`. -/
  buf : List MetricBatch := []
  closed : Bool := false

/-- Subscribers are numbered in the order in which they are made. -/
structure EventBus where
  subs : String → GoSlice ℕ := fun _ => .nil
  subscribers : ℕ → Subscriber := fun _ => {}
  next : ℕ := 0

/-- A call of `Publish`: the header it copied, the index it reads next, and
the subscriber it has read and not yet tried to send to. -/
structure Publish where
  agentID : String
  batch : MetricBatch
  gen : ℕ
  len : ℕ
  next : ℕ := 0
  held : Option ℕ := none
  /-- History: the subscribers it has tried to send to. -/
  sent : List ℕ := []
  /-- History: the subscribers when it copied the header. -/
  start : List ℕ

namespace EventBus

def chanCapacity : ℕ := 16

def subscribe (b : EventBus) (agentID : String) (spare : ℕ) : EventBus where
  subs := Function.update b.subs agentID ((b.subs agentID).append b.next spare)
  subscribers := Function.update b.subscribers b.next { agentID := agentID }
  next := b.next + 1

/-- The locked part of `Unsubscribe`. -/
def removeSub (b : EventBus) (sub : ℕ) : EventBus :=
  let agentID := (b.subscribers sub).agentID
  match (b.subs agentID).contents.idxOf? sub with
  | none => b
  | some i => { b with subs := Function.update b.subs agentID ((b.subs agentID).removeAt i) }

def close (b : EventBus) (sub : ℕ) : EventBus :=
  { b with
    subscribers := Function.update b.subscribers sub { b.subscribers sub with closed := true } }

def setBuf (b : EventBus) (sub : ℕ) (buf : List MetricBatch) : EventBus :=
  { b with subscribers := Function.update b.subscribers sub { b.subscribers sub with buf := buf } }

/-- A send that does not block: a full channel drops the batch. -/
def trySend (b : EventBus) (sub : ℕ) (batch : MetricBatch) : EventBus :=
  if (b.subscribers sub).buf.length < chanCapacity then
    b.setBuf sub ((b.subscribers sub).buf ++ [batch])
  else b

/-- The part of `Publish` under the read lock. -/
def publish (b : EventBus) (agentID : String) (batch : MetricBatch) : Publish where
  agentID := agentID
  batch := batch
  gen := (b.subs agentID).gen
  len := (b.subs agentID).len
  start := (b.subs agentID).contents

/-! ### Who is subscribed -/

/-- A slice holds open subscribers of its own agent, each once. -/
structure Ok (b : EventBus) : Prop where
  nodup : ∀ agentID, (b.subs agentID).contents.Nodup
  lt_next : ∀ agentID, ∀ u ∈ (b.subs agentID).contents, u < b.next
  agentID_eq : ∀ agentID, ∀ u ∈ (b.subs agentID).contents, (b.subscribers u).agentID = agentID
  isOpen : ∀ agentID, ∀ u ∈ (b.subs agentID).contents, (b.subscribers u).closed = false

theorem ok_init : Ok {} where
  nodup _ := List.nodup_nil
  lt_next _ _ h := nomatch h
  agentID_eq _ _ h := nomatch h
  isOpen _ _ h := nomatch h

theorem subs_subscribe (b : EventBus) (agentID : String) (spare : ℕ) (agentID' : String) :
    (b.subscribe agentID spare).subs agentID'
      = if agentID' = agentID then (b.subs agentID').append b.next spare else b.subs agentID' := by
  by_cases h : agentID' = agentID
  · subst h
    simp [subscribe]
  · simp [subscribe, h]

theorem subscribers_subscribe (b : EventBus) (agentID : String) (spare : ℕ) {u : ℕ}
    (hu : u ≠ b.next) : (b.subscribe agentID spare).subscribers u = b.subscribers u :=
  Function.update_of_ne hu _ _

/-- A removal leaves a slice as it is, or removes the subscriber from the slice
of its agent, where it was found. -/
theorem subs_removeSub (b : EventBus) (u : ℕ) (agentID : String) :
    ((b.removeSub u).subs agentID = b.subs agentID ∧
        (agentID = (b.subscribers u).agentID → u ∉ (b.subs agentID).contents)) ∨
      (agentID = (b.subscribers u).agentID ∧ ∃ i, (b.subs agentID).contents.idxOf? u = some i ∧
        (b.removeSub u).subs agentID = (b.subs agentID).removeAt i) := by
  rw [removeSub]
  split
  · rename_i hnone
    refine .inl ⟨rfl, ?_⟩
    rintro rfl
    exact List.idxOf?_eq_none_iff.mp hnone
  · rename_i i hi
    by_cases h : agentID = (b.subscribers u).agentID
    · subst h
      exact .inr ⟨rfl, i, hi, by simp⟩
    · exact .inl ⟨Function.update_of_ne h _ _, fun h' => absurd h' h⟩

@[simp] theorem subscribers_removeSub (b : EventBus) (u : ℕ) :
    (b.removeSub u).subscribers = b.subscribers := by
  rw [removeSub]
  split <;> rfl

@[simp] theorem next_removeSub (b : EventBus) (u : ℕ) : (b.removeSub u).next = b.next := by
  rw [removeSub]
  split <;> rfl

/-- A send changes only what is in the channel. -/
theorem trySend_eq (b : EventBus) (u : ℕ) (batch : MetricBatch) :
    ∃ buf, b.trySend u batch = b.setBuf u buf := by
  by_cases h : (b.subscribers u).buf.length < chanCapacity
  · exact ⟨_, if_pos h⟩
  · refine ⟨(b.subscribers u).buf, (if_neg h).trans ?_⟩
    simp [setBuf]

theorem closed_close (b : EventBus) (u v : ℕ) :
    ((b.close u).subscribers v).closed = if v = u then true else (b.subscribers v).closed := by
  by_cases h : v = u
  · subst h
    simp [close]
  · simp [close, h]

@[simp] theorem agentID_close (b : EventBus) (u v : ℕ) :
    ((b.close u).subscribers v).agentID = (b.subscribers v).agentID := by
  by_cases h : v = u
  · subst h
    simp [close]
  · simp [close, h]

@[simp] theorem closed_setBuf (b : EventBus) (u v : ℕ) (buf : List MetricBatch) :
    ((b.setBuf u buf).subscribers v).closed = (b.subscribers v).closed := by
  by_cases h : v = u
  · subst h
    simp [setBuf]
  · simp [setBuf, h]

@[simp] theorem agentID_setBuf (b : EventBus) (u v : ℕ) (buf : List MetricBatch) :
    ((b.setBuf u buf).subscribers v).agentID = (b.subscribers v).agentID := by
  by_cases h : v = u
  · subst h
    simp [setBuf]
  · simp [setBuf, h]

@[simp] theorem subs_trySend (b : EventBus) (u : ℕ) (batch : MetricBatch) :
    (b.trySend u batch).subs = b.subs := by
  obtain ⟨buf, hbuf⟩ := b.trySend_eq u batch
  rw [hbuf]
  rfl

@[simp] theorem next_trySend (b : EventBus) (u : ℕ) (batch : MetricBatch) :
    (b.trySend u batch).next = b.next := by
  obtain ⟨buf, hbuf⟩ := b.trySend_eq u batch
  rw [hbuf]
  rfl

@[simp] theorem closed_trySend (b : EventBus) (u v : ℕ) (batch : MetricBatch) :
    ((b.trySend u batch).subscribers v).closed = (b.subscribers v).closed := by
  obtain ⟨buf, hbuf⟩ := b.trySend_eq u batch
  rw [hbuf, closed_setBuf]

namespace Ok

variable {b : EventBus}

theorem subscribe (h : Ok b) (agentID : String) (spare : ℕ) : Ok (b.subscribe agentID spare) := by
  have hmem : ∀ {a u}, u ∈ ((b.subscribe agentID spare).subs a).contents →
      u ∈ (b.subs a).contents ∨ (a = agentID ∧ u = b.next) := by
    intro a u hu
    rw [subs_subscribe] at hu
    split at hu
    · rename_i ha
      rw [GoSlice.contents_append, List.mem_append, List.mem_singleton] at hu
      exact hu.imp_right fun hu => ⟨ha, hu⟩
    · exact .inl hu
  have hne : ∀ {a u}, u ∈ (b.subs a).contents → u ≠ b.next := fun hu => (h.lt_next _ _ hu).ne
  refine ⟨fun a => ?_, fun a u hu => ?_, fun a u hu => ?_, fun a u hu => ?_⟩
  · rw [subs_subscribe]
    split
    · rw [GoSlice.contents_append]
      refine List.nodup_append.mpr ⟨h.nodup a, List.nodup_singleton _, ?_⟩
      intro u hu v hv
      rw [List.mem_singleton.mp hv]
      exact hne hu
    · exact h.nodup a
  · rcases hmem hu with hu | ⟨-, rfl⟩
    · exact Nat.lt_succ_of_lt (h.lt_next a u hu)
    · exact Nat.lt_succ_self _
  · rcases hmem hu with hu | ⟨rfl, rfl⟩
    · rw [subscribers_subscribe b agentID spare (hne hu)]
      exact h.agentID_eq a u hu
    · simp [EventBus.subscribe]
  · rcases hmem hu with hu | ⟨rfl, rfl⟩
    · rw [subscribers_subscribe b agentID spare (hne hu)]
      exact h.isOpen a u hu
    · simp [EventBus.subscribe]

/-- After a removal the subscriber is in no slice, and all others still are. -/
theorem mem_removeSub (h : Ok b) (u : ℕ) {agentID : String} {v : ℕ} :
    v ∈ ((b.removeSub u).subs agentID).contents ↔ v ≠ u ∧ v ∈ (b.subs agentID).contents := by
  rcases b.subs_removeSub u agentID with ⟨heq, hnot⟩ | ⟨-, i, hi, heq⟩
  · rw [heq]
    refine ⟨fun hv => ⟨?_, hv⟩, fun hv => hv.2⟩
    rintro rfl
    exact hnot (h.agentID_eq agentID v hv).symm hv
  · obtain ⟨hlt, rfl, -⟩ := List.idxOf?_eq_some_iff.mp hi
    rw [heq, GoSlice.contents_removeAt _ (by rwa [GoSlice.length_contents] at hlt),
      ← (h.nodup agentID).erase_getElem i hlt, (h.nodup agentID).mem_erase_iff]

theorem removeSub (h : Ok b) (u : ℕ) : Ok (b.removeSub u) := by
  refine ⟨fun a => ?_, fun a v hv => ?_, fun a v hv => ?_, fun a v hv => ?_⟩
  · rcases b.subs_removeSub u a with ⟨heq, -⟩ | ⟨-, i, hi, heq⟩
    · rw [heq]
      exact h.nodup a
    · obtain ⟨hlt, -, -⟩ := List.idxOf?_eq_some_iff.mp hi
      rw [heq, GoSlice.contents_removeAt _ (by rwa [GoSlice.length_contents] at hlt)]
      exact (h.nodup a).sublist (List.eraseIdx_sublist _ _)
  · rw [next_removeSub]
    exact h.lt_next a v ((h.mem_removeSub u).mp hv).2
  · rw [subscribers_removeSub]
    exact h.agentID_eq a v ((h.mem_removeSub u).mp hv).2
  · rw [subscribers_removeSub]
    exact h.isOpen a v ((h.mem_removeSub u).mp hv).2

theorem setBuf (h : Ok b) (u : ℕ) (buf : List MetricBatch) : Ok (b.setBuf u buf) where
  nodup := h.nodup
  lt_next := h.lt_next
  agentID_eq a v hv := by
    rw [agentID_setBuf]
    exact h.agentID_eq a v hv
  isOpen a v hv := by
    rw [closed_setBuf]
    exact h.isOpen a v hv

theorem close (h : Ok b) {u : ℕ} (hu : ∀ agentID, u ∉ (b.subs agentID).contents) :
    Ok (b.close u) where
  nodup := h.nodup
  lt_next := h.lt_next
  agentID_eq a v hv := by
    rw [agentID_close]
    exact h.agentID_eq a v hv
  isOpen a v hv := by
    rw [closed_close, if_neg ?_]
    · exact h.isOpen a v hv
    · rintro rfl
      exact hu a hv

end Ok

end EventBus

namespace Publish

/-- The elements that the loop has still to read, as they are now. -/
def remaining (p : Publish) (sl : GoSlice ℕ) : List ℕ := sl.window p.gen p.next p.len

/-- All attempts of the call, if nothing changes any more. -/
def attempts (p : Publish) (sl : GoSlice ℕ) : List ℕ :=
  p.sent ++ p.held.toList ++ p.remaining sl

/-- The loop reads the next element. -/
def fetch (p : Publish) (sl : GoSlice ℕ) : Publish :=
  { p with next := p.next + 1, held := some (sl.cells p.gen p.next) }

/-- The loop has tried to send to the element it held. -/
def attempted (p : Publish) (sub : ℕ) : Publish :=
  { p with held := none, sent := p.sent ++ [sub] }

/-! ### What a call under way knows -/

structure Tracks (p : Publish) (sl : GoSlice ℕ) : Prop where
  gen_le : p.gen ≤ sl.gen
  nodup : (p.attempts sl).Nodup
  covers : ∀ u ∈ p.start, u ∈ sl.contents → u ∈ p.attempts sl
  subscribed : ∀ u ∈ p.held.toList ++ p.remaining sl, u ∈ sl.contents
  aligned : p.gen = sl.gen → p.next < p.len →
    p.len ≤ sl.len ∧ p.sent ++ p.held.toList = sl.contents.take p.next

/-- The removal of `u`, at index `i`, is clear of a call: the call does not hold
`u`, and it has read all it reads, or it has not come past `i` and stops before
the last element of the slice, or it reads an older array and not `u` there. -/
def Clear (sl : GoSlice ℕ) (u i : ℕ) (p : Publish) : Prop :=
  p.held ≠ some u ∧
    (p.len ≤ p.next ∨ (p.gen = sl.gen ∧ p.next ≤ i ∧ p.len < sl.len) ∨
      (p.gen ≠ sl.gen ∧ u ∉ p.remaining sl))

theorem Tracks.publish (b : EventBus) (agentID : String) (batch : MetricBatch)
    (h : (b.subs agentID).contents.Nodup) :
    Tracks (b.publish agentID batch) (b.subs agentID) where
  gen_le := Nat.le_refl _
  nodup := h
  covers _ hu _ := hu
  subscribed _ hu := hu
  aligned _ _ := ⟨Nat.le_refl _, rfl⟩

namespace Tracks

variable {sl : GoSlice ℕ} {p : Publish}

/-- On the variable's own array the call reads what is now in the slice. -/
theorem remaining_eq (h : Tracks p sl) (hgen : p.gen = sl.gen) (hlt : p.next < p.len) :
    p.remaining sl = (sl.contents.take p.len).drop p.next := by
  rw [remaining, hgen]
  exact sl.window_eq (h.aligned hgen hlt).1

theorem fetch (h : Tracks p sl) (hheld : p.held = none) (hlt : p.next < p.len) :
    Tracks (p.fetch sl) sl := by
  have hrem : p.remaining sl = sl.cells p.gen p.next :: (p.fetch sl).remaining sl :=
    sl.window_cons hlt
  have hatt : (p.fetch sl).attempts sl = p.attempts sl := by
    rw [attempts, attempts, hheld, hrem]
    simp [Publish.fetch]
  refine ⟨h.gen_le, ?_, ?_, ?_, ?_⟩
  · rw [hatt]
    exact h.nodup
  · rw [hatt]
    exact h.covers
  · intro u hu
    refine h.subscribed u ?_
    rw [hheld, hrem]
    simpa [Publish.fetch] using hu
  · intro hgen hlt'
    obtain ⟨hle, hsent⟩ := h.aligned hgen hlt
    refine ⟨hle, ?_⟩
    have hlen : p.next < sl.contents.length := by
      rw [sl.length_contents]
      exact Nat.lt_of_lt_of_le hlt hle
    rw [hheld, Option.toList_none, List.append_nil] at hsent
    show p.sent ++ [sl.cells p.gen p.next] = sl.contents.take (p.next + 1)
    rw [List.take_succ_eq_append_getElem hlen, sl.getElem_contents hlen, ← hsent,
      show p.gen = sl.gen from hgen]

theorem attempted (h : Tracks p sl) {u : ℕ} (hheld : p.held = some u) :
    Tracks (p.attempted u) sl := by
  have hatt : (p.attempted u).attempts sl = p.attempts sl := by
    simp [attempts, Publish.attempted, remaining, hheld]
  refine ⟨h.gen_le, ?_, ?_, ?_, ?_⟩
  · rw [hatt]
    exact h.nodup
  · rw [hatt]
    exact h.covers
  · intro v hv
    exact h.subscribed v (List.mem_append_right _ hv)
  · intro hgen hlt
    have hal := h.aligned hgen hlt
    rw [hheld] at hal
    simpa [Publish.attempted] using hal

/-- At its end a call has tried every subscriber it had and still has, once. -/
theorem count_eq_one (h : Tracks p sl) (hheld : p.held = none) (hend : p.len ≤ p.next) {u : ℕ}
    (hstart : u ∈ p.start) (hu : u ∈ sl.contents) : p.sent.count u = 1 := by
  have hatt : p.attempts sl = p.sent := by
    rw [attempts, remaining, sl.window_eq_nil hend, hheld]
    simp
  have hnodup := h.nodup
  have hmem := h.covers u hstart hu
  rw [hatt] at hnodup hmem
  exact List.count_eq_one_of_mem hnodup hmem

/-- Another subscriber of the same agent does not disturb the call. -/
theorem append (h : Tracks p sl) {x : ℕ} (hx : x ∉ p.start) (spare : ℕ) :
    Tracks p (sl.append x spare) := by
  have hrem : p.remaining (sl.append x spare) = p.remaining sl :=
    sl.window_append x spare h.gen_le fun hgen hlt => (h.aligned hgen hlt).1
  have hatt : p.attempts (sl.append x spare) = p.attempts sl := by
    rw [attempts, attempts, hrem]
  refine ⟨Nat.le_trans h.gen_le (sl.append_gen_le x spare), ?_, ?_, ?_, ?_⟩
  · rw [hatt]
    exact h.nodup
  · intro u hu hmem
    rw [hatt]
    rw [sl.contents_append, List.mem_append, List.mem_singleton] at hmem
    rcases hmem with hmem | rfl
    · exact h.covers u hu hmem
    · exact absurd hu hx
  · intro u hu
    rw [sl.contents_append]
    rw [hrem] at hu
    exact List.mem_append_left _ (h.subscribed u hu)
  · intro hgen hlt
    -- the array is the same one only if the new element fitted in
    have hgen' : p.gen = sl.gen := by
      refine Nat.le_antisymm h.gen_le ?_
      rw [hgen]
      exact sl.append_gen_le x spare
    obtain ⟨hle, hsent⟩ := h.aligned hgen' hlt
    rw [sl.append_len, sl.contents_append, List.take_append_of_le_length]
    · exact ⟨Nat.le_succ_of_le hle, hsent⟩
    · rw [sl.length_contents]
      omega

/-- A removal that changes nothing the call still reads. -/
theorem of_remaining_eq (h : Tracks p sl) {sl' : GoSlice ℕ} (hgen : sl'.gen = sl.gen)
    (hrem : p.remaining sl' = p.remaining sl) (hsub : ∀ v ∈ sl'.contents, v ∈ sl.contents)
    (hkeep : ∀ v ∈ p.held.toList ++ p.remaining sl, v ∈ sl'.contents)
    (hend : p.gen = sl.gen → p.len ≤ p.next) : Tracks p sl' := by
  have hatt : p.attempts sl' = p.attempts sl := by rw [attempts, attempts, hrem]
  refine ⟨?_, ?_, ?_, ?_, ?_⟩
  · rw [hgen]
    exact h.gen_le
  · rw [hatt]
    exact h.nodup
  · intro v hv hmem
    rw [hatt]
    exact h.covers v hv (hsub v hmem)
  · rw [hrem]
    exact hkeep
  · intro heq hlt
    rw [hgen] at heq
    exact absurd (hend heq) (Nat.not_le.mpr hlt)

/-- On the variable's own array, the call has tried or will try what is now in
the first `len` places. -/
theorem attempts_eq (h : Tracks p sl) (hgen : p.gen = sl.gen) (hlt : p.next < p.len) :
    p.attempts sl = sl.contents.take p.len := by
  have hprefix : sl.contents.take p.next = (sl.contents.take p.len).take p.next := by
    rw [List.take_take, min_eq_left hlt.le]
  rw [attempts, (h.aligned hgen hlt).2, h.remaining_eq hgen hlt, hprefix, List.take_append_drop]

theorem mem_take_eraseIdx {l : List ℕ} {i n v : ℕ} (hv : v ∈ l.take n)
    (hne : ∀ hi : i < l.length, l[i] ≠ v) : v ∈ (l.eraseIdx i).take n := by
  obtain ⟨k, hk, rfl⟩ := List.mem_take_iff_getElem.mp hv
  have hki : k ≠ i := by
    rintro rfl
    exact hne (by omega) rfl
  by_cases hi : i < l.length
  · have hlen : (l.eraseIdx i).length = l.length - 1 := List.length_eraseIdx_of_lt hi
    rcases Nat.lt_or_gt_of_ne hki with hlt | hgt
    · refine List.mem_take_iff_getElem.mpr ⟨k, by omega, ?_⟩
      rw [List.getElem_eraseIdx, dif_pos hlt]
    · refine List.mem_take_iff_getElem.mpr ⟨k - 1, by omega, ?_⟩
      rw [List.getElem_eraseIdx, dif_neg (by omega)]
      simp only [show k - 1 + 1 = k by omega]
  · rw [List.eraseIdx_of_length_le (by omega)]
    exact hv

/-- The array shifts under a call that has not come past the removed place. -/
theorem removeAt_shift (h : Tracks p sl) (hnodup : sl.contents.Nodup) {i : ℕ}
    (hi : i < sl.contents.length) (hheld : p.held ≠ some sl.contents[i])
    (hgen : p.gen = sl.gen) (hlt : p.next < p.len) (hnext : p.next ≤ i) (hshort : p.len < sl.len) :
    Tracks p (sl.removeAt i) := by
  have hlen : i < sl.len := by rwa [sl.length_contents] at hi
  have hcontents := sl.contents_removeAt hlen
  have hle : p.len ≤ (sl.removeAt i).len := Nat.le_sub_one_of_lt hshort
  have htake : (sl.removeAt i).contents.take p.next = sl.contents.take p.next := by
    rw [hcontents]
    exact List.take_eraseIdx_eq_take_of_le _ _ _ hnext
  have hsent : p.sent ++ p.held.toList = (sl.removeAt i).contents.take p.next :=
    (h.aligned hgen hlt).2.trans htake.symm
  have hrem : p.remaining (sl.removeAt i)
      = ((sl.removeAt i).contents.take p.len).drop p.next := by
    rw [remaining, hgen]
    exact (sl.removeAt i).window_eq hle
  have hatt : p.attempts (sl.removeAt i) = (sl.removeAt i).contents.take p.len := by
    have hprefix : (sl.removeAt i).contents.take p.next
        = ((sl.removeAt i).contents.take p.len).take p.next := by
      rw [List.take_take, min_eq_left hlt.le]
    rw [attempts, hsent, hrem, hprefix, List.take_append_drop]
  have hnodup' : (sl.removeAt i).contents.Nodup := by
    rw [hcontents]
    exact hnodup.sublist (List.eraseIdx_sublist _ _)
  have hmem : ∀ v, v ∈ (sl.removeAt i).contents ↔ v ≠ sl.contents[i] ∧ v ∈ sl.contents := by
    intro v
    rw [hcontents, ← hnodup.erase_getElem i hi, hnodup.mem_erase_iff]
  refine ⟨h.gen_le, ?_, ?_, ?_, fun _ _ => ⟨hle, hsent⟩⟩
  · rw [hatt]
    exact hnodup'.sublist (List.take_sublist _ _)
  · intro v hv hvmem
    obtain ⟨hne, hvmem⟩ := (hmem v).mp hvmem
    have hold := h.covers v hv hvmem
    rw [h.attempts_eq hgen hlt] at hold
    rw [hatt, hcontents]
    exact mem_take_eraseIdx hold fun _ => hne.symm
  · intro v hv
    rcases List.mem_append.mp hv with hv | hv
    · refine (hmem v).mpr ⟨?_, h.subscribed v (List.mem_append_left _ hv)⟩
      rintro rfl
      exact hheld (Option.mem_toList.mp hv)
    · rw [hrem] at hv
      exact List.mem_of_mem_take (List.mem_of_mem_drop hv)

/-- An `Unsubscribe` that is clear of the call does not disturb it. -/
theorem removeAt (h : Tracks p sl) (hnodup : sl.contents.Nodup) {i : ℕ}
    (hi : i < sl.contents.length) (hclear : Clear sl sl.contents[i] i p) :
    Tracks p (sl.removeAt i) := by
  obtain ⟨hheld, hclear⟩ := hclear
  have hlen : i < sl.len := by rwa [sl.length_contents] at hi
  have hmem : ∀ v, v ∈ (sl.removeAt i).contents ↔ v ≠ sl.contents[i] ∧ v ∈ sl.contents := by
    intro v
    rw [sl.contents_removeAt hlen, ← hnodup.erase_getElem i hi, hnodup.mem_erase_iff]
  have hheld' : ∀ v ∈ p.held.toList, v ≠ sl.contents[i] := by
    rintro v hv rfl
    exact hheld (Option.mem_toList.mp hv)
  by_cases hend : p.len ≤ p.next
  · -- nothing is left to read
    have hnil : ∀ sl' : GoSlice ℕ, p.remaining sl' = [] := fun sl' => sl'.window_eq_nil hend
    refine h.of_remaining_eq rfl ?_ (fun v hv => ((hmem v).mp hv).2) ?_ fun _ => hend
    · rw [hnil, hnil]
    · intro v hv
      refine (hmem v).mpr ⟨hheld' v ?_, h.subscribed v hv⟩
      rwa [hnil, List.append_nil] at hv
  · rcases hclear with hclear | ⟨hgen, hnext, hshort⟩ | ⟨hgen, hnot⟩
    · exact absurd hclear hend
    · exact h.removeAt_shift hnodup hi hheld hgen (Nat.lt_of_not_le hend) hnext hshort
    · refine h.of_remaining_eq rfl (sl.window_removeAt_of_gen i hgen p.next p.len)
        (fun v hv => ((hmem v).mp hv).2) ?_ fun heq => absurd heq hgen
      intro v hv
      refine (hmem v).mpr ⟨?_, h.subscribed v hv⟩
      rcases List.mem_append.mp hv with hv | hv
      · exact hheld' v hv
      · rintro rfl
        exact hnot hv

end Tracks

end Publish
end Volta
