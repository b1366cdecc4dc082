/-
Write queues of the agent's reactors (`iwriter.h`).

Both reactors keep a queue `writerqu` and a flag `writing`, start the front
message when nothing is being written, and pop it in `OnWriteDone`.  Beside
these two fields a `Writer` carries what gRPC holds (the writes given to
`StartWrite` that have not completed) and the history of the queue.

* `Ordered w completed` — the invariant, `completed` being the number of
  `OnWriteDone(true)` calls that have not run their locked section;
* `Ordered.sound` — what it says to an observer of the queue.
-/
import Mathlib.Data.List.Basic

namespace Volta

structure Writer (T : Type) where
  writerqu : List T := []
  writing : Bool := false
  /-- What `StartWrite` was given and gRPC has not completed. -/
  outstanding : List T := []
  /-- History: everything pushed to `writerqu`. -/
  enqueued : List T := []
  /-- History: everything given to `StartWrite`. -/
  started : List T := []

namespace Writer

variable {T : Type}

def push (w : Writer T) (msg : T) : Writer T :=
  { w with writerqu := w.writerqu ++ [msg], enqueued := w.enqueued ++ [msg] }

/-- The message that `Write()` starts, if it starts one. -/
def toStart (w : Writer T) : Option T :=
  if w.writing then none else w.writerqu.head?

/-- `Write()`. -/
def write (w : Writer T) : Writer T :=
  match w.toStart with
  | none => w
  | some msg =>
      { w with
        writing := true
        outstanding := w.outstanding ++ [msg]
        started := w.started ++ [msg] }

/-- gRPC completes its oldest write, successfully or not. -/
def complete (w : Writer T) : Writer T := { w with outstanding := w.outstanding.tail }

/-- The locked section of `OnWriteDone(true)`, without the `Write()` that
follows. -/
def pop (w : Writer T) : Writer T := { w with writerqu := w.writerqu.tail, writing := false }

/-- The messages that are queued and not started. -/
def waiting (w : Writer T) : List T := if w.writing then w.writerqu.tail else w.writerqu

/-! ### The invariant of a write queue -/

/-- With no write going on, gRPC holds nothing; otherwise it holds the front
of the queue, unless the write has completed and `OnWriteDone` is about to pop
the front, or the write has failed. -/
structure Ordered (w : Writer T) (completed : ℕ) : Prop where
  idle : w.writing = false → w.outstanding = [] ∧ completed = 0
  busy : w.writing = true → ∃ msg rest, w.writerqu = msg :: rest ∧
    ((w.outstanding = [msg] ∧ completed = 0) ∨ (w.outstanding = [] ∧ completed ≤ 1))
  enqueued_eq : w.enqueued = w.started ++ w.waiting

theorem ordered_init : Ordered ({} : Writer T) 0 where
  idle _ := ⟨rfl, rfl⟩
  busy h := nomatch h
  enqueued_eq := rfl

namespace Ordered

variable {w : Writer T} {completed : ℕ}

theorem push (h : Ordered w completed) (msg : T) : Ordered (w.push msg) completed where
  idle := h.idle
  busy hw := by
    obtain ⟨front, rest, hq, hout⟩ := h.busy hw
    exact ⟨front, rest ++ [msg], by simp [Writer.push, hq], hout⟩
  enqueued_eq := by
    have heq := h.enqueued_eq
    cases hw : w.writing with
    | false => simp [Writer.push, waiting, hw, heq]
    | true =>
      obtain ⟨front, rest, hq, -⟩ := h.busy hw
      simp [Writer.push, waiting, hw, hq, heq]

theorem write_of_some (h : Ordered w completed) {msg : T} (hmsg : w.toStart = some msg) :
    ∃ rest, w.writing = false ∧ w.writerqu = msg :: rest ∧ completed = 0 ∧
      w.write =
        { w with writing := true, outstanding := [msg], started := w.started ++ [msg] } := by
  have hw : w.writing = false := by
    by_contra hw
    rw [toStart, if_pos (by simpa using hw)] at hmsg
    exact absurd hmsg (by simp)
  obtain ⟨hout, hc⟩ := h.idle hw
  rw [toStart, if_neg (by simp [hw])] at hmsg
  obtain ⟨rest, hq⟩ : ∃ rest, w.writerqu = msg :: rest := by
    cases hq : w.writerqu with
    | nil => simp [hq] at hmsg
    | cons a rest =>
      rw [hq, List.head?_cons, Option.some_inj] at hmsg
      exact ⟨rest, by rw [hmsg]⟩
  refine ⟨rest, hw, hq, hc, ?_⟩
  simp [Writer.write, toStart, hw, hq, hout]

theorem write (h : Ordered w completed) : Ordered w.write completed := by
  cases hmsg : w.toStart with
  | none =>
    rw [Writer.write, hmsg]
    exact h
  | some msg =>
    obtain ⟨rest, hw, hq, hc, heq⟩ := h.write_of_some hmsg
    rw [heq]
    have he := h.enqueued_eq
    refine ⟨fun hf => ?_, fun _ => ⟨msg, rest, hq, Or.inl ⟨rfl, hc⟩⟩, ?_⟩
    · exact absurd hf (by simp)
    · simp only [waiting, hw, hq] at he ⊢
      simpa using he

/-- A write that completes leaves the front to `OnWriteDone`, which gRPC calls
with `true` (one more locked section to run) or with `false`. -/
theorem complete (h : Ordered w completed) (hout : w.outstanding ≠ []) (ok : Bool) :
    Ordered w.complete (if ok then completed + 1 else completed) := by
  have hw : w.writing = true := by
    by_contra hw
    exact hout (h.idle (by simpa using hw)).1
  obtain ⟨msg, rest, hq, hcase⟩ := h.busy hw
  obtain ⟨ho, hc⟩ : w.outstanding = [msg] ∧ completed = 0 := by
    rcases hcase with hcase | hcase
    · exact hcase
    · exact absurd hcase.1 hout
  refine ⟨fun hf => ?_, fun _ => ⟨msg, rest, hq, Or.inr ⟨?_, ?_⟩⟩, h.enqueued_eq⟩
  · exact absurd (hw.symm.trans hf) (by simp)
  · simp [Writer.complete, ho]
  · split <;> omega

theorem pop (h : Ordered w (completed + 1)) : Ordered w.pop completed := by
  have hw : w.writing = true := by
    by_contra hw
    exact absurd (h.idle (by simpa using hw)).2 (Nat.succ_ne_zero completed)
  obtain ⟨msg, rest, hq, hcase⟩ := h.busy hw
  obtain ⟨ho, hc⟩ : w.outstanding = [] ∧ completed = 0 := by
    rcases hcase with ⟨-, hcase⟩ | ⟨ho, hle⟩
    · exact absurd hcase (Nat.succ_ne_zero completed)
    · exact ⟨ho, by omega⟩
  refine ⟨fun _ => ⟨ho, hc⟩, fun hf => ?_, ?_⟩
  · exact absurd hf (by simp [Writer.pop])
  · have he := h.enqueued_eq
    simpa [Writer.pop, waiting, hw, hq] using he

end Ordered

/-- After `Write()` something is being written, or nothing is queued. -/
theorem writerqu_eq_nil_of_write (w : Writer T) (h : w.write.writing = false) :
    w.write.writerqu = [] := by
  cases hmsg : w.toStart with
  | none =>
    have hwrite : w.write = w := by rw [write, hmsg]
    rw [hwrite] at h ⊢
    rwa [toStart, if_neg (by simp [h]), List.head?_eq_none_iff] at hmsg
  | some msg => simp [write, hmsg] at h

/-- What an observer of a write queue sees: one write at a time, of the front
message, which stays the front until the write has completed; and messages
started in the order of the queue, each once. -/
structure Sound (w : Writer T) (completed : ℕ) : Prop where
  one_outstanding : w.outstanding.length ≤ 1
  outstanding_front : ∀ msg ∈ w.outstanding, w.writerqu.head? = some msg
  pop_after_completion : 0 < completed → w.outstanding = [] ∧ w.writerqu ≠ []
  in_order : w.enqueued = w.started ++ w.waiting

theorem Ordered.sound {w : Writer T} {completed : ℕ} (h : Ordered w completed) :
    Sound w completed := by
  cases hw : w.writing with
  | false =>
    obtain ⟨ho, hc⟩ := h.idle hw
    refine ⟨by simp [ho], by simp [ho], fun hpos => ?_, h.enqueued_eq⟩
    omega
  | true =>
    obtain ⟨msg, rest, hq, ⟨ho, hc⟩ | ⟨ho, hc⟩⟩ := h.busy hw
    · exact ⟨by simp [ho], by simp [ho, hq], fun hpos => by omega, h.enqueued_eq⟩
    · exact ⟨by simp [ho], by simp [ho], fun _ => ⟨ho, by simp [hq]⟩, h.enqueued_eq⟩

end Writer
end Volta
