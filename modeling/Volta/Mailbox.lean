/-
A mailbox of bounded size on a broadcast medium.

A party joins one topic and leaves it again; what is broadcast on its topic in
between is offered to it.  An offer to a full mailbox is dropped.

* `broadcasts` — what was broadcast on the party's topic while it was joined;
* `offered_run` — exactly that is offered, in order;
* `Kept` — what was read and what is queued are the offers that found room;
* `received_sublist` — so what was read is a subsequence of the broadcasts.
-/
import Mathlib.Data.List.Basic
import Mathlib.Tactic.Common

/-- What can happen to a mailbox: only `receive` is its party's own. -/
inductive MailEvent (κ β : Type*) where
  | join (topic : κ)
  | broadcast (topic : κ) (msg : β)
  | leave
  | receive

structure Mailbox (κ β : Type*) where
  topic : Option κ := none
  queue : List β := []
  received : List β := []
  /-- History: every offer, with the number of messages unread at that time. -/
  offers : List (β × ℕ) := []

namespace Mailbox

variable {κ β : Type*} (capacity : ℕ)

def enqueue (queue : List β) (msg : β) : List β :=
  if queue.length < capacity then queue ++ [msg] else queue

def offer (m : Mailbox κ β) (msg : β) : Mailbox κ β :=
  { m with
    queue := enqueue capacity m.queue msg
    offers := m.offers ++ [(msg, m.queue.length)] }

/-- Read and queued messages are the offers that found room, in order. -/
structure Kept (m : Mailbox κ β) : Prop where
  kept : m.received ++ m.queue = (m.offers.filter fun o => o.2 < capacity).map Prod.fst
  queue_le : m.queue.length ≤ capacity
  unread_le : ∀ o ∈ m.offers, o.2 ≤ capacity

variable {capacity}

theorem kept_init : Kept capacity ({} : Mailbox κ β) where
  kept := rfl
  queue_le := Nat.zero_le _
  unread_le _ h := absurd h List.not_mem_nil

theorem Kept.offer {m : Mailbox κ β} (h : Kept capacity m) (msg : β) :
    Kept capacity (m.offer capacity msg) := by
  have hunread : ∀ o ∈ (m.offer capacity msg).offers, o.2 ≤ capacity :=
    List.forall_mem_append.mpr ⟨h.unread_le, List.forall_mem_singleton.mpr h.queue_le⟩
  by_cases hroom : m.queue.length < capacity
  · have hqueue : (m.offer capacity msg).queue = m.queue ++ [msg] := if_pos hroom
    refine ⟨?_, ?_, hunread⟩
    · rw [hqueue]
      show m.received ++ (m.queue ++ [msg]) = _
      rw [← List.append_assoc, h.kept, Mailbox.offer, List.filter_append, List.map_append,
        List.filter_singleton, decide_eq_true hroom]
      rfl
    · rw [hqueue, List.length_append, List.length_singleton]
      exact hroom
  · have hqueue : (m.offer capacity msg).queue = m.queue := if_neg hroom
    refine ⟨?_, ?_, hunread⟩
    · rw [hqueue]
      show m.received ++ m.queue = _
      rw [h.kept, Mailbox.offer, List.filter_append, List.map_append, List.filter_singleton,
        decide_eq_false hroom]
      exact (List.append_nil _).symm
    · rw [hqueue]
      exact h.queue_le

variable [DecidableEq κ]

variable (capacity) in
def step (m : Mailbox κ β) : MailEvent κ β → Mailbox κ β
  | .join topic => { m with topic := some topic }
  | .broadcast topic msg => if m.topic = some topic then m.offer capacity msg else m
  | .leave => { m with topic := none }
  | .receive =>
      match m.queue with
      | [] => m
      | msg :: rest => { m with queue := rest, received := m.received ++ [msg] }

variable (capacity) in
def run (m : Mailbox κ β) (es : List (MailEvent κ β)) : Mailbox κ β := es.foldl (step capacity) m

/-- What is broadcast on the topic that the party is joined to at the time. -/
def broadcasts : Option κ → List (MailEvent κ β) → List β
  | _, [] => []
  | _, .join topic :: es => broadcasts (some topic) es
  | joined, .broadcast topic msg :: es =>
      if joined = some topic then msg :: broadcasts joined es else broadcasts joined es
  | _, .leave :: es => broadcasts none es
  | joined, .receive :: es => broadcasts joined es

@[simp] theorem run_nil (m : Mailbox κ β) : m.run capacity [] = m := rfl

theorem run_cons (m : Mailbox κ β) (e : MailEvent κ β) (es : List (MailEvent κ β)) :
    m.run capacity (e :: es) = (m.step capacity e).run capacity es := rfl

theorem run_append (m : Mailbox κ β) (es fs : List (MailEvent κ β)) :
    m.run capacity (es ++ fs) = (m.run capacity es).run capacity fs := List.foldl_append

/-- Exactly what is broadcast on the party's topic is offered to it. -/
theorem offered_run (m : Mailbox κ β) (es : List (MailEvent κ β)) :
    (m.run capacity es).offers.map Prod.fst
      = m.offers.map Prod.fst ++ broadcasts m.topic es := by
  induction es generalizing m with
  | nil => simp [broadcasts]
  | cons e es ih =>
    rw [run_cons, ih]
    cases e with
    | join topic => rfl
    | broadcast topic msg =>
      simp only [step, broadcasts]
      split
      · simp [offer]
      · rfl
    | leave => rfl
    | receive =>
      simp only [step, broadcasts]
      split <;> rfl

theorem offered (es : List (MailEvent κ β)) :
    (run capacity {} es).offers.map Prod.fst = broadcasts none es :=
  offered_run {} es

theorem Kept.step {m : Mailbox κ β} (h : Kept capacity m) (e : MailEvent κ β) :
    Kept capacity (m.step capacity e) := by
  cases e with
  | join topic => exact ⟨h.kept, h.queue_le, h.unread_le⟩
  | broadcast topic msg =>
    simp only [Mailbox.step]
    split
    · exact h.offer msg
    · exact h
  | leave => exact ⟨h.kept, h.queue_le, h.unread_le⟩
  | receive =>
    simp only [Mailbox.step]
    split
    · exact h
    · rename_i msg rest hqueue
      have hkept := h.kept
      have hle := h.queue_le
      rw [hqueue] at hkept hle
      refine ⟨?_, Nat.le_of_succ_le hle, h.unread_le⟩
      rw [← hkept, List.append_assoc, List.singleton_append]

theorem Kept.run {m : Mailbox κ β} (h : Kept capacity m) (es : List (MailEvent κ β)) :
    Kept capacity (m.run capacity es) := by
  induction es generalizing m with
  | nil => exact h
  | cons e es ih => exact ih (h.step e)

theorem received_sublist (es : List (MailEvent κ β)) :
    (run capacity {} es).received.Sublist (broadcasts none es) := by
  rw [← show (run capacity {} es).offers.map Prod.fst = _ from offered es]
  have hkept := (kept_init.run es : Kept capacity (run capacity {} es)).kept
  have hfilter : ((run capacity {} es).received ++ (run capacity {} es).queue).Sublist
      ((run capacity {} es).offers.map Prod.fst) := by
    rw [hkept]
    exact List.filter_sublist.map Prod.fst
  exact (List.sublist_append_left _ _).trans hfilter

end Mailbox
