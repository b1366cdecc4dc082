/-
The server's registry of agent sessions (`registry.go`).

A `sync.Map` from agent IDs to sessions; `Add` stores a session under its own
ID, whatever is there, and `Remove` deletes by ID, whichever session is there.
-/
import Mathlib.Logic.Function.Basic
import Mathlib.Data.Nat.Notation

namespace Volta

structure AgentSession where
  id : String
  /-- The number of the `Connect` call whose stream this is. -/
  stream : ℕ
  deriving DecidableEq

structure AgentRegistry where
  sessions : String → Option AgentSession
  keyed : ∀ id sess, sessions id = some sess → sess.id = id

namespace AgentRegistry

def empty : AgentRegistry where
  sessions _ := none
  keyed _ _ h := nomatch h

def add (r : AgentRegistry) (s : AgentSession) : AgentRegistry where
  sessions := Function.update r.sessions s.id (some s)
  keyed id sess h := by
    by_cases hid : id = s.id
    · subst hid
      rw [Function.update_self, Option.some_inj] at h
      rw [h]
    · rw [Function.update_of_ne hid] at h
      exact r.keyed id sess h

def remove (r : AgentRegistry) (id : String) : AgentRegistry where
  sessions := Function.update r.sessions id none
  keyed id' sess h := by
    by_cases hid : id' = id
    · rw [hid, Function.update_self] at h
      exact absurd h (by simp)
    · rw [Function.update_of_ne hid] at h
      exact r.keyed id' sess h

def get (r : AgentRegistry) (id : String) : Option AgentSession := r.sessions id

theorem get_add (r : AgentRegistry) (s : AgentSession) (id : String) :
    (r.add s).get id = if id = s.id then some s else r.get id :=
  Function.update_apply r.sessions s.id (some s) id

theorem get_remove (r : AgentRegistry) (id id' : String) :
    (r.remove id).get id' = if id' = id then none else r.get id' :=
  Function.update_apply r.sessions id none id'

theorem id_of_get (r : AgentRegistry) {id : String} {s : AgentSession} (h : r.get id = some s) :
    s.id = id :=
  r.keyed id s h

end AgentRegistry
end Volta
