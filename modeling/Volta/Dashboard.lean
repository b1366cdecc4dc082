/-
The dashboard as a whole: the connection store, the agent store and the stream
hook, with the requests that are under way.

Every callback runs to its end; which one comes next, and in which order the
responses arrive, is up to the run.  Both `connect` and the hook's refresh
write the agent store, the refresh without looking where the dashboard is
connected by then.

* `belongs_iff` — the agents shown are those of the connected server exactly in
  the runs in which a refresh that arrives while connected was sent to that
  server, or repeats what that server has answered.
-/
import Volta.Run
import Volta.DashboardStores
import Volta.MetricStreamHook

namespace Volta

namespace Dashboard

/-- Who waits for a `fetchAgents`. -/
inductive FetchKind where
  | connect
  | refresh
  deriving DecidableEq

structure Fetch where
  kind : FetchKind
  baseUrl : String

structure State where
  connection : ConnectionState := {}
  agents : AgentState := {}
  hook : Hook := {}
  fetches : ℕ → Option Fetch := fun _ => none
  nextFetch : ℕ := 0
  /-- History: the lists that requests have returned, with their URLs. -/
  returned : List (String × List Agent) := []

/-- Only the base URL and the recent ones outlive a page. -/
def init (baseUrl : String) (recentUrls : List String) : State where
  connection := { baseUrl := baseUrl, recentUrls := recentUrls }

def State.deps (s : State) : Deps where
  baseUrl := s.connection.baseUrl
  connected := s.connection.status = .connected
  agentId := s.agents.selectedAgentId

def State.fetchAgents (s : State) (kind : FetchKind) (baseUrl : String) : State :=
  { s with
    fetches := Function.update s.fetches s.nextFetch (some { kind := kind, baseUrl := baseUrl })
    nextFetch := s.nextFetch + 1 }

inductive Action where
  | connect (baseUrl : Option String)
  | disconnect
  | forgetRecent (baseUrl : String)
  | selectAgent (id : Option String)
  | hook (a : HookAction)
  | responds (i : ℕ) (agents : List Agent)
  | fails (i : ℕ) (message : String)

/-- Fetch `f` has returned a list. -/
def State.response (s : State) (f : Fetch) (agents : List Agent) : State :=
  match f.kind with
  | .connect =>
      { s with
        agents := s.agents.setAgents agents
        connection := s.connection.connected f.baseUrl }
  | .refresh => { s with agents := s.agents.setAgents agents }

def State.failure (s : State) (f : Fetch) (message : String) : State :=
  match f.kind with
  | .connect => { s with connection := s.connection.failed message }
  | .refresh => s

def step (s : State) : Action → Option State
  | .connect baseUrl =>
      some ({ s with connection := s.connection.connecting }.fetchAgents .connect
        (s.connection.connectUrl baseUrl))
  | .disconnect => some { s with connection := s.connection.disconnect }
  | .forgetRecent baseUrl => some { s with connection := s.connection.forgetRecent baseUrl }
  | .selectAgent id =>
      -- a selection is made from the list
      if (s.agents.selectAgent id).SelectedListed then
        some { s with agents := s.agents.selectAgent id }
      else none
  | .hook a =>
      match s.hook.step s.deps a with
      | none => none
      | some (hook, none) => some { s with hook := hook }
      | some (hook, some baseUrl) => some ({ s with hook := hook }.fetchAgents .refresh baseUrl)
  | .responds i agents =>
      match s.fetches i with
      | none => none
      | some f => some
          ({ s with
              fetches := Function.update s.fetches i none
              returned := s.returned ++ [(agentsUrl f.baseUrl, agents)] }.response f agents)
  | .fails i message =>
      match s.fetches i with
      | none => none
      | some f => some ({ s with fetches := Function.update s.fetches i none }.failure f message)

/-! ### Whose agents are shown -/

/-- While connected, the agents are a list that the server has returned, and the
selected one is in the list. -/
structure Belongs (s : State) : Prop where
  returned : s.connection.status = .connected →
    (agentsUrl s.connection.baseUrl, s.agents.agents) ∈ s.returned
  selected : s.connection.status = .connected → s.agents.SelectedListed

/-- The condition on a step: a list that a refresh brings while connected was
asked of the connected server, or has been returned by it before. -/
def RefreshOfConnected (s : State) : Action → Prop
  | .responds i agents =>
      ∀ f, s.fetches i = some f → f.kind = .refresh → s.connection.status = .connected →
        agentsUrl f.baseUrl = agentsUrl s.connection.baseUrl ∨
          (agentsUrl s.connection.baseUrl, agents) ∈ s.returned
  | _ => True

theorem belongs_init (baseUrl : String) (recentUrls : List String) :
    Belongs (init baseUrl recentUrls) where
  returned h := absurd h (by simp [init])
  selected h := absurd h (by simp [init])

namespace Belongs

variable {s t : State}

/-- Nothing is claimed of a dashboard that is not connected. -/
theorem of_not_connected (h : s.connection.status ≠ .connected) : Belongs s where
  returned hc := absurd hc h
  selected hc := absurd hc h

/-- What the stores hold stays right while they do not change. -/
theorem frame (h : Belongs s) (hconnection : t.connection = s.connection)
    (hagents : t.agents = s.agents) (hreturned : t.returned = s.returned) : Belongs t where
  returned hc := by
    rw [hconnection, hagents, hreturned]
    exact h.returned (hconnection ▸ hc)
  selected hc := by
    rw [hagents]
    exact h.selected (hconnection ▸ hc)

theorem responds {i : ℕ} {agents : List Agent} {f : Fetch}
    (hf : s.fetches i = some f) (hok : RefreshOfConnected s (.responds i agents)) :
    Belongs
      ({ s with
          fetches := Function.update s.fetches i none
          returned := s.returned ++ [(agentsUrl f.baseUrl, agents)] }.response f agents) := by
  have hselected := s.agents.setAgents_selectedListed agents
  rw [State.response]
  split
  · exact ⟨fun _ => List.mem_append_right _ (List.mem_singleton_self _), fun _ => hselected⟩
  · rename_i hkind
    refine ⟨fun hc => ?_, fun _ => hselected⟩
    rcases hok f hf hkind hc with hurl | hmem
    · show (agentsUrl s.connection.baseUrl, agents) ∈ _
      rw [← hurl]
      exact List.mem_append_right _ (List.mem_singleton_self _)
    · exact List.mem_append_left _ hmem

theorem step (h : Belongs s) {a : Action} (hok : RefreshOfConnected s a)
    (ht : Dashboard.step s a = some t) : Belongs t := by
  cases a with
  | connect baseUrl =>
    cases ht
    refine of_not_connected ?_
    show ConnectionStatus.connecting ≠ .connected
    decide
  | disconnect =>
    cases ht
    refine of_not_connected ?_
    show ConnectionStatus.idle ≠ .connected
    decide
  | forgetRecent baseUrl =>
    cases ht
    exact ⟨h.returned, h.selected⟩
  | selectAgent id =>
    simp only [Dashboard.step] at ht
    split at ht
    · rename_i hlisted
      cases ht
      exact ⟨h.returned, fun _ => hlisted⟩
    · exact absurd ht (by simp)
  | hook a =>
    simp only [Dashboard.step] at ht
    split at ht
    · exact absurd ht (by simp)
    · cases ht
      exact h.frame rfl rfl rfl
    · cases ht
      exact h.frame rfl rfl rfl
  | responds i agents =>
    simp only [Dashboard.step] at ht
    split at ht
    · exact absurd ht (by simp)
    · rename_i f hf
      cases ht
      exact responds hf hok
  | fails i message =>
    simp only [Dashboard.step] at ht
    split at ht
    · exact absurd ht (by simp)
    · rename_i f hf
      cases ht
      rw [State.failure]
      split
      · refine of_not_connected ?_
        show ConnectionStatus.error ≠ .connected
        decide
      · exact h.frame rfl rfl rfl

end Belongs

/-- A list of another server shows as soon as it arrives. -/
theorem not_belongs_of_stale {s t : State} {a : Action} (hok : ¬ RefreshOfConnected s a)
    (ht : step s a = some t) : ¬ Belongs t := by
  cases a with
  | responds i agents =>
    simp only [RefreshOfConnected] at hok
    push Not at hok
    obtain ⟨f, hf, hkind, hc, hurl, hmem⟩ := hok
    simp only [step, hf, State.response, hkind, Option.some_inj] at ht
    subst ht
    intro h
    have hret := h.returned hc
    rcases List.mem_append.mp hret with hret | hret
    · exact hmem hret
    · exact hurl (Prod.mk.inj (List.mem_singleton.mp hret)).1.symm
  | _ => exact absurd trivial hok

/-- **Whose agents the dashboard shows.**  In a run from the loading of the page,
the agents shown while connected are always a list that the connected server
returned, with the selection in it, exactly when every refresh that arrives
while connected was sent to that server or repeats what it has returned. -/
theorem belongs_iff (baseUrl : String) (recentUrls : List String) {as : List Action} {s : State}
    (hs : Run.exec step (init baseUrl recentUrls) as = some s) :
    Run.Along step Belongs (init baseUrl recentUrls) as ↔
      Run.Meets step RefreshOfConnected (init baseUrl recentUrls) as :=
  Run.along_iff_meets (fun h => h) (fun h hok ht => h.step hok ht)
    (fun _ hok ht => not_belongs_of_stale hok ht) (belongs_init baseUrl recentUrls) hs

/-- The dashboard connects, and its stream opens and refreshes the list. -/
def refreshed : List Action :=
  [.connect (some "http://a:8080"), .responds 0 [{ id := "x" }], .hook .render, .hook .effect,
    .hook (.socketOpens 0), .responds 1 [{ id := "x" }, { id := "y" }]]

theorem belongs_iff_refreshed :
    ∃ s, Run.exec step (init "" []) refreshed = some s ∧
      s.agents = { agents := [{ id := "x" }, { id := "y" }], selectedAgentId := some "x" } ∧
      Run.Along step Belongs (init "" []) refreshed := by
  have hrun : (Run.exec step (init "" []) refreshed).map (fun s => s.agents)
      = some { agents := [{ id := "x" }, { id := "y" }], selectedAgentId := some "x" } := by
    rfl
  obtain ⟨s, hs, hagents⟩ := Option.map_eq_some_iff.mp hrun
  have hmeets : Run.Meets step RefreshOfConnected (init "" []) refreshed := by
    refine ⟨trivial, fun t ht => ?_⟩
    cases ht
    refine ⟨fun f hf hkind => ?_, fun t ht => ?_⟩
    · cases hf
      exact absurd hkind (by decide)
    cases ht
    refine ⟨trivial, fun t ht => ?_⟩
    cases ht
    refine ⟨trivial, fun t ht => ?_⟩
    cases ht
    refine ⟨trivial, fun t ht => ?_⟩
    cases ht
    refine ⟨fun f hf _ _ => ?_, fun _ _ => trivial⟩
    cases hf
    exact .inl rfl
  exact ⟨s, hs, hagents, (belongs_iff "" [] hs).mpr hmeets⟩

/-- The user goes on to another server before the first one answers the
refresh. -/
def staleRefresh : List Action :=
  [.connect (some "http://a:8080"), .responds 0 [{ id := "x" }], .hook .render, .hook .effect,
    .hook (.socketOpens 0), .disconnect, .hook .render, .hook .unmount,
    .connect (some "http://b:8080"), .responds 2 [{ id := "y" }], .responds 1 [{ id := "x" }]]

/-- The agents of the first server show as those of the second. -/
theorem stale_refresh_shown :
    ¬ ∀ (baseUrl : String) (recentUrls : List String) (as : List Action) (s : State),
      Run.exec step (init baseUrl recentUrls) as = some s → Belongs s := by
  intro hall
  have hrun : (Run.exec step (init "" []) staleRefresh).map
      (fun s => (s.connection.baseUrl, s.connection.status, s.agents.agents, s.returned))
      = some ("http://b:8080", .connected, [{ id := "x" }],
        [("http://a:8080/api/agents", [{ id := "x" }]),
          ("http://b:8080/api/agents", [{ id := "y" }]),
          ("http://a:8080/api/agents", [{ id := "x" }])]) := by
    rfl
  obtain ⟨s, hs, heq⟩ := Option.map_eq_some_iff.mp hrun
  simp only [Prod.mk.injEq] at heq
  obtain ⟨hurl, hstatus, hagents, hreturned⟩ := heq
  have hmem := (hall "" [] _ s hs).returned hstatus
  rw [hurl, hagents, hreturned] at hmem
  exact absurd hmem (by decide)

end Dashboard
end Volta
