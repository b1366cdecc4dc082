/-
The dashboard's connection and agent stores (`stores/connection-store.ts`,
`stores/agent-store.ts`) and the URLs it requests (`api/client.ts`).

An action of a store is a function on its state; `connect` has an `await` in
it and is three functions.
-/
import Volta.ControlMessage
import Mathlib.Data.List.DropRight

namespace Volta

namespace Dashboard

/-! ### URLs -/

/-- The white space and line terminators that `trim` strips. -/
def isWhiteSpace (c : Char) : Bool :=
  c.toNat ∈ [9, 10, 11, 12, 13, 32, 160, 5760, 8232, 8233, 8239, 8287, 12288, 65279] ||
    (8192 ≤ c.toNat && c.toNat ≤ 8202)

def trim (s : String) : String :=
  String.ofList ((s.toList.dropWhile isWhiteSpace).rdropWhile isWhiteSpace)

def trimTrailingSlash (url : String) : String :=
  String.ofList (url.toList.rdropWhile fun c => c = '/')

def apiUrl (baseUrl path : String) : String := trimTrailingSlash baseUrl ++ path

/-- What `fetchAgents` requests. -/
def agentsUrl (baseUrl : String) : String := apiUrl baseUrl "/api/agents"

/-! ### The agent store -/

structure AgentState where
  agents : List Agent := []
  selectedAgentId : Option String := none
  deriving DecidableEq

namespace AgentState

def setAgents (a : AgentState) (agents : List Agent) : AgentState :=
  let keep := a.selectedAgentId.any fun current => agents.any fun agent => agent.id = current
  { agents := agents
    selectedAgentId := if keep then a.selectedAgentId else agents.head?.map Agent.id }

def selectAgent (a : AgentState) (id : Option String) : AgentState :=
  { a with selectedAgentId := id }

/-- Nothing is selected, or an agent of the list. -/
def SelectedListed (a : AgentState) : Prop :=
  ∀ id ∈ a.selectedAgentId, ∃ agent ∈ a.agents, agent.id = id

instance (a : AgentState) : Decidable a.SelectedListed :=
  inferInstanceAs (Decidable (∀ id ∈ a.selectedAgentId, ∃ agent ∈ a.agents, agent.id = id))

theorem setAgents_selectedListed (a : AgentState) (agents : List Agent) :
    (a.setAgents agents).SelectedListed := by
  intro id hid
  simp only [setAgents] at hid
  split at hid
  · rename_i hkeep
    rw [hid, Option.any_some, List.any_eq_true] at hkeep
    obtain ⟨agent, hmem, heq⟩ := hkeep
    exact ⟨agent, hmem, of_decide_eq_true heq⟩
  · obtain ⟨agent, hhead, heq⟩ := Option.map_eq_some_iff.mp hid
    exact ⟨agent, List.mem_of_mem_head? hhead, heq⟩

end AgentState

/-! ### The connection store -/

inductive ConnectionStatus where
  | idle
  | connecting
  | connected
  | error
  deriving DecidableEq

structure ConnectionState where
  baseUrl : String := ""
  recentUrls : List String := []
  status : ConnectionStatus := .idle
  lastError : Option String := none
  deriving DecidableEq

namespace ConnectionState

def maxRecent : ℕ := 5

/-- The URL that `connect` is for. -/
def connectUrl (c : ConnectionState) (baseUrl : Option String) : String :=
  trim (baseUrl.getD c.baseUrl)

/-- `connect` up to its `await`. -/
def connecting (c : ConnectionState) : ConnectionState :=
  { c with status := .connecting, lastError := none }

/-- `connect` after the agents of `url` have come. -/
def connected (c : ConnectionState) (url : String) : ConnectionState where
  baseUrl := url
  recentUrls := (url :: c.recentUrls.filter fun u => u ≠ url).take maxRecent
  status := .connected
  lastError := none

def failed (c : ConnectionState) (message : String) : ConnectionState :=
  { c with status := .error, lastError := some message }

def disconnect (c : ConnectionState) : ConnectionState := { c with status := .idle }

def forgetRecent (c : ConnectionState) (baseUrl : String) : ConnectionState :=
  { c with recentUrls := c.recentUrls.filter fun u => u ≠ baseUrl }

end ConnectionState

end Dashboard
end Volta
