import JdRelay.Base.Dict
import JdRelay.Base.Python

namespace Ws

-- agent_id is None: never of a str, of what a peer sends where it is a JSON null.
class NoneTest (K : Type) where
  isNone : K → Bool

export NoneTest (isNone)

instance : NoneTest Text.Str := ⟨fun _ => false⟩

instance : NoneTest Python.DictKey := ⟨fun key => decide (key = .none)⟩

-- K is what a dict takes as a key: str where the annotations hold, any JSON scalar in what a peer sends.
structure AgentInfo (K S : Type) where
  agentId : K
  projects : List K
  send : S
  deriving DecidableEq

structure AgentManager (K S : Type) where
  byAgent : Dict K (AgentInfo K S)
  projectToAgent : Dict K K
  stopped : Bool

namespace AgentManager

variable {K S : Type}

def empty : AgentManager K S := ⟨∅, ∅, false⟩

def listAgents (m : AgentManager K S) : List K := m.byAgent.keys

def count (m : AgentManager K S) : Nat := m.byAgent.size

def stopAll (_ : AgentManager K S) : AgentManager K S := ⟨∅, ∅, true⟩

variable [DecidableEq K]

def route (agentId : K) : List K → Dict K K → Dict K K
  | [], d => d
  | p :: ps, d => route agentId ps (d.insert p agentId)

def addAgent (m : AgentManager K S) (agentId : K) (projects : List K) (sendCb : S) : AgentManager K S :=
  if m.stopped then m
  else
    { m with
      byAgent := m.byAgent.insert agentId { agentId, projects, send := sendCb }
      projectToAgent := route agentId projects m.projectToAgent }

def removeAgent (m : AgentManager K S) (agentId : K) : AgentManager K S :=
  if m.stopped then m
  else
    { m with
      byAgent := m.byAgent.erase agentId
      projectToAgent := Dict.filter (fun _ a => decide (a ≠ agentId)) m.projectToAgent }

def getByAgent (m : AgentManager K S) (agentId : K) : Option (AgentInfo K S) := m.byAgent.lookup agentId

def getByProject [NoneTest K] (m : AgentManager K S) (project : K) : Option (AgentInfo K S) :=
  match m.projectToAgent.lookup project with
  | none => none
  | some agentId => if isNone agentId then none else m.byAgent.lookup agentId

@[simp] theorem stopped_addAgent (m : AgentManager K S) (agentId : K) (projects : List K) (sendCb : S) :
    (m.addAgent agentId projects sendCb).stopped = m.stopped := by
  unfold addAgent; split <;> rfl

@[simp] theorem stopped_removeAgent (m : AgentManager K S) (agentId : K) :
    (m.removeAgent agentId).stopped = m.stopped := by
  unfold removeAgent; split <;> rfl

theorem getByAgent_addAgent {m : AgentManager K S} (h : m.stopped = false) (agentId : K) (projects : List K)
    (sendCb : S) (other : K) : (m.addAgent agentId projects sendCb).getByAgent other =
      if other = agentId then some { agentId, projects, send := sendCb } else m.getByAgent other := by
  rw [addAgent, h]
  exact Dict.lookup_insert_if _ _ _ _

theorem getByAgent_removeAgent {m : AgentManager K S} (h : m.stopped = false) (agentId other : K) :
    (m.removeAgent agentId).getByAgent other = if other = agentId then none else m.getByAgent other := by
  rw [removeAgent, h]
  exact Dict.lookup_erase_if _ _ _

theorem lookup_route (agentId : K) (ps : List K) (d : Dict K K) (p : K) :
    (route agentId ps d).lookup p = if p ∈ ps then some agentId else d.lookup p := by
  induction ps generalizing d with
  | nil => simp [route]
  | cons q qs ih =>
      rw [route, ih, Dict.lookup_insert_if]
      by_cases hmem : p ∈ qs
      · simp [hmem]
      · by_cases heq : p = q
        · simp [heq]
        · simp [hmem, heq]

variable [NoneTest K]

theorem getByProject_some {m : AgentManager K S} {p : K} {info : AgentInfo K S} : m.getByProject p = some info ↔
    ∃ agentId, m.projectToAgent.lookup p = some agentId ∧ isNone agentId = false ∧ m.getByAgent agentId = some info := by
  unfold getByProject getByAgent
  cases m.projectToAgent.lookup p with
  | none => simp
  | some owner => cases hnone : isNone owner <;> simp [hnone]

theorem getByProject_addAgent {m : AgentManager K S} (h : m.stopped = false) (agentId : K) (projects : List K)
    (sendCb : S) (p : K) : (m.addAgent agentId projects sendCb).getByProject p =
      if p ∈ projects ∨ m.projectToAgent.lookup p = some agentId then
        if isNone agentId then none else some { agentId, projects, send := sendCb }
      else m.getByProject p := by
  simp only [addAgent, h, getByProject, lookup_route, Bool.false_eq_true, if_false]
  by_cases hmem : p ∈ projects
  · simp [hmem]
  · cases hroute : m.projectToAgent.lookup p with
    | none => simp [hmem]
    | some owner =>
        by_cases heq : owner = agentId
        · simp [hmem, heq]
        · simp [hmem, heq, AList.lookup_insert_ne heq]

theorem getByProject_removeAgent {m : AgentManager K S} (h : m.stopped = false) (agentId p : K) :
    (m.removeAgent agentId).getByProject p =
      if m.projectToAgent.lookup p = some agentId then none else m.getByProject p := by
  simp only [removeAgent, h, getByProject, Dict.lookup_filter, Bool.false_eq_true, if_false]
  cases hroute : m.projectToAgent.lookup p with
  | none => simp
  | some owner =>
      by_cases heq : owner = agentId
      · simp [heq, Option.filter]
      · simp [heq, Option.filter, AList.lookup_erase_ne heq]

end AgentManager
end Ws
