import JdRelay.Base.Runs
import JdRelay.Base.Text
import JdRelay.Ws.AgentManager

namespace Ws.Routing
open Text Runs

inductive Call (K S : Type) where
  | addAgent (agentId : K) (projects : List K) (sendCb : S)
  | removeAgent (agentId : K)
  | stopAll

variable {K S : Type} [DecidableEq K]

def step (m : AgentManager K S) : Call K S → Option (AgentManager K S)
  | .addAgent agentId projects sendCb => some (m.addAgent agentId projects sendCb)
  | .removeAgent agentId => some (m.removeAgent agentId)
  | .stopAll => some m.stopAll

def machine : Machine (AgentManager K S) (Call K S) where
  init := .empty
  step := step

structure Linked (m : AgentManager K S) : Prop where
  named : ∀ a info, m.getByAgent a = some info → info.agentId = a
  owned : ∀ p a, m.projectToAgent.lookup p = some a → (m.getByAgent a).isSome
  cleared : m.stopped = true → m.byAgent = ∅ ∧ m.projectToAgent = ∅

def Lists (m : AgentManager K S) (a p : K) : Prop := ∃ info, m.getByAgent a = some info ∧ p ∈ info.projects

def Complete [NoneTest K] (m : AgentManager K S) : Prop :=
  m.stopped = false → ∀ a p, Lists m a p → (m.getByProject p).isSome

def Sound [NoneTest K] (m : AgentManager K S) : Prop :=
  ∀ p info, m.getByProject p = some info → m.getByAgent info.agentId = some info ∧ p ∈ info.projects

-- The agent that leaves takes no route away from an agent that stays, and an agent_id None comes without projects.
def LeavesNoOther [NoneTest K] (m : AgentManager K S) : Call K S → Prop
  | .addAgent agentId projects _ => m.stopped = false → isNone agentId = true → projects = []
  | .removeAgent agentId => ∀ a p, a ≠ agentId → Lists m a p → m.projectToAgent.lookup p ≠ some agentId
  | .stopAll => True

def ListsItsRoutes [NoneTest K] (m : AgentManager K S) : Call K S → Prop
  | .addAgent agentId projects _ =>
      isNone agentId = false → ∀ p, m.projectToAgent.lookup p = some agentId → p ∈ projects
  | _ => True

section Linked

variable {m : AgentManager K S} {agentId : K} {projects : List K} {sendCb : S}

theorem linked_empty : Linked (.empty : AgentManager K S) := ⟨nofun, nofun, nofun⟩

theorem linked_stopAll : Linked m.stopAll := ⟨nofun, nofun, fun _ => ⟨rfl, rfl⟩⟩

theorem addAgent_stopped (h : m.stopped = true) : m.addAgent agentId projects sendCb = m := if_pos h

theorem removeAgent_stopped (h : m.stopped = true) : m.removeAgent agentId = m := if_pos h

theorem route_addAgent (h : m.stopped = false) (p : K) :
    (m.addAgent agentId projects sendCb).projectToAgent.lookup p =
      if p ∈ projects then some agentId else m.projectToAgent.lookup p := by
  rw [AgentManager.addAgent, h]
  exact AgentManager.lookup_route _ _ _ _

theorem route_removeAgent (h : m.stopped = false) (p : K) :
    (m.removeAgent agentId).projectToAgent.lookup p =
      (m.projectToAgent.lookup p).filter fun a => decide (a ≠ agentId) := by
  rw [AgentManager.removeAgent, h]
  exact Dict.lookup_filter _ _ _

theorem linked_addAgent (hrun : m.stopped = false) (hm : Linked m) : Linked (m.addAgent agentId projects sendCb) := by
  refine ⟨fun a info h => ?_, fun p a h => ?_, fun h => ?_⟩
  · rw [AgentManager.getByAgent_addAgent hrun] at h
    split at h
    · rename_i heq
      cases h
      exact heq.symm
    · exact hm.named a info h
  · rw [AgentManager.getByAgent_addAgent hrun]
    rw [route_addAgent hrun] at h
    by_cases heq : a = agentId
    · rw [if_pos heq, Option.isSome_some]
    · rw [if_neg heq]
      split at h
      · exact absurd (Option.some.inj h).symm heq
      · exact hm.owned p a h
  · rw [AgentManager.stopped_addAgent, hrun] at h
    cases h

theorem linked_removeAgent (hrun : m.stopped = false) (hm : Linked m) : Linked (m.removeAgent agentId) := by
  refine ⟨fun a info h => ?_, fun p a h => ?_, fun h => ?_⟩
  · rw [AgentManager.getByAgent_removeAgent hrun] at h
    split at h
    · cases h
    · exact hm.named a info h
  · rw [route_removeAgent hrun, Option.filter_eq_some_iff, decide_eq_true_eq] at h
    rw [AgentManager.getByAgent_removeAgent hrun, if_neg h.2]
    exact hm.owned p a h.1
  · rw [AgentManager.stopped_removeAgent, hrun] at h
    cases h

theorem linked_step {t : AgentManager K S} {c : Call K S} (hm : Linked m) (h : step m c = some t) : Linked t := by
  cases hstop : m.stopped with
  | false =>
      cases c <;> cases h
      · exact linked_addAgent hstop hm
      · exact linked_removeAgent hstop hm
      · exact linked_stopAll
  | true =>
      cases c <;> cases h
      · rw [addAgent_stopped hstop]
        exact hm
      · rw [removeAgent_stopped hstop]
        exact hm
      · exact linked_stopAll

theorem lists_addAgent (hrun : m.stopped = false) {a p : K} :
    Lists (m.addAgent agentId projects sendCb) a p ↔
      if a = agentId then p ∈ projects else Lists m a p := by
  simp only [Lists, AgentManager.getByAgent_addAgent hrun]
  split <;> simp

theorem lists_removeAgent (hrun : m.stopped = false) {a p : K} :
    Lists (m.removeAgent agentId) a p ↔ a ≠ agentId ∧ Lists m a p := by
  simp only [Lists, AgentManager.getByAgent_removeAgent hrun]
  split <;> simp_all

theorem lists_stopped (hm : Linked m) (h : m.stopped = true) (a p : K) : ¬ Lists m a p := by
  rintro ⟨info, hinfo, -⟩
  rw [AgentManager.getByAgent, (hm.cleared h).1] at hinfo
  cases hinfo

theorem route_stopped (hm : Linked m) (h : m.stopped = true) (p : K) : m.projectToAgent.lookup p = none := by
  rw [(hm.cleared h).2]
  rfl

variable [NoneTest K]

theorem getByProject_isSome (hm : Linked m) {p : K} :
    (m.getByProject p).isSome ↔ ∃ a, m.projectToAgent.lookup p = some a ∧ isNone a = false := by
  rw [Option.isSome_iff_exists]
  constructor
  · rintro ⟨info, hinfo⟩
    obtain ⟨a, hroute, hnone, -⟩ := AgentManager.getByProject_some.mp hinfo
    exact ⟨a, hroute, hnone⟩
  · rintro ⟨a, hroute, hnone⟩
    obtain ⟨info, hinfo⟩ := Option.isSome_iff_exists.mp (hm.owned p a hroute)
    exact ⟨info, AgentManager.getByProject_some.mpr ⟨a, hroute, hnone, hinfo⟩⟩

theorem getByProject_some {p : K} {info : AgentInfo K S} (hm : Linked m) (h : m.getByProject p = some info) :
    m.projectToAgent.lookup p = some info.agentId ∧ m.getByAgent info.agentId = some info := by
  obtain ⟨a, hroute, -, hinfo⟩ := AgentManager.getByProject_some.mp h
  obtain rfl := hm.named a info hinfo
  exact ⟨hroute, hinfo⟩

end Linked

section Complete

variable [NoneTest K] {m t : AgentManager K S} {agentId : K} {projects : List K} {sendCb : S}

theorem complete_empty : Complete (.empty : AgentManager K S) := by
  rintro - a p ⟨info, hinfo, -⟩
  cases hinfo

theorem complete_of_stopped (h : m.stopped = true) : Complete m := fun hrun => by
  rw [h] at hrun
  cases hrun

theorem complete_addAgent (hrun : m.stopped = false) (hm : Linked m) (hc : Complete m) :
    Complete (m.addAgent agentId projects sendCb) ↔ (isNone agentId = true → projects = []) := by
  have hrun' : (m.addAgent agentId projects sendCb).stopped = false := by rw [AgentManager.stopped_addAgent, hrun]
  have routed {p : K} : ((m.addAgent agentId projects sendCb).getByProject p).isSome ↔
      ∃ a, (if p ∈ projects then some agentId else m.projectToAgent.lookup p) = some a ∧ isNone a = false := by
    rw [getByProject_isSome (linked_addAgent hrun hm), route_addAgent hrun]
  constructor
  · intro h hnone
    refine List.eq_nil_iff_forall_not_mem.mpr fun p hp => ?_
    obtain ⟨a, ha, hsome⟩ := routed.mp (h hrun' agentId p ((lists_addAgent hrun).mpr (by rwa [if_pos rfl])))
    rw [if_pos hp, Option.some.injEq] at ha
    rw [← ha, hnone] at hsome
    cases hsome
  · intro h _ a p hlists
    rw [lists_addAgent hrun] at hlists
    refine routed.mpr ?_
    by_cases hp : p ∈ projects
    · rw [if_pos hp]
      refine ⟨agentId, rfl, ?_⟩
      cases hnone : isNone agentId with
      | false => rfl
      | true => exact absurd (h hnone ▸ hp) List.not_mem_nil
    · rw [if_neg hp]
      split at hlists
      · exact absurd hlists hp
      · exact (getByProject_isSome hm).mp (hc hrun a p hlists)

theorem complete_removeAgent (hrun : m.stopped = false) (hm : Linked m) (hc : Complete m) :
    Complete (m.removeAgent agentId) ↔ LeavesNoOther m (.removeAgent agentId) := by
  have hrun' : (m.removeAgent agentId).stopped = false := by rw [AgentManager.stopped_removeAgent, hrun]
  have routed {p : K} : ((m.removeAgent agentId).getByProject p).isSome ↔
      (∃ a, m.projectToAgent.lookup p = some a ∧ isNone a = false) ∧ m.projectToAgent.lookup p ≠ some agentId := by
    rw [getByProject_isSome (linked_removeAgent hrun hm), route_removeAgent hrun]
    cases m.projectToAgent.lookup p with
    | none => simp
    | some a => by_cases h : a = agentId <;> simp [h, Option.filter]
  constructor
  · intro h a p hne hlists
    exact (routed.mp (h hrun' a p ((lists_removeAgent hrun).mpr ⟨hne, hlists⟩))).2
  · intro h _ a p hlists
    obtain ⟨hne, hlists⟩ := (lists_removeAgent hrun).mp hlists
    exact routed.mpr ⟨(getByProject_isSome hm).mp (hc hrun a p hlists), h a p hne hlists⟩

theorem complete_step {c : Call K S} (hm : Linked m) (hc : Complete m) (h : step m c = some t) :
    Complete t ↔ LeavesNoOther m c := by
  cases hstop : m.stopped with
  | false =>
      cases c <;> cases h
      · rw [complete_addAgent hstop hm hc]
        exact ⟨fun h _ => h, fun h => h hstop⟩
      · exact complete_removeAgent hstop hm hc
      · exact iff_of_true (complete_of_stopped rfl) trivial
  | true =>
      cases c <;> cases h
      · rw [addAgent_stopped hstop]
        refine iff_of_true hc fun hrun => ?_
        rw [hstop] at hrun
        cases hrun
      · rw [removeAgent_stopped hstop]
        exact iff_of_true hc fun a p _ hlists => absurd hlists (lists_stopped hm hstop a p)
      · exact iff_of_true (complete_of_stopped rfl) trivial

end Complete

section Sound

variable [NoneTest K] {m t : AgentManager K S} {agentId : K} {projects : List K} {sendCb : S}

theorem sound_addAgent (hrun : m.stopped = false) (hm : Linked m) (hs : Sound m) :
    Sound (m.addAgent agentId projects sendCb) ↔ ListsItsRoutes m (.addAgent agentId projects sendCb) := by
  constructor
  · intro h hsome p hroute
    have hinfo : (m.addAgent agentId projects sendCb).getByProject p = some { agentId, projects, send := sendCb } := by
      rw [AgentManager.getByProject_addAgent hrun, if_pos (.inr hroute), hsome]
      rfl
    exact (h p _ hinfo).2
  · intro h p info hinfo
    rw [AgentManager.getByAgent_addAgent hrun]
    rw [AgentManager.getByProject_addAgent hrun] at hinfo
    split at hinfo
    · rename_i hnew
      cases hsome : isNone agentId with
      | true =>
          rw [hsome] at hinfo
          cases hinfo
      | false =>
          rw [hsome] at hinfo
          cases hinfo
          exact ⟨if_pos rfl, hnew.elim id (h hsome p)⟩
    · rename_i hold
      obtain ⟨hroute, -⟩ := getByProject_some hm hinfo
      have hne : info.agentId ≠ agentId := fun heq => hold (.inr (heq ▸ hroute))
      rw [if_neg hne]
      exact hs p info hinfo

theorem sound_removeAgent (hrun : m.stopped = false) (hm : Linked m) (hs : Sound m) :
    Sound (m.removeAgent agentId) := by
  intro p info hinfo
  rw [AgentManager.getByProject_removeAgent hrun] at hinfo
  split at hinfo
  · cases hinfo
  · rename_i hroute
    have hne : info.agentId ≠ agentId := fun heq => hroute (heq ▸ (getByProject_some hm hinfo).1)
    rw [AgentManager.getByAgent_removeAgent hrun, if_neg hne]
    exact hs p info hinfo

theorem sound_step {c : Call K S} (hm : Linked m) (hs : Sound m) (h : step m c = some t) :
    Sound t ↔ ListsItsRoutes m c := by
  cases hstop : m.stopped with
  | false =>
      cases c <;> cases h
      · exact sound_addAgent hstop hm hs
      · exact iff_of_true (sound_removeAgent hstop hm hs) trivial
      · exact iff_of_true nofun trivial
  | true =>
      cases c <;> cases h
      · rw [addAgent_stopped hstop]
        refine iff_of_true hs fun _ p hroute => ?_
        rw [route_stopped hm hstop] at hroute
        cases hroute
      · rw [removeAgent_stopped hstop]
        exact iff_of_true hs trivial
      · exact iff_of_true nofun trivial

end Sound

theorem exec_isSome (m : AgentManager K S) (calls : List (Call K S)) :
    ((machine : Machine (AgentManager K S) (Call K S)).exec m calls).isSome :=
  machine.exec_isSome_of_total (fun _ c => by cases c <;> rfl) m calls

variable [NoneTest K]

theorem routing_complete_iff (calls : List (Call K S)) :
    (machine : Machine (AgentManager K S) (Call K S)).Always Complete machine.init calls ↔
      machine.Guarded LeavesNoOther machine.init calls :=
  machine.always_iff_guarded linked_step complete_step linked_empty complete_empty (exec_isSome _ _)

def sharedRun : List (Call Str Unit) :=
  [.addAgent (str "agent-a") [str "alpha"] (), .addAgent (str "agent-b") [str "alpha", str "beta"] (),
    .removeAgent (str "agent-b")]

theorem shared_project_unrouted : ∃ m, machine.exec machine.init sharedRun = some m ∧ m.stopped = false ∧
    Lists m (str "agent-a") (str "alpha") ∧ (m.getByProject (str "alpha")).isNone :=
  ⟨_, rfl, rfl, ⟨_, rfl, by decide⟩, rfl⟩

def relistedRun : List (Call Str Unit) :=
  [.addAgent (str "agent-a") [str "alpha"] (), .addAgent (str "agent-a") [str "beta"] ()]

end Ws.Routing
