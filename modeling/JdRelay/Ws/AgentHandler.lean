import JdRelay.Base.Runs
import JdRelay.Base.Text
import JdRelay.Ws.AgentManager

namespace Ws.AgentHandler
open Text Runs

def unknown : Str := str "<unknown>"

-- Where one handle_agent_connection call stands. A failed handshake leaves agent_id at <unknown>.
inductive Phase where
  | handshaking
  | handshaken (agentId : Str) (projects : List Str)
  | looping (agentId : Str)
  | closing (agentId : Str)
  | ended
  deriving DecidableEq

-- lastAdder remembers who ran add_agent last for an id; the send callback of handler h is h.
structure System (H : Type) where
  manager : AgentManager Str H
  phase : H → Phase
  lastAdder : Str → Option H

inductive Event (H : Type) where
  | handshakeDone (h : H) (agentId : Str) (projects : List Str)
  | addAgent (h : H)
  | receive (h : H)
  | disconnect (h : H)
  | removeAgent (h : H)

variable {H : Type}

-- The try block is left: the peer is gone, an exception or a cancellation.
def leave : Phase → Option Phase
  | .handshaking => some (.closing unknown)
  | .handshaken agentId _ => some (.closing agentId)
  | .looping agentId => some (.closing agentId)
  | _ => none

def removable (agentId : Str) : Bool := agentId ≠ [] && agentId ≠ unknown

def unregister (m : AgentManager Str H) (agentId : Str) : AgentManager Str H :=
  if removable agentId then m.removeAgent agentId else m

def StillLooping (s : System H) (agentId : Str) (h : H) : Prop :=
  s.lastAdder agentId = some h ∧ s.phase h = .looping agentId

def Routed (s : System H) : Prop :=
  ∀ agentId h, StillLooping s agentId h → ∃ info, s.manager.getByAgent agentId = some info ∧ info.send = h

def CleansOwn (s : System H) : Event H → Prop
  | .removeAgent h => ∀ agentId, s.phase h = .closing agentId → removable agentId = true →
      ∀ h', ¬ StillLooping s agentId h'
  | _ => True

theorem getByAgent_unregister {m : AgentManager Str H} (hrun : m.stopped = false) (agentId other : Str) :
    (unregister m agentId).getByAgent other =
      if removable agentId = true ∧ other = agentId then none else m.getByAgent other := by
  unfold unregister
  by_cases hrem : removable agentId = true
  · rw [if_pos hrem, AgentManager.getByAgent_removeAgent hrun]
    simp only [hrem, true_and]
  · simp [hrem]

variable [DecidableEq H]

def System.goto (s : System H) (h : H) (p : Phase) : System H := { s with phase := Function.update s.phase h p }

def System.register (s : System H) (h : H) (agentId : Str) (projects : List Str) : System H where
  manager := s.manager.addAgent agentId projects h
  phase := Function.update s.phase h (.looping agentId)
  lastAdder := Function.update s.lastAdder agentId (some h)

def System.cleanup (s : System H) (h : H) (agentId : Str) : System H :=
  { s.goto h .ended with manager := unregister s.manager agentId }

def step (s : System H) : Event H → Option (System H)
  | .handshakeDone h agentId projects =>
      match s.phase h with
      | .handshaking => some (s.goto h (.handshaken agentId projects))
      | _ => none
  | .addAgent h =>
      match s.phase h with
      | .handshaken agentId projects => some (s.register h agentId projects)
      | _ => none
  | .receive h =>
      match s.phase h with
      | .looping _ => some s
      | _ => none
  | .disconnect h => (leave (s.phase h)).map (s.goto h)
  | .removeAgent h =>
      match s.phase h with
      | .closing agentId => some (s.cleanup h agentId)
      | _ => none

def machine : Machine (System H) (Event H) where
  init := { manager := .empty, phase := fun _ => .handshaking, lastAdder := fun _ => none }
  step := step

theorem stillLooping_goto {s : System H} {h h' : H} {p : Phase} {agentId : Str} (hp : ∀ id, p ≠ .looping id)
    (hl : StillLooping (s.goto h p) agentId h') : StillLooping s agentId h' := by
  obtain ⟨hlast, hphase⟩ := hl
  by_cases heq : h' = h
  · subst heq
    simp only [System.goto, Function.update_self] at hphase
    exact absurd hphase (hp agentId)
  · simp only [System.goto, Function.update_of_ne heq] at hphase
    exact ⟨hlast, hphase⟩

theorem routed_goto {s : System H} {h : H} {p : Phase} (hs : Routed s) (hp : ∀ id, p ≠ .looping id) :
    Routed (s.goto h p) := fun agentId h' hl => hs agentId h' (stillLooping_goto hp hl)

theorem leave_ne_looping {p q : Phase} (h : leave p = some q) : ∀ id, q ≠ .looping id := by
  cases p <;> cases h <;> exact fun _ => nofun

theorem routed_register {s : System H} {h : H} {agentId : Str} {projects : List Str} (hrun : s.manager.stopped = false)
    (hs : Routed s) : Routed (s.register h agentId projects) := by
  rintro id h' ⟨hlast, hphase⟩
  simp only [System.register] at hlast hphase ⊢
  rw [AgentManager.getByAgent_addAgent hrun]
  by_cases hid : id = agentId
  · subst hid
    rw [Function.update_self, Option.some.injEq] at hlast
    exact ⟨_, if_pos rfl, hlast⟩
  · rw [Function.update_of_ne hid] at hlast
    rw [if_neg hid]
    by_cases heq : h' = h
    · subst heq
      rw [Function.update_self, Phase.looping.injEq] at hphase
      exact absurd hphase.symm hid
    · rw [Function.update_of_ne heq] at hphase
      exact hs id h' ⟨hlast, hphase⟩

theorem stillLooping_of_closing {s : System H} {h h' : H} {agentId id : Str} (hclosing : s.phase h = .closing agentId)
    (hl : StillLooping s id h') : StillLooping (s.cleanup h agentId) id h' := by
  have hne : h' ≠ h := by
    rintro rfl
    cases hclosing.symm.trans hl.2
  exact ⟨hl.1, (Function.update_of_ne hne _ _).trans hl.2⟩

theorem routed_cleanup {s : System H} {h : H} {agentId : Str} (hrun : s.manager.stopped = false) (hs : Routed s)
    (hclosing : s.phase h = .closing agentId) :
    Routed (s.cleanup h agentId) ↔ (removable agentId = true → ∀ h', ¬ StillLooping s agentId h') := by
  constructor
  · intro hrouted hrem h' hl
    obtain ⟨info, hinfo, -⟩ := hrouted agentId h' (stillLooping_of_closing hclosing hl)
    simp only [System.cleanup, getByAgent_unregister hrun] at hinfo
    rw [if_pos ⟨hrem, trivial⟩] at hinfo
    cases hinfo
  · intro hnone id h' hl
    have hended : StillLooping (s.goto h .ended) id h' := hl
    have hp : ∀ id, Phase.ended ≠ .looping id := fun _ => nofun
    have hl' : StillLooping s id h' := stillLooping_goto hp hended
    have hkeep : ¬ (removable agentId = true ∧ id = agentId) := by
      rintro ⟨hrem, rfl⟩
      exact hnone hrem h' hl'
    simp only [System.cleanup, getByAgent_unregister hrun, if_neg hkeep]
    exact hs id h' hl'

theorem stopped_step {s t : System H} {e : Event H} (hs : s.manager.stopped = false) (h : step s e = some t) :
    t.manager.stopped = false := by
  cases e with
  | handshakeDone i agentId projects =>
      simp only [step] at h
      split at h <;> cases h
      exact hs
  | addAgent i =>
      simp only [step] at h
      split at h <;> cases h
      simpa [System.register] using hs
  | receive i =>
      simp only [step] at h
      split at h <;> cases h
      exact hs
  | disconnect i =>
      obtain ⟨p, -, rfl⟩ := Option.map_eq_some_iff.mp h
      exact hs
  | removeAgent i =>
      simp only [step] at h
      split at h <;> cases h
      simp only [System.cleanup, unregister]
      split
      · rw [AgentManager.stopped_removeAgent, hs]
      · exact hs

theorem routed_step {s t : System H} {e : Event H} (hrun : s.manager.stopped = false) (hs : Routed s)
    (h : step s e = some t) : Routed t ↔ CleansOwn s e := by
  cases e with
  | handshakeDone i agentId projects =>
      simp only [step] at h
      split at h <;> cases h
      exact iff_of_true (routed_goto hs fun _ => nofun) trivial
  | addAgent i =>
      simp only [step] at h
      split at h <;> cases h
      exact iff_of_true (routed_register hrun hs) trivial
  | receive i =>
      simp only [step] at h
      split at h <;> cases h
      exact iff_of_true hs trivial
  | disconnect i =>
      obtain ⟨p, hp, rfl⟩ := Option.map_eq_some_iff.mp h
      exact iff_of_true (routed_goto hs (leave_ne_looping hp)) trivial
  | removeAgent i =>
      simp only [step] at h
      split at h
      · rename_i agentId hclosing
        cases h
        rw [routed_cleanup hrun hs hclosing]
        simp only [CleansOwn, hclosing, Phase.closing.injEq, forall_eq']
      · cases h

theorem reconnect_kept_iff {es : List (Event H)} (hrun : (machine : Machine (System H) (Event H)).IsRun es) :
    (machine : Machine (System H) (Event H)).Always Routed machine.init es ↔
      (machine : Machine (System H) (Event H)).Guarded CleansOwn machine.init es :=
  have hinit : (⟨.empty, fun _ => .handshaking, fun _ => none⟩ : System H).manager.stopped = false := rfl
  Machine.always_iff_guarded _ stopped_step routed_step hinit (fun agentId h hl => by cases hl.1) hrun

-- false is the first connection of agent-1 and true its reconnect; the server notices the dead socket last.
def reconnectRun : List (Event Bool) :=
  [.handshakeDone false (str "agent-1") [str "app"], .addAgent false,
    .handshakeDone true (str "agent-1") [str "app"], .addAgent true, .receive true,
    .disconnect false, .removeAgent false]

theorem reconnect_undone :
    ((machine : Machine (System Bool) (Event Bool)).exec machine.init reconnectRun).map
        (fun s => (s.phase true, (s.lastAdder (str "agent-1")), s.manager.getByAgent (str "agent-1"))) =
      some (.looping (str "agent-1"), some true, none) := by decide

theorem reconnect_kept_iff_reconnectRun :
    (machine : Machine (System Bool) (Event Bool)).Always Routed machine.init reconnectRun ↔
      (machine : Machine (System Bool) (Event Bool)).Guarded CleansOwn machine.init reconnectRun :=
  reconnect_kept_iff (by decide)

end Ws.AgentHandler
