import Mathlib.Data.Finset.Card
import JdRelay.Base.Runs
import JdRelay.Services.Lifecycle

namespace Services.Approvers
open Text Json Runs State State.WorkOrderState Lifecycle

-- One call of on_approval_result: approver and comment are logged and nothing else.
structure Answer where
  fields : WorkOrderDict
  result : Value
  approver : Str
  comment : Str

structure Order where
  stored : WorkOrderState
  received : List Answer

def onApprovalResult (workOrder : WorkOrderDict) (result : Value) (_approver _comment : Str) :
    Outcome WorkOrderState :=
  RelayService.onApprovalResult workOrder result

-- A call that raises returns no state to store.
def step (s : Order) (a : Answer) : Option Order :=
  let o := onApprovalResult (dictOf s.stored a.fields) a.result a.approver a.comment
  some { stored := o.result.toOption.getD s.stored, received := s.received ++ [a] }

def machine : Machine Order Answer where
  init := { stored := pendingApproval, received := [] }
  step := step

structure ThreeAgreed (received : List Answer) : Prop where
  distinct : ∃ approvers : Finset Str, approvers.card = 3 ∧
    ∀ approver ∈ approvers, ∃ a ∈ received, a.approver = approver ∧ agrees a.result = true
  unrefused : ∀ a ∈ received, agrees a.result = true

def ApprovedByThree (s : Order) : Prop := s.stored = approved → ThreeAgreed s.received

theorem onApprovalResult_stored (order : WorkOrderState) (a : Answer) :
    (onApprovalResult (dictOf order a.fields) a.result a.approver a.comment).result =
      transition order (verdictTarget a.result approved closed) := by
  rw [onApprovalResult, RelayService.onApprovalResult, Outcome.result_lift_bind (dictOf_state order a.fields),
    Outcome.lift, verdictTarget, agrees]
  by_cases hagree : a.result = .str (str "agree") <;> simp [hagree]

theorem step_pending {a : Answer} {received : List Answer} :
    step ⟨pendingApproval, received⟩ a = some ⟨verdictTarget a.result approved closed, received ++ [a]⟩ := by
  rw [step, onApprovalResult_stored]
  cases h : agrees a.result <;> simp [verdictTarget, h, transition, canTransition, transitions, Except.toOption]

theorem step_closed {s t : Order} {a : Answer} (hs : s.stored = closed) (h : step s a = some t) :
    t.stored = closed := by
  cases h
  simp [onApprovalResult_stored, hs, transition, canTransition, transitions, Except.toOption]

theorem card_approvers {received : List Answer} (h : ThreeAgreed received) : 3 ≤ received.length := by
  obtain ⟨approvers, hcard, hall⟩ := h.distinct
  have hsub : approvers ⊆ (received.map (·.approver)).toFinset := fun approver hmem => by
    obtain ⟨a, ha, rfl, -⟩ := hall approver hmem
    exact List.mem_toFinset.mpr (List.mem_map_of_mem ha)
  calc 3 = approvers.card := hcard.symm
    _ ≤ (received.map (·.approver)).toFinset.card := Finset.card_le_card hsub
    _ ≤ (received.map (·.approver)).length := List.toFinset_card_le _
    _ = received.length := List.length_map _

theorem three_approvers_iff (answers : List Answer) :
    machine.Always ApprovedByThree machine.init answers ↔ ∀ a ∈ answers.head?, agrees a.result = false := by
  have hinit : ApprovedByThree machine.init := nofun
  cases answers with
  | nil => exact iff_of_true hinit nofun
  | cons a rest =>
      have hstep : machine.step machine.init a = some ⟨verdictTarget a.result approved closed, [a]⟩ := step_pending
      simp only [List.head?_cons, Option.mem_def, Option.some.injEq, forall_eq']
      constructor
      · rintro ⟨-, hall⟩
        have hfirst := machine.always_head (hall _ hstep)
        by_contra hagree
        have happroved : verdictTarget a.result approved closed = approved := by
          rw [verdictTarget, if_pos (Bool.eq_true_of_not_eq_false hagree)]
        have hcount := card_approvers (hfirst happroved)
        simp at hcount
      · intro hagree
        refine ⟨hinit, fun t ht => ?_⟩
        cases hstep.symm.trans ht
        have hclosed : verdictTarget a.result approved closed = closed := by
          rw [verdictTarget, hagree]
          rfl
        refine machine.always_of_invariant (I := fun s => s.stored = closed) step_closed ?_ hclosed
        intro s hs happroved
        cases hs.symm.trans happroved

def agreeAnswer : Answer := ⟨plainOrder, .str (str "agree"), str "user-1", []⟩

theorem one_agree_approves : ∃ s, machine.exec machine.init [agreeAnswer] = some s ∧ s.stored = approved ∧
    ¬ ThreeAgreed s.received := by
  refine ⟨_, rfl, by decide, fun h => ?_⟩
  have hcount := card_approvers h
  simp [machine] at hcount

end Services.Approvers
