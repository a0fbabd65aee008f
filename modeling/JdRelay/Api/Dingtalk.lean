import JdRelay.Models
import JdRelay.State

namespace Api
open Text Json State State.WorkOrderState Models

-- WHERE order_no = v: which order numbers the database takes for equal to v, none when the driver refuses v.
abbrev Sql := Value → Option (Str → Bool)

def pendingText : Str := str "PENDING"

def secondText : Str := str "second"

def scalarOneOrNone {A : Type} : List A → Except Exn (Option A)
  | [] => .ok none
  | [a] => .ok (some a)
  | _ => .error .multipleResultsFound

def readOrder (sql : Sql) (c : Content) (bizId : Value) : Except Exn (Option WorkOrder) :=
  match sql bizId with
  | none => .error .external
  | some eq => scalarOneOrNone (c.orders.filter fun o => eq o.orderNo)

def pendingRows (c : Content) (orderId : Nat) : List Approval :=
  (c.approvals.filter fun a => a.workOrderId = orderId && a.status = pendingText).insertionSort
    fun a b => b.createdAt ≤ a.createdAt

def readPending (c : Content) (orderId : Nat) : Except Exn (Option Approval) :=
  scalarOneOrNone (pendingRows c orderId)

def agrees (result : Value) : Bool := decide (result = .str (str "agree"))

def reviewType : Option Approval → Str
  | some a => a.reviewType
  | none => str "first"

def target (result : Value) (approval : Option Approval) : WorkOrderState :=
  if agrees result then
    if reviewType approval = secondText then secondApproved else approved
  else
    if reviewType approval = secondText then secondRejected else closed

structure Plan where
  orderId : Nat
  newState : WorkOrderState
  approval : Option (Nat × Str × Int)

def planFor (order : WorkOrder) (approval : Option Approval) (result : Value) (now : Int) : Plan where
  orderId := order.id
  newState := target result approval
  approval := approval.map fun a => (a.id, if agrees result then str "APPROVED" else str "REJECTED", now)

def drive (order : WorkOrder) (approval : Option Approval) (result : Value) (now : Int) : Except Exn Plan := do
  let current ← ofStr order.state
  let _ ← transition current (target result approval)
  .ok (planFor order approval result now)

def commit (c : Content) (plan : Plan) : Content :=
  (match plan.approval with
    | some (id, status, now) => c.respond id status now
    | none => c).setState plan.orderId plan.newState.value

inductive Finished where
  | committed (c : Content)
  | rolledBack
  | raised (e : Exn)
  deriving DecidableEq

def Finished.content (before : Content) : Finished → Content
  | committed c => c
  | _ => before

def finishWith (c : Content) (plan : Except Exn Plan) : Finished :=
  match plan with
  | .error (.stateError _) => .rolledBack
  | .error e => .raised e
  | .ok plan => .committed (commit c plan)

-- The instance id is read from the request and used nowhere.
def handleApprovalFinish (sql : Sql) (now : Int) (c : Content) (bizId result _instanceId : Value) : Finished :=
  match readOrder sql c bizId with
  | .error e => .raised e
  | .ok none => .rolledBack
  | .ok (some order) =>
      match readPending c order.id with
      | .error e => .raised e
      | .ok approval => finishWith c (drive order approval result now)

theorem scalarOneOrNone_some {A : Type} {xs : List A} {a : A} (h : scalarOneOrNone xs = .ok (some a)) : xs = [a] := by
  match xs, h with
  | [_], h => cases h; rfl

theorem readOrder_some {sql : Sql} {c : Content} {bizId : Value} {order : WorkOrder}
    (h : readOrder sql c bizId = .ok (some order)) :
    ∃ eq, sql bizId = some eq ∧ c.orders.filter (fun o => eq o.orderNo) = [order] := by
  unfold readOrder at h
  split at h
  · cases h
  · exact ⟨_, ‹_›, scalarOneOrNone_some h⟩

theorem mem_of_readOrder {sql : Sql} {c : Content} {bizId : Value} {order : WorkOrder}
    (h : readOrder sql c bizId = .ok (some order)) : order ∈ c.orders := by
  obtain ⟨eq, -, hfilter⟩ := readOrder_some h
  exact (List.mem_filter.mp (hfilter ▸ List.mem_singleton_self order)).1

theorem drive_ok {order : WorkOrder} {approval : Option Approval} {result : Value} {now : Int} {plan : Plan} :
    drive order approval result now = .ok plan ↔
      ∃ current, order.state = current.value ∧ canTransition current (target result approval) = true ∧
        plan = planFor order approval result now := by
  simp only [drive, Python.bind_ok]
  constructor
  · rintro ⟨current, hcurrent, _, hnew, hplan⟩
    exact ⟨current, ofStr_ok hcurrent, (transition_ok hnew).1, (Except.ok.inj hplan).symm⟩
  · rintro ⟨current, hstate, hcan, rfl⟩
    exact ⟨current, by rw [hstate, ofStr_value], _, transition_of_can hcan, rfl⟩

structure Honoured (sql : Sql) (c : Content) (bizId result : Value) (order : WorkOrder)
    (approval : Option Approval) (current : WorkOrderState) : Prop where
  found : readOrder sql c bizId = .ok (some order)
  pending : readPending c order.id = .ok approval
  state : order.state = current.value
  allowed : canTransition current (target result approval) = true

theorem finishWith_committed {c c' : Content} {plan : Except Exn Plan} :
    finishWith c plan = .committed c' ↔ ∃ p, plan = .ok p ∧ c' = commit c p := by
  cases plan with
  | ok p => simp [finishWith, eq_comm]
  | error e => cases e <;> simp [finishWith]

theorem committed_iff {sql : Sql} {now : Int} {c c' : Content} {bizId result instanceId : Value} :
    handleApprovalFinish sql now c bizId result instanceId = .committed c' ↔
      ∃ order approval current, Honoured sql c bizId result order approval current ∧
        c' = commit c (planFor order approval result now) := by
  constructor
  · intro h
    unfold handleApprovalFinish at h
    split at h
    · cases h
    · cases h
    · rename_i order horder
      split at h
      · cases h
      · rename_i approval hpending
        obtain ⟨plan, hplan, rfl⟩ := finishWith_committed.mp h
        obtain ⟨current, hstate, hcan, rfl⟩ := drive_ok.mp hplan
        exact ⟨order, approval, current, ⟨horder, hpending, hstate, hcan⟩, rfl⟩
  · rintro ⟨order, approval, current, h, rfl⟩
    have hdrive : drive order approval result now = .ok (planFor order approval result now) :=
      drive_ok.mpr ⟨current, h.state, h.allowed, rfl⟩
    simp only [handleApprovalFinish, h.found, h.pending]
    exact finishWith_committed.mpr ⟨_, hdrive, rfl⟩

theorem canTransition_ne {a b : WorkOrderState} (h : canTransition a b = true) : a ≠ b := by
  rintro rfl
  revert h
  cases a <;> decide

theorem order?_commit (c : Content) (plan : Plan) (id : Nat) :
    (commit c plan).order? id = (c.order? id).map (WorkOrder.setState plan.orderId plan.newState.value) := by
  unfold commit
  rw [Content.order?_setState]
  cases plan.approval <;> rfl

theorem state_commit {c : Content} {plan : Plan} {o : WorkOrder} (h : o ∈ c.orders) (hid : plan.orderId = o.id) :
    (commit c plan).order? o.id = some { o with state := plan.newState.value } := by
  rw [order?_commit, Content.order?_of_mem h, Option.map_some, WorkOrder.setState, if_pos hid.symm]

theorem commit_ne {c : Content} {order : WorkOrder} {approval : Option Approval} {result : Value}
    {current : WorkOrderState} (now : Int) (horder : order ∈ c.orders) (hstate : order.state = current.value)
    (hcan : canTransition current (target result approval) = true) :
    commit c (planFor order approval result now) ≠ c := by
  intro heq
  have hnew : (commit c (planFor order approval result now)).order? order.id =
      some { order with state := (target result approval).value } := state_commit horder rfl
  rw [heq, Content.order?_of_mem horder, Option.some.injEq] at hnew
  have hsame : order.state = (target result approval).value := congrArg WorkOrder.state hnew
  rw [hstate] at hsame
  exact canTransition_ne hcan (value_injective hsame)

theorem content_eq_iff {sql : Sql} {now : Int} {c : Content} {bizId result instanceId : Value} :
    (handleApprovalFinish sql now c bizId result instanceId).content c = c ↔
      ¬ ∃ order approval current, Honoured sql c bizId result order approval current := by
  constructor
  · rintro hsame ⟨order, approval, current, h⟩
    rw [committed_iff.mpr ⟨order, approval, current, h, rfl⟩] at hsame
    exact commit_ne now (mem_of_readOrder h.found) h.state h.allowed hsame
  · intro hnone
    cases hf : handleApprovalFinish sql now c bizId result instanceId with
    | committed c' =>
        obtain ⟨order, approval, current, h, -⟩ := committed_iff.mp hf
        exact absurd ⟨order, approval, current, h⟩ hnone
    | rolledBack => rfl
    | raised e => rfl

end Api
