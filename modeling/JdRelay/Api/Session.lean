import JdRelay.Api.Dingtalk
import JdRelay.Base.Transaction

namespace Api.Session
open Text Json State State.WorkOrderState Models Transaction

-- The attributes that the handler assigns, in the order a flush writes them.
inductive Change where
  | answered (id : Nat) (status : Str) (respondedAt : Int)
  | moved (id : Nat) (state : Str)
  deriving DecidableEq

def Change.write (c : Content) : Change → Content
  | answered id status respondedAt => c.respond id status respondedAt
  | moved id state => c.setState id state

abbrev Db := Transaction.Db Content Change Exn

structure Faults where
  findOrder : Bool
  findPending : Bool
  commit : Transaction.Commit
  rollback : Bool
  deriving DecidableEq

def external (fault : Bool) : Except Exn Unit := if fault then .error .external else .ok ()

def find (fault : Bool) (read : Content → Except Exn A) : Db A := do
  raising (external fault)
  raising (read (← get).stored)

def answers (approval : Option Approval) (result : Value) (now : Int) : List Change :=
  match approval with
  | some a => [.answered a.id (if agrees result then str "APPROVED" else str "REJECTED") now]
  | none => []

def advance (faults : Faults) (order : WorkOrder) (current : WorkOrderState) (approval : Option Approval) (result : Value) :
    Db Unit := do
  let new ← raising (transition current (target result approval))
  change [.moved order.id new.value]
  Transaction.commit Change.write Exn.external faults.commit

def refused (faults : Faults) : Exn → Db Unit
  | .stateError _ => rollback (external faults.rollback)
  | e => throw e

def finishOrder (faults : Faults) (now : Int) (result : Value) (order : WorkOrder) : Db Unit := do
  let approval ← find faults.findPending (readPending · order.id)
  change (answers approval result now)
  let current ← raising (ofStr order.state)
  tryCatch (advance faults order current approval result) (refused faults)

def handleApprovalFinish (faults : Faults) (sql : Sql) (now : Int) (bizId result _instanceId : Value) : Db Unit := do
  match ← find faults.findOrder (readOrder sql · bizId) with
  | none => pure ()
  | some order => finishOrder faults now result order

def served (faults : Faults) (sql : Sql) (now : Int) (c : Content) (bizId result instanceId : Value) :
    Except Exn Unit × Content :=
  let ended := within (external faults.rollback) (handleApprovalFinish faults sql now bizId result instanceId) (.opened c)
  (ended.1, ended.2.stored)

def Faults.stores (faults : Faults) : Bool := !faults.findOrder && !faults.findPending && faults.commit.writes

theorem find_ok {A : Type} {read : Content → Except Exn A} {s : Transaction.Session Content Change} :
    find false read s = (read s.stored, s) := rfl

theorem advance_stored {faults : Faults} {order : WorkOrder} {current : WorkOrderState} {approval : Option Approval}
    {result : Value} {s : Transaction.Session Content Change} (hcan : canTransition current (target result approval) = true) :
    (tryCatch (advance faults order current approval result) (refused faults) s).2.stored =
      if faults.commit.writes then (s.add [.moved order.id (target result approval).value]).changes.foldl Change.write s.stored
      else s.stored := by
  simp only [advance, run_tryCatch, run_bind, run_raising, transition_of_can hcan, follow_ok, run_change]
  cases faults.commit <;> rfl

theorem transition_refused {current next : WorkOrderState} (hcan : canTransition current next = false) :
    transition current next =
      .error (.stateError (str "Invalid transition: " ++ current.value ++ str " → " ++ next.value)) := by
  rw [transition, if_neg (by rw [hcan]; exact Bool.false_ne_true)]

theorem refused_stored {faults : Faults} {order : WorkOrder} {current : WorkOrderState} {approval : Option Approval}
    {result : Value} {s : Transaction.Session Content Change}
    (hcan : canTransition current (target result approval) = false) :
    (tryCatch (advance faults order current approval result) (refused faults) s).2.stored = s.stored := by
  simp only [advance, run_tryCatch, run_bind, run_raising, transition_refused hcan, follow_error, recover_error, refused]
  exact rollback_stored _ _

theorem flushed_plan (c : Content) (order : WorkOrder) (approval : Option Approval) (result : Value) (now : Int) :
    (((Session.opened c).add (answers approval result now)).add
      [.moved order.id (target result approval).value]).changes.foldl Change.write c =
      commit c (planFor order approval result now) := by
  cases approval <;> rfl

theorem finishWith_refused {c : Content} {order : WorkOrder} {current : WorkOrderState} {approval : Option Approval}
    {result : Value} {now : Int} (hstate : order.state = current.value)
    (hcan : canTransition current (target result approval) = false) :
    (finishWith c (drive order approval result now)).content c = c := by
  rw [drive, hstate, ofStr_value]
  simp only [bind, Except.bind, transition_refused hcan, finishWith, Finished.content]

theorem finishOrder_of_error {c : Content} {order : WorkOrder} {e : Exn} (faults : Faults) (now : Int) (result : Value)
    (h : readPending c order.id = .error e) : (finishOrder faults now result order (.opened c)).2.stored = c := by
  rw [finishOrder, run_bind]
  cases faults.findPending with
  | true => rfl
  | false => rw [find_ok, Session.opened_stored, h, follow_error, Session.opened_stored]

theorem finishOrder_of_ok {c : Content} {order : WorkOrder} {approval : Option Approval} (faults : Faults) (now : Int)
    (result : Value) (h : readPending c order.id = .ok approval) :
    (finishOrder faults now result order (.opened c)).2.stored =
      if !faults.findPending && faults.commit.writes then (finishWith c (drive order approval result now)).content c
      else c := by
  rw [finishOrder, run_bind]
  cases faults.findPending with
  | true => rfl
  | false =>
      rw [find_ok, Session.opened_stored, h, follow_ok, run_bind, run_change, follow_ok, run_bind, run_raising]
      cases hstate : ofStr order.state with
      | error e =>
          have hdrive : drive order approval result now = .error e := by rw [drive, hstate]; rfl
          rw [hdrive, follow_error]
          cases e <;> simp [finishWith, Finished.content, Session.add]
      | ok current =>
          obtain hstate : order.state = current.value := ofStr_ok hstate
          rw [follow_ok]
          cases hcan : canTransition current (target result approval) with
          | false =>
              have hkept : (finishWith c (drive order approval result now)).content c = c := finishWith_refused hstate hcan
              rw [refused_stored hcan, hkept, ite_self]
              rfl
          | true =>
              have hdrive : drive order approval result now = .ok (planFor order approval result now) :=
                drive_ok.mpr ⟨current, hstate, hcan, rfl⟩
              rw [advance_stored hcan, hdrive]
              exact congrArg (fun x => if faults.commit.writes then x else c) (flushed_plan c order approval result now)

theorem served_content (faults : Faults) (sql : Sql) (now : Int) (c : Content) (bizId result instanceId : Value) :
    (served faults sql now c bizId result instanceId).2 =
      if faults.stores then (Api.handleApprovalFinish sql now c bizId result instanceId).content c else c := by
  rw [served, within_stored, handleApprovalFinish, run_bind, Faults.stores]
  cases faults.findOrder with
  | true => rfl
  | false =>
      simp only [find_ok, Session.opened_stored, Bool.not_false, Bool.true_and, Api.handleApprovalFinish]
      cases readOrder sql c bizId with
      | error e => simp [Finished.content]
      | ok order =>
          rw [follow_ok]
          cases order with
          | none => simp [Finished.content]
          | some order =>
              dsimp only
              cases hpending : readPending c order.id with
              | error e =>
                  have h := finishOrder_of_error faults now result hpending
                  simpa [Finished.content] using h
              | ok approval =>
                  have h := finishOrder_of_ok faults now result hpending
                  simpa using h

def untimed (a : Approval) : Approval := { a with respondedAt := none }

def reset (id : Nat) (status : Str) (a : Approval) : Approval := if a.id = id then { a with status } else a

def stands (agree : Bool) (next : WorkOrderState) : Prop :=
  if agree then next = approved ∨ next = secondApproved else next = closed ∨ next = secondRejected

def answerText (agree : Bool) : Str := if agree then str "APPROVED" else str "REJECTED"

structure Settled (sql : Sql) (bizId result : Value) (c c' : Content) (order : WorkOrder) (current next : WorkOrderState) :
    Prop where
  mem : order ∈ c.orders
  named : ∃ eq, sql bizId = some eq ∧ eq order.orderNo = true
  state : order.state = current.value
  allowed : canTransition current next = true
  target : stands (agrees result) next
  orders : c'.orders = c.orders.map (WorkOrder.setState order.id next.value)
  approvals : c'.approvals.map untimed = c.approvals.map untimed ∨
    ∃ a ∈ c.approvals, a.workOrderId = order.id ∧ a.status = pendingText ∧
      c'.approvals.map untimed = (c.approvals.map untimed).map (reset a.id (answerText (agrees result)))

def AllOrNothing (sql : Sql) (bizId result : Value) (c c' : Content) : Prop :=
  c' = c ∨ ∃ order current next, Settled sql bizId result c c' order current next

theorem stands_target (result : Value) (approval : Option Approval) : stands (agrees result) (target result approval) := by
  unfold stands target
  split <;> split <;> simp

theorem untimed_respond (id : Nat) (status : Str) (now : Int) (a : Approval) :
    untimed (a.respond id status now) = reset id status (untimed a) := by
  unfold untimed Approval.respond reset
  split <;> rfl

theorem mem_of_readPending {c : Content} {orderId : Nat} {a : Approval} (h : readPending c orderId = .ok (some a)) :
    a ∈ c.approvals ∧ a.workOrderId = orderId ∧ a.status = pendingText := by
  have hrows : pendingRows c orderId = [a] := scalarOneOrNone_some h
  have hmem : a ∈ pendingRows c orderId := by rw [hrows]; exact List.mem_singleton_self a
  rw [pendingRows, List.mem_insertionSort, List.mem_filter] at hmem
  simpa using hmem

theorem settled_commit {sql : Sql} {c : Content} {bizId result : Value} {order : WorkOrder} {approval : Option Approval}
    {current : WorkOrderState} (now : Int) (h : Honoured sql c bizId result order approval current) :
    Settled sql bizId result c (commit c (planFor order approval result now)) order current (target result approval) where
  mem := mem_of_readOrder h.found
  named := by
    obtain ⟨eq, hsql, hfilter⟩ := readOrder_some h.found
    have hmem : order ∈ c.orders.filter fun o => eq o.orderNo := hfilter ▸ List.mem_singleton_self order
    exact ⟨eq, hsql, (List.mem_filter.mp hmem).2⟩
  state := h.state
  allowed := h.allowed
  target := stands_target result approval
  orders := by cases approval <;> rfl
  approvals := by
    cases approval with
    | none => exact .inl rfl
    | some a =>
        obtain ⟨hmem, horder, hstatus⟩ := mem_of_readPending h.pending
        refine .inr ⟨a, hmem, horder, hstatus, ?_⟩
        change (c.approvals.map (Approval.respond a.id (answerText (agrees result)) now)).map untimed = _
        simp only [List.map_map, Function.comp_def, untimed_respond]

theorem content_cases (sql : Sql) (now : Int) (c : Content) (bizId result instanceId : Value) :
    AllOrNothing sql bizId result c ((Api.handleApprovalFinish sql now c bizId result instanceId).content c) := by
  cases hf : Api.handleApprovalFinish sql now c bizId result instanceId with
  | committed c' =>
      obtain ⟨order, approval, current, h, rfl⟩ := committed_iff.mp hf
      exact .inr ⟨order, current, _, settled_commit now h⟩
  | rolledBack => exact .inl rfl
  | raised e => exact .inl rfl

theorem callback_all_or_nothing (faults : Faults) (sql : Sql) (now : Int) (c : Content) (bizId result instanceId : Value) :
    AllOrNothing sql bizId result c (served faults sql now c bizId result instanceId).2 := by
  rw [served_content]
  split
  · exact content_cases sql now c bizId result instanceId
  · exact .inl rfl

end Api.Session
