import JdRelay.Base.Text

namespace Models
open Text

structure WorkOrder where
  id : Nat
  orderNo : Str
  state : Str
  deriving DecidableEq

structure Approval where
  id : Nat
  workOrderId : Nat
  status : Str
  reviewType : Str
  createdAt : Int
  respondedAt : Option Int
  deriving DecidableEq

structure Content where
  orders : List WorkOrder
  approvals : List Approval
  order_ids : (orders.map (·.id)).Nodup
  order_nos : (orders.map (·.orderNo)).Nodup
  approval_ids : (approvals.map (·.id)).Nodup
  deriving DecidableEq

def WorkOrder.setState (id : Nat) (state : Str) (o : WorkOrder) : WorkOrder :=
  if o.id = id then { o with state } else o

def Approval.respond (id : Nat) (status : Str) (now : Int) (a : Approval) : Approval :=
  if a.id = id then { a with status, respondedAt := some now } else a

@[simp] theorem WorkOrder.setState_id (id : Nat) (state : Str) (o : WorkOrder) : (o.setState id state).id = o.id := by
  unfold setState; split <;> rfl

@[simp] theorem WorkOrder.setState_orderNo (id : Nat) (state : Str) (o : WorkOrder) :
    (o.setState id state).orderNo = o.orderNo := by
  unfold setState; split <;> rfl

theorem WorkOrder.setState_of_eq {id : Nat} {o : WorkOrder} (h : o.id = id) (state : Str) :
    o.setState id state = { o with state } := if_pos h

theorem WorkOrder.setState_of_ne {id : Nat} {o : WorkOrder} (h : o.id ≠ id) (state : Str) : o.setState id state = o :=
  if_neg h

@[simp] theorem Approval.respond_id (id : Nat) (status : Str) (now : Int) (a : Approval) :
    (a.respond id status now).id = a.id := by
  unfold respond; split <;> rfl

namespace Content

variable (c : Content)

def setState (id : Nat) (state : Str) : Content where
  orders := c.orders.map (WorkOrder.setState id state)
  approvals := c.approvals
  order_ids := by simpa [Function.comp_def] using c.order_ids
  order_nos := by simpa [Function.comp_def] using c.order_nos
  approval_ids := c.approval_ids

def respond (id : Nat) (status : Str) (now : Int) : Content where
  orders := c.orders
  approvals := c.approvals.map (Approval.respond id status now)
  order_ids := c.order_ids
  order_nos := c.order_nos
  approval_ids := by simpa [Function.comp_def] using c.approval_ids

def addApproval (a : Approval) (h : a.id ∉ c.approvals.map (·.id)) : Content where
  orders := c.orders
  approvals := a :: c.approvals
  order_ids := c.order_ids
  order_nos := c.order_nos
  approval_ids := List.nodup_cons.mpr ⟨h, c.approval_ids⟩

@[simp] theorem orders_setState (id : Nat) (state : Str) :
    (c.setState id state).orders = c.orders.map (WorkOrder.setState id state) := rfl

@[simp] theorem orders_respond (id : Nat) (status : Str) (now : Int) : (c.respond id status now).orders = c.orders := rfl

@[simp] theorem orders_addApproval (a : Approval) (h : a.id ∉ c.approvals.map (·.id)) :
    (c.addApproval a h).orders = c.orders := rfl

def order? (id : Nat) : Option WorkOrder := c.orders.find? (·.id = id)

theorem order?_of_mem {c : Content} {o : WorkOrder} (h : o ∈ c.orders) : c.order? o.id = some o := by
  cases hf : c.order? o.id with
  | none => exact absurd (List.find?_eq_none.mp hf o h) (by simp)
  | some o' =>
      have hfind : c.orders.find? (fun x => x.id = o.id) = some o' := hf
      have hid := List.find?_some hfind
      rw [List.inj_on_of_nodup_map c.order_ids (List.mem_of_find?_eq_some hfind) h (of_decide_eq_true hid)]

theorem order?_setState (id id' : Nat) (state : Str) :
    (c.setState id state).order? id' = (c.order? id').map (WorkOrder.setState id state) := by
  simp only [order?, orders_setState, List.find?_map, Function.comp_def, WorkOrder.setState_id]

end Content
end Models
