import JdRelay.Api.Dingtalk

namespace Api.Redelivery
open Text Json State State.WorkOrderState Models

-- What other operations may do to the tables: moves of TRANSITIONS and new PENDING rows.
inductive Later : Content → Content → Prop where
  | refl (c : Content) : Later c c
  | moveState {a b : Content} {o : WorkOrder} {current next : WorkOrderState} (h : Later a b) (ho : o ∈ b.orders)
      (hstate : o.state = current.value) (hcan : canTransition current next = true) :
      Later a (b.setState o.id next.value)
  | addPending {a b : Content} (h : Later a b) (r : Approval) (hid : r.id ∉ b.approvals.map (·.id))
      (hstatus : r.status = pendingText) (htype : r.reviewType = str "first" ∨ r.reviewType = secondText) :
      Later a (b.addApproval r hid)

structure Callback where
  bizId : Value
  result : Value
  processInstanceId : Value

def finish (sql : Sql) (now : Int) (c : Content) (cb : Callback) : Finished :=
  handleApprovalFinish sql now c cb.bizId cb.result cb.processInstanceId

structure Answers (cb : Callback) (order : WorkOrder) (approval : Option Approval) : Prop where
  agree : agrees cb.result = true → order.state = pendingSecondReview.value ∧ reviewType approval = secondText
  refuse : agrees cb.result = false → order.state = secondRejected.value ∧ reviewType approval ≠ secondText

def Reopens (sql : Sql) (c : Content) (cb : Callback) : Prop :=
  ∃ order approval, readOrder sql c cb.bizId = .ok (some order) ∧ readPending c order.id = .ok approval ∧
    Answers cb order approval

structure Evolved (a b : WorkOrder) : Prop where
  id : a.id = b.id
  orderNo : a.orderNo = b.orderNo
  state : ∀ st, a.state = st.value → ∃ st', b.state = st'.value ∧ Moves st st'

theorem Evolved.refl (a : WorkOrder) : Evolved a a := ⟨rfl, rfl, fun st h => ⟨st, h, .stay st⟩⟩

theorem Evolved.setState {a b o : WorkOrder} {current next : WorkOrderState} (h : Evolved a b)
    (hb : b.id = o.id → b.state = current.value) (hcan : canTransition current next = true) :
    Evolved a (b.setState o.id next.value) := by
  refine ⟨by rw [WorkOrder.setState_id, h.id], by rw [WorkOrder.setState_orderNo, h.orderNo], fun st hst => ?_⟩
  obtain ⟨st', hst', hmoves⟩ := h.state st hst
  by_cases hid : b.id = o.id
  · have hcurrent : st' = current := value_injective (hst'.symm.trans (hb hid))
    refine ⟨next, by rw [WorkOrder.setState, if_pos hid], hmoves.next ?_⟩
    rw [hcurrent]
    exact hcan
  · exact ⟨st', by rw [WorkOrder.setState, if_neg hid, hst'], hmoves⟩

theorem Later.evolved {a b : Content} (h : Later a b) : List.Forall₂ Evolved a.orders b.orders := by
  induction h with
  | refl => exact List.forall₂_same.mpr fun o _ => .refl o
  | @moveState b o current next h ho hstate hcan ih =>
      rw [Content.orders_setState, List.forall₂_map_right_iff, List.forall₂_iff_zip]
      refine ⟨ih.length_eq, fun {x y} hxy => ?_⟩
      refine ((List.forall₂_iff_zip.mp ih).2 hxy).setState (fun hid => ?_) hcan
      rw [List.inj_on_of_nodup_map b.order_ids (List.of_mem_zip hxy).2 ho hid, hstate]
  | addPending h r hid hstatus htype ih => exact ih

theorem readOrder_of_filter {sql : Sql} {c : Content} {bizId : Value} {eq : Str → Bool} {order : WorkOrder}
    (hsql : sql bizId = some eq) (hfilter : c.orders.filter (fun o => eq o.orderNo) = [order]) :
    readOrder sql c bizId = .ok (some order) := by
  simp only [readOrder, hsql, hfilter, scalarOneOrNone]

theorem Later.readOrder {sql : Sql} {a b : Content} {bizId : Value} {order : WorkOrder} (h : Later a b)
    (hread : readOrder sql a bizId = .ok (some order)) :
    ∃ order', Api.readOrder sql b bizId = .ok (some order') ∧ Evolved order order' := by
  obtain ⟨eq, hsql, hfilter⟩ := readOrder_some hread
  have hrel : List.Forall₂ Evolved (a.orders.filter fun o => eq o.orderNo) (b.orders.filter fun o => eq o.orderNo) :=
    List.rel_filter (fun x y hxy => by simp only [hxy.orderNo]) h.evolved
  rw [hfilter] at hrel
  obtain ⟨order', rest, hevolved, hrest, hb⟩ := List.forall₂_cons_left_iff.mp hrel
  rw [List.forall₂_nil_left_iff.mp hrest] at hb
  exact ⟨order', readOrder_of_filter hsql hb, hevolved⟩

theorem readOrder_commit {sql : Sql} {c : Content} {plan : Plan} {bizId : Value} {order : WorkOrder}
    (hread : readOrder sql c bizId = .ok (some order)) (hid : plan.orderId = order.id) :
    readOrder sql (commit c plan) bizId = .ok (some { order with state := plan.newState.value }) := by
  obtain ⟨eq, hsql, hfilter⟩ := readOrder_some hread
  have horders : (commit c plan).orders = c.orders.map (WorkOrder.setState plan.orderId plan.newState.value) := by
    unfold commit
    cases plan.approval <;> rfl
  refine readOrder_of_filter hsql ?_
  simp only [horders, List.filter_map, Function.comp_def, WorkOrder.setState_orderNo, hfilter, List.map_cons,
    List.map_nil]
  rw [WorkOrder.setState, if_pos hid.symm]

theorem target_cases (result : Value) (approval : Option Approval) :
    (agrees result = true ∧ (target result approval = approved ∨ target result approval = secondApproved)) ∨
      (agrees result = false ∧ (target result approval = closed ∨ target result approval = secondRejected)) := by
  unfold target
  cases agrees result <;> by_cases h : reviewType approval = secondText <;> simp [h]

theorem moves_from_agreed {a b : WorkOrderState} (h : Moves a b) (ha : a ≠ draft ∧ a ≠ pendingApproval) :
    b ≠ draft ∧ b ≠ pendingApproval := by
  induction h with
  | stay => exact ha
  | @next b c hab hbc ih =>
      revert hbc ih
      cases b <;> cases c <;> decide

theorem moves_from_refused {a b : WorkOrderState} (h : Moves a b) (ha : a = closed ∨ a = secondRejected) :
    b = closed ∨ b = secondRejected := by
  induction h with
  | stay => exact ha
  | @next b c hab hbc ih =>
      revert hbc ih
      cases b <;> cases c <;> decide

theorem allowed_iff {result : Value} {approval₀ approval : Option Approval} {st : WorkOrderState}
    (h : Moves (target result approval₀) st) :
    canTransition st (target result approval) = true ↔
      (agrees result = true → st = pendingSecondReview ∧ reviewType approval = secondText) ∧
        (agrees result = false → st = secondRejected ∧ reviewType approval ≠ secondText) := by
  rcases target_cases result approval₀ with ⟨hagree, ht⟩ | ⟨hrefuse, ht⟩
  · have hst : st ≠ draft ∧ st ≠ pendingApproval :=
      moves_from_agreed h (by rcases ht with ht | ht <;> rw [ht] <;> decide)
    by_cases hsecond : reviewType approval = secondText
    · simp only [target, hagree, hsecond, if_true]
      cases st <;> simp [canTransition, transitions]
    · simp only [target, hagree, hsecond, if_true, if_false]
      revert hst
      cases st <;> simp [canTransition, transitions]
  · have hst : st = closed ∨ st = secondRejected := moves_from_refused h ht
    by_cases hsecond : reviewType approval = secondText
    · simp only [target, hrefuse, hsecond, Bool.false_eq_true, if_true, if_false]
      rcases hst with rfl | rfl <;> simp [canTransition, transitions]
    · simp only [target, hrefuse, hsecond, Bool.false_eq_true, if_false]
      rcases hst with rfl | rfl <;> simp [canTransition, transitions, hsecond]

theorem redelivery_unchanged_iff {sql : Sql} {now now' : Int} {d₀ d₁ d₂ : Content} {cb : Callback}
    (hfirst : finish sql now d₀ cb = .committed d₁) (hlater : Later d₁ d₂) :
    (finish sql now' d₂ cb).content d₂ = d₂ ↔ ¬ Reopens sql d₂ cb := by
  obtain ⟨order₀, approval₀, current₀, h₀, rfl⟩ := committed_iff.mp hfirst
  have hread₁ : readOrder sql (commit d₀ (planFor order₀ approval₀ cb.result now)) cb.bizId =
      .ok (some { order₀ with state := (target cb.result approval₀).value }) := readOrder_commit h₀.found rfl
  obtain ⟨order₂, hread, hevolved⟩ := hlater.readOrder hread₁
  obtain ⟨st, hstate, hmoves⟩ := hevolved.state _ rfl
  rw [finish, content_eq_iff, not_iff_not]
  constructor
  · rintro ⟨order, approval, current, h⟩
    obtain rfl : order = order₂ := Option.some.inj (Except.ok.inj (h.found.symm.trans hread))
    obtain rfl : current = st := value_injective (h.state.symm.trans hstate)
    obtain ⟨hagree, hrefuse⟩ := (allowed_iff hmoves).mp h.allowed
    exact ⟨order, approval, hread, h.pending,
      fun ha => ⟨by rw [hstate, (hagree ha).1], (hagree ha).2⟩, fun hr => ⟨by rw [hstate, (hrefuse hr).1], (hrefuse hr).2⟩⟩
  · rintro ⟨order, approval, hread', hpending, hanswers⟩
    obtain rfl : order = order₂ := Option.some.inj (Except.ok.inj (hread'.symm.trans hread))
    refine ⟨order, approval, st, hread, hpending, hstate, (allowed_iff hmoves).mpr ⟨fun ha => ?_, fun hr => ?_⟩⟩
    · obtain ⟨hs, ht⟩ := hanswers.agree ha
      exact ⟨value_injective (hstate.symm.trans hs), ht⟩
    · obtain ⟨hs, ht⟩ := hanswers.refuse hr
      exact ⟨value_injective (hstate.symm.trans hs), ht⟩

def exactSql : Sql
  | .str s => some (· = s)
  | _ => none

def firstRound : Content where
  orders := [⟨1, str "WO-1", pendingApproval.value⟩]
  approvals := [⟨1, 1, pendingText, str "first", 0, none⟩]
  order_ids := by decide
  order_nos := by decide
  approval_ids := by decide

def agreed : Callback := ⟨.str (str "WO-1"), .str (str "agree"), .str (str "proc-1")⟩

def afterFirst : Content where
  orders := [⟨1, str "WO-1", approved.value⟩]
  approvals := [⟨1, 1, str "APPROVED", str "first", 0, some 5⟩]
  order_ids := by decide
  order_nos := by decide
  approval_ids := by decide

def secondRow : Approval := ⟨2, 1, pendingText, secondText, 10, none⟩

def secondRound : Content := (afterFirst.setState 1 pendingSecondReview.value).addApproval secondRow (by decide)

theorem later_secondRound : Later afterFirst secondRound := by
  have hmove : Later afterFirst (afterFirst.setState 1 pendingSecondReview.value) :=
    .moveState (.refl _) (show (⟨1, str "WO-1", approved.value⟩ : WorkOrder) ∈ afterFirst.orders by decide)
      (show approved.value = approved.value from rfl) (by decide)
  exact .addPending hmove secondRow (by decide) rfl (.inr rfl)

theorem finish_firstRound : finish exactSql 5 firstRound agreed = .committed afterFirst := by decide

-- The repeated first-round agree approves the second review.
theorem redelivery_approves_second :
    ∃ d₁ d₂ d₃, finish exactSql 5 firstRound agreed = .committed d₁ ∧ Later d₁ d₂ ∧
      finish exactSql 20 d₂ agreed = .committed d₃ ∧ d₃ ≠ d₂ ∧
      d₃.orders.map (·.state) = [secondApproved.value] ∧
      d₃.approvals.map (·.status) = [str "APPROVED", str "APPROVED"] :=
  ⟨afterFirst, secondRound, commit secondRound ⟨1, secondApproved, some (2, str "APPROVED", 20)⟩, finish_firstRound,
    later_secondRound, by decide, by decide, by decide, by decide⟩

theorem redelivery_unchanged_iff_secondRound :
    (finish exactSql 20 secondRound agreed).content secondRound = secondRound ↔ ¬ Reopens exactSql secondRound agreed :=
  redelivery_unchanged_iff finish_firstRound later_secondRound

end Api.Redelivery
