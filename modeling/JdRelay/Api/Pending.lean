import JdRelay.Api.Redelivery
import JdRelay.Api.Session

namespace Api.Pending
open Text Json State State.WorkOrderState Models Session Redelivery

inductive Review where
  | first
  | second

namespace Review

def text : Review → Str
  | first => str "first"
  | second => secondText

def awaits : Review → WorkOrderState
  | first => pendingApproval
  | second => pendingSecondReview

def outcome (agree : Bool) : Review → WorkOrderState
  | first => if agree then approved else closed
  | second => if agree then secondApproved else secondRejected

end Review

structure Newest (c : Content) (orderId : Nat) (a : Approval) : Prop where
  mem : a ∈ pendingRows c orderId
  last : ∀ b ∈ pendingRows c orderId, b ≠ a → b.createdAt < a.createdAt

structure Awaiting (sql : Sql) (c : Content) (bizId : Value) (order : WorkOrder) (newest : Approval) (review : Review) :
    Prop where
  found : readOrder sql c bizId = .ok (some order)
  state : order.state = review.awaits.value
  distinct : ((pendingRows c order.id).map (·.createdAt)).Nodup
  latest : Newest c order.id newest
  type : newest.reviewType = review.text

structure Resolved (c c' : Content) (order : WorkOrder) (newest : Approval) (agree : Bool) (review : Review) : Prop where
  orders : c'.orders = c.orders.map (WorkOrder.setState order.id (review.outcome agree).value)
  approvals : c'.approvals.map untimed = (c.approvals.map untimed).map (reset newest.id (answerText agree))

def ResolvesNewest (sql : Sql) (now : Int) (c : Content) (bizId result instanceId : Value) (order : WorkOrder)
    (newest : Approval) (review : Review) : Prop :=
  ∃ c', handleApprovalFinish sql now c bizId result instanceId = .committed c' ∧
    Resolved c c' order newest (agrees result) review

theorem target_of_type {result : Value} {a : Approval} {review : Review} (h : a.reviewType = review.text) :
    target result (some a) = review.outcome (agrees result) := by
  cases review with
  | first =>
      have hne : reviewType (some a) ≠ secondText := by rw [reviewType, h]; decide
      simp only [target, if_neg hne, Review.outcome]
  | second =>
      have heq : reviewType (some a) = secondText := h
      simp only [target, if_pos heq, Review.outcome]

theorem can_outcome (review : Review) (agree : Bool) : canTransition review.awaits (review.outcome agree) = true := by
  cases review <;> cases agree <;> rfl

theorem resolved_commit {c : Content} {order : WorkOrder} {a : Approval} {review : Review} (result : Value) (now : Int)
    (h : a.reviewType = review.text) :
    Resolved c (commit c (planFor order (some a) result now)) order a (agrees result) review where
  orders := by
    rw [← target_of_type h]
    rfl
  approvals := by
    change (c.approvals.map (Approval.respond a.id (answerText (agrees result)) now)).map untimed = _
    simp only [List.map_map, Function.comp_def, untimed_respond]

theorem scalarOneOrNone_none {A : Type} {xs : List A} (h : scalarOneOrNone xs = .ok none) : xs = [] := by
  cases xs with
  | nil => rfl
  | cons x xs => cases xs <;> cases h

theorem readPending_ok {c : Content} {orderId : Nat} {approval : Option Approval} {a : Approval}
    (h : readPending c orderId = .ok approval) (ha : a ∈ pendingRows c orderId) : pendingRows c orderId = [a] := by
  cases approval with
  | none =>
      have hnil : pendingRows c orderId = [] := scalarOneOrNone_none h
      exact absurd (hnil ▸ ha) List.not_mem_nil
  | some b =>
      have hrows : pendingRows c orderId = [b] := scalarOneOrNone_some h
      rw [hrows] at ha ⊢
      rw [List.mem_singleton.mp ha]

theorem resolves_newest_iff {sql : Sql} {now : Int} {c : Content} {bizId result instanceId : Value} {order : WorkOrder}
    {newest : Approval} {review : Review} (h : Awaiting sql c bizId order newest review) :
    ResolvesNewest sql now c bizId result instanceId order newest review ↔ (pendingRows c order.id).length = 1 := by
  constructor
  · rintro ⟨c', hf, -⟩
    obtain ⟨order', approval, current, hh, -⟩ := committed_iff.mp hf
    obtain rfl : order' = order := Option.some.inj (Except.ok.inj (hh.found.symm.trans h.found))
    rw [readPending_ok hh.pending h.latest.mem, List.length_singleton]
  · intro hlength
    obtain ⟨a, ha⟩ := List.length_eq_one_iff.mp hlength
    obtain rfl : newest = a := List.mem_singleton.mp (ha ▸ h.latest.mem)
    have hpending : readPending c order.id = .ok (some newest) := by rw [readPending, ha]; rfl
    have hallowed : canTransition review.awaits (target result (some newest)) = true := by
      rw [target_of_type h.type]
      exact can_outcome review (agrees result)
    exact ⟨_, committed_iff.mpr ⟨order, some newest, review.awaits, ⟨h.found, hpending, h.state, hallowed⟩, rfl⟩,
      resolved_commit result now h.type⟩

def threeApprovals : List Approval :=
  [⟨1, 1, pendingText, str "first", 10, none⟩, ⟨2, 1, pendingText, str "first", 11, none⟩,
    ⟨3, 1, pendingText, str "first", 12, none⟩]

theorem threeApprovals_ids : (threeApprovals.map (·.id)).Nodup := by decide

def threeRows : Content where
  orders := firstRound.orders
  approvals := threeApprovals
  order_ids := firstRound.order_ids
  order_nos := firstRound.order_nos
  approval_ids := threeApprovals_ids

def waitingOrder : WorkOrder := ⟨1, str "WO-1", pendingApproval.value⟩

def newestRow : Approval := ⟨3, 1, pendingText, str "first", 12, none⟩

def onlyRow : Approval := ⟨1, 1, pendingText, str "first", 0, none⟩

theorem awaiting_threeRows : Awaiting exactSql threeRows (.str (str "WO-1")) waitingOrder newestRow .first where
  found := by decide
  state := rfl
  distinct := by decide
  latest := ⟨by decide, by decide⟩
  type := rfl

theorem awaiting_firstRound : Awaiting exactSql firstRound (.str (str "WO-1")) waitingOrder onlyRow .first where
  found := by decide
  state := rfl
  distinct := by decide
  latest := ⟨by decide, by decide⟩
  type := rfl

-- A three-person approval: scalar_one_or_none meets three rows, and the callback raises.
theorem three_rows_raise :
    Awaiting exactSql threeRows (.str (str "WO-1")) waitingOrder newestRow .first ∧
      handleApprovalFinish exactSql 20 threeRows (.str (str "WO-1")) (.str (str "agree")) (.str []) =
        .raised .multipleResultsFound ∧
      ¬ ResolvesNewest exactSql 20 threeRows (.str (str "WO-1")) (.str (str "agree")) (.str []) waitingOrder newestRow
        .first := by
  have hraised : handleApprovalFinish exactSql 20 threeRows (.str (str "WO-1")) (.str (str "agree")) (.str []) =
      .raised .multipleResultsFound := by decide
  refine ⟨awaiting_threeRows, hraised, ?_⟩
  rintro ⟨c', hf, -⟩
  rw [hraised] at hf
  cases hf

theorem resolves_newest_iff_rounds :
    ResolvesNewest exactSql 20 firstRound (.str (str "WO-1")) (.str (str "agree")) (.str []) waitingOrder onlyRow .first ∧
      ¬ ResolvesNewest exactSql 20 threeRows (.str (str "WO-1")) (.str (str "agree")) (.str []) waitingOrder newestRow
        .first :=
  ⟨(resolves_newest_iff awaiting_firstRound).mpr (by decide),
    fun h => absurd ((resolves_newest_iff awaiting_threeRows).mp h) (by decide)⟩

end Api.Pending
