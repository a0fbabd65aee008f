import JdRelay.Base.Runs
import JdRelay.Services.Lifecycle

namespace Services.SensitiveReview
open Text Json Runs State State.WorkOrderState Lifecycle

-- One trigger_build call: what it sent may be answered before it returns and BUILDING is stored.
inductive Trigger where
  | idle
  | sent (returned : Bool)
  | stored
  | raised
  deriving DecidableEq

inductive Build where
  | idle
  | triggered
  | polling
  | requested
  | delivered
  | finished
  deriving DecidableEq

section Types

variable (B : Type)

-- B numbers the trigger_build calls of the order and the builds they start.
structure Joint where
  order : WorkOrderState
  trigger : B → Trigger
  build : B → Build
  delivered : Option (B × Except Exn Str)

inductive Event where
  | call (r : Request)
  | trigger (b : B) (fields : WorkOrderDict) (replies : Replies)
  | returns (b : B)
  | receive (b : B)
  | request (b : B)
  | finish (b : B)
  | deliver (b : B) (fields : WorkOrderDict) (instanceId : Str) (changedFiles : List Str) (approvers : Value)

end Types

variable {B : Type} (reprOf : Value → Str)

def ownCall : Call → Bool
  | .triggerBuild => true
  | .onSensitiveChangeDetected _ _ => true
  | _ => false

def review (order : WorkOrderState) (fields : WorkOrderDict) (instanceId : Str) (changedFiles : List Str)
    (approvers : Value) : Except Exn Str :=
  (RelayService.onSensitiveChangeDetected reprOf ⟨some (.ok instanceId), none⟩ (dictOf order fields)
    (changedFiles.map .str) approvers).result

def Accepts (s : Joint B) : Prop := ∀ b out, s.delivered = some (b, out) → ∃ instanceId, out = .ok instanceId

def Unstored (s : Joint B) : Event B → Prop
  | .deliver b _ _ _ _ => s.order = approved ∧ s.trigger b ≠ .stored
  | _ => True

variable [DecidableEq B]

def step (s : Joint B) : Event B → Option (Joint B)
  | .call r => if ownCall r.call then none else some { s with order := (Lifecycle.step reprOf ⟨s.order, []⟩ r).stored }
  | .trigger b fields replies =>
      match s.trigger b with
      | .idle =>
          let o := RelayService.triggerBuild reprOf replies (dictOf s.order fields)
          if o.effects.isEmpty then some { s with trigger := Function.update s.trigger b .raised }
          else
            some { s with
              trigger := Function.update s.trigger b (.sent o.result.toOption.isSome)
              build := Function.update s.build b .triggered }
      | _ => none
  | .returns b =>
      match s.trigger b with
      | .sent true => some { s with order := building, trigger := Function.update s.trigger b .stored }
      | .sent false => some { s with trigger := Function.update s.trigger b .raised }
      | _ => none
  | .receive b =>
      match s.build b with
      | .triggered => some { s with build := Function.update s.build b .polling }
      | _ => none
  | .request b =>
      match s.build b with
      | .polling => some { s with build := Function.update s.build b .requested }
      | _ => none
  | .finish b =>
      match s.build b with
      | .polling => some { s with build := Function.update s.build b .finished }
      | _ => none
  | .deliver b fields instanceId changedFiles approvers =>
      match s.build b, fields.lookup (str "order_no") with
      | .requested, some _ =>
          let out := review reprOf s.order fields instanceId changedFiles approvers
          some { s with
            order := if out.toOption.isSome then pendingSecondReview else s.order
            build := Function.update s.build b .delivered
            delivered := some (b, out) }
      | _, _ => none

def machine : Machine (Joint B) (Event B) where
  init := { order := draft, trigger := fun _ => .idle, build := fun _ => .idle, delivered := none }
  step := step reprOf

def Late (order : WorkOrderState) : Prop := order ∉ [draft, pendingApproval, approved]

def Passed (s : Joint B) : Prop := (∃ b, s.trigger b = .stored) → Late s.order

theorem late_move {a b : WorkOrderState} (ha : Late a) (hcan : canTransition a b = true) : Late b := by
  unfold Late at ha ⊢
  revert ha hcan
  cases a <;> cases b <;> decide

theorem sensitive_iff (order : WorkOrderState) :
    canTransition order pendingSecondReview = true ↔ order = approved := by
  cases order <;> decide

section Steps

variable {reprOf} {s t : Joint B} {e : Event B}

theorem order_call (r : Request) {order : WorkOrderState} (hlate : Late order) :
    Late (Lifecycle.step reprOf ⟨order, []⟩ r).stored := by
  have hchange := step_change reprOf ⟨order, []⟩ r
  generalize Lifecycle.step reprOf ⟨order, []⟩ r = next at hchange
  cases hchange with
  | none => exact hlate
  | move hcan => exact late_move hlate hcan
  | approval agree hcan => exact late_move hlate hcan
  | sent hcan hstored =>
      rcases hstored with rfl | rfl
      · exact late_move hlate hcan
      · exact hlate
  | reviewOpened hcan => exact late_move hlate hcan
  | secondReview agree hcan => exact late_move hlate hcan

theorem stored_update {f : B → Trigger} {b : B} {p : Trigger} (hp : p ≠ .stored)
    (h : ∃ b', Function.update f b p b' = .stored) : ∃ b', f b' = .stored := by
  obtain ⟨b', hb'⟩ := h
  rcases eq_or_ne b' b with rfl | hne
  · rw [Function.update_self] at hb'
    exact absurd hb' hp
  · rw [Function.update_of_ne hne] at hb'
    exact ⟨b', hb'⟩

theorem joinedFiles_str (files : List Str) : ∃ names, RelayService.joinedFiles (files.map .str) = .ok names := by
  unfold RelayService.joinedFiles
  split
  · exact ⟨_, rfl⟩
  · rename_i hnone
    induction files with
    | nil => cases hnone
    | cons file files ih =>
        rw [List.map_cons, List.mapM_cons] at hnone
        refine ih (Option.eq_none_iff_forall_ne_some.mpr fun names hnames => ?_)
        rw [hnames] at hnone
        cases hnone

theorem review_ok_iff {order : WorkOrderState} {fields : WorkOrderDict} {v : Value}
    (horder : fields.lookup (str "order_no") = some v) (instanceId : Str) (files : List Str) (approvers : Value) :
    (∃ id, review reprOf order fields instanceId files approvers = .ok id) ↔ order = approved := by
  obtain ⟨names, hnames⟩ := joinedFiles_str files
  have hitem : WorkOrderDict.item (dictOf order fields) "order_no" = .ok v := dictOf_orderNo order horder
  rw [← sensitive_iff, review, RelayService.onSensitiveChangeDetected,
    Outcome.result_lift_bind (dictOf_state order fields)]
  cases hcan : canTransition order pendingSecondReview with
  | false =>
      have hrefused : ∃ e, transition order pendingSecondReview = .error e := ⟨_, if_neg (by simp [hcan])⟩
      obtain ⟨e, he⟩ := hrefused
      rw [he]
      exact iff_of_false (fun ⟨_, h⟩ => by cases h) (by decide)
  | true =>
      rw [Outcome.result_lift_bind (transition_of_can hcan), if_neg (by simp), Outcome.result_lift_bind hnames]
      refine iff_of_true ⟨instanceId, ?_⟩ rfl
      change (Outcome.lift (WorkOrderDict.item (dictOf order fields) "order_no") >>= fun _ =>
        pure instanceId).result = _
      rw [Outcome.result_lift_bind hitem]
      rfl

theorem passed_step (hs : Passed s) (h : step reprOf s e = some t) : Passed t := by
  cases e with
  | call r =>
      simp only [step] at h
      split at h
      · cases h
      · cases h
        exact fun hstored => order_call r (hs hstored)
  | trigger b fields replies =>
      simp only [step] at h
      split at h
      · have hraised : Trigger.raised ≠ .stored := nofun
        have hsent : ∀ r, Trigger.sent r ≠ .stored := nofun
        split at h
        · cases h
          exact fun hstored => hs (stored_update hraised hstored)
        · cases h
          exact fun hstored => hs (stored_update (hsent _) hstored)
      · cases h
  | returns b =>
      simp only [step] at h
      split at h
      · cases h
        exact fun _ => show Late building by unfold Late; decide
      · cases h
        have hraised : Trigger.raised ≠ .stored := nofun
        exact fun hstored => hs (stored_update hraised hstored)
      · cases h
  | receive b | request b | finish b =>
      simp only [step] at h
      split at h
      · cases h
        exact hs
      · cases h
  | deliver b fields instanceId files approvers =>
      simp only [step] at h
      split at h
      · cases h
        intro hstored
        have hlate := hs hstored
        change Late (if _ then pendingSecondReview else s.order)
        split
        · unfold Late
          decide
        · exact hlate
      · cases h

theorem accepts_step (hs : Passed s) (hacc : Accepts s) (h : step reprOf s e = some t) : Accepts t ↔ Unstored s e := by
  cases e with
  | call r =>
      simp only [step] at h
      split at h <;> cases h
      exact iff_of_true hacc trivial
  | trigger b fields replies =>
      simp only [step] at h
      split at h
      · split at h <;> cases h <;> exact iff_of_true hacc trivial
      · cases h
  | returns b =>
      simp only [step] at h
      split at h <;> cases h <;> exact iff_of_true hacc trivial
  | receive b | request b | finish b =>
      simp only [step] at h
      split at h <;> cases h
      exact iff_of_true hacc trivial
  | deliver b fields instanceId files approvers =>
      simp only [step] at h
      split at h
      · rename_i v _ horder
        cases h
        have hreview : (∃ id, review reprOf s.order fields instanceId files approvers = .ok id) ↔ s.order = approved :=
          review_ok_iff horder instanceId files approvers
        constructor
        · intro haccepts
          have happroved : s.order = approved := hreview.mp (haccepts b _ rfl)
          refine ⟨happroved, fun hstored => ?_⟩
          have hlate := hs ⟨b, hstored⟩
          rw [happroved] at hlate
          exact hlate (by decide)
        · rintro ⟨happroved, -⟩ b' out hout
          cases hout
          exact hreview.mpr happroved
      · cases h

theorem review_accepted_iff {es : List (Event B)} (hrun : (machine reprOf).IsRun es) :
    (machine reprOf).Always Accepts (machine reprOf).init es ↔
      (machine reprOf).Guarded Unstored (machine reprOf).init es := by
  have hinit : Passed (machine reprOf : Machine (Joint B) (Event B)).init := fun ⟨b, hb⟩ => by cases hb
  exact (machine reprOf).always_iff_guarded passed_step accepts_step hinit (fun b out h => by cases h) hrun

def agreedRun : List (Event Unit) :=
  [.call (plainRequest (.submitForApproval (.str []) [] .null)),
    .call (plainRequest (.onApprovalResult (.str (str "agree")))),
    .trigger () plainOrder ⟨none, some (.ok true)⟩, .receive (), .request ()]

def reviewRun : List (Event Unit) :=
  agreedRun ++ [.returns (), .deliver () plainOrder (str "P-2") [str "special.md"] .null]

theorem review_refused :
    ((machine fun _ => []).exec (machine fun _ => []).init reviewRun).map (fun s => (s.order, s.delivered)) =
      some (building, some ((), .error (.stateError (str "Invalid transition: BUILDING → PENDING_SECOND_REVIEW")))) := by
  decide +kernel

theorem review_accepted_iff_reviewRun :
    (machine fun _ => []).Always Accepts (machine fun _ => []).init reviewRun ↔
      (machine fun _ => []).Guarded Unstored (machine fun _ => []).init reviewRun :=
  review_accepted_iff (by decide +kernel)

end Steps

end Services.SensitiveReview
