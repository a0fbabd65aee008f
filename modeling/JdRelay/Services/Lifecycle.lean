import JdRelay.Services.Relay

namespace Services.Lifecycle
open Text Json State State.WorkOrderState Crypto

inductive Entry where
  | approval (agree : Bool)
  | reviewOpened
  | secondReview (agree : Bool)
  | sent
  deriving DecidableEq

-- The log is the newest entry first.
structure History where
  stored : WorkOrderState
  log : List Entry

inductive Call where
  | submitForApproval (originatorUserId : Value) (processCode : Str) (approvers : Value)
  | onApprovalResult (result : Value)
  | triggerBuild
  | onBuildResult (buildStatus : Value)
  | closeWorkOrder
  | onSensitiveChangeDetected (changedFiles : List Value) (approvers : Value)
  | onSecondReviewResult (result : Value)

structure Request where
  fields : WorkOrderDict
  replies : Replies
  call : Call

def workOrder (s : History) (r : Request) : WorkOrderDict := r.fields.insert (str "state") (.str s.stored.value)

def dictOf (order : WorkOrderState) (fields : WorkOrderDict) : WorkOrderDict :=
  fields.insert (str "state") (.str order.value)

def sends : List Effect → List Entry
  | [] => []
  | .sendToProject _ _ _ :: rest => .sent :: sends rest
  | .createApproval _ _ _ _ _ :: rest => sends rest

def advance {A : Type} (s : History) (o : Outcome A) (target : A → WorkOrderState) (entry : List Entry) : History :=
  match o.result with
  | .ok a => ⟨target a, entry ++ sends o.effects ++ s.log⟩
  | .error _ => ⟨s.stored, sends o.effects ++ s.log⟩

def agrees (result : Value) : Bool := decide (result = .str (str "agree"))

def step (reprOf : Value → Str) (s : History) (r : Request) : History :=
  let w := workOrder s r
  match r.call with
  | .submitForApproval originator processCode approvers =>
      advance s (RelayService.submitForApproval reprOf r.replies w originator processCode approvers)
        (fun _ => pendingApproval) []
  | .onApprovalResult result => advance s (RelayService.onApprovalResult w result) id [.approval (agrees result)]
  | .triggerBuild => advance s (RelayService.triggerBuild reprOf r.replies w) (fun _ => building) []
  | .onBuildResult status => advance s (RelayService.onBuildResult w status) id []
  | .closeWorkOrder => advance s (RelayService.closeWorkOrder w) id []
  | .onSensitiveChangeDetected files approvers =>
      advance s (RelayService.onSensitiveChangeDetected reprOf r.replies w files approvers)
        (fun _ => pendingSecondReview) [.reviewOpened]
  | .onSecondReviewResult result =>
      advance s (RelayService.onSecondReviewResult w result) id [.secondReview (agrees result)]

def run (reprOf : Value → Str) (rs : List Request) : History := rs.foldl (step reprOf) ⟨draft, []⟩

structure Unrefused (before : List Entry) : Prop where
  first : .approval false ∉ before
  second : .secondReview false ∉ before

def Reviewed (before : List Entry) : Prop :=
  ∀ later earlier, before = later ++ .reviewOpened :: earlier → .secondReview true ∈ later

structure Cleared (before : List Entry) : Prop where
  approved : .approval true ∈ before
  unrefused : Unrefused before
  reviewed : Reviewed before

def SendsCleared (log : List Entry) : Prop :=
  ∀ after before, log = after ++ .sent :: before → Cleared before

section Specs

variable {A B : Type}

theorem currentState_stored (s : History) (r : Request) :
    RelayService.currentState (workOrder s r) = .ok s.stored := by
  have hitem : WorkOrderDict.item (workOrder s r) "state" = .ok (.str s.stored.value) := by
    simp only [WorkOrderDict.item, workOrder, AList.lookup_insert]
  rw [RelayService.currentState, hitem]
  exact ofStr_value s.stored

theorem dictOf_state (order : WorkOrderState) (fields : WorkOrderDict) :
    RelayService.currentState (dictOf order fields) = .ok order :=
  currentState_stored ⟨order, []⟩ ⟨fields, ⟨none, none⟩, .triggerBuild⟩

theorem dictOf_orderNo (order : WorkOrderState) {fields : WorkOrderDict} {v : Value}
    (horder : fields.lookup (str "order_no") = some v) :
    WorkOrderDict.item (dictOf order fields) "order_no" = .ok v := by
  have hne : str "order_no" ≠ str "state" := by decide
  rw [WorkOrderDict.item, dictOf, AList.lookup_insert_ne hne, horder]

theorem currentState_eq {s : History} {r : Request} {current : WorkOrderState}
    (h : RelayService.currentState (workOrder s r) = .ok current) : current = s.stored :=
  (Except.ok.inj ((currentState_stored s r).symm.trans h)).symm

structure Spec (o : Outcome A) (sent : List Entry → Prop) (post : A → Prop) : Prop where
  effects : sent (sends o.effects)
  result : ∀ a, o.result = .ok a → post a

variable {sent : List Entry → Prop}

theorem Spec.pure {a : A} {post : A → Prop} (hsent : sent []) (h : post a) : Spec (Pure.pure a : Outcome A) sent post :=
  ⟨hsent, fun b hb => by cases hb; exact h⟩

theorem Spec.raise {e : Exn} {post : A → Prop} (hsent : sent []) : Spec (Outcome.raise e : Outcome A) sent post :=
  ⟨hsent, fun b hb => by cases hb⟩

theorem Spec.lift {x : Except Exn A} {post : A → Prop} (hsent : sent []) (h : ∀ a, x = .ok a → post a) :
    Spec (Outcome.lift x) sent post := ⟨hsent, h⟩

theorem Spec.bind {x : Except Exn A} {f : A → Outcome B} {post : B → Prop} (hsent : sent [])
    (h : ∀ a, x = .ok a → Spec (f a) sent post) : Spec (Outcome.lift x >>= f) sent post := by
  cases x with
  | ok a => exact h a rfl
  | error e => exact .raise hsent

theorem spec_createApproval {replies : Replies} {originator approvers : Value} {processCode title : Str}
    {form : List (Str × Value)} {f : Str → Outcome B} {post : B → Prop} (h : ∀ id, Spec (f id) (· = []) post) :
    Spec (RelayService.createApproval replies originator processCode title form approvers >>= f) (· = []) post := by
  unfold RelayService.createApproval
  cases replies.dingtalk with
  | none => exact .raise rfl
  | some reply =>
      cases reply with
      | error e => exact ⟨rfl, fun b hb => by cases hb⟩
      | ok id => exact ⟨(h id).effects, (h id).result⟩

variable (reprOf : Value → Str) (s : History) (r : Request)

theorem spec_submitForApproval (originator : Value) (processCode : Str) (approvers : Value) :
    Spec (RelayService.submitForApproval reprOf r.replies (workOrder s r) originator processCode approvers) (· = [])
      (fun _ => canTransition s.stored pendingApproval = true) := by
  refine .bind rfl fun current hcurrent => .bind rfl fun _ hmove => spec_createApproval fun _ => .bind rfl fun _ _ => ?_
  rw [currentState_eq hcurrent] at hmove
  exact .pure rfl (transition_ok hmove).1

def verdictTarget (result : Value) (yes no : WorkOrderState) : WorkOrderState := if agrees result then yes else no

theorem verdict_ok {current new yes no : WorkOrderState} {result : Value}
    (h : (if result = .str (str "agree") then transition current yes else transition current no) = .ok new) :
    new = verdictTarget result yes no ∧ canTransition current new = true := by
  by_cases hagree : result = .str (str "agree")
  · rw [if_pos hagree] at h
    obtain ⟨hcan, rfl⟩ := transition_ok h
    simp only [verdictTarget, agrees, hagree, decide_true, if_true, true_and]
    exact hcan
  · rw [if_neg hagree] at h
    obtain ⟨hcan, rfl⟩ := transition_ok h
    simp only [verdictTarget, agrees, hagree, decide_false, Bool.false_eq_true, if_false, true_and]
    exact hcan

theorem spec_onApprovalResult (result : Value) :
    Spec (RelayService.onApprovalResult (workOrder s r) result) (· = [])
      (fun new => new = verdictTarget result approved closed ∧ canTransition s.stored new = true) := by
  refine .bind rfl fun current hcurrent => ?_
  rw [currentState_eq hcurrent]
  exact .lift rfl fun new hnew => verdict_ok hnew

theorem spec_triggerBuild :
    Spec (RelayService.triggerBuild reprOf r.replies (workOrder s r))
      (fun log => log = [] ∨ log = [.sent] ∧ canTransition s.stored building = true)
      (fun _ => canTransition s.stored building = true) := by
  refine .bind (.inl rfl) fun current hcurrent => .bind (.inl rfl) fun _ hmove => .bind (.inl rfl) fun _ _ =>
    .bind (.inl rfl) fun _ _ => .bind (.inl rfl) fun _ _ => ?_
  rw [currentState_eq hcurrent] at hmove
  have hcan := (transition_ok hmove).1
  cases r.replies.forwarder with
  | none => exact .raise (.inl rfl)
  | some reply =>
      cases reply with
      | error e => exact ⟨.inr ⟨rfl, hcan⟩, fun _ _ => hcan⟩
      | ok success => cases success <;> exact ⟨.inr ⟨rfl, hcan⟩, fun _ _ => hcan⟩

theorem statusTarget_ok {status : Value} {target : WorkOrderState}
    (h : RelayService.statusTarget status = .ok target) : target = success ∨ target = failed := by
  unfold RelayService.statusTarget at h
  split at h
  · split at h
    · exact .inl (Except.ok.inj h).symm
    · split at h
      · exact .inr (Except.ok.inj h).symm
      · cases h
  · cases h

theorem spec_onBuildResult (status : Value) :
    Spec (RelayService.onBuildResult (workOrder s r) status) (· = [])
      (fun new => (new = success ∨ new = failed) ∧ canTransition s.stored new = true) := by
  refine .bind rfl fun current hcurrent => .bind rfl fun target htarget => .bind rfl fun new hmove =>
    .bind rfl fun _ _ => ?_
  rw [currentState_eq hcurrent] at hmove
  obtain ⟨hcan, rfl⟩ := transition_ok hmove
  exact .pure rfl ⟨statusTarget_ok htarget, hcan⟩

theorem spec_closeWorkOrder :
    Spec (RelayService.closeWorkOrder (workOrder s r)) (· = [])
      (fun new => new = closed ∧ canTransition s.stored new = true) := by
  refine .bind rfl fun current hcurrent => .bind rfl fun new hmove => .bind rfl fun _ _ => ?_
  rw [currentState_eq hcurrent] at hmove
  obtain ⟨hcan, rfl⟩ := transition_ok hmove
  exact .pure rfl ⟨rfl, hcan⟩

theorem spec_onSensitiveChangeDetected (files : List Value) (approvers : Value) :
    Spec (RelayService.onSensitiveChangeDetected reprOf r.replies (workOrder s r) files approvers) (· = [])
      (fun _ => canTransition s.stored pendingSecondReview = true) := by
  refine .bind rfl fun current hcurrent => .bind rfl fun _ hmove => ?_
  rw [currentState_eq hcurrent] at hmove
  split
  · exact .raise rfl
  · exact .bind rfl fun _ _ => spec_createApproval fun _ => .bind rfl fun _ _ => .pure rfl (transition_ok hmove).1

theorem spec_onSecondReviewResult (result : Value) :
    Spec (RelayService.onSecondReviewResult (workOrder s r) result) (· = [])
      (fun new => new = verdictTarget result secondApproved secondRejected ∧ canTransition s.stored new = true) := by
  refine .bind rfl fun current hcurrent => ?_
  rw [currentState_eq hcurrent]
  exact .bind rfl fun new hnew => .bind rfl fun _ _ => .pure rfl (verdict_ok hnew)

end Specs

section Invariant

inductive Change (s : History) : History → Prop where
  | none : Change s s
  | move {target : WorkOrderState} (hcan : canTransition s.stored target = true)
      (htarget : target ∈ [pendingApproval, building, success, failed, closed]) : Change s ⟨target, s.log⟩
  | approval (agree : Bool) (hcan : canTransition s.stored (if agree then approved else closed) = true) :
      Change s ⟨if agree then approved else closed, .approval agree :: s.log⟩
  | sent {stored : WorkOrderState} (hcan : canTransition s.stored building = true)
      (hstored : stored = building ∨ stored = s.stored) : Change s ⟨stored, .sent :: s.log⟩
  | reviewOpened (hcan : canTransition s.stored pendingSecondReview = true) :
      Change s ⟨pendingSecondReview, .reviewOpened :: s.log⟩
  | secondReview (agree : Bool) (hcan : canTransition s.stored (if agree then secondApproved else secondRejected) = true) :
      Change s ⟨if agree then secondApproved else secondRejected, .secondReview agree :: s.log⟩

theorem advance_silent {A : Type} {s : History} {o : Outcome A} {target : A → WorkOrderState} {entry : List Entry}
    {post : A → Prop} (h : Spec o (· = []) post)
    (hchange : ∀ a, post a → Change s ⟨target a, entry ++ s.log⟩) : Change s (advance s o target entry) := by
  unfold advance
  rw [h.effects]
  cases hr : o.result with
  | error e => exact .none
  | ok a =>
      change Change s ⟨target a, entry ++ [] ++ s.log⟩
      rw [List.append_nil]
      exact hchange a (h.result a hr)

theorem step_change (reprOf : Value → Str) (s : History) (r : Request) : Change s (step reprOf s r) := by
  unfold step
  cases r.call with
  | submitForApproval originator processCode approvers =>
      exact advance_silent (spec_submitForApproval reprOf s r originator processCode approvers) fun _ hcan =>
        .move hcan (by simp)
  | onApprovalResult result =>
      exact advance_silent (spec_onApprovalResult s r result) fun new ⟨hnew, hcan⟩ => by
        subst hnew
        exact .approval (agrees result) hcan
  | triggerBuild =>
      have hspec := spec_triggerBuild reprOf s r
      simp only [advance]
      rcases hspec.effects with heff | ⟨heff, hcan⟩
      · rw [heff]
        split
        · exact .move (hspec.result _ ‹_›) (by simp)
        · exact .none
      · rw [heff]
        split
        · exact .sent hcan (.inl rfl)
        · exact .sent hcan (.inr rfl)
  | onBuildResult status =>
      exact advance_silent (spec_onBuildResult s r status) fun new ⟨hnew, hcan⟩ =>
        .move hcan (by rcases hnew with h | h <;> simp [h])
  | closeWorkOrder =>
      exact advance_silent (spec_closeWorkOrder s r) fun new ⟨hnew, hcan⟩ => .move hcan (by simp [hnew])
  | onSensitiveChangeDetected files approvers =>
      exact advance_silent (spec_onSensitiveChangeDetected reprOf s r files approvers) fun _ hcan => .reviewOpened hcan
  | onSecondReviewResult result =>
      exact advance_silent (spec_onSecondReviewResult s r result) fun new ⟨hnew, hcan⟩ => by
        subst hnew
        exact .secondReview (agrees result) hcan

def Earned : WorkOrderState → List Entry → Prop
  | draft, log => Unrefused log ∧ Reviewed log
  | pendingApproval, log => Unrefused log ∧ Reviewed log
  | pendingSecondReview, log => .approval true ∈ log ∧ Unrefused log
  | closed, _ => True
  | secondRejected, _ => True
  | _, log => Cleared log

theorem Unrefused.cons {e : Entry} {log : List Entry} (h : Unrefused log) (hfirst : e ≠ .approval false)
    (hsecond : e ≠ .secondReview false) : Unrefused (e :: log) :=
  ⟨by simp [hfirst.symm, h.first], by simp [hsecond.symm, h.second]⟩

theorem Reviewed.cons {e : Entry} {log : List Entry} (h : Reviewed log) (he : e ≠ .reviewOpened) :
    Reviewed (e :: log) := by
  intro later earlier heq
  rcases List.cons_eq_append_iff.mp heq with ⟨-, hcons⟩ | ⟨later', rfl, hrest⟩
  · exact absurd (List.cons.inj hcons).1.symm he
  · exact List.mem_cons_of_mem _ (h later' earlier hrest)

theorem reviewed_secondReview (log : List Entry) : Reviewed (.secondReview true :: log) := by
  intro later earlier heq
  rcases List.cons_eq_append_iff.mp heq with ⟨-, hcons⟩ | ⟨later', rfl, -⟩
  · cases hcons
  · exact List.mem_cons_self

theorem SendsCleared.cons {e : Entry} {log : List Entry} (h : SendsCleared log) (he : e = .sent → Cleared log) :
    SendsCleared (e :: log) := by
  intro after before heq
  rcases List.cons_eq_append_iff.mp heq with ⟨-, hcons⟩ | ⟨after', rfl, hrest⟩
  · obtain ⟨hsent, rfl⟩ := List.cons.inj hcons
    exact he hsent.symm
  · exact h after' before hrest

theorem Cleared.sent {log : List Entry} (h : Cleared log) : Cleared (.sent :: log) :=
  ⟨List.mem_cons_of_mem _ h.approved, h.unrefused.cons nofun nofun, h.reviewed.cons nofun⟩

theorem earned_of_building {stored : WorkOrderState} {log : List Entry} (h : Earned stored log)
    (hcan : canTransition stored building = true) : Cleared log ∧ ∀ log', Cleared log' → Earned stored log' := by
  cases stored <;> first | exact ⟨h, fun _ h' => h'⟩ | exact absurd hcan (by decide)

theorem earned_move {stored target : WorkOrderState} {log : List Entry} (h : Earned stored log)
    (hcan : canTransition stored target = true)
    (htarget : target ∈ [pendingApproval, building, success, failed, closed]) : Earned target log := by
  cases stored <;> cases target <;>
    first | exact h | exact trivial | exact absurd hcan (by decide) | exact absurd htarget (by decide)

theorem earned_change {s t : History} (h : Change s t) (hs : Earned s.stored s.log) : Earned t.stored t.log := by
  cases h with
  | none => exact hs
  | move hcan htarget => exact earned_move hs hcan htarget
  | approval agree hcan =>
      cases agree with
      | false => trivial
      | true =>
          have hfrom : s.stored = pendingApproval := by
            revert hcan
            cases s.stored <;> decide
          rw [hfrom] at hs
          exact ⟨List.mem_cons_self, hs.1.cons nofun nofun, hs.2.cons nofun⟩
  | sent hcan hstored =>
      obtain ⟨hcleared, hkeep⟩ := earned_of_building hs hcan
      rcases hstored with rfl | rfl
      · exact hcleared.sent
      · exact hkeep _ hcleared.sent
  | reviewOpened hcan =>
      have hfrom : s.stored = approved := by
        revert hcan
        cases s.stored <;> decide
      rw [hfrom] at hs
      exact ⟨List.mem_cons_of_mem _ hs.approved, hs.unrefused.cons nofun nofun⟩
  | secondReview agree hcan =>
      cases agree with
      | false => trivial
      | true =>
          have hfrom : s.stored = pendingSecondReview := by
            revert hcan
            cases s.stored <;> decide
          rw [hfrom] at hs
          exact ⟨List.mem_cons_of_mem _ hs.1, hs.2.cons nofun nofun, reviewed_secondReview _⟩

theorem sendsCleared_change {s t : History} (h : Change s t) (hs : Earned s.stored s.log) (hsends : SendsCleared s.log) :
    SendsCleared t.log := by
  cases h with
  | none => exact hsends
  | move hcan htarget => exact hsends
  | approval agree hcan => exact hsends.cons nofun
  | sent hcan hstored => exact hsends.cons fun _ => (earned_of_building hs hcan).1
  | reviewOpened hcan => exact hsends.cons nofun
  | secondReview agree hcan => exact hsends.cons nofun

theorem run_invariant (reprOf : Value → Str) (rs : List Request) (s : History)
    (hs : Earned s.stored s.log ∧ SendsCleared s.log) :
    Earned (rs.foldl (step reprOf) s).stored (rs.foldl (step reprOf) s).log ∧
      SendsCleared (rs.foldl (step reprOf) s).log := by
  induction rs generalizing s with
  | nil => exact hs
  | cons r rs ih =>
      have hchange := step_change reprOf s r
      exact ih _ ⟨earned_change hchange hs.1, sendsCleared_change hchange hs.1 hs.2⟩

theorem no_build_without_approval (reprOf : Value → Str) (rs : List Request) : SendsCleared (run reprOf rs).log := by
  have hempty : Earned draft [] ∧ SendsCleared [] :=
    ⟨⟨⟨List.not_mem_nil, List.not_mem_nil⟩, fun later earlier h => by simp at h⟩,
      fun after before h => by simp at h⟩
  exact (run_invariant reprOf rs ⟨draft, []⟩ hempty).2

def plainOrder : WorkOrderDict :=
  ((((∅ : WorkOrderDict).insert (str "order_no") (.str (str "WO-1"))).insert (str "issue") (.str (str "I-1"))).insert
    (str "project") (.str (str "app"))).insert (str "branch") (.str (str "main"))

def plainRequest (call : Call) : Request := ⟨plainOrder, ⟨some (.ok (str "P-1")), some (.ok true)⟩, call⟩

example : (run (fun _ => []) ([.submitForApproval (.str []) [] .null, .onApprovalResult (.str (str "agree")),
    .triggerBuild].map plainRequest)).log = [.sent, .approval true] := by decide +kernel

end Invariant

end Services.Lifecycle
