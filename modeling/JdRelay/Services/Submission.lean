import JdRelay.Services.Relay

namespace Services.Submission
open Text Json State State.WorkOrderState

inductive Method where
  | submitForApproval (originatorUserId : Value) (processCode : Str) (approvers : Value)
  | onSensitiveChangeDetected (changedFiles : List Value) (approvers : Value)

namespace Method

def run (reprOf : Value → Str) (replies : Replies) (workOrder : WorkOrderDict) : Method → Outcome Str
  | submitForApproval originatorUserId processCode approvers =>
      RelayService.submitForApproval reprOf replies workOrder originatorUserId processCode approvers
  | onSensitiveChangeDetected changedFiles approvers =>
      RelayService.onSensitiveChangeDetected reprOf replies workOrder changedFiles approvers

def opens : Method → WorkOrderState
  | submitForApproval _ _ _ => pendingApproval
  | onSensitiveChangeDetected _ _ => pendingSecondReview

def FilesJoin : Method → Prop
  | submitForApproval _ _ _ => True
  | onSensitiveChangeDetected changedFiles _ => ∃ files, RelayService.joinedFiles changedFiles = .ok files

structure Reaches (workOrder : WorkOrderDict) (m : Method) : Prop where
  state : ∃ current, RelayService.currentState workOrder = .ok current ∧ canTransition current m.opens = true
  files : m.FilesJoin

end Method

def isCreation : Effect → Prop
  | .createApproval _ _ _ _ _ => True
  | .sendToProject _ _ _ => False

structure Created (replies : Replies) (o : Outcome Str) (instanceId : Str) : Prop where
  called : ∃ call ∈ o.effects, isCreation call
  returned : replies.dingtalk = some (.ok instanceId)

structure Clean (replies : Replies) (o : Outcome Str) : Prop where
  raised : ∀ e, o.result = .error e → ∀ instanceId, ¬ Created replies o instanceId
  returned : ∀ instanceId, Created replies o instanceId → o.result = .ok instanceId

def Succeeds (replies : Replies) : Prop := ∃ instanceId, replies.dingtalk = some (.ok instanceId)

def HasOrderNo (workOrder : WorkOrderDict) : Prop := (workOrder.lookup (str "order_no")).isSome = true

def creation (replies : Replies) (workOrder : WorkOrderDict) (originator : Value) (processCode title : Str)
    (formValues : List (Str × Value)) (approvers : Value) : Outcome Str := do
  let instanceId ← RelayService.createApproval replies originator processCode title formValues approvers
  let _ ← .lift (WorkOrderDict.item workOrder "order_no")
  pure instanceId

theorem clean_raise (replies : Replies) (e : Exn) : Clean replies (.raise e) where
  raised _ _ _ h := by
    obtain ⟨call, hcall, -⟩ := h.called
    exact absurd hcall List.not_mem_nil
  returned _ h := by
    obtain ⟨call, hcall, -⟩ := h.called
    exact absurd hcall List.not_mem_nil

theorem clean_failed {replies : Replies} {o : Outcome Str} (h : ¬ Succeeds replies) : Clean replies o where
  raised _ _ instanceId hc := h ⟨instanceId, hc.returned⟩
  returned instanceId hc := absurd ⟨instanceId, hc.returned⟩ h

theorem lift_error_bind {A B : Type} (e : Exn) (f : A → Outcome B) : (Outcome.lift (.error e) >>= f) = .raise e := rfl

theorem lift_ok_bind {A B : Type} (a : A) (f : A → Outcome B) : (Outcome.lift (.ok a) >>= f) = f a := rfl

theorem creation_ok {replies : Replies} {instanceId : Str} (h : replies.dingtalk = some (.ok instanceId))
    (workOrder : WorkOrderDict) (originator : Value) (processCode title : Str) (formValues : List (Str × Value))
    (approvers : Value) :
    creation replies workOrder originator processCode title formValues approvers =
      ⟨[.createApproval originator processCode title formValues approvers],
        (WorkOrderDict.item workOrder "order_no").map fun _ => instanceId⟩ := by
  simp only [creation, RelayService.createApproval, h]
  cases WorkOrderDict.item workOrder "order_no" <;> rfl

theorem item_ok_iff {workOrder : WorkOrderDict} :
    HasOrderNo workOrder ↔ ∃ v, WorkOrderDict.item workOrder "order_no" = .ok v := by
  unfold HasOrderNo WorkOrderDict.item
  cases workOrder.lookup (str "order_no") <;> simp

theorem clean_creation_iff (replies : Replies) (workOrder : WorkOrderDict) (originator : Value) (processCode title : Str)
    (formValues : List (Str × Value)) (approvers : Value) :
    Clean replies (creation replies workOrder originator processCode title formValues approvers) ↔
      (Succeeds replies → HasOrderNo workOrder) := by
  by_cases hs : Succeeds replies
  · obtain ⟨instanceId, hid⟩ := hs
    have hcreated : Created replies (creation replies workOrder originator processCode title formValues approvers)
        instanceId := ⟨by rw [creation_ok hid]; exact ⟨_, List.mem_singleton_self _, trivial⟩, hid⟩
    rw [item_ok_iff]
    constructor
    · intro h _
      have hresult := h.returned instanceId hcreated
      rw [creation_ok hid] at hresult
      cases hitem : WorkOrderDict.item workOrder "order_no" with
      | error e => rw [hitem] at hresult; cases hresult
      | ok v => exact ⟨v, rfl⟩
    · intro h
      obtain ⟨v, hv⟩ := h ⟨instanceId, hid⟩
      have hresult : (creation replies workOrder originator processCode title formValues approvers).result =
          .ok instanceId := by rw [creation_ok hid, hv]; rfl
      refine ⟨fun e he => ?_, fun other hother => ?_⟩
      · rw [hresult] at he
        cases he
      · rw [hresult]
        exact Option.some.inj (hid.symm.trans hother.returned)
  · exact iff_of_true (clean_failed hs) fun h => absurd h hs

theorem transition_error {current next : WorkOrderState} (h : ¬ canTransition current next = true) :
    ∃ e, transition current next = .error e := by
  rw [transition, if_neg h]
  exact ⟨_, rfl⟩

section Run

variable {reprOf : Value → Str} {replies : Replies} {workOrder : WorkOrderDict} {current : WorkOrderState}

theorem run_unread {e : Exn} (h : RelayService.currentState workOrder = .error e) (m : Method) :
    m.run reprOf replies workOrder = .raise e := by
  cases m <;>
    simp only [Method.run, RelayService.submitForApproval, RelayService.onSensitiveChangeDetected, h, lift_error_bind]

theorem run_refused {m : Method} (h : RelayService.currentState workOrder = .ok current)
    (hcan : ¬ canTransition current m.opens = true) : ∃ e, m.run reprOf replies workOrder = .raise e := by
  obtain ⟨e, he⟩ := transition_error hcan
  refine ⟨e, ?_⟩
  cases m <;>
    simp only [Method.run, RelayService.submitForApproval, RelayService.onSensitiveChangeDetected, h, lift_ok_bind,
      Method.opens] at he ⊢ <;>
    rw [he, lift_error_bind]

theorem run_submit (h : RelayService.currentState workOrder = .ok current)
    (hcan : canTransition current pendingApproval = true) (originator : Value) (processCode : Str) (approvers : Value) :
    ∃ o p t f a, (Method.submitForApproval originator processCode approvers).run reprOf replies workOrder =
      creation replies workOrder o p t f a := by
  have hnext : transition current pendingApproval = .ok pendingApproval := transition_of_can hcan
  simp only [Method.run, RelayService.submitForApproval, h, hnext, lift_ok_bind]
  exact ⟨_, _, _, _, _, rfl⟩

theorem run_unjoined {changedFiles : List Value} {e : Exn} (h : RelayService.currentState workOrder = .ok current)
    (hcan : canTransition current pendingSecondReview = true) (hjoin : RelayService.joinedFiles changedFiles = .error e)
    (approvers : Value) :
    ∃ e', (Method.onSensitiveChangeDetected changedFiles approvers).run reprOf replies workOrder = .raise e' := by
  have hnext : transition current pendingSecondReview = .ok pendingSecondReview := transition_of_can hcan
  simp only [Method.run, RelayService.onSensitiveChangeDetected, h, hnext, lift_ok_bind, hjoin]
  split
  · exact ⟨_, rfl⟩
  · exact ⟨e, rfl⟩

theorem run_detect {changedFiles : List Value} {files : Str} (h : RelayService.currentState workOrder = .ok current)
    (hcan : canTransition current pendingSecondReview = true) (hjoin : RelayService.joinedFiles changedFiles = .ok files)
    (approvers : Value) :
    ∃ o p t f a, (Method.onSensitiveChangeDetected changedFiles approvers).run reprOf replies workOrder =
      creation replies workOrder o p t f a := by
  have hnext : transition current pendingSecondReview = .ok pendingSecondReview := transition_of_can hcan
  simp only [Method.run, RelayService.onSensitiveChangeDetected, h, hnext, lift_ok_bind, hjoin]
  split
  -- Without a client the method raises what create_approval raises without one.
  · rename_i hnone
    refine ⟨.null, [], [], [], .null, ?_⟩
    rw [creation, RelayService.createApproval, Option.isNone_iff_eq_none.mp hnone]
    rfl
  · exact ⟨_, _, _, _, _, rfl⟩

end Run

theorem run_cases (reprOf : Value → Str) (replies : Replies) (workOrder : WorkOrderDict) (m : Method) :
    (¬ m.Reaches workOrder ∧ ∃ e, m.run reprOf replies workOrder = .raise e) ∨
      (m.Reaches workOrder ∧ ∃ originator processCode title formValues approvers,
        m.run reprOf replies workOrder = creation replies workOrder originator processCode title formValues approvers) := by
  cases hcurrent : RelayService.currentState workOrder with
  | error e =>
      refine .inl ⟨fun h => ?_, e, run_unread hcurrent m⟩
      obtain ⟨current, hc, -⟩ := h.state
      rw [hcurrent] at hc
      cases hc
  | ok current =>
      by_cases hcan : canTransition current m.opens = true
      · cases m with
        | submitForApproval originator processCode approvers =>
            exact .inr ⟨⟨⟨current, hcurrent, hcan⟩, trivial⟩, run_submit hcurrent hcan originator processCode approvers⟩
        | onSensitiveChangeDetected changedFiles approvers =>
            cases hjoin : RelayService.joinedFiles changedFiles with
            | error e =>
                refine .inl ⟨fun h => ?_, run_unjoined hcurrent hcan hjoin approvers⟩
                obtain ⟨files, hfiles⟩ := h.files
                rw [hjoin] at hfiles
                cases hfiles
            | ok files =>
                exact .inr ⟨⟨⟨current, hcurrent, hcan⟩, files, hjoin⟩, run_detect hcurrent hcan hjoin approvers⟩
      · refine .inl ⟨fun h => ?_, run_refused hcurrent hcan⟩
        obtain ⟨c, hc, hallowed⟩ := h.state
        obtain rfl : current = c := Except.ok.inj (hcurrent.symm.trans hc)
        exact hcan hallowed

theorem clean_submission_iff (reprOf : Value → Str) (replies : Replies) (workOrder : WorkOrderDict) (m : Method) :
    Clean replies (m.run reprOf replies workOrder) ↔
      (m.Reaches workOrder → Succeeds replies → HasOrderNo workOrder) := by
  rcases run_cases reprOf replies workOrder m with ⟨hreaches, e, he⟩ | ⟨hreaches, o, p, t, f, a, hrun⟩
  · rw [he]
    exact iff_of_true (clean_raise replies e) fun h => absurd h hreaches
  · rw [hrun, clean_creation_iff]
    exact ⟨fun h _ => h, fun h => h hreaches⟩

def draftWithoutNumber : WorkOrderDict :=
  ((∅ : WorkOrderDict).insert (str "state") (.str draft.value)).insert (str "id") (.int 1)

def approvedWithoutNumber : WorkOrderDict :=
  ((∅ : WorkOrderDict).insert (str "state") (.str approved.value)).insert (str "id") (.int 1)

def accepting : Replies := ⟨some (.ok (str "proc-1")), none⟩

def submission : Method := .submitForApproval (.str (str "u1")) (str "PROC") (.arr [])

def detection : Method := .onSensitiveChangeDetected [.str (str "special.md")] (.arr [])

-- The log line reads order_no after the instance exists: both methods raise KeyError and leave it behind.
theorem missing_number_leaves_instance :
    (draftWithoutNumber.lookup (str "state")).isSome = true ∧ (draftWithoutNumber.lookup (str "id")).isSome = true ∧
      (submission.run (fun _ => []) accepting draftWithoutNumber).result = .error (.builtin .keyError) ∧
      Created accepting (submission.run (fun _ => []) accepting draftWithoutNumber) (str "proc-1") ∧
      ¬ Clean accepting (submission.run (fun _ => []) accepting draftWithoutNumber) ∧
      (detection.run (fun _ => []) accepting approvedWithoutNumber).result = .error (.builtin .keyError) ∧
      ¬ Clean accepting (detection.run (fun _ => []) accepting approvedWithoutNumber) := by
  have hsubmitted : Created accepting (submission.run (fun _ => []) accepting draftWithoutNumber) (str "proc-1") :=
    ⟨⟨_, List.mem_singleton_self _, trivial⟩, rfl⟩
  have hdetected : Created accepting (detection.run (fun _ => []) accepting approvedWithoutNumber) (str "proc-1") :=
    ⟨⟨_, List.mem_singleton_self _, trivial⟩, rfl⟩
  have hsubmit : (submission.run (fun _ => []) accepting draftWithoutNumber).result = .error (.builtin .keyError) := by
    decide
  have hdetect : (detection.run (fun _ => []) accepting approvedWithoutNumber).result = .error (.builtin .keyError) := by
    decide
  exact ⟨by decide, by decide, hsubmit, hsubmitted, fun h => h.raised _ hsubmit _ hsubmitted, hdetect,
    fun h => h.raised _ hdetect _ hdetected⟩

end Services.Submission
