import JdRelay.Api.Callback
import JdRelay.Api.Session
import JdRelay.Services.Relay

namespace Api.Deployed
open Text Json State State.WorkOrderState Models Crypto Services

structure ApprovalConfig where
  approvers : List Str
  processCode : Str
  originator : Str

structure Site where
  hmacSha256 : Bytes → Bytes → Bytes
  sql : Sql
  app : Callback.AppState
  config : Option ApprovalConfig

structure ApprovalCreateRequest where
  workOrderId : Str
  issue : Str
  project : Str
  branch : Str
  buildCmd : Str

-- What the application of main.py serves; the replies are those of DingTalk and of the agents.
inductive Request where
  | callback (nowMs now : Int) (faults : Session.Faults) (req : Callback.Request)
  | cardCallback (body : Option Value)
  | createApproval (req : ApprovalCreateRequest) (reply : Except Str Str)
  | triggerBuild (project : Str) (payload : List (Str × Value)) (reply : Except Exn Bool)

section Routes

variable (site : Site)

def http {A : Type} (status : Nat) (detail : Str) : Outcome A := .raise (.httpException status detail)

def createApproval (req : ApprovalCreateRequest) (reply : Except Str Str) : Outcome Value :=
  if !site.app.sessionFactory then .raise (.builtin (.runtimeError (str "Database session factory not initialized")))
  else if site.app.dingtalkService.isNone then http 503 (str "DingTalk service not initialized")
  else match site.config with
    | none => http 503 (str "Forwarder config not available")
    | some config =>
        if config.approvers = [] ∨ config.processCode = [] then
          http 503 (str "DingTalk approvers or process_code not configured")
        else
          let formValues :=
            [(str "工单编号", Value.str req.workOrderId), (str "ISSUE", .str req.issue), (str "项目", .str req.project),
              (str "分支", .str req.branch), (str "构建命令", .str req.buildCmd)]
          let title := str "[JD-Relay] " ++ req.issue ++ str " — " ++ req.project ++ str "/" ++ req.branch
          { effects := [.createApproval (.str config.originator) config.processCode title formValues
              (.arr (config.approvers.map .str))]
            result := match reply with
              | .error text => .error (.httpException 500 (str "DingTalk create approval error: " ++ text))
              | .ok instanceId => .ok (.obj [(str "status", .str (str "ok")), (str "process_instance_id", .str instanceId),
                  (str "message", .str (str "Approval initiated"))]) }

-- No column of the tables is read here.
def triggerBuildApi (project : Str) (payload : List (Str × Value)) (reply : Except Exn Bool) : Outcome Value where
  effects := [.sendToProject (.str project) .buildTrigger (dumps (.obj payload))]
  result := match reply with
    | .error e => .error e
    | .ok false => .error (.httpException 404 (str "No agent for project '" ++ project ++ str "'"))
    | .ok true => .ok (.obj [(str "status", .str (str "sent")), (str "project", .str project)])

def cardCallback : Option Value → Outcome Value
  | none => http 400 (str "Invalid JSON body")
  | some _ => ⟨[], .ok (.obj [(str "result", .str (str "success"))])⟩

-- With a fault in front of its commit a callback leaves the tables as they are.
def callbackContent (nowMs now : Int) (faults : Session.Faults) (req : Callback.Request) (c : Content) : Content :=
  if faults.stores then (Callback.dingtalkCallback site.hmacSha256 site.sql site.app nowMs now c req).content else c

structure Server where
  content : Content
  effects : List Effect

def serve (s : Server) : Request → Server
  | .callback nowMs now faults req => { s with content := callbackContent site nowMs now faults req s.content }
  | .cardCallback body => { s with effects := s.effects ++ (cardCallback body).effects }
  | .createApproval req reply => { s with effects := s.effects ++ (createApproval site req reply).effects }
  | .triggerBuild project payload reply => { s with effects := s.effects ++ (triggerBuildApi project payload reply).effects }

end Routes

section Step

variable {site : Site} {c c' : Content} {nowMs now : Int} {faults : Session.Faults} {req : Callback.Request}

def verdicts : List WorkOrderState := [approved, closed, secondApproved, secondRejected]

def answerTexts : List Str := [str "APPROVED", str "REJECTED"]

structure Moved (c c' : Content) (order : WorkOrder) (current next : WorkOrderState) : Prop where
  mem : order ∈ c.orders
  state : order.state = current.value
  allowed : canTransition current next = true
  verdict : next ∈ verdicts
  orders : c'.orders = c.orders.map (WorkOrder.setState order.id next.value)
  approvals : c'.approvals = c.approvals ∨ ∃ a ∈ c.approvals, a.status = pendingText ∧ ∃ status now,
    status ∈ answerTexts ∧ c'.approvals = c.approvals.map (Approval.respond a.id status now)

theorem target_mem_verdicts (result : Value) (approval : Option Approval) : target result approval ∈ verdicts := by
  unfold target
  split <;> split <;> decide

theorem moved_commit {bizId result : Value} {order : WorkOrder} {approval : Option Approval} {current : WorkOrderState}
    (now : Int) (h : Honoured site.sql c bizId result order approval current) :
    Moved c (commit c (planFor order approval result now)) order current (target result approval) where
  mem := mem_of_readOrder h.found
  state := h.state
  allowed := h.allowed
  verdict := target_mem_verdicts result approval
  orders := by cases approval <;> rfl
  approvals := by
    cases approval with
    | none => exact .inl rfl
    | some a =>
        obtain ⟨hmem, -, hstatus⟩ := Session.mem_of_readPending h.pending
        refine .inr ⟨a, hmem, hstatus, _, now, ?_, rfl⟩
        split <;> decide

theorem finish_cases (now : Int) (c : Content) (bizId result instanceId : Value) :
    (handleApprovalFinish site.sql now c bizId result instanceId).content c = c ∨ ∃ order current next,
      Moved c ((handleApprovalFinish site.sql now c bizId result instanceId).content c) order current next := by
  cases hf : handleApprovalFinish site.sql now c bizId result instanceId with
  | committed c' =>
      obtain ⟨order, approval, current, h, rfl⟩ := committed_iff.mp hf
      exact .inr ⟨order, current, _, moved_commit now h⟩
  | rolledBack => exact .inl rfl
  | raised e => exact .inl rfl

theorem process_cases (now : Int) (c : Content) (verified : List Callback.Verification) (body : Value) :
    (Callback.process site.sql now c verified body).content = c ∨ ∃ order current next,
      Moved c (Callback.process site.sql now c verified body).content order current next := by
  unfold Callback.process
  split
  · split
    · rw [Callback.ofFinished_content]
      exact finish_cases now c _ _ _
    · exact .inl rfl
  · exact .inl rfl

theorem callback_cases : callbackContent site nowMs now faults req c = c ∨ ∃ order current next,
    Moved c (callbackContent site nowMs now faults req c) order current next := by
  unfold callbackContent
  split
  · unfold Callback.dingtalkCallback
    split
    · exact .inl rfl
    · split
      · exact .inl rfl
      · split
        · exact process_cases now c _ _
        · dsimp only
          split
          · exact .inl rfl
          · exact .inl rfl
          · exact process_cases now c _ _
  · exact .inl rfl

end Step

section Rows

structure Row (a b : WorkOrder) : Prop where
  id : b.id = a.id
  orderNo : b.orderNo = a.orderNo
  state : b.state = a.state ∨ ∃ st st', a.state = st.value ∧ b.state = st'.value ∧ st' ∈ verdicts ∧ Moves st st'

variable {a b o : WorkOrder} {c c' : Content} {current next : WorkOrderState}

theorem Row.refl (a : WorkOrder) : Row a a := ⟨rfl, rfl, .inl rfl⟩

theorem Row.setState (h : Row a b) (hb : b.id = o.id → b.state = current.value) (hcan : canTransition current next = true)
    (hnext : next ∈ verdicts) : Row a (b.setState o.id next.value) := by
  by_cases hid : b.id = o.id
  · rw [WorkOrder.setState_of_eq hid]
    refine ⟨h.id, h.orderNo, .inr ?_⟩
    rcases h.state with hsame | ⟨st, st', hst, hst', -, hmoves⟩
    · exact ⟨current, next, hsame ▸ hb hid, rfl, hnext, .next (.stay current) hcan⟩
    · obtain rfl : st' = current := value_injective (hst'.symm.trans (hb hid))
      exact ⟨st, next, hst, rfl, hnext, hmoves.next hcan⟩
  · rwa [WorkOrder.setState_of_ne hid]

theorem rows_moved {before : List WorkOrder} (h : List.Forall₂ Row before c.orders) (hmoved : Moved c c' o current next) :
    List.Forall₂ Row before c'.orders := by
  rw [hmoved.orders, List.forall₂_map_right_iff, List.forall₂_iff_zip]
  refine ⟨h.length_eq, fun {x y} hxy => ?_⟩
  refine ((List.forall₂_iff_zip.mp h).2 hxy).setState (fun hid => ?_) hmoved.allowed hmoved.verdict
  rw [List.inj_on_of_nodup_map c.order_ids (List.of_mem_zip hxy).2 hmoved.mem hid, hmoved.state]

def Settles (a b : Approval) : Prop :=
  b = a ∨ a.status = pendingText ∧ ∃ status now, status ∈ answerTexts ∧ b = { a with status, respondedAt := some now }

theorem pending_notMem : pendingText ∉ answerTexts := by decide

theorem Settles.respond {a b r : Approval} {status : Str} {now : Int} (h : Settles a b) (hr : b.id = r.id → b = r)
    (hpending : r.status = pendingText) (hstatus : status ∈ answerTexts) : Settles a (b.respond r.id status now) := by
  unfold Approval.respond
  split
  · rename_i hid
    obtain rfl := hr hid
    rcases h with rfl | ⟨-, status', now', hanswered, rfl⟩
    · exact .inr ⟨hpending, status, now, hstatus, rfl⟩
    · exact absurd (hpending ▸ hanswered) pending_notMem
  · exact h

theorem settles_moved {before : List Approval} (h : List.Forall₂ Settles before c.approvals)
    (hmoved : Moved c c' o current next) : List.Forall₂ Settles before c'.approvals := by
  rcases hmoved.approvals with hsame | ⟨r, hr, hpending, status, now, hstatus, happrovals⟩
  · rwa [hsame]
  · rw [happrovals, List.forall₂_map_right_iff, List.forall₂_iff_zip]
    refine ⟨h.length_eq, fun {x y} hxy => ?_⟩
    refine ((List.forall₂_iff_zip.mp h).2 hxy).respond (fun hid => ?_) hpending hstatus
    exact List.inj_on_of_nodup_map c.approval_ids (List.of_mem_zip hxy).2 hr hid

end Rows

section Bound

def left : WorkOrderState → Nat
  | draft | approved | success | failed | secondApproved | secondRejected => 1
  | pendingApproval | pendingSecondReview => 2
  | building | closed => 0

def leftOf (o : WorkOrder) : Nat := ((ofStr o.state).toOption.map left).getD 0

def potential (c : Content) : Nat := (c.orders.map leftOf).sum

variable {o : WorkOrder} {c c' : Content} {current next : WorkOrderState}

theorem left_lt (hcan : canTransition current next = true) (hnext : next ∈ verdicts) : left next < left current := by
  simp only [verdicts, List.mem_cons, List.not_mem_nil, or_false] at hnext
  revert hcan
  rcases hnext with rfl | rfl | rfl | rfl <;> cases current <;> decide

theorem leftOf_eq (h : o.state = current.value) : leftOf o = left current := by
  rw [leftOf, h, ofStr_value]
  rfl

theorem leftOf_le_two (o : WorkOrder) : leftOf o ≤ 2 := by
  unfold leftOf
  cases ofStr o.state with
  | error e => exact Nat.zero_le _
  | ok st => cases st <;> decide

theorem potential_moved (h : Moved c c' o current next) : potential c' < potential c := by
  have hset (b : WorkOrder) (hb : b ∈ c.orders) : leftOf (b.setState o.id next.value) ≤ leftOf b := by
    by_cases hid : b.id = o.id
    · obtain rfl := List.inj_on_of_nodup_map c.order_ids hb h.mem hid
      rw [WorkOrder.setState_of_eq rfl, leftOf_eq h.state, leftOf_eq rfl]
      exact (left_lt h.allowed h.verdict).le
    · rw [WorkOrder.setState_of_ne hid]
  have hstrict : leftOf (o.setState o.id next.value) < leftOf o := by
    rw [WorkOrder.setState_of_eq rfl, leftOf_eq h.state, leftOf_eq rfl]
    exact left_lt h.allowed h.verdict
  rw [potential, potential, h.orders, List.map_map]
  exact List.sum_lt_sum _ _ hset ⟨o, h.mem, hstrict⟩

theorem potential_le (c : Content) : potential c ≤ 2 * c.orders.length := by
  have hsum := List.sum_le_card_nsmul (c.orders.map leftOf) 2 fun n hn => by
    obtain ⟨o, -, rfl⟩ := List.mem_map.mp hn
    exact leftOf_le_two o
  rw [List.length_map, smul_eq_mul, Nat.mul_comm] at hsum
  exact hsum

end Bound

section Run

variable (site : Site)

def run (s : Server) (es : List Request) : Server := es.foldl (serve site) s

def asks : Request → List Effect
  | .callback _ _ _ _ => []
  | .cardCallback body => (cardCallback body).effects
  | .createApproval req reply => (createApproval site req reply).effects
  | .triggerBuild project payload reply => (triggerBuildApi project payload reply).effects

def changes : Server → List Request → Nat
  | _, [] => 0
  | s, e :: es => (if (serve site s e).content = s.content then 0 else 1) + changes (serve site s e) es

structure Leaves (before after : Content) : Prop where
  orders : List.Forall₂ Row before.orders after.orders
  approvals : List.Forall₂ Settles before.approvals after.approvals

variable {site} {before : Content} {s : Server}

theorem serve_cases (site : Site) (s : Server) (e : Request) : (serve site s e).content = s.content ∨ ∃ order current next,
    Moved s.content (serve site s e).content order current next := by
  cases e with
  | callback nowMs now faults req => exact callback_cases
  | cardCallback body => exact .inl rfl
  | createApproval req reply => exact .inl rfl
  | triggerBuild project payload reply => exact .inl rfl

theorem serve_effects (s : Server) (e : Request) : (serve site s e).effects = s.effects ++ asks site e := by
  cases e with
  | callback nowMs now faults req => exact (List.append_nil _).symm
  | cardCallback body => rfl
  | createApproval req reply => rfl
  | triggerBuild project payload reply => rfl

theorem leaves_refl (c : Content) : Leaves c c :=
  ⟨List.forall₂_same.mpr fun o _ => .refl o, List.forall₂_same.mpr fun _ _ => .inl rfl⟩

theorem leaves_serve (h : Leaves before s.content) (e : Request) : Leaves before (serve site s e).content := by
  rcases serve_cases site s e with hsame | ⟨order, current, next, hmoved⟩
  · rwa [hsame]
  · exact ⟨rows_moved h.orders hmoved, settles_moved h.approvals hmoved⟩

theorem leaves_run (es : List Request) (h : Leaves before s.content) : Leaves before (run site s es).content := by
  induction es generalizing s with
  | nil => exact h
  | cons e es ih => exact ih (leaves_serve h e)

theorem changes_add_potential (site : Site) (es : List Request) (s : Server) :
    changes site s es + potential (run site s es).content ≤ potential s.content := by
  induction es generalizing s with
  | nil => exact (Nat.zero_add _).le
  | cons e es ih =>
      have hrest : changes site (serve site s e) es + potential (run site s (e :: es)).content ≤
          potential (serve site s e).content := ih (serve site s e)
      rw [changes]
      rcases serve_cases site s e with hsame | ⟨order, current, next, hmoved⟩
      · rw [if_pos hsame]
        rw [hsame] at hrest
        omega
      · have hless := potential_moved hmoved
        split <;> omega

theorem effects_run (es : List Request) (s : Server) : (run site s es).effects = s.effects ++ es.flatMap (asks site) := by
  induction es generalizing s with
  | nil => exact (List.append_nil _).symm
  | cons e es ih =>
      have hrest : (run site s (e :: es)).effects = (serve site s e).effects ++ es.flatMap (asks site) := ih (serve site s e)
      rw [hrest, serve_effects, List.flatMap_cons, List.append_assoc]

theorem deployed_run (site : Site) (s : Server) (es : List Request) :
    Leaves s.content (run site s es).content ∧ changes site s es ≤ 2 * s.content.orders.length ∧
      (run site s es).effects = s.effects ++ es.flatMap (asks site) := by
  have hchanges := changes_add_potential site es s
  have hpotential := potential_le s.content
  exact ⟨leaves_run es (leaves_refl _), by omega, effects_run es s⟩

end Run

end Api.Deployed
