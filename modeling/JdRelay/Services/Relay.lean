import JdRelay.Base.Dict
import JdRelay.Crypto.Envelope
import JdRelay.State

namespace Services
open Text Json State State.WorkOrderState Crypto

abbrev WorkOrderDict := Dict Str Value

inductive Effect where
  | createApproval (originatorUserId : Value) (processCode title : Str) (formValues : List (Str × Value))
      (approvers : Value)
  | sendToProject (project : Value) (msgType : MessageType) (payload : Str)

structure Outcome (A : Type) where
  effects : List Effect
  result : Except Exn A

namespace Outcome

variable {A B : Type}

def raise (e : Exn) : Outcome A := ⟨[], .error e⟩

def bind (x : Outcome A) (f : A → Outcome B) : Outcome B :=
  match x.result with
  | .error e => ⟨x.effects, .error e⟩
  | .ok a => ⟨x.effects ++ (f a).effects, (f a).result⟩

instance : Monad Outcome where
  pure a := ⟨[], .ok a⟩
  bind := bind

def lift (x : Except Exn A) : Outcome A := ⟨[], x⟩

theorem result_lift_bind {x : Except Exn A} {f : A → Outcome B} {a : A} (h : x = .ok a) :
    (lift x >>= f).result = (f a).result := by
  subst h
  rfl

end Outcome

-- dingtalk and forwarder are none when the service is not configured; else they say how the call of it ends.
structure Replies where
  dingtalk : Option (Except Exn Str)
  forwarder : Option (Except Exn Bool)

namespace WorkOrderDict

def get (w : WorkOrderDict) (key : String) (default : Value) : Value := (w.lookup (str key)).getD default

def item (w : WorkOrderDict) (key : String) : Except Exn Value :=
  match w.lookup (str key) with
  | some v => .ok v
  | none => .error (.builtin .keyError)

end WorkOrderDict

namespace RelayService

variable (reprOf : Value → Str)

def currentState (workOrder : WorkOrderDict) : Except Exn WorkOrderState := do
  let state ← WorkOrderDict.item workOrder "state"
  ofValue state

def createApproval (replies : Replies) (originator : Value) (processCode title : Str)
    (formValues : List (Str × Value)) (approvers : Value) : Outcome Str :=
  match replies.dingtalk with
  | none => .raise (.relayError (str "DingTalk service not configured"))
  | some reply => ⟨[.createApproval originator processCode title formValues approvers], reply⟩

def submitForApproval (replies : Replies) (workOrder : WorkOrderDict) (originatorUserId : Value) (processCode : Str)
    (approvers : Value) : Outcome Str := do
  let current ← .lift (currentState workOrder)
  let _ ← .lift (transition current pendingApproval)
  let formValues :=
    [(str "工单编号", WorkOrderDict.get workOrder "order_no" (.str [])),
      (str "ISSUE", WorkOrderDict.get workOrder "issue" (.str [])),
      (str "项目", WorkOrderDict.get workOrder "project" (.str [])),
      (str "分支", WorkOrderDict.get workOrder "branch" (.str [])),
      (str "构建命令", WorkOrderDict.get workOrder "build_cmd" (.str []))]
  let title := str "[JD-Relay] " ++ Python.strOf reprOf (WorkOrderDict.get workOrder "issue" .null) ++ str " — " ++
    Python.strOf reprOf (WorkOrderDict.get workOrder "project" .null)
  let instanceId ← createApproval replies originatorUserId processCode title formValues approvers
  let _ ← .lift (WorkOrderDict.item workOrder "order_no")
  pure instanceId

def onApprovalResult (workOrder : WorkOrderDict) (result : Value) : Outcome WorkOrderState := do
  let current ← .lift (currentState workOrder)
  .lift (if result = .str (str "agree") then transition current approved else transition current closed)

def triggerBuild (replies : Replies) (workOrder : WorkOrderDict) : Outcome Bool := do
  let current ← .lift (currentState workOrder)
  let _ ← .lift (transition current building)
  let project := WorkOrderDict.get workOrder "project" (.str [])
  let orderNo ← .lift (WorkOrderDict.item workOrder "order_no")
  let issue ← .lift (WorkOrderDict.item workOrder "issue")
  let branch ← .lift (WorkOrderDict.item workOrder "branch")
  let payload := dumps (.obj
    [(str "work_order_id", orderNo),
      (str "issue", issue),
      (str "project", project),
      (str "branch", branch),
      (str "build_cmd", WorkOrderDict.get workOrder "build_cmd" (.str []))])
  let success ← match replies.forwarder with
    | none => .raise (.relayError (str "Forwarder server not configured"))
    | some reply => ⟨[.sendToProject project .buildTrigger payload], reply⟩
  if success then pure true
  else .raise (.relayError (str "No agent online for project '" ++ Python.strOf reprOf project ++ str "'"))

-- What p.upper() is when that is ASCII text.
def upperAscii? (p : CodePoint) : Option Str :=
  if 97 ≤ p.val ∧ p.val ≤ 122 then some [codePoint (p.val - 32)]
  else if p.val < 128 then some [p]
  else if p.val = 0xDF then some (str "SS")
  else if p.val = 0x131 then some (str "I")
  else if p.val = 0x17F then some (str "S")
  else if p.val = 0xFB00 then some (str "FF")
  else if p.val = 0xFB01 then some (str "FI")
  else if p.val = 0xFB02 then some (str "FL")
  else if p.val = 0xFB03 then some (str "FFI")
  else if p.val = 0xFB04 then some (str "FFL")
  else if p.val = 0xFB05 ∨ p.val = 0xFB06 then some (str "ST")
  else none

def upperIs (s : Str) (target : String) : Bool :=
  match s.mapM upperAscii? with
  | some parts => parts.flatten = str target
  | none => false

def statusTarget : Value → Except Exn WorkOrderState
  | .str status =>
      if upperIs status "SUCCESS" then .ok success
      else if upperIs status "FAILED" then .ok failed
      else .error (.relayError (str "Unknown build status: " ++ status))
  | _ => .error (.builtin .attributeError)

def onBuildResult (workOrder : WorkOrderDict) (buildStatus : Value) : Outcome WorkOrderState := do
  let current ← .lift (currentState workOrder)
  let target ← .lift (statusTarget buildStatus)
  let newState ← .lift (transition current target)
  let _ ← .lift (WorkOrderDict.item workOrder "order_no")
  pure newState

def closeWorkOrder (workOrder : WorkOrderDict) : Outcome WorkOrderState := do
  let current ← .lift (currentState workOrder)
  let newState ← .lift (transition current closed)
  let _ ← .lift (WorkOrderDict.item workOrder "order_no")
  pure newState

def joinedFiles (changedFiles : List Value) : Except Exn Str :=
  match changedFiles.mapM (fun v => match v with | .str s => some s | _ => none) with
  | some names => .ok (separated (str ", ") names)
  | none => .error (.builtin .typeError)

def onSensitiveChangeDetected (replies : Replies) (workOrder : WorkOrderDict) (changedFiles : List Value)
    (approvers : Value) : Outcome Str := do
  let current ← .lift (currentState workOrder)
  let _ ← .lift (transition current pendingSecondReview)
  if replies.dingtalk.isNone then .raise (.relayError (str "DingTalk service not configured")) else
  let files ← .lift (joinedFiles changedFiles)
  let formValues :=
    [(str "工单编号", WorkOrderDict.get workOrder "order_no" (.str [])),
      (str "变更文件", .str files),
      (str "风险说明", .str (str "special.md 文件变更，需要二次审核"))]
  let title := str "[二次审核] " ++ Python.strOf reprOf (WorkOrderDict.get workOrder "issue" .null) ++ str " — 敏感文件变更"
  let instanceId ← createApproval replies (WorkOrderDict.get workOrder "created_by" (.str [])) (str "SECOND_REVIEW")
    title formValues approvers
  let _ ← .lift (WorkOrderDict.item workOrder "order_no")
  pure instanceId

def onSecondReviewResult (workOrder : WorkOrderDict) (result : Value) : Outcome WorkOrderState := do
  let current ← .lift (currentState workOrder)
  let newState ← .lift (
    if result = .str (str "agree") then transition current secondApproved else transition current secondRejected)
  let _ ← .lift (WorkOrderDict.item workOrder "order_no")
  pure newState

end RelayService
end Services
