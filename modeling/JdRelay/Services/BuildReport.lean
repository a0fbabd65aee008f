import JdRelay.Agent.BuildPoll
import JdRelay.Services.Lifecycle

namespace Services.BuildReport
open Text Json State State.WorkOrderState Lifecycle
open Agent Agent.AgentMain Agent.Jenkins Agent.BuildPoll

inductive Run where
  | poll (run : PollRun)
  | trigger (curl client : Bool) (plaintext : Bytes) (response : Response)
  | verdict (curl client : Bool) (wait : BuildContext) (result : Str) (status log : Response)

variable (c : Client) (cfg : PollConfig)

def fetched (curl : Bool) (wait : BuildContext) (status log : Response) : Fetched :=
  if curl then
    some ((getBuildStatus c wait.buildNumber status).toBuildStatusResult, (getBuildLog 8192 log).toBuildLogResult)
  else none

def reported : Run → Option Str
  | .poll run =>
      match buildPollThread c cfg run with
      | .reported r => some r.status
      | _ => none
  | .trigger curl client plaintext response =>
      match onBuildTrigger c cfg curl client plaintext response with
      | .failed r => some r.status
      | _ => none
  | .verdict curl client wait result status log =>
      match releaseBuild cfg.toAgentConfig client (fetched c curl wait status log) wait result with
      | .attempted r => some r.status
      | _ => none

def MovesOn (fields : WorkOrderDict) (status : Str) : Prop :=
  ∃ new, (RelayService.onBuildResult (dictOf building fields) (.str status)).result = .ok new ∧ new ≠ building

def Settles : Run → Prop
  | .poll run => ClosedInTime c (deadline cfg run) run.rounds
  | .trigger _ _ _ _ => True
  | .verdict _ _ _ _ status _ => Closed c status (str "SUCCESS") ∨ Closed c status (str "FAILURE")

section Specs

variable {c cfg} {fields : WorkOrderDict} {orderNo : Value}

theorem onBuildResult_result (horder : fields.lookup (str "order_no") = some orderNo) (status : Value) :
    (RelayService.onBuildResult (dictOf building fields) status).result =
      (RelayService.statusTarget status).bind (transition building) := by
  rw [RelayService.onBuildResult, Outcome.result_lift_bind (dictOf_state building fields)]
  cases RelayService.statusTarget status with
  | error e => rfl
  | ok target =>
      rw [Outcome.result_lift_bind rfl]
      change _ = transition building target
      cases transition building target with
      | error e => rfl
      | ok new =>
          rw [Outcome.result_lift_bind rfl]
          change (Outcome.lift (WorkOrderDict.item (dictOf building fields) "order_no") >>= fun _ =>
            pure new).result = _
          rw [Outcome.result_lift_bind (dictOf_orderNo building horder)]
          rfl

theorem movesOn_iff (horder : fields.lookup (str "order_no") = some orderNo) (st : BuildStatus) :
    MovesOn fields st.toString ↔ st ∈ [.success, .failed] := by
  unfold MovesOn
  rw [onBuildResult_result horder]
  cases st with
  | success => exact iff_of_true ⟨success, by decide⟩ (by decide)
  | failed => exact iff_of_true ⟨failed, by decide⟩ (by decide)
  | _ => exact iff_of_false (fun ⟨_, h, _⟩ => by cases h) (by decide)

theorem attempted_status {config : AgentConfig} {client curl : Bool} {wait : BuildContext} {result : Str}
    {status log : Response} {r : BuildResult}
    (h : releaseBuild config client (fetched c curl wait status log) wait result = .attempted r) :
    r.status = if (getBuildStatus c wait.buildNumber status).ok then
      (getBuildStatus c wait.buildNumber status).status.toString else str "UNKNOWN" := by
  unfold releaseBuild fetched at h
  split at h
  · cases h
  cases curl with
  | false => cases h
  | true =>
      change (if !client then _ else _) = _ at h
      split at h
      · cases h
      split at h <;> cases h
      rfl

theorem movesOn_verdict (horder : fields.lookup (str "order_no") = some orderNo) (number : Int)
    (response : Response) : MovesOn fields (if (getBuildStatus c number response).ok then (getBuildStatus c number response).status.toString
      else str "UNKNOWN") ↔ Closed c response (str "SUCCESS") ∨ Closed c response (str "FAILURE") := by
  rw [← gives_success (n := number), ← gives_failed (n := number)]
  unfold Gives
  cases (getBuildStatus c number response).ok with
  | false =>
      have hunknown := (movesOn_iff horder .unknown).not.mpr (by decide)
      exact iff_of_false hunknown (by simp)
  | true =>
      rw [if_pos rfl, movesOn_iff horder]
      simp

theorem movesOn_iff_settles {run : Run} {status : Str} (hreport : reported c cfg run = some status)
    (horder : fields.lookup (str "order_no") = some orderNo) : MovesOn fields status ↔ Settles c cfg run := by
  cases run with
  | poll run =>
      simp only [reported] at hreport
      split at hreport
      · rename_i r hr
        cases hreport
        obtain ⟨done, hdone, hstatus⟩ := reported_status hr
        rw [hstatus, movesOn_iff horder]
        exact pollLoop_closed hdone
      · cases hreport
  | trigger curl client plaintext response =>
      simp only [reported] at hreport
      split at hreport
      · rename_i r hr
        cases hreport
        rw [failed_status hr]
        exact iff_of_true ((movesOn_iff horder .failed).mpr (by decide)) trivial
      · cases hreport
  | verdict curl client wait result status log =>
      simp only [reported] at hreport
      split at hreport
      · rename_i r hr
        cases hreport
        rw [attempted_status hr]
        exact movesOn_verdict horder _ _
      · cases hreport

end Specs

def sampleClient : Client where
  nl :=
    { parse := fun text => loads (text.map fun b => codePoint b.toNat)
      ofDouble := fun _ => 0
      boolAsLongLong := true }
  intOfDouble := fun _ => 0

def sampleConfig : PollConfig where
  agentId := [97]
  jenkinsUrl := str "http://jenkins"
  jobMapping := []
  buildTimeoutSec := 60
  repoPath := []

def bodyOf (text : String) : Bytes := text.toList.map fun ch => UInt8.ofNat ch.toNat

def abortedRun : Run :=
  .poll
    { ctx := ⟨str "I-1", str "app", str "app-build", 7, false⟩
      curl := true
      started := 0
      rounds :=
        [⟨true, 5000000000, .answered 200 (bodyOf "\x7b\"building\":true\x7d")⟩,
          ⟨true, 10000000000, .answered 200 (bodyOf "\x7b\"building\":false,\"result\":\"ABORTED\"\x7d")⟩]
      log := .answered 200 []
      diff := none
      client := true }

theorem aborted_stays :
    reported sampleClient sampleConfig abortedRun = some (str "ABORTED") ∧
      (RelayService.onBuildResult (dictOf building plainOrder) (.str (str "ABORTED"))).result =
        .error (.relayError (str "Unknown build status: ABORTED")) := by
  decide +kernel

theorem movesOn_iff_settles_abortedRun :
    MovesOn plainOrder (str "ABORTED") ↔ Settles sampleClient sampleConfig abortedRun := by
  have horder : plainOrder.lookup (str "order_no") = some (.str (str "WO-1")) := by decide +kernel
  exact movesOn_iff_settles (by decide +kernel) horder

end Services.BuildReport
