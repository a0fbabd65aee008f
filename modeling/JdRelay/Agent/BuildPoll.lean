import JdRelay.Agent.Jenkins

namespace Agent.BuildPoll
open Text Json AgentMain Jenkins

structure PollConfig extends AgentConfig where
  jobMapping : List (Str × Str)
  buildTimeoutSec : Int
  repoPath : Bytes

-- One pass of the loop: what its head reads, and the answer of the query behind it. Times are in nanoseconds.
structure Round where
  running : Bool
  now : Int
  response : Response

structure PollRun where
  ctx : BuildContext
  curl : Bool
  started : Int
  rounds : List Round
  log : Response
  diff : Option Bytes
  client : Bool

structure PollResult where
  issue : Str
  project : Str
  buildNumber : Int
  status : Str
  logUrl : Str
  agentId : Bytes
  durationMs : Option Int
  logSnippet : Option Bytes

def PollResult.dump (r : PollResult) : Except Exn Str := do
  let agentId ← dumpString r.agentId
  let snippet ← match r.logSnippet with
    | none => .ok []
    | some s => (dumpString s).map fun v => [(str "log_snippet", v)]
  let duration := r.durationMs.toList.map fun ms => (str "duration_ms", Value.int ms)
  .ok (dumpsWith .compact (.obj
    ([(str "agent_id", agentId), (str "build_number", .int r.buildNumber)] ++ duration ++
      [(str "issue", .str r.issue)] ++ snippet ++
      [(str "log_url", .str r.logUrl), (str "project", .str r.project), (str "status", .str r.status)])))

-- An exception that leaves the thread's function ends the process.
inductive PollEnd where
  | noJenkins
  | terminated (e : Exn)
  | polling
  | reviewRequested
  | noClient
  | reported (r : PollResult)

structure TriggerFailure where
  issue : Str
  project : Str
  status : Str
  error : Str
  agentId : Bytes

def TriggerFailure.dump (r : TriggerFailure) : Except Exn Str := do
  let agentId ← dumpString r.agentId
  .ok (dumpsWith .compact (.obj
    [(str "agent_id", agentId), (str "error", .str r.error), (str "issue", .str r.issue),
      (str "project", .str r.project), (str "status", .str r.status)]))

inductive TriggerEnd where
  | noJenkins
  | raised (e : Exn)
  | noClient
  | failed (r : TriggerFailure)
  | queued
  | started (ctx : BuildContext)

structure TriggerRequest where
  project : Str
  branch : Str
  buildCmd : Str
  issue : Str

variable (c : Client) (cfg : PollConfig)

def resolveJobName (mapping : List (Str × Str)) (project : Str) : Str := (mapping.lookup project).getD project

def readTrigger (plaintext : Bytes) : Except Exn TriggerRequest := do
  let j ← c.nl.parsed plaintext
  let project ← Nlohmann.value Nlohmann.getString (str "project") [] j
  let branch ← Nlohmann.value Nlohmann.getString (str "branch") (str "main") j
  let buildCmd ← Nlohmann.value Nlohmann.getString (str "build_cmd") [] j
  let issue ← Nlohmann.value Nlohmann.getString (str "issue") [] j
  .ok ⟨project, branch, buildCmd, issue⟩

def triggerFailure (request : TriggerRequest) (result : BuildTriggerResult) : TriggerFailure where
  issue := request.issue
  project := request.project
  status := str "FAILED"
  error := result.error
  agentId := cfg.agentId

def onBuildTrigger (curl client : Bool) (plaintext : Bytes) (response : Response) : TriggerEnd :=
  if cfg.jenkinsUrl = [] then .noJenkins
  else if !curl then .raised (.runtimeError (str "curl_easy_init failed"))
  else
    match readTrigger c plaintext with
    | .error e => .raised e
    | .ok request =>
        let result := triggerBuild response
        if !result.ok then
          if !client then .noClient
          else
            let err := triggerFailure cfg request result
            match err.dump with
            | .error e => .raised e
            | .ok _ => .failed err
        else if result.buildNumber = 0 then .queued
        else
          .started ⟨request.issue, request.project, resolveJobName cfg.jobMapping request.project, result.buildNumber,
            false⟩

def deadline (run : PollRun) : Int := run.started + cfg.buildTimeoutSec * 1000000000

-- none while the rounds so far leave the thread in the loop, some none behind an exit with done false.
def pollLoop (number deadline : Int) : List Round → Option (Option Jenkins.BuildStatusResult)
  | [] => none
  | round :: rounds =>
      if round.running && decide (round.now < deadline) then
        let st := getBuildStatus c number round.response
        if !st.ok then pollLoop number deadline rounds
        else if st.status ∈ [.success, .failed, .aborted, .notBuilt] then some (some st)
        else pollLoop number deadline rounds
      else some none

def finalStatus : Option Jenkins.BuildStatusResult → Jenkins.BuildStatusResult
  | some st => st
  | none => { emptyStatus 0 with status := .aborted, ok := true }

def pollResult (ctx : BuildContext) (st : Jenkins.BuildStatusResult) (log : Jenkins.BuildLogResult) : PollResult where
  issue := ctx.issue
  project := ctx.project
  buildNumber := ctx.buildNumber
  status := st.status.toString
  logUrl := st.url ++ str "/console"
  agentId := cfg.agentId
  durationMs := if 0 < st.estimatedDurationMs then some st.estimatedDurationMs else none
  logSnippet := if log.ok && log.logText ≠ [] then some (log.logText.take 2000) else none

def buildPollThread (run : PollRun) : PollEnd :=
  if cfg.jenkinsUrl = [] then .noJenkins
  else if !run.curl then .terminated (.runtimeError (str "curl_easy_init failed"))
  else
    match pollLoop c run.ctx.buildNumber (deadline cfg run) run.rounds with
    | none => .polling
    | some done =>
        let specialChanged := decide (cfg.repoPath ≠ []) && detectSpecialMdChange run.diff
        if specialChanged && run.client then
          match reviewReqDump cfg.toAgentConfig run.ctx with
          | .error e => .terminated e
          | .ok _ => .reviewRequested
        else if run.client then
          let result := pollResult cfg run.ctx (finalStatus done) (getBuildLog 8192 run.log)
          match result.dump with
          | .error e => .terminated e
          | .ok _ => .reported result
        else .noClient

def Live (deadline : Int) (round : Round) : Prop := round.running = true ∧ round.now < deadline

def finalResults : List Str := [str "SUCCESS", str "FAILURE", str "ABORTED", str "NOT_BUILT"]

def Final (response : Response) : Prop := ∃ result ∈ finalResults, Closed c response result

def ClosedInTime (deadline : Int) (rounds : List Round) : Prop :=
  ∃ earlier round later, rounds = earlier ++ round :: later ∧
    (∀ r ∈ earlier, Live deadline r ∧ ¬Final c r.response) ∧ Live deadline round ∧
    (Closed c round.response (str "SUCCESS") ∨ Closed c round.response (str "FAILURE"))

section Specs

variable {c cfg} {n due : Int} {rounds : List Round} {round : Round} {response : Response}

theorem parseBuildResult_final {s : Str} :
    parseBuildResult s ∈ [.success, .failed, .aborted, .notBuilt] ↔ s ∈ finalResults := by
  unfold parseBuildResult finalResults
  split_ifs <;> simp_all

theorem final_ne {st : BuildStatus} (h : st ∈ [.success, .failed, .aborted, .notBuilt]) :
    st ≠ .unknown ∧ st ≠ .building := by
  constructor <;> rintro rfl <;> simp at h

theorem final_iff : Final c response ↔ (getBuildStatus c n response).ok = true ∧
    (getBuildStatus c n response).status ∈ [.success, .failed, .aborted, .notBuilt] := by
  constructor
  · rintro ⟨result, hmem, hclosed⟩
    have hfinal := parseBuildResult_final.mpr hmem
    obtain ⟨hunknown, hbuilding⟩ := final_ne hfinal
    obtain ⟨hok, hst⟩ := (getBuildStatus_gives (n := n) hunknown hbuilding).mpr ⟨result, rfl, hclosed⟩
    exact ⟨hok, hst ▸ hfinal⟩
  · rintro ⟨hok, hfinal⟩
    obtain ⟨hunknown, hbuilding⟩ := final_ne hfinal
    obtain ⟨result, hst, hclosed⟩ := (getBuildStatus_gives hunknown hbuilding).mp ⟨hok, rfl⟩
    exact ⟨result, parseBuildResult_final.mp (hst ▸ hfinal), hclosed⟩

theorem gives_success : Gives (getBuildStatus c n response) .success ↔ Closed c response (str "SUCCESS") := by
  rw [getBuildStatus_gives (by simp) (by simp)]
  simp only [parseBuildResult_success, exists_eq_left]

theorem gives_failed : Gives (getBuildStatus c n response) .failed ↔ Closed c response (str "FAILURE") := by
  rw [getBuildStatus_gives (by simp) (by simp)]
  simp only [parseBuildResult_failed, exists_eq_left]

theorem closedInTime_cons : ClosedInTime c due (round :: rounds) ↔
    Live due round ∧ (Closed c round.response (str "SUCCESS") ∨ Closed c round.response (str "FAILURE") ∨
      ¬Final c round.response ∧ ClosedInTime c due rounds) := by
  constructor
  · rintro ⟨earlier, r, later, heq, hearlier, hlive, hclosed⟩
    cases earlier with
    | nil =>
        cases heq
        exact ⟨hlive, hclosed.imp_right .inl⟩
    | cons first earlier =>
        cases heq
        obtain ⟨hfirst, hopen⟩ := hearlier round List.mem_cons_self
        exact ⟨hfirst, .inr (.inr ⟨hopen, earlier, r, later, rfl,
          fun r hr => hearlier r (List.mem_cons_of_mem _ hr), hlive, hclosed⟩)⟩
  · rintro ⟨hlive, hnow⟩
    rcases or_assoc.mpr hnow with hclosed | ⟨hopen, earlier, r, later, rfl, hearlier, hlater, hclosed⟩
    · exact ⟨[], round, rounds, rfl, by simp, hlive, hclosed⟩
    · refine ⟨round :: earlier, r, later, rfl, fun r hr => ?_, hlater, hclosed⟩
      rcases List.mem_cons.mp hr with rfl | hr
      · exact ⟨hlive, hopen⟩
      · exact hearlier r hr

theorem pollLoop_live (hlive : Live due round) : pollLoop c n due (round :: rounds) =
    if (getBuildStatus c n round.response).ok = true ∧
        (getBuildStatus c n round.response).status ∈ [.success, .failed, .aborted, .notBuilt] then
      some (some (getBuildStatus c n round.response))
    else pollLoop c n due rounds := by
  rw [pollLoop, if_pos (by simp [hlive.1, hlive.2])]
  cases hok : (getBuildStatus c n round.response).ok <;> simp [hok]

theorem finalStatus_closed (hfinal : Final c response) :
    (finalStatus (some (getBuildStatus c n response))).status ∈ [.success, .failed] ↔
      Closed c response (str "SUCCESS") ∨ Closed c response (str "FAILURE") := by
  have hok := (final_iff (n := n).mp hfinal).1
  rw [← gives_success (n := n), ← gives_failed (n := n), finalStatus]
  simp [Gives, hok]

theorem pollLoop_closed {done : Option Jenkins.BuildStatusResult} (h : pollLoop c n due rounds = some done) :
    (finalStatus done).status ∈ [.success, .failed] ↔ ClosedInTime c due rounds := by
  induction rounds with
  | nil => cases h
  | cons round rounds ih =>
      rw [closedInTime_cons]
      by_cases hlive : Live due round
      · rw [pollLoop_live hlive] at h
        split at h
        · rename_i hfinal
          have hfinal := final_iff.mpr hfinal
          cases h
          rw [finalStatus_closed hfinal]
          refine ⟨fun hclosed => ⟨hlive, hclosed.imp_right .inl⟩, ?_⟩
          rintro ⟨-, hsuccess | hfailure | ⟨hopen, -⟩⟩
          · exact .inl hsuccess
          · exact .inr hfailure
          · exact absurd hfinal hopen
        · rename_i hopen
          have hopen : ¬Final c round.response := fun hfinal => hopen (final_iff.mp hfinal)
          have hnever : ∀ result ∈ finalResults, ¬Closed c round.response result :=
            fun result hmem hclosed => hopen ⟨result, hmem, hclosed⟩
          have hsuccess := hnever (str "SUCCESS") (by simp [finalResults])
          have hfailure := hnever (str "FAILURE") (by simp [finalResults])
          rw [ih h]
          refine ⟨fun hlater => ⟨hlive, .inr (.inr ⟨hopen, hlater⟩)⟩, ?_⟩
          rintro ⟨-, hclosed | hclosed | ⟨-, hlater⟩⟩
          · exact absurd hclosed hsuccess
          · exact absurd hclosed hfailure
          · exact hlater
      · have hdone : done = none := by
          rw [pollLoop, if_neg (by simpa [Live] using hlive)] at h
          exact (Option.some.inj h).symm
        subst hdone
        exact iff_of_false (by decide) (fun hclosed => hlive hclosed.1)

theorem reported_status {run : PollRun} {r : PollResult} (h : buildPollThread c cfg run = .reported r) :
    ∃ done, pollLoop c run.ctx.buildNumber (deadline cfg run) run.rounds = some done ∧
      r.status = (finalStatus done).status.toString := by
  unfold buildPollThread at h
  split at h
  · cases h
  split at h
  · cases h
  split at h
  · cases h
  rename_i done hdone
  refine ⟨done, hdone, ?_⟩
  dsimp only at h
  split at h
  · split at h <;> cases h
  split at h
  · split at h <;> cases h
    rfl
  · cases h

theorem failed_status {curl client : Bool} {plaintext : Bytes} {r : TriggerFailure}
    (h : onBuildTrigger c cfg curl client plaintext response = .failed r) : r.status = str "FAILED" := by
  unfold onBuildTrigger at h
  split at h
  · cases h
  split at h
  · cases h
  split at h
  · cases h
  dsimp only at h
  split at h
  · split at h
    · cases h
    split at h <;> cases h
    rfl
  · split at h <;> cases h

end Specs

end Agent.BuildPoll
