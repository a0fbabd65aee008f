import JdRelay.Base.Dict
import JdRelay.Base.Runs
import JdRelay.Agent.Nlohmann

namespace Agent.AgentMain
open Text Json Runs

structure AgentConfig where
  agentId : Bytes
  jenkinsUrl : Str

structure BuildContext where
  issue : Str
  project : Str
  jobName : Str
  buildNumber : Int
  waitingReview : Bool
  deriving DecidableEq

inductive BuildStatus where
  | unknown | queued | building | success | failed | aborted | notBuilt
  deriving DecidableEq

def BuildStatus.toString : BuildStatus → Str
  | .unknown => str "UNKNOWN"
  | .queued => str "QUEUED"
  | .building => str "BUILDING"
  | .success => str "SUCCESS"
  | .failed => str "FAILED"
  | .aborted => str "ABORTED"
  | .notBuilt => str "NOT_BUILT"

structure BuildStatusResult where
  ok : Bool
  status : BuildStatus

structure BuildLogResult where
  ok : Bool
  logText : Bytes

-- What the temporary Jenkins client gives: none where curl_easy_init fails.
abbrev Fetched := Option (BuildStatusResult × BuildLogResult)

structure BuildResult where
  issue : Str
  project : Str
  buildNumber : Int
  status : Str
  secondReview : Str
  agentId : Bytes
  logSnippet : Option Bytes
  deriving DecidableEq

-- dump() throws on a string that is not UTF-8.
def dumpString (s : Bytes) : Except Exn Value :=
  match decodeUtf8 s with
  | none => .error .typeError
  | some t => .ok (.str t)

def BuildResult.dump (r : BuildResult) : Except Exn Str := do
  let agentId ← dumpString r.agentId
  let snippet ← match r.logSnippet with
    | none => .ok []
    | some s => (dumpString s).map fun v => [(str "log_snippet", v)]
  .ok (dumpsWith .compact (.obj
    ([(str "agent_id", agentId), (str "build_number", .int r.buildNumber), (str "issue", .str r.issue)] ++ snippet ++
      [(str "project", .str r.project), (str "second_review", .str r.secondReview), (str "status", .str r.status)])))

def reviewReqDump (cfg : AgentConfig) (ctx : BuildContext) : Except Exn Str := do
  let agentId ← dumpString cfg.agentId
  .ok (dumpsWith .compact (.obj
    [(str "agent_id", agentId), (str "issue", .str ctx.issue), (str "project", .str ctx.project),
      (str "reason", .str (str "special.md changed"))]))

abbrev Builds := Dict Int BuildContext

-- No entry has number 0, the source's mark for none found: a trigger that got no number inserts nothing.
def findWaiting (builds : Builds) (issue : Str) : Option BuildContext :=
  (builds.entries.find? fun e => e.2.waitingReview && decide (e.2.issue = issue)).map fun e =>
    { e.2 with buildNumber := e.1 }

def markWaiting (builds : Builds) (number : Int) : Builds :=
  match builds.lookup number with
  | none => builds
  | some ctx => builds.insert number { ctx with waitingReview := true }

inductive Outcome where
  | raised (e : Exn)
  | noWaitingBuild
  | noJenkins
  | noClient
  | attempted (r : BuildResult)
  deriving DecidableEq

def verdictIssue (nl : Nlohmann) (plaintext : Bytes) : Except Exn Str := do
  let j ← nl.parsed plaintext
  Nlohmann.value Nlohmann.getString (str "issue") [] j

def verdictResult (nl : Nlohmann) (plaintext : Bytes) : Except Exn Str := do
  let j ← nl.parsed plaintext
  Nlohmann.value Nlohmann.getString (str "result") (str "UNKNOWN") j

def readVerdict (nl : Nlohmann) (plaintext : Bytes) : Except Exn (Str × Str) := do
  let issue ← verdictIssue nl plaintext
  let result ← verdictResult nl plaintext
  .ok (issue, result)

def buildResult (cfg : AgentConfig) (wait : BuildContext) (result : Str) (st : BuildStatusResult)
    (log : BuildLogResult) : BuildResult where
  issue := wait.issue
  project := wait.project
  buildNumber := wait.buildNumber
  status := if st.ok then st.status.toString else str "UNKNOWN"
  secondReview := result
  agentId := cfg.agentId
  logSnippet := if log.ok && log.logText ≠ [] then some (log.logText.take 2000) else none

-- The callback behind the locked block, with the build it took out of the map.
def releaseBuild (cfg : AgentConfig) (client : Bool) (fetched : Fetched) (wait : BuildContext) (result : Str) :
    Outcome :=
  if cfg.jenkinsUrl = [] then .noJenkins
  else
    match fetched with
    | none => .raised (.runtimeError (str "curl_easy_init failed"))
    | some (st, log) =>
        let r := buildResult cfg wait result st log
        if !client then .noClient
        else
          match r.dump with
          | .error e => .raised e
          | .ok _ => .attempted r

-- Where one build's thread stands. requested is behind the send and in front of the locked block.
inductive Thread where
  | notStarted | polling | requested | marked | finished
  deriving DecidableEq

section Run

variable (B : Type)

-- asked is what had been requested when the callback looked for the build.
inductive Callback where
  | idle
  | releasing (asked : B → Bool) (wait : BuildContext) (result : Str)
  | returned (asked : B → Bool) (issue : Except Exn Str) (outcome : Outcome)

structure State where
  builds : Builds
  thread : B → Thread
  asked : B → Bool
  client : Bool
  callback : Callback B

inductive Event where
  | trigger (b : B)
  | request (b : B) (sent : Bool)
  | mark (b : B)
  | finish (b : B)
  | verdict (plaintext : Bytes)
  | release (fetched : Fetched)
  | shutdown

structure Setting where
  nl : Nlohmann
  cfg : AgentConfig
  context : B → BuildContext

end Run

variable {B : Type}

def Callback.free : Callback B → Bool
  | .releasing _ _ _ => false
  | _ => true

def State.onVerdict (nl : Nlohmann) (s : State B) (plaintext : Bytes) : State B :=
  match readVerdict nl plaintext with
  | .error e => { s with callback := .returned s.asked (verdictIssue nl plaintext) (.raised e) }
  | .ok (issue, result) =>
      match findWaiting s.builds issue with
      | none => { s with callback := .returned s.asked (.ok issue) .noWaitingBuild }
      | some wait =>
          { s with builds := s.builds.erase wait.buildNumber, callback := .releasing s.asked wait result }

variable [DecidableEq B] (g : Setting B)

-- The callbacks run on one thread, so a build is triggered only while no verdict is being handled.
def step (s : State B) : Event B → Option (State B)
  | .trigger b =>
      match s.thread b, s.callback.free with
      | .notStarted, true =>
          if g.cfg.jenkinsUrl = [] ∨ (g.context b).buildNumber = 0 then
            some { s with thread := Function.update s.thread b .finished }
          else
            some { s with
              builds := s.builds.insert (g.context b).buildNumber { g.context b with waitingReview := false }
              thread := Function.update s.thread b .polling }
      | _, _ => none
  -- A dump that throws here ends the process: no step follows.
  | .request b sent =>
      match s.thread b, s.client, reviewReqDump g.cfg (g.context b) with
      | .polling, true, .ok _ =>
          some { s with
            thread := Function.update s.thread b .requested
            asked := Function.update s.asked b sent }
      | _, _, _ => none
  | .mark b =>
      match s.thread b with
      | .requested =>
          some { s with
            builds := markWaiting s.builds (g.context b).buildNumber
            thread := Function.update s.thread b .marked }
      | _ => none
  | .finish b =>
      match s.thread b with
      | .polling =>
          some { s with
            builds := s.builds.erase (g.context b).buildNumber
            thread := Function.update s.thread b .finished }
      | _ => none
  | .verdict plaintext => if s.callback.free then some (s.onVerdict g.nl plaintext) else none
  | .release fetched =>
      match s.callback with
      | .releasing asked wait result =>
          some { s with
            callback := .returned asked (.ok wait.issue) (releaseBuild g.cfg s.client fetched wait result) }
      | _ => none
  | .shutdown => some { s with client := false }

def machine : Machine (State B) (Event B) where
  init :=
    { builds := ∅, thread := fun _ => .notStarted, asked := fun _ => false, client := true, callback := .idle }
  step := step g

inductive Moves (s : State B) : Event B → State B → Prop where
  | dropped {b : B} (hthread : s.thread b = .notStarted)
      (hnot : g.cfg.jenkinsUrl = [] ∨ (g.context b).buildNumber = 0) :
      Moves s (.trigger b) { s with thread := Function.update s.thread b .finished }
  | started {b : B} (hthread : s.thread b = .notStarted) (hfree : s.callback.free = true)
      (hbuild : ¬ (g.cfg.jenkinsUrl = [] ∨ (g.context b).buildNumber = 0)) :
      Moves s (.trigger b)
        { s with
          builds := s.builds.insert (g.context b).buildNumber { g.context b with waitingReview := false }
          thread := Function.update s.thread b .polling }
  | requested {b : B} {sent : Bool} {text : Str} (hthread : s.thread b = .polling)
      (hdump : reviewReqDump g.cfg (g.context b) = .ok text) :
      Moves s (.request b sent)
        { s with
          thread := Function.update s.thread b .requested
          asked := Function.update s.asked b sent }
  | marked {b : B} (hthread : s.thread b = .requested) :
      Moves s (.mark b)
        { s with
          builds := markWaiting s.builds (g.context b).buildNumber
          thread := Function.update s.thread b .marked }
  | finished {b : B} (hthread : s.thread b = .polling) :
      Moves s (.finish b)
        { s with
          builds := s.builds.erase (g.context b).buildNumber
          thread := Function.update s.thread b .finished }
  | unread {plaintext : Bytes} {err : Exn} (hfree : s.callback.free = true)
      (hread : readVerdict g.nl plaintext = .error err) :
      Moves s (.verdict plaintext)
        { s with callback := .returned s.asked (verdictIssue g.nl plaintext) (.raised err) }
  | unfound {plaintext : Bytes} {issue result : Str} (hfree : s.callback.free = true)
      (hread : readVerdict g.nl plaintext = .ok (issue, result)) (hfind : findWaiting s.builds issue = none) :
      Moves s (.verdict plaintext) { s with callback := .returned s.asked (.ok issue) .noWaitingBuild }
  | taken {plaintext : Bytes} {issue result : Str} {wait : BuildContext} (hfree : s.callback.free = true)
      (hread : readVerdict g.nl plaintext = .ok (issue, result)) (hfind : findWaiting s.builds issue = some wait) :
      Moves s (.verdict plaintext)
        { s with builds := s.builds.erase wait.buildNumber, callback := .releasing s.asked wait result }
  | released {fetched : Fetched} {asked : B → Bool} {wait : BuildContext} {result : Str}
      (hcallback : s.callback = .releasing asked wait result) :
      Moves s (.release fetched)
        { s with
          callback := .returned asked (.ok wait.issue) (releaseBuild g.cfg s.client fetched wait result) }
  | shutdown : Moves s .shutdown { s with client := false }

theorem moves_of_step {g : Setting B} {s t : State B} {e : Event B} (h : step g s e = some t) : Moves g s e t := by
  cases e with
  | trigger b =>
      simp only [step] at h
      split at h
      · rename_i hthread hfree
        split at h <;> rename_i hbuild <;> cases h
        · exact .dropped hthread hbuild
        · exact .started hthread hfree hbuild
      · cases h
  | request b sent =>
      simp only [step] at h
      split at h <;> cases h
      rename_i hthread _ hdump
      exact .requested hthread hdump
  | mark b =>
      simp only [step] at h
      split at h <;> cases h
      rename_i hthread
      exact .marked hthread
  | finish b =>
      simp only [step] at h
      split at h <;> cases h
      rename_i hthread
      exact .finished hthread
  | verdict plaintext =>
      simp only [step, State.onVerdict] at h
      split at h
      · rename_i hfree
        split at h
        · rename_i hread
          cases h
          exact .unread hfree hread
        · rename_i hread
          split at h <;> rename_i hfind <;> cases h
          · exact .unfound hfree hread hfind
          · exact .taken hfree hread hfind
      · cases h
  | release fetched =>
      simp only [step] at h
      split at h <;> cases h
      rename_i hcallback
      exact .released hcallback
  | shutdown =>
      cases h
      exact .shutdown

end Agent.AgentMain
