import JdRelay.Agent.AgentMain

namespace Agent.Jenkins
open Text Json AgentMain

-- What libcurl makes of a request: an error of its own, or the answer's code and body.
inductive Response where
  | failed (error : Str)
  | answered (code : Nat) (body : Bytes)

inductive QueryError where
  | http (error : Str)
  | json (e : Exn)

structure BuildStatusResult extends AgentMain.BuildStatusResult where
  buildNumber : Int
  estimatedDurationMs : Int
  error : Option QueryError
  url : Str

structure BuildLogResult extends AgentMain.BuildLogResult where
  logSizeBytes : Nat
  truncated : Bool
  error : Option QueryError

def perform : Response → Bytes × Str
  | .failed error => ([], error)
  | .answered code body => if 400 ≤ code then ([], str "HTTP " ++ Number.natStr code) else (body, [])

def httpGet (response : Response) : Bytes × Str := perform response

def httpPost (response : Response) : Bytes × Str := perform response

structure BuildTriggerResult where
  ok : Bool
  queueId : Int
  buildNumber : Int
  error : Str

-- The answer's Location header is not read: both numbers stay 0.
def triggerBuild (response : Response) : BuildTriggerResult :=
  let (_, error) := httpPost response
  { ok := decide (error = []), queueId := 0, buildNumber := 0, error := error }

def parseBuildResult (s : Str) : BuildStatus :=
  if s = str "SUCCESS" then .success
  else if s = str "FAILURE" then .failed
  else if s = str "ABORTED" then .aborted
  else if s = str "NOT_BUILT" then .notBuilt
  else if s = str "BUILDING" then .building
  else if s = str "QUEUED" then .queued
  else .unknown

-- intOfDouble is the conversion of a double to int.
structure Client where
  nl : Nlohmann
  intOfDouble : Number.Double → Int

def getBool : Value → Option Bool
  | .bool b => some b
  | _ => none

variable (c : Client)

def getInt : Value → Option Int
  | .int n => some (n.bmod (2 ^ 32))
  | .float x => some (c.intOfDouble x)
  | .bool b => some (if b then 1 else 0)
  | _ => none

-- A throw in the try block keeps what was assigned before it.
def catching {A : Type} (r : BuildStatusResult) (x : Except Exn A) (next : A → BuildStatusResult) :
    BuildStatusResult :=
  match x with
  | .error e => { r with error := some (.json e) }
  | .ok a => next a

def emptyStatus (buildNumber : Int) : BuildStatusResult where
  ok := false
  status := .unknown
  buildNumber := buildNumber
  estimatedDurationMs := 0
  error := none
  url := []

def getBuildStatus (buildNumber : Int) (response : Response) : BuildStatusResult :=
  let result := emptyStatus buildNumber
  let (resp, error) := httpGet response
  if error ≠ [] then { result with error := some (.http error) }
  else
    catching result (c.nl.parsed resp) fun j =>
    catching result (Nlohmann.value Nlohmann.getString (str "result") [] j) fun s =>
    let result := { result with status := parseBuildResult s }
    catching result (Nlohmann.value Nlohmann.getString (str "url") [] j) fun url =>
    let result := { result with url := url }
    catching result (Nlohmann.value (getInt c) (str "estimatedDuration") 0 j) fun ms =>
    let result := { result with estimatedDurationMs := ms }
    if result.status = .unknown then
      catching result (Nlohmann.value getBool (str "building") false j) fun building =>
      { result with ok := true, status := if building then .building else .unknown }
    else { result with ok := true }

def getBuildLog (maxBytes : Nat) (response : Response) : BuildLogResult :=
  let (resp, error) := httpGet response
  if error ≠ [] then
    { ok := false, logText := [], logSizeBytes := 0, truncated := false, error := some (.http error) }
  else if 0 < maxBytes ∧ maxBytes < resp.length then
    { ok := true, logText := resp.drop (resp.length - maxBytes), logSizeBytes := resp.length, truncated := true
      error := none }
  else { ok := true, logText := resp, logSizeBytes := resp.length, truncated := false, error := none }

-- The output of git diff --name-only; none when popen fails.
def detectSpecialMdChange : Option Bytes → Bool
  | none => false
  | some output => decide ("special.md".toList.flatMap String.utf8EncodeChar <:+: output)

-- The status document of a build that Jenkins closed with the given result.
def Closed (response : Response) (result : Str) : Prop :=
  ∃ body fields, httpGet response = (body, []) ∧ c.nl.parse body = some (.obj fields) ∧
    lookup? fields (str "result") = some (.str result) ∧
    Nlohmann.hasType Nlohmann.getString fields (str "url") = true ∧
    Nlohmann.hasType (getInt c) fields (str "estimatedDuration") = true

def Gives (r : BuildStatusResult) (st : BuildStatus) : Prop := r.ok = true ∧ r.status = st

section Specs

variable {c} {n : Int} {response : Response} {st : BuildStatus}

theorem gives_catching {A : Type} {r : BuildStatusResult} (hr : r.ok = false) {x : Except Exn A}
    {next : A → BuildStatusResult} : Gives (catching r x next) st ↔ ∃ a, x = .ok a ∧ Gives (next a) st := by
  cases x with
  | error e =>
      refine iff_of_false (fun h => ?_) (by simp)
      exact Bool.false_ne_true (hr.symm.trans h.1)
  | ok a => simp [catching]

theorem parsed_eq_ok {body : Bytes} {j : Value} : c.nl.parsed body = .ok j ↔ c.nl.parse body = some j := by
  unfold Nlohmann.parsed
  cases c.nl.parse body <;> simp

-- A result field that is absent reads as "", which no build status has.
theorem result_eq_ok {j : Value} {s : Str} (hs : s ≠ []) :
    Nlohmann.value Nlohmann.getString (str "result") [] j = .ok s ↔
      ∃ fields, j = .obj fields ∧ lookup? fields (str "result") = some (.str s) := by
  cases j with
  | obj fields =>
      simp only [Nlohmann.value, Value.obj.injEq, exists_eq_left']
      cases hlook : lookup? fields (str "result") with
      | none => simp [hs.symm]
      | some v => cases v <;> simp [Nlohmann.getString]
  | _ => simp [Nlohmann.value]

theorem value_eq_ok {A : Type} {get : Value → Option A} {fields : List (Str × Value)} {key : Str} {default : A} :
    (∃ a, Nlohmann.value get key default (.obj fields) = .ok a) ↔ Nlohmann.hasType get fields key = true := by
  rw [Nlohmann.value_obj]
  split <;> simp_all

theorem known_result {s : Str} (hs : parseBuildResult s ≠ .unknown) : s ≠ [] := by
  rintro rfl
  exact hs (by decide)

theorem getBuildStatus_gives (hunknown : st ≠ .unknown) (hbuilding : st ≠ .building) :
    Gives (getBuildStatus c n response) st ↔ ∃ result, parseBuildResult result = st ∧ Closed c response result := by
  unfold getBuildStatus Closed
  obtain ⟨body, error⟩ := httpGet response
  rcases eq_or_ne error [] with rfl | herror
  · simp only [ne_eq, not_true_eq_false, if_false]
    constructor
    · intro h
      obtain ⟨j, hj, h⟩ := (gives_catching rfl).mp h
      obtain ⟨s, hs, h⟩ := (gives_catching rfl).mp h
      obtain ⟨url, hurl, h⟩ := (gives_catching rfl).mp h
      obtain ⟨ms, hms, h⟩ := (gives_catching rfl).mp h
      have hst : parseBuildResult s = st := by
        split at h
        · obtain ⟨building, -, -, hst⟩ := (gives_catching rfl).mp h
          cases building
          · exact absurd hst.symm hunknown
          · exact absurd hst.symm hbuilding
        · exact h.2
      obtain ⟨fields, rfl, hfield⟩ := (result_eq_ok (known_result (hst ▸ hunknown))).mp hs
      exact ⟨s, hst, body, fields, rfl, parsed_eq_ok.mp hj, hfield, value_eq_ok.mp ⟨url, hurl⟩,
        value_eq_ok.mp ⟨ms, hms⟩⟩
    · rintro ⟨s, hst, _, fields, hbody, hparse, hfield, hurl, hms⟩
      cases hbody
      have hs : parseBuildResult s ≠ .unknown := hst ▸ hunknown
      obtain ⟨url, hurl⟩ := value_eq_ok.mpr hurl
      have hread : ∃ ms, Nlohmann.value (getInt c) (str "estimatedDuration") 0 (.obj fields) = .ok ms :=
        value_eq_ok.mpr hms
      obtain ⟨ms, hms⟩ := hread
      refine (gives_catching rfl).mpr ⟨.obj fields, parsed_eq_ok.mpr hparse, ?_⟩
      refine (gives_catching rfl).mpr ⟨s, (result_eq_ok (known_result hs)).mpr ⟨fields, rfl, hfield⟩, ?_⟩
      refine (gives_catching rfl).mpr ⟨url, hurl, ?_⟩
      refine (gives_catching rfl).mpr ⟨ms, hms, ?_⟩
      rw [if_neg hs]
      exact ⟨rfl, hst⟩
  · dsimp only
    rw [if_pos herror]
    refine iff_of_false (fun h => Bool.false_ne_true h.1) ?_
    rintro ⟨_, _, _, _, hbody, _⟩
    exact herror (Prod.mk.inj hbody).2

theorem parseBuildResult_success {s : Str} : parseBuildResult s = .success ↔ s = str "SUCCESS" := by
  unfold parseBuildResult
  split_ifs <;> simp_all

theorem parseBuildResult_failed {s : Str} : parseBuildResult s = .failed ↔ s = str "FAILURE" := by
  unfold parseBuildResult
  split_ifs with h1 h2 <;> simp_all
  decide

end Specs

end Agent.Jenkins
