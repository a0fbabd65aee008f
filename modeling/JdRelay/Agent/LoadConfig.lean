import JdRelay.Base.Dict
import JdRelay.Base.Fields
import JdRelay.Agent.TriggerBuild

namespace Agent.LoadConfig
open Text Fields
open TriggerBuild (text)

section Integers

def isspace (b : UInt8) : Bool := b == 32 || (9 ≤ b && b ≤ 13)

def digit (b : UInt8) : Bool := 48 ≤ b && b ≤ 57

def decimal (ds : Bytes) : Nat := ds.foldl (fun n b => n * 10 + (b.toNat - 48)) 0

def signed (number : Bytes → Option Nat) : Bytes → Option Int
  | [] => (number []).map fun n : Nat => (n : Int)
  | c :: rest =>
      if c = 45 then (number rest).map fun n : Nat => -(n : Int)
      else if c = 43 then (number rest).map fun n : Nat => (n : Int)
      else (number (c :: rest)).map fun n : Nat => (n : Int)

def leadingDigits (s : Bytes) : Option Nat := if s.takeWhile digit = [] then none else some (decimal (s.takeWhile digit))

inductive StdError where
  | invalidArgument
  | outOfRange
  deriving DecidableEq

-- std::stoi: the digits that the text begins with, whatever follows them.
def stoi (s : Bytes) : Except StdError Int :=
  match signed leadingDigits (s.dropWhile isspace) with
  | none => .error .invalidArgument
  | some n => if -2147483648 ≤ n ∧ n ≤ 2147483647 then .ok n else .error .outOfRange

def toUint16 (n : Int) : Nat := (n % 65536).toNat

end Integers

section Load

structure AgentConfig where
  forwarderHost : Bytes
  forwarderPort : Nat
  agentId : Bytes
  projects : List Bytes
  ecdsaPrivFile : Bytes
  ecdsaPubFile : Bytes
  jenkinsUrl : Bytes
  jenkinsUser : Bytes
  jenkinsToken : Bytes
  jobMapping : Dict Bytes Bytes
  pollIntervalSec : Int
  buildTimeoutSec : Int
  maxConcurrent : Int
  repoPath : Bytes
  specialMdIntervalSec : Int
  specialMdBaseRef : Bytes

def AgentConfig.default : AgentConfig where
  forwarderHost := text "127.0.0.1"
  forwarderPort := 8000
  agentId := text "agent-001"
  projects := []
  ecdsaPrivFile := []
  ecdsaPubFile := []
  jenkinsUrl := []
  jenkinsUser := []
  jenkinsToken := []
  jobMapping := ∅
  pollIntervalSec := 5
  buildTimeoutSec := 3600
  maxConcurrent := 4
  repoPath := []
  specialMdIntervalSec := 30
  specialMdBaseRef := text "origin/main"

def blank (b : UInt8) : Bool := b == 32 || b == 9 || b == 13 || b == 10

def trim (s : Bytes) : Bytes := Fields.trim blank s

def setting (cfg : AgentConfig) (sec key value : Bytes) : Except StdError AgentConfig :=
  if sec = text "forwarder" then
    if key = text "host" then .ok { cfg with forwarderHost := value }
    else if key = text "port" then (stoi value).map fun n => { cfg with forwarderPort := toUint16 n }
    else .ok cfg
  else if sec = text "crypto" then
    if key = text "ecdsa_private_key_file" then .ok { cfg with ecdsaPrivFile := value }
    else if key = text "ecdsa_public_key_file" then .ok { cfg with ecdsaPubFile := value }
    else .ok cfg
  else if sec = text "agent" then
    if key = text "agent_id" then .ok { cfg with agentId := value }
    else if key = text "projects" then .ok { cfg with projects := cfg.projects ++ (pieces 44 value).map trim }
    else if key = text "max_concurrent_builds" then (stoi value).map fun n => { cfg with maxConcurrent := n }
    else if key = text "repo_path" then .ok { cfg with repoPath := value }
    else if key = text "special_md_interval_sec" then (stoi value).map fun n => { cfg with specialMdIntervalSec := n }
    else if key = text "special_md_base_ref" then .ok { cfg with specialMdBaseRef := value }
    else .ok cfg
  else if sec = text "jenkins" then
    if key = text "url" then .ok { cfg with jenkinsUrl := value }
    else if key = text "user" then .ok { cfg with jenkinsUser := value }
    else if key = text "token" then .ok { cfg with jenkinsToken := value }
    else if key = text "poll_interval" then (stoi value).map fun n => { cfg with pollIntervalSec := n }
    else if key = text "build_timeout" then (stoi value).map fun n => { cfg with buildTimeoutSec := n }
    else .ok cfg
  else if sec = text "projects" then .ok { cfg with jobMapping := cfg.jobMapping.insert key value }
  else .ok cfg

def readLine (s : AgentConfig × Bytes) (raw : Bytes) : Except StdError (AgentConfig × Bytes) :=
  let line := trim raw
  if line = [] ∨ line.head? = some 35 then .ok s
  else if line.head? = some 91 ∧ line.getLast? = some 93 then .ok (s.1, (line.drop 1).take (line.length - 2))
  else
    match cut 61 line with
    | none => .ok s
    | some (key, value) => (setting s.1 s.2 (trim key) (trim value)).map fun cfg => (cfg, s.2)

-- none where the file cannot be opened.
def loadConfig (file : Option Bytes) : Except StdError AgentConfig :=
  match file with
  | none => .ok .default
  | some data => ((pieces 10 data).foldlM readLine (AgentConfig.default, [])).map Prod.fst

end Load

section Keys

inductive TextField where
  | forwarderHost
  | ecdsaPrivFile
  | ecdsaPubFile
  | agentId
  | repoPath
  | specialMdBaseRef
  | jenkinsUrl
  | jenkinsUser
  | jenkinsToken
  deriving DecidableEq

inductive IntField where
  | forwarderPort
  | maxConcurrent
  | specialMdIntervalSec
  | pollIntervalSec
  | buildTimeoutSec
  deriving DecidableEq

inductive Field where
  | text (f : TextField)
  | int (f : IntField)
  | projects
  | job (key : Bytes)
  deriving DecidableEq

def TextField.name : TextField → Bytes × Bytes
  | .forwarderHost => (text "forwarder", text "host")
  | .ecdsaPrivFile => (text "crypto", text "ecdsa_private_key_file")
  | .ecdsaPubFile => (text "crypto", text "ecdsa_public_key_file")
  | .agentId => (text "agent", text "agent_id")
  | .repoPath => (text "agent", text "repo_path")
  | .specialMdBaseRef => (text "agent", text "special_md_base_ref")
  | .jenkinsUrl => (text "jenkins", text "url")
  | .jenkinsUser => (text "jenkins", text "user")
  | .jenkinsToken => (text "jenkins", text "token")

def IntField.name : IntField → Bytes × Bytes
  | .forwarderPort => (text "forwarder", text "port")
  | .maxConcurrent => (text "agent", text "max_concurrent_builds")
  | .specialMdIntervalSec => (text "agent", text "special_md_interval_sec")
  | .pollIntervalSec => (text "jenkins", text "poll_interval")
  | .buildTimeoutSec => (text "jenkins", text "build_timeout")

def Field.name : Field → Bytes × Bytes
  | .text f => f.name
  | .int f => f.name
  | .projects => (TriggerBuild.text "agent", TriggerBuild.text "projects")
  | .job key => (TriggerBuild.text "projects", key)

namespace AgentConfig

def getText (cfg : AgentConfig) : TextField → Bytes
  | .forwarderHost => cfg.forwarderHost
  | .ecdsaPrivFile => cfg.ecdsaPrivFile
  | .ecdsaPubFile => cfg.ecdsaPubFile
  | .agentId => cfg.agentId
  | .repoPath => cfg.repoPath
  | .specialMdBaseRef => cfg.specialMdBaseRef
  | .jenkinsUrl => cfg.jenkinsUrl
  | .jenkinsUser => cfg.jenkinsUser
  | .jenkinsToken => cfg.jenkinsToken

def getInt (cfg : AgentConfig) : IntField → Int
  | .forwarderPort => cfg.forwarderPort
  | .maxConcurrent => cfg.maxConcurrent
  | .specialMdIntervalSec => cfg.specialMdIntervalSec
  | .pollIntervalSec => cfg.pollIntervalSec
  | .buildTimeoutSec => cfg.buildTimeoutSec

def setText (cfg : AgentConfig) (value : Bytes) : TextField → AgentConfig
  | .forwarderHost => { cfg with forwarderHost := value }
  | .ecdsaPrivFile => { cfg with ecdsaPrivFile := value }
  | .ecdsaPubFile => { cfg with ecdsaPubFile := value }
  | .agentId => { cfg with agentId := value }
  | .repoPath => { cfg with repoPath := value }
  | .specialMdBaseRef => { cfg with specialMdBaseRef := value }
  | .jenkinsUrl => { cfg with jenkinsUrl := value }
  | .jenkinsUser => { cfg with jenkinsUser := value }
  | .jenkinsToken => { cfg with jenkinsToken := value }

def setInt (cfg : AgentConfig) (f : IntField) (n : Int) : AgentConfig :=
  match f with
  | .forwarderPort => { cfg with forwarderPort := toUint16 n }
  | .maxConcurrent => { cfg with maxConcurrent := n }
  | .specialMdIntervalSec => { cfg with specialMdIntervalSec := n }
  | .pollIntervalSec => { cfg with pollIntervalSec := n }
  | .buildTimeoutSec => { cfg with buildTimeoutSec := n }

def store (cfg : AgentConfig) (f : Field) (value : Bytes) : Except StdError AgentConfig :=
  match f with
  | .text f => .ok (cfg.setText value f)
  | .int f => (stoi value).map (cfg.setInt f)
  | .projects => .ok { cfg with projects := cfg.projects ++ (pieces 44 value).map trim }
  | .job key => .ok { cfg with jobMapping := cfg.jobMapping.insert key value }

end AgentConfig

def IntField.narrow (f : IntField) (n : Int) : Int := if f = .forwarderPort then toUint16 n else n

theorem setting_field (cfg : AgentConfig) (f : Field) (value : Bytes) :
    setting cfg f.name.1 f.name.2 value = cfg.store f value := by
  cases f with
  | text f => cases f <;> rfl
  | int f => cases f <;> rfl
  | projects => rfl
  | job key => rfl

theorem setting_unknown {sec key : Bytes} (h : ∀ f : Field, f.name ≠ (sec, key)) (cfg : AgentConfig) (value : Bytes) :
    setting cfg sec key value = .ok cfg := by
  have hname : ∀ f : Field, sec = f.name.1 → key = f.name.2 → False := fun f hs hk =>
    h f (Prod.ext hs.symm hk.symm)
  refine ite_eq_iff'.mpr ⟨fun hs => ?_, fun _ => ?_⟩
  · refine ite_eq_iff'.mpr ⟨fun hk => (hname (.text .forwarderHost) hs hk).elim, fun _ => ?_⟩
    exact ite_eq_iff'.mpr ⟨fun hk => (hname (.int .forwarderPort) hs hk).elim, fun _ => rfl⟩
  refine ite_eq_iff'.mpr ⟨fun hs => ?_, fun _ => ?_⟩
  · refine ite_eq_iff'.mpr ⟨fun hk => (hname (.text .ecdsaPrivFile) hs hk).elim, fun _ => ?_⟩
    exact ite_eq_iff'.mpr ⟨fun hk => (hname (.text .ecdsaPubFile) hs hk).elim, fun _ => rfl⟩
  refine ite_eq_iff'.mpr ⟨fun hs => ?_, fun _ => ?_⟩
  · refine ite_eq_iff'.mpr ⟨fun hk => (hname (.text .agentId) hs hk).elim, fun _ => ?_⟩
    refine ite_eq_iff'.mpr ⟨fun hk => (hname .projects hs hk).elim, fun _ => ?_⟩
    refine ite_eq_iff'.mpr ⟨fun hk => (hname (.int .maxConcurrent) hs hk).elim, fun _ => ?_⟩
    refine ite_eq_iff'.mpr ⟨fun hk => (hname (.text .repoPath) hs hk).elim, fun _ => ?_⟩
    refine ite_eq_iff'.mpr ⟨fun hk => (hname (.int .specialMdIntervalSec) hs hk).elim, fun _ => ?_⟩
    exact ite_eq_iff'.mpr ⟨fun hk => (hname (.text .specialMdBaseRef) hs hk).elim, fun _ => rfl⟩
  refine ite_eq_iff'.mpr ⟨fun hs => ?_, fun _ => ?_⟩
  · refine ite_eq_iff'.mpr ⟨fun hk => (hname (.text .jenkinsUrl) hs hk).elim, fun _ => ?_⟩
    refine ite_eq_iff'.mpr ⟨fun hk => (hname (.text .jenkinsUser) hs hk).elim, fun _ => ?_⟩
    refine ite_eq_iff'.mpr ⟨fun hk => (hname (.text .jenkinsToken) hs hk).elim, fun _ => ?_⟩
    refine ite_eq_iff'.mpr ⟨fun hk => (hname (.int .pollIntervalSec) hs hk).elim, fun _ => ?_⟩
    exact ite_eq_iff'.mpr ⟨fun hk => (hname (.int .buildTimeoutSec) hs hk).elim, fun _ => rfl⟩
  exact ite_eq_iff'.mpr ⟨fun hs => (hname (.job key) hs rfl).elim, fun _ => rfl⟩

end Keys

section Stores

def Same (f : Field) (c d : AgentConfig) : Prop :=
  match f with
  | .text f => d.getText f = c.getText f
  | .int f => d.getInt f = c.getInt f
  | .projects => d.projects = c.projects
  | .job key => d.jobMapping.lookup key = c.jobMapping.lookup key

def Stored (c : AgentConfig) (f : Field) (value : Bytes) : Prop :=
  match f with
  | .text f => c.getText f = value
  | .int f => ∃ n, stoi value = .ok n ∧ c.getInt f = f.narrow n
  | .projects => c.projects = (pieces 44 value).map trim
  | .job key => c.jobMapping.lookup key = some value

variable {c d e : AgentConfig}

theorem Same.refl (f : Field) (c : AgentConfig) : Same f c c := by
  cases f <;> rfl

theorem Same.trans {f : Field} (h : Same f c d) (h' : Same f d e) : Same f c e := by
  cases f <;> exact Eq.trans h' h

theorem Stored.same {f : Field} {value : Bytes} (h : Stored c f value) (hs : Same f c d) : Stored d f value := by
  cases f with
  | text f => exact Eq.trans hs h
  | int f =>
      obtain ⟨n, hn, hget⟩ := h
      exact ⟨n, hn, Eq.trans hs hget⟩
  | projects => exact Eq.trans hs h
  | job key => exact Eq.trans hs h

theorem getText_setText (value : Bytes) (f g : TextField) :
    (c.setText value f).getText g = if g = f then value else c.getText g := by
  cases f <;> cases g <;> rfl

theorem getInt_setInt (n : Int) (f g : IntField) : (c.setInt f n).getInt g = if g = f then f.narrow n else c.getInt g := by
  cases f <;> cases g <;> rfl

theorem store_int {f : IntField} {value : Bytes} (h : c.store (.int f) value = .ok d) :
    ∃ n, stoi value = .ok n ∧ d = c.setInt f n := by
  rw [AgentConfig.store] at h
  cases hn : stoi value with
  | error err =>
      rw [hn] at h
      cases h
  | ok n =>
      rw [hn] at h
      exact ⟨n, rfl, (Except.ok.inj h).symm⟩

theorem stored_of_store {f : Field} {value : Bytes} (h : c.store f value = .ok d) (hprojects : f = .projects → c.projects = []) :
    Stored d f value := by
  cases f with
  | text f =>
      cases h
      exact (getText_setText value f f).trans (if_pos rfl)
  | int f =>
      obtain ⟨n, hn, rfl⟩ := store_int h
      exact ⟨n, hn, (getInt_setInt n f f).trans (if_pos rfl)⟩
  | projects =>
      cases h
      rw [Stored, hprojects rfl]
      rfl
  | job key =>
      cases h
      exact AList.lookup_insert _

theorem same_of_store {f g : Field} {value : Bytes} (h : c.store f value = .ok d) (hne : g ≠ f) : Same g c d := by
  cases f with
  | text f =>
      cases h
      cases g with
      | text g => exact (getText_setText value f g).trans (if_neg fun heq => hne (congrArg Field.text heq))
      | int g => cases f <;> rfl
      | projects => cases f <;> rfl
      | job key => cases f <;> rfl
  | int f =>
      obtain ⟨n, -, rfl⟩ := store_int h
      cases g with
      | text g => cases f <;> rfl
      | int g => exact (getInt_setInt n f g).trans (if_neg fun heq => hne (congrArg Field.int heq))
      | projects => cases f <;> rfl
      | job key => cases f <;> rfl
  | projects =>
      cases h
      cases g with
      | text g => cases g <;> rfl
      | int g => cases g <;> rfl
      | projects => exact absurd rfl hne
      | job key => rfl
  | job key =>
      cases h
      cases g with
      | text g => cases g <;> rfl
      | int g => cases g <;> rfl
      | projects => rfl
      | job other => exact AList.lookup_insert_ne fun heq => hne (congrArg Field.job heq)

theorem store_error {f : Field} {value : Bytes} {err : StdError} (h : c.store f value = .error err) :
    ∃ g, f = .int g ∧ stoi value = .error err := by
  cases f with
  | text f => cases h
  | int f =>
      refine ⟨f, rfl, ?_⟩
      rw [AgentConfig.store] at h
      cases hn : stoi value with
      | error e =>
          rw [hn] at h
          cases h
          rfl
      | ok n =>
          rw [hn] at h
          cases h
  | projects => cases h
  | job key => cases h

end Stores

end Agent.LoadConfig
