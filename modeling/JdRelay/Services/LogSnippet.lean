import JdRelay.Base.Utf8
import JdRelay.Services.BuildReport

namespace Services.LogSnippet
open Text Json Agent Agent.AgentMain Agent.Jenkins Agent.BuildPoll BuildReport

inductive Sender where
  | poll (run : PollRun)
  | verdict (curl client : Bool) (wait : BuildContext) (result : Str) (status : Response)

variable (c : Client) (cfg : PollConfig)

def handed (log : Response) : Sender → Option (Option Bytes)
  | .poll run =>
      match buildPollThread c cfg { run with log := log } with
      | .reported r => some r.logSnippet
      | _ => none
  | .verdict curl client wait result status =>
      match releaseBuild cfg.toAgentConfig client (fetched c curl wait status log) wait result with
      | .attempted r => some r.logSnippet
      | _ => none

def Reaches : Sender → Prop
  | .poll run => cfg.jenkinsUrl ≠ [] ∧ run.curl = true ∧
      (pollLoop c run.ctx.buildNumber (deadline cfg run) run.rounds).isSome = true ∧
      (decide (cfg.repoPath ≠ []) && detectSpecialMdChange run.diff) = false ∧ run.client = true
  | .verdict curl client _ _ _ => cfg.jenkinsUrl ≠ [] ∧ curl = true ∧ client = true

def Unbroken (log : Response) (sender : Sender) : Prop :=
  ∃ snippet, handed c cfg log sender = some snippet ∧ ∀ s ∈ snippet, Utf8 s

-- Neither the cut in front of the last 8192 bytes nor the one 2000 bytes on splits a character.
def WholeCuts (log : Bytes) : Prop :=
  Boundary log (log.length - 8192) ∧ Boundary log (log.length - 8192 + 2000)

def snippetOf (log : Bytes) : Option Bytes :=
  if log = [] then none else some ((log.drop (log.length - 8192)).take 2000)

section Specs

variable {c cfg} {log : Bytes} {code : Nat}

theorem getBuildLog_answered (limit : Nat) (log : Bytes) (hcode : code < 400) (hlimit : 0 < limit) :
    (getBuildLog limit (.answered code log)).ok = true ∧
      (getBuildLog limit (.answered code log)).logText = log.drop (log.length - limit) := by
  have hget : httpGet (.answered code log) = (log, []) := by rw [httpGet, perform, if_neg (Nat.not_le.mpr hcode)]
  simp only [getBuildLog, hget, ne_eq, not_true_eq_false, if_false]
  split
  · exact ⟨rfl, rfl⟩
  · have hzero : log.length - limit = 0 := by omega
    simp only [hzero, List.drop_zero, and_self]

theorem drop_eq_nil (log : Bytes) : log.drop (log.length - 8192) = [] ↔ log = [] := by
  have hzero : log.length ≤ log.length - 8192 ↔ log.length = 0 := by omega
  rw [List.drop_eq_nil_iff, hzero, List.length_eq_zero_iff]

theorem snippet_eq {ok : Bool} {text : Bytes} (hok : ok = true) (htext : text = log.drop (log.length - 8192)) :
    (if ok && decide (text ≠ []) then some (text.take 2000) else none) = snippetOf log := by
  rw [hok, htext, snippetOf]
  by_cases hnil : log = []
  · simp [hnil]
  · have hdrop : log.drop (log.length - 8192) ≠ [] := (drop_eq_nil log).not.mpr hnil
    simp only [hdrop, hnil, ne_eq, not_false_eq_true, decide_true, Bool.and_self, if_true, if_false]

theorem snippetOf_utf8_iff (h : Utf8 log) : (∀ s ∈ snippetOf log, Utf8 s) ↔ WholeCuts log := by
  unfold snippetOf WholeCuts
  split
  · rename_i hnil
    subst hnil
    exact iff_of_true (fun s hs => by cases hs) ⟨boundary_of_length_le (by decide), boundary_of_length_le (by decide)⟩
  · rename_i hne
    have hpos : 0 < log.length := List.length_pos_iff.mpr hne
    simp only [Option.mem_some_iff, forall_eq']
    exact utf8_slice_iff h (by omega) (by decide)

theorem dumpString_ok_iff {s : Bytes} : (∃ v, dumpString s = .ok v) ↔ Utf8 s := by
  unfold dumpString Utf8
  cases decodeUtf8 s <;> simp

theorem bind_ok_iff {A B : Type} {x : Except Exn A} {f : A → Except Exn B} {P : Prop}
    (hf : ∀ a, (∃ b, f a = .ok b) ↔ P) : (∃ b, (x >>= f) = .ok b) ↔ (∃ a, x = .ok a) ∧ P := by
  cases x with
  | error e => exact iff_of_false (fun ⟨_, h⟩ => by cases h) (fun ⟨⟨_, h⟩, _⟩ => by cases h)
  | ok a => exact (hf a).trans (and_iff_right ⟨a, rfl⟩).symm

theorem map_ok_iff {A B : Type} {x : Except Exn A} {f : A → B} : (∃ b, x.map f = .ok b) ↔ ∃ a, x = .ok a := by
  cases x <;> simp [Except.map]

theorem snippetField_ok_iff {A : Type} {s : Bytes} {f : List (Str × Value) → Except Exn A}
    (hf : ∀ field, ∃ b, f field = .ok b) :
    (∃ b, ((dumpString s).map (fun v => [(str "log_snippet", v)]) >>= f) = .ok b) ↔ ∀ x ∈ some s, Utf8 x := by
  refine (bind_ok_iff fun field => iff_true_intro (hf field)).trans ?_
  rw [and_true, map_ok_iff, dumpString_ok_iff]
  simp only [Option.mem_some_iff, forall_eq']

theorem pollDump_ok_iff {r : PollResult} :
    (∃ text, r.dump = .ok text) ↔ Utf8 r.agentId ∧ ∀ s ∈ r.logSnippet, Utf8 s := by
  rw [← dumpString_ok_iff, PollResult.dump]
  refine bind_ok_iff fun agentId => ?_
  cases r.logSnippet with
  | none => exact iff_of_true ⟨_, rfl⟩ (by simp)
  | some s => exact snippetField_ok_iff fun field => ⟨_, rfl⟩

theorem buildDump_ok_iff {r : BuildResult} :
    (∃ text, r.dump = .ok text) ↔ Utf8 r.agentId ∧ ∀ s ∈ r.logSnippet, Utf8 s := by
  rw [← dumpString_ok_iff, BuildResult.dump]
  refine bind_ok_iff fun agentId => ?_
  cases r.logSnippet with
  | none => exact iff_of_true ⟨_, rfl⟩ (by simp)
  | some s => exact snippetField_ok_iff fun field => ⟨_, rfl⟩

theorem handed_of_dump {log : Response} {sender : Sender} {dumped : Except Exn Str} {agentId : Bytes}
    {snippet : Option Bytes} (hhanded : handed c cfg log sender = dumped.toOption.map fun _ => snippet)
    (hdumped : (∃ text, dumped = .ok text) ↔ Utf8 agentId ∧ ∀ s ∈ snippet, Utf8 s) :
    handed c cfg log sender = if Utf8 agentId ∧ ∀ s ∈ snippet, Utf8 s then some snippet else none := by
  rw [hhanded]
  cases dumped with
  | error e => rw [if_neg (hdumped.not.mp fun ⟨_, h⟩ => by cases h)]; rfl
  | ok text => rw [if_pos (hdumped.mp ⟨text, rfl⟩)]; rfl

theorem handed_poll {run : PollRun} {done : Option Jenkins.BuildStatusResult} (log : Response)
    (h : Reaches c cfg (.poll run))
    (hdone : pollLoop c run.ctx.buildNumber (deadline cfg run) run.rounds = some done) :
    handed c cfg log (.poll run) =
      (pollResult cfg run.ctx (finalStatus done) (getBuildLog 8192 log)).dump.toOption.map fun _ =>
        (pollResult cfg run.ctx (finalStatus done) (getBuildLog 8192 log)).logSnippet := by
  obtain ⟨hurl, hcurl, -, hspecial, hclient⟩ := h
  simp only [deadline] at hdone
  simp only [handed, buildPollThread, deadline, if_neg hurl, hcurl, hdone, hspecial, hclient, Bool.not_true,
    Bool.false_and, Bool.false_eq_true, if_false, if_true]
  cases (pollResult cfg run.ctx (finalStatus done) (getBuildLog 8192 log)).dump <;> rfl

theorem handed_verdict {curl client : Bool} {wait : BuildContext} {result : Str} {status : Response} (log : Response)
    (h : Reaches c cfg (.verdict curl client wait result status)) :
    handed c cfg log (.verdict curl client wait result status) =
      (buildResult cfg.toAgentConfig wait result (getBuildStatus c wait.buildNumber status).toBuildStatusResult
        (getBuildLog 8192 log).toBuildLogResult).dump.toOption.map fun _ =>
      (buildResult cfg.toAgentConfig wait result (getBuildStatus c wait.buildNumber status).toBuildStatusResult
        (getBuildLog 8192 log).toBuildLogResult).logSnippet := by
  obtain ⟨hurl, rfl, rfl⟩ := h
  simp only [handed, releaseBuild, fetched, if_neg hurl, Bool.not_true, Bool.false_eq_true, if_false, if_true]
  cases (buildResult cfg.toAgentConfig wait result (getBuildStatus c wait.buildNumber status).toBuildStatusResult
    (getBuildLog 8192 log).toBuildLogResult).dump <;> rfl

theorem handed_answered {sender : Sender} (hcode : code < 400) (hreach : Reaches c cfg sender) :
    handed c cfg (.answered code log) sender =
      if Utf8 cfg.agentId ∧ ∀ s ∈ snippetOf log, Utf8 s then some (snippetOf log) else none := by
  obtain ⟨hok, htext⟩ := getBuildLog_answered 8192 log hcode (by decide)
  rw [← snippet_eq hok htext]
  cases sender with
  | poll run =>
      obtain ⟨done, hdone⟩ := Option.isSome_iff_exists.mp hreach.2.2.1
      exact handed_of_dump (handed_poll _ hreach hdone) pollDump_ok_iff
  | verdict curl client wait result status => exact handed_of_dump (handed_verdict _ hreach) buildDump_ok_iff

theorem log_unbroken_iff {sender : Sender} (hcode : code < 400) (hlog : Utf8 log) (hreach : Reaches c cfg sender) :
    Unbroken c cfg (.answered code log) sender ↔ Utf8 cfg.agentId ∧ WholeCuts log := by
  rw [Unbroken, handed_answered hcode hreach, ← snippetOf_utf8_iff hlog]
  constructor
  · rintro ⟨snippet, hsnippet, -⟩
    split at hsnippet
    · assumption
    · cases hsnippet
  · intro h
    exact ⟨snippetOf log, if_pos h, h.2⟩

end Specs

-- With 1999 letters in front, the first byte of the accented one is the snippet's last.
def accented (n : Nat) : Bytes := (List.replicate n 'a' ++ ['é']).flatMap String.utf8EncodeChar

def splitLog : Bytes := accented 1999

def pollSender : Sender :=
  .poll
    { ctx := ⟨str "I-1", str "app", str "app-build", 7, false⟩
      curl := true
      started := 0
      rounds := [⟨true, 5000000000, .answered 200 (bodyOf "\x7b\"building\":false,\"result\":\"FAILURE\"\x7d")⟩]
      log := .failed []
      diff := none
      client := true }

def verdictSender : Sender :=
  .verdict true true ⟨str "I-1", str "app", str "app-build", 7, true⟩ (str "SECOND_APPROVED")
    (.answered 200 (bodyOf "\x7b\"building\":false,\"result\":\"FAILURE\"\x7d"))

theorem reaches_pollSender : Reaches sampleClient sampleConfig pollSender :=
  ⟨by decide, rfl, by decide +kernel, by decide, rfl⟩

theorem reaches_verdictSender : Reaches sampleClient sampleConfig verdictSender := ⟨by decide, rfl, rfl⟩

theorem accented_eq (n : Nat) : accented n = List.replicate n 97 ++ [0xC3, 0xA9] := by
  unfold accented
  induction n with
  | zero => decide
  | succ n ih =>
      rw [List.replicate_succ, List.replicate_succ, List.cons_append, List.flatMap_cons, ih]
      rfl

theorem length_accented (n : Nat) : (accented n).length = n + 2 := by
  rw [accented_eq, List.length_append, List.length_replicate]
  rfl

theorem not_boundary_accented (n : Nat) : ¬ Boundary (accented n) (n + 1) := by
  intro h
  have hbyte : (accented n)[n + 1]? = some 0xA9 := by
    rw [accented_eq, List.getElem?_append_right (by simp), List.length_replicate, Nat.add_sub_cancel_left]
    rfl
  exact absurd (h 0xA9 hbyte) (by decide)

theorem not_whole_splitLog : ¬ WholeCuts splitLog := by
  rintro ⟨-, h⟩
  have hlength : splitLog.length = 1999 + 2 := length_accented 1999
  have hstart : splitLog.length - 8192 = 0 := by omega
  rw [hstart] at h
  exact not_boundary_accented 1999 h

theorem split_log_breaks : Utf8 splitLog ∧
    (Reaches sampleClient sampleConfig pollSender ∧
      handed sampleClient sampleConfig (.answered 200 splitLog) pollSender = none ∧
      ¬ Unbroken sampleClient sampleConfig (.answered 200 splitLog) pollSender) ∧
    (Reaches sampleClient sampleConfig verdictSender ∧
      handed sampleClient sampleConfig (.answered 200 splitLog) verdictSender = none ∧
      ¬ Unbroken sampleClient sampleConfig (.answered 200 splitLog) verdictSender) := by
  have hutf8 : Utf8 splitLog := utf8_encode _
  have hnone : ∀ sender, Reaches sampleClient sampleConfig sender →
      handed sampleClient sampleConfig (.answered 200 splitLog) sender = none := by
    intro sender hreach
    rw [handed_answered (by decide) hreach, if_neg]
    rintro ⟨-, h⟩
    exact not_whole_splitLog ((snippetOf_utf8_iff hutf8).mp h)
  have hbroken : ∀ sender, Reaches sampleClient sampleConfig sender →
      ¬ Unbroken sampleClient sampleConfig (.answered 200 splitLog) sender := by
    rintro sender hreach ⟨snippet, hsnippet, -⟩
    rw [hnone sender hreach] at hsnippet
    cases hsnippet
  exact ⟨hutf8, ⟨reaches_pollSender, hnone _ reaches_pollSender, hbroken _ reaches_pollSender⟩,
    reaches_verdictSender, hnone _ reaches_verdictSender, hbroken _ reaches_verdictSender⟩

def accents (n : Nat) : Bytes := (List.replicate n 'é').flatMap String.utf8EncodeChar

theorem accents_succ (n : Nat) : accents (n + 1) = 0xC3 :: 0xA9 :: accents n := by
  unfold accents
  rw [List.replicate_succ, List.flatMap_cons]
  rfl

theorem length_accents (n : Nat) : (accents n).length = 2 * n := by
  induction n with
  | zero => rfl
  | succ n ih =>
      rw [accents_succ, List.length_cons, List.length_cons, ih]
      omega

theorem boundary_accents (n i : Nat) : Boundary (accents n) (2 * i) := by
  induction i generalizing n with
  | zero =>
      cases n with
      | zero => exact boundary_of_length_le (by decide)
      | succ n =>
          rw [accents_succ]
          rintro b ⟨⟩
          decide
  | succ i ih =>
      cases n with
      | zero => exact boundary_of_length_le (Nat.zero_le _)
      | succ n =>
          rw [accents_succ]
          exact ih n

theorem whole_accents (n : Nat) : WholeCuts (accents n) := by
  have hstart : (accents n).length - 8192 = 2 * (n - 4096) := by rw [length_accents]; omega
  have hend : (accents n).length - 8192 + 2000 = 2 * (n - 4096 + 1000) := by omega
  rw [WholeCuts, hend, hstart]
  exact ⟨boundary_accents n _, boundary_accents n _⟩

theorem log_unbroken_iff_accents :
    Unbroken sampleClient sampleConfig (.answered 200 (accents 6000)) pollSender ∧
      Unbroken sampleClient sampleConfig (.answered 200 (accents 6000)) verdictSender := by
  have hutf8 : Utf8 (accents 6000) := utf8_encode _
  have hcondition : Utf8 sampleConfig.agentId ∧ WholeCuts (accents 6000) := ⟨by decide, whole_accents 6000⟩
  exact ⟨(log_unbroken_iff (by decide) hutf8 reaches_pollSender).mpr hcondition,
    (log_unbroken_iff (by decide) hutf8 reaches_verdictSender).mpr hcondition⟩

end Services.LogSnippet
