import JdRelay.Agent.BuildPoll

namespace Agent.TriggerReport
open Text Json AgentMain Jenkins BuildPoll

structure Handled where
  builds : Builds
  spawned : Option BuildContext
  sent : Option TriggerFailure

variable (c : Client) (cfg : PollConfig)

def handleTrigger (curl client : Bool) (plaintext : Bytes) (response : Response) (builds : Builds) : Handled :=
  match onBuildTrigger c cfg curl client plaintext response with
  | .started ctx => ⟨builds.insert ctx.buildNumber ctx, some ctx, none⟩
  | .failed r => ⟨builds, none, some r⟩
  | _ => ⟨builds, none, none⟩

def Tracked (h : Handled) : Prop := ∃ ctx, h.spawned = some ctx ∧ h.builds.lookup ctx.buildNumber = some ctx

def Reported (plaintext : Bytes) (h : Handled) : Prop :=
  ∃ r request, h.sent = some r ∧ readTrigger c plaintext = .ok request ∧ r.issue = request.issue

def Kept (plaintext : Bytes) (h : Handled) : Prop := Tracked h ∨ Reported c plaintext h

structure Reportable (curl client : Bool) (plaintext : Bytes) (response : Response) : Prop where
  configured : cfg.jenkinsUrl ≠ []
  initialized : curl = true
  connected : client = true
  turnedDown : (triggerBuild response).ok = false
  readable : ∃ request, readTrigger c plaintext = .ok request ∧
    ∃ text, (triggerFailure cfg request (triggerBuild response)).dump = .ok text

section Specs

variable {c cfg} {curl client : Bool} {plaintext : Bytes} {response : Response} {builds : Builds}

theorem no_build_number (response : Response) : (triggerBuild response).buildNumber = 0 := rfl

theorem onBuildTrigger_not_started (ctx : BuildContext) :
    onBuildTrigger c cfg curl client plaintext response ≠ .started ctx := by
  intro h
  unfold onBuildTrigger at h
  split at h
  · cases h
  split at h
  · cases h
  split at h
  · cases h
  dsimp only at h
  split at h
  · split at h
    · cases h
    split at h <;> cases h
  · rw [if_pos (no_build_number response)] at h
    cases h

theorem onBuildTrigger_failed {r : TriggerFailure} :
    onBuildTrigger c cfg curl client plaintext response = .failed r ↔
      Reportable c cfg curl client plaintext response ∧
        ∃ request, readTrigger c plaintext = .ok request ∧ r = triggerFailure cfg request (triggerBuild response) := by
  unfold onBuildTrigger
  by_cases hurl : cfg.jenkinsUrl = []
  · rw [if_pos hurl]
    exact iff_of_false nofun (fun h => h.1.configured hurl)
  rw [if_neg hurl]
  cases curl with
  | false => exact iff_of_false nofun (fun h => Bool.false_ne_true h.1.initialized)
  | true =>
      cases hread : readTrigger c plaintext with
      | error e =>
          refine iff_of_false nofun ?_
          rintro ⟨-, request, hrequest, -⟩
          cases hrequest
      | ok request =>
          cases hok : (triggerBuild response).ok with
          | true =>
              refine iff_of_false (fun h => ?_) (fun h => Bool.false_ne_true (h.1.turnedDown.symm.trans hok))
              simp [hok, no_build_number] at h
          | false =>
              cases client with
              | false =>
                  refine iff_of_false (fun h => ?_) (fun h => Bool.false_ne_true h.1.connected)
                  simp [hok] at h
              | true =>
                  simp only [Bool.not_true, Bool.false_eq_true, if_false, hok, Bool.not_false, if_true]
                  cases hdump : (triggerFailure cfg request (triggerBuild response)).dump with
                  | error e =>
                      refine iff_of_false nofun ?_
                      rintro ⟨⟨-, -, -, -, request', hrequest, text, htext⟩, -⟩
                      cases hread.symm.trans hrequest
                      cases hdump.symm.trans htext
                  | ok text =>
                      constructor
                      · intro h
                        cases h
                        exact ⟨⟨hurl, rfl, rfl, hok, request, hread, text, hdump⟩, request, rfl, rfl⟩
                      · rintro ⟨-, request', hrequest, rfl⟩
                        cases hrequest
                        rfl

theorem kept_iff :
    Kept c plaintext (handleTrigger c cfg curl client plaintext response builds) ↔
      Reportable c cfg curl client plaintext response := by
  unfold handleTrigger
  cases hend : onBuildTrigger c cfg curl client plaintext response with
  | started ctx => exact absurd hend (onBuildTrigger_not_started ctx)
  | failed r =>
      obtain ⟨hreportable, request, hread, rfl⟩ := onBuildTrigger_failed.mp hend
      exact iff_of_true (.inr ⟨_, request, rfl, hread, rfl⟩) hreportable
  | _ =>
      refine iff_of_false ?_ fun h => ?_
      · rintro (⟨ctx, hspawned, -⟩ | ⟨r, request, hsent, -⟩)
        · cases hspawned
        · cases hsent
      · obtain ⟨request, hread, -⟩ := h.readable
        cases hend.symm.trans (onBuildTrigger_failed.mpr ⟨h, request, hread, rfl⟩)

theorem accepted_trigger_dropped (hok : (triggerBuild response).ok = true) :
    ¬ Kept c plaintext (handleTrigger c cfg curl client plaintext response builds) := by
  rw [kept_iff]
  intro h
  exact Bool.false_ne_true (h.turnedDown.symm.trans hok)

end Specs

def sampleClient : Client where
  nl :=
    { parse := fun text => loads (text.map fun b => codePoint b.toNat)
      ofDouble := fun _ => 0
      boolAsLongLong := true }
  intOfDouble := fun _ => 0

def sampleConfig : PollConfig where
  agentId := [97]
  jenkinsUrl := str "http://jenkins"
  jobMapping := []
  buildTimeoutSec := 60
  repoPath := []

def plainTrigger : Bytes := (encodeUtf8 (str "\x7b\"issue\":\"I-1\",\"project\":\"app\"\x7d")).getD []

-- Jenkins answers 201 and names the queue item in the Location header.
def created : Response := .answered 201 []

theorem queued_forgotten : (readTrigger sampleClient plainTrigger).toOption.isSome = true ∧
    (triggerBuild created).ok = true ∧
      (handleTrigger sampleClient sampleConfig true true plainTrigger created ∅).spawned = none ∧
        (handleTrigger sampleClient sampleConfig true true plainTrigger created ∅).sent.isNone = true := by
  decide +kernel

theorem accepted_trigger_dropped_created :
    ¬ Kept sampleClient plainTrigger (handleTrigger sampleClient sampleConfig true true plainTrigger created ∅) :=
  accepted_trigger_dropped (by decide)

end Agent.TriggerReport
