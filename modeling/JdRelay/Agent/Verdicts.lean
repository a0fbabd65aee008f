import JdRelay.Agent.Review

namespace Agent.Verdicts
open Text Json Runs AgentMain
open Review (issueOf numberOf)

structure Released (B : Type) where
  build : B
  verdict : Str
  wait : BuildContext
  outcome : Outcome
  deriving DecidableEq

structure State (B : Type) where
  agent : AgentMain.State B
  answered : B → Bool
  handling : Option (B × Str)
  released : List (Released B)

-- An unordered_map may be walked in another order after every change.
inductive Event (B : Type) where
  | agent (e : AgentMain.Event B)
  | rehash (builds : Builds)
  | answer (b : B) (plaintext : Bytes)

variable {B : Type} (g : Setting B)

def waitingEntry (b : B) : BuildContext := { g.context b with waitingReview := true }

structure IsResultOf (b : B) (verdict : Str) (r : BuildResult) : Prop where
  issue : r.issue = issueOf g b
  project : r.project = (g.context b).project
  buildNumber : r.buildNumber = numberOf g b
  secondReview : r.secondReview = verdict

def ReleasesOwn (s : State B) : Prop :=
  ∀ x ∈ s.released, ∀ r, x.outcome = .attempted r → x.wait = waitingEntry g x.build ∧ IsResultOf g x.build x.verdict r

def Waits (issue : Str) (ctx : BuildContext) : Prop := ctx.waitingReview = true ∧ ctx.issue = issue

instance (issue : Str) (ctx : BuildContext) : Decidable (Waits issue ctx) := inferInstanceAs (Decidable (_ ∧ _))

def First (builds : Builds) (issue : Str) (n : Int) (ctx : BuildContext) : Prop :=
  ∃ before after, builds.entries = before ++ ⟨n, ctx⟩ :: after ∧ Waits issue ctx ∧ ∀ e ∈ before, ¬ Waits issue e.2

def FirstIsOwn (s : State B) : Event B → Prop
  | .answer b _ => ∀ n ctx, First s.agent.builds (issueOf g b) n ctx → { ctx with buildNumber := n } = waitingEntry g b
  | _ => True

def record (s : State B) (after : Callback B) : List (Released B) :=
  match s.handling, s.agent.callback, after with
  | some (build, verdict), .releasing _ wait _, .returned _ _ outcome =>
      s.released ++ [{ build, verdict, wait, outcome }]
  | _, _, _ => s.released

section First

variable {builds : Builds} {issue : Str}

theorem first_iff {n : Int} {ctx : BuildContext} :
    First builds issue n ctx ↔ builds.entries.find? (fun e => decide (Waits issue e.2)) = some ⟨n, ctx⟩ := by
  rw [List.find?_eq_some_iff_append]
  simp only [decide_eq_true_eq, Bool.not_eq_true', decide_eq_false_iff_not]
  constructor
  · rintro ⟨before, after, hentries, hwaits, hbefore⟩
    exact ⟨hwaits, before, after, hentries, hbefore⟩
  · rintro ⟨hwaits, before, after, hentries, hbefore⟩
    exact ⟨before, after, hentries, hwaits, hbefore⟩

theorem findWaiting_eq_some {wait : BuildContext} :
    findWaiting builds issue = some wait ↔ ∃ n ctx, First builds issue n ctx ∧ wait = { ctx with buildNumber := n } := by
  have hwaits : (fun e : Sigma fun _ : Int => BuildContext => e.2.waitingReview && decide (e.2.issue = issue)) =
      fun e => decide (Waits issue e.2) := funext fun e => by
    rw [Bool.eq_iff_iff, decide_eq_true_iff, Bool.and_eq_true, decide_eq_true_iff]
    rfl
  rw [findWaiting, hwaits, Option.map_eq_some_iff]
  constructor
  · rintro ⟨⟨n, ctx⟩, hfind, rfl⟩
    exact ⟨n, ctx, first_iff.mpr hfind, rfl⟩
  · rintro ⟨n, ctx, hfirst, rfl⟩
    exact ⟨⟨n, ctx⟩, first_iff.mp hfirst, rfl⟩

instance (s : State B) : ∀ e, Decidable (FirstIsOwn g s e)
  | .answer b _ =>
      decidable_of_iff
        (∀ e, s.agent.builds.entries.find? (fun e => decide (Waits (issueOf g b) e.2)) = some e →
          { e.2 with buildNumber := e.1 } = waitingEntry g b)
        ⟨fun h n ctx hfirst => h ⟨n, ctx⟩ (first_iff.mp hfirst), fun h e he => h e.1 e.2 (first_iff.mpr he)⟩
  | .agent _ => .isTrue trivial
  | .rehash _ => .isTrue trivial

end First

structure Inv (s : State B) : Prop where
  taken : ∀ asked wait result, s.agent.callback = .releasing asked wait result →
    ∃ b, s.handling = some (b, result) ∧ wait = waitingEntry g b
  released : ReleasesOwn g s

theorem inv_frame {g : Setting B} {s : State B} (hs : Inv g s) {u : AgentMain.State B}
    (hcallback : u.callback = s.agent.callback) : Inv g { s with agent := u } where
  taken asked wait result h := hs.taken asked wait result (hcallback ▸ h)
  released := hs.released

variable [DecidableEq B]

-- Each request that was sent gets one answer, which carries its issue.
def step (s : State B) : Event B → Option (State B)
  | .agent (.verdict _) => none
  | .agent (.release fetched) =>
      (AgentMain.step g s.agent (.release fetched)).map fun agent =>
        { s with agent, handling := none, released := record s agent.callback }
  | .agent e => (AgentMain.step g s.agent e).map fun agent => { s with agent }
  | .rehash builds =>
      if builds.entries.Perm s.agent.builds.entries then some { s with agent := { s.agent with builds } } else none
  | .answer b plaintext =>
      match readVerdict g.nl plaintext with
      | .error _ => none
      | .ok (issue, verdict) =>
          if s.agent.asked b = true ∧ s.answered b = false ∧ issue = issueOf g b then
            (AgentMain.step g s.agent (.verdict plaintext)).map fun agent =>
              { s with agent, answered := Function.update s.answered b true, handling := some (b, verdict) }
          else none

def machine : Machine (State B) (Event B) where
  init := { agent := (AgentMain.machine g).init, answered := fun _ => false, handling := none, released := [] }
  step := step g

variable {g} {s t : State B} {e : Event B}

theorem callback_agent {a : AgentMain.Event B} {u : AgentMain.State B} (h : AgentMain.step g s.agent a = some u)
    (hverdict : ∀ plaintext, a ≠ .verdict plaintext) (hrelease : ∀ fetched, a ≠ .release fetched) :
    u.callback = s.agent.callback := (Review.frame_step h hverdict hrelease).1

theorem inv_release (hs : Inv g s) {fetched : Fetched} {u : AgentMain.State B}
    (h : AgentMain.step g s.agent (.release fetched) = some u) :
    Inv g { s with agent := u, handling := none, released := record s u.callback } := by
  cases moves_of_step h with
  | @released _ asked wait result hcallback =>
      obtain ⟨b, hhandling, rfl⟩ := hs.taken asked wait result hcallback
      refine ⟨fun _ _ _ h => (by cases h), fun x hx r hr => ?_⟩
      simp only [record, hhandling, hcallback] at hx
      rcases List.mem_append.mp hx with hx | hx
      · exact hs.released x hx r hr
      · obtain rfl := List.mem_singleton.mp hx
        obtain ⟨st, log, rfl⟩ := Review.attempted_eq hr
        exact ⟨rfl, rfl, rfl, rfl, rfl⟩

theorem takes_own_iff {b : B} {plaintext : Bytes} {issue verdict : Str}
    (hread : readVerdict g.nl plaintext = .ok (issue, verdict)) (hissue : issue = issueOf g b) {u : AgentMain.State B}
    (h : AgentMain.step g s.agent (.verdict plaintext) = some u) :
    (∀ asked wait result, u.callback = .releasing asked wait result → wait = waitingEntry g b ∧ result = verdict) ↔
      FirstIsOwn g s (.answer b plaintext) := by
  subst hissue
  cases moves_of_step h with
  | unread _ hread' => cases hread.symm.trans hread'
  | unfound _ hread' hfind =>
      cases hread.symm.trans hread'
      refine iff_of_true nofun fun n ctx hfirst => ?_
      cases hfind.symm.trans (findWaiting_eq_some.mpr ⟨n, ctx, hfirst, rfl⟩)
  | @taken _ _ _ wait _ hread' hfind =>
      cases hread.symm.trans hread'
      constructor
      · intro hown n ctx hfirst
        cases hfind.symm.trans (findWaiting_eq_some.mpr ⟨n, ctx, hfirst, rfl⟩)
        exact (hown _ _ _ rfl).1
      · rintro hown asked wait' result hcallback
        cases hcallback
        obtain ⟨n, ctx, hfirst, rfl⟩ := findWaiting_eq_some.mp hfind
        exact ⟨hown n ctx hfirst, rfl⟩

theorem inv_answer (hs : Inv g s) {b : B} {plaintext : Bytes} (hown : FirstIsOwn g s (.answer b plaintext))
    {issue verdict : Str} (hread : readVerdict g.nl plaintext = .ok (issue, verdict)) (hissue : issue = issueOf g b)
    {u : AgentMain.State B} (h : AgentMain.step g s.agent (.verdict plaintext) = some u) :
    Inv g { s with agent := u, answered := Function.update s.answered b true, handling := some (b, verdict) } := by
  refine ⟨fun asked wait result hcallback => ?_, hs.released⟩
  obtain ⟨hwait, rfl⟩ := (takes_own_iff hread hissue h).mpr hown asked wait result hcallback
  exact ⟨b, rfl, hwait⟩

theorem inv_step (hs : Inv g s) (hown : FirstIsOwn g s e) (h : step g s e = some t) : Inv g t := by
  cases e with
  | agent a =>
      cases a with
      | verdict plaintext => cases h
      | release fetched =>
          obtain ⟨u, hu, rfl⟩ := Option.map_eq_some_iff.mp h
          exact inv_release hs hu
      | shutdown =>
          cases h
          exact inv_frame hs rfl
      | trigger b | request b sent | mark b | finish b =>
          obtain ⟨u, hu, rfl⟩ := Option.map_eq_some_iff.mp h
          exact inv_frame hs (callback_agent hu nofun nofun)
  | rehash builds =>
      simp only [step] at h
      split at h
      · cases h
        exact inv_frame hs rfl
      · cases h
  | answer b plaintext =>
      simp only [step] at h
      split at h
      · cases h
      · rename_i issue verdict hread
        split at h
        · rename_i hasked
          obtain ⟨u, hu, rfl⟩ := Option.map_eq_some_iff.mp h
          exact inv_answer hs hown hread hasked.2.2 hu
        · cases h

theorem verdicts_release_own {es : List (Event B)}
    (hguarded : (machine g).Guarded (FirstIsOwn g) (machine g).init es) :
    (machine g).Always (ReleasesOwn g) (machine g).init es :=
  (machine g).always_of_guarded inv_step Inv.released
    ⟨fun _ _ _ h => (by cases h), fun _ hx => absurd hx List.not_mem_nil⟩ hguarded

section Sample

def retriedSetting : Setting Bool where
  nl := Review.sampleSetting.nl
  cfg := Review.sampleSetting.cfg
  context b :=
    { issue := str "I-1"
      project := str "app"
      jobName := str "app-build"
      buildNumber := if b then 42 else 41
      waitingReview := false }

def bothWaiting : List (Event Bool) :=
  [.agent (.trigger false), .agent (.request false true), .agent (.mark false), .agent (.trigger true),
    .agent (.request true true), .agent (.mark true)]

def answeredRun : List (Event Bool) :=
  bothWaiting ++ [.answer false Review.approval, .agent (.release Review.fetchedLog)]

def numberOf (x : Released Bool) : Option Int :=
  match x.outcome with
  | .attempted r => some r.buildNumber
  | _ => none

theorem retry_released :
    (machine retriedSetting).IsRun answeredRun ∧
      ¬ (machine retriedSetting).Always (ReleasesOwn retriedSetting) (machine retriedSetting).init answeredRun := by
  refine ⟨by decide +kernel, fun h => ?_⟩
  have hreleased : ((machine retriedSetting).exec (machine retriedSetting).init answeredRun).map
      (fun s => s.released.map fun x => (x.build, numberOf x)) = some [(false, some 42)] := by decide +kernel
  obtain ⟨t, ht, hlist⟩ := Option.map_eq_some_iff.mp hreleased
  have hall := (machine retriedSetting).always_exec h ht
  obtain ⟨x, hx, hpair⟩ := List.map_eq_singleton_iff.mp hlist
  obtain ⟨hbuild, hnumber⟩ := Prod.mk.inj hpair
  unfold numberOf at hnumber
  split at hnumber
  · rename_i r hr
    obtain ⟨-, hown⟩ := hall x (hx ▸ List.mem_singleton_self x) r hr
    have hsame := hown.buildNumber
    rw [hbuild] at hsame
    cases (Option.some.inj hnumber).symm.trans hsame
  · cases hnumber

def rejection : Bytes :=
  ((encodeUtf8 (str "\x7b\"issue\":\"I-1\",\"result\":\"REJECTED\"\x7d")).getD [])

-- Each answer comes while the entry of its own build stands first.
def bothRun : List (Event Bool) :=
  bothWaiting ++ [.answer true rejection, .agent (.release Review.fetchedLog), .answer false Review.approval,
    .agent (.release Review.fetchedLog)]

theorem both_released :
    (machine retriedSetting).Always (ReleasesOwn retriedSetting) (machine retriedSetting).init bothRun ∧
      ((machine retriedSetting).exec (machine retriedSetting).init bothRun).map
        (fun s => s.released.map fun x => (x.build, numberOf x, x.verdict)) =
          some [(true, some 42, str "REJECTED"), (false, some 41, str "APPROVED")] :=
  ⟨verdicts_release_own (by decide +kernel), by decide +kernel⟩

end Sample

end Agent.Verdicts
