import JdRelay.Agent.ActiveBuilds

namespace Agent.Delivery
open Text Json Runs AgentMain ActiveBuilds

-- The agent beside what its sends have returned: reported is a poll thread's own attempt at its BUILD_RESULT,
-- delivered and requested hold the builds for which a BUILD_RESULT or a SENSITIVE_REVIEW_REQ went out with true.
structure Ledger (B : Type) where
  agent : State B
  reported : B → Option Bool
  delivered : Key → Bool
  requested : Key → Bool
  removed : Key → Bool

-- A send in the callback may throw too: the try block around it catches that. An unordered_map may be walked in
-- another order after every change.
inductive Event (B : Type) where
  | agent (e : AgentMain.Event B)
  | rehash (builds : Builds)
  | report (b : B) (sent : Bool)
  | release (fetched : Fetched) (sent : Except Exn Bool)

variable {B : Type} (g : Setting B)

def record (sent : Bool) (k : Key) (known : Key → Bool) : Key → Bool :=
  if sent then Function.update known k true else known

def held (s : Ledger B) (n : Int) : Option Key := (s.agent.builds.lookup n).map fun ctx => (ctx.jobName, n)

def removing (s : Ledger B) : Option Key → Key → Bool
  | none => s.removed
  | some k => Function.update s.removed k true

def takenKey (s : Ledger B) (plaintext : Bytes) : Option Key :=
  match readVerdict g.nl plaintext with
  | .ok (issue, _) => (findWaiting s.agent.builds issue).map keyOf
  | .error _ => none

def attempted : Outcome → Bool
  | .attempted _ => true
  | _ => false

def answeredBy (s : Ledger B) (fetched : Fetched) (sent : Except Exn Bool) (wait : BuildContext) (result : Str) : Bool :=
  attempted (releaseBuild g.cfg s.agent.client fetched wait result) && decide (sent = .ok true)

structure Remembered (s : Ledger B) : Prop where
  removed : ∀ k, s.removed k = true → s.delivered k = true
  waiting : ∀ n ctx, s.agent.builds.lookup n = some ctx → ctx.waitingReview = true →
    s.requested (ctx.jobName, n) = true

def Covered (s : Ledger B) : Event B → Prop
  | .agent (.mark b) => ∀ k, held s (g.context b).buildNumber = some k → s.requested k = true
  | .agent (.finish b) => ∀ k, held s (g.context b).buildNumber = some k → s.delivered k = true
  | .agent (.verdict plaintext) => ∀ k, takenKey g s plaintext = some k → s.delivered k = true
  | _ => True

def Ours (s : Ledger B) (b : B) : Prop :=
  ∀ ctx ∈ s.agent.builds.lookup (g.context b).buildNumber, ctx.jobName = (g.context b).jobName

instance (s : Ledger B) (b : B) : Decidable (Ours g s b) :=
  inferInstanceAs (Decidable (∀ ctx ∈ s.agent.builds.lookup (g.context b).buildNumber, _ = _))

-- No thread goes on as after a send that worked where its send failed or was not made, and no build waits under the
-- issue of a verdict: the callback erases the entry before it sends anything.
def Sends (s : Ledger B) : Event B → Prop
  | .agent (.mark b) => (g.context b).buildNumber ∈ s.agent.builds → Ours g s b ∧ s.agent.asked b = true
  | .agent (.finish b) => (g.context b).buildNumber ∈ s.agent.builds → Ours g s b ∧ s.reported b = some true
  | .agent (.verdict plaintext) => takenKey g s plaintext = none
  | _ => True

instance (s : Ledger B) : (e : Event B) → Decidable (Sends g s e)
  | .agent (.mark _) | .agent (.finish _) => inferInstanceAs (Decidable (_ ∈ s.agent.builds → _ ∧ _))
  | .agent (.verdict plaintext) => inferInstanceAs (Decidable (takenKey g s plaintext = none))
  | .agent (.trigger _) | .agent (.request _ _) | .agent (.release _) | .agent .shutdown | .report _ _ | .rehash _
  | .release _ _ => inferInstanceAs (Decidable True)

structure Known (s : Ledger B) : Prop where
  reported : ∀ b, s.reported b = some true → s.delivered (key g b) = true
  asked : ∀ b, s.agent.asked b = true → s.requested (key g b) = true

section Quiet

variable {s t : Ledger B}

theorem record_mono {sent : Bool} {k k' : Key} {known : Key → Bool} (h : known k' = true) :
    record sent k known k' = true := by
  unfold record
  split
  · rw [Function.update_apply]
    split
    · rfl
    · exact h
  · exact h

theorem record_self {sent : Bool} {k : Key} {known : Key → Bool} :
    record sent k known k = true ↔ known k = true ∨ sent = true := by
  cases sent <;> simp [record]

theorem held_eq_some {n : Int} {k : Key} :
    held s n = some k ↔ ∃ ctx, s.agent.builds.lookup n = some ctx ∧ (ctx.jobName, n) = k :=
  Option.map_eq_some_iff

theorem removing_iff {taken : Option Key} {k : Key} :
    removing s taken k = true ↔ taken = some k ∨ s.removed k = true := by
  cases taken with
  | none => simp [removing]
  | some k' =>
      by_cases h : k = k'
      · simp [removing, h]
      · simp [removing, Function.update_of_ne h, Ne.symm h]

structure Quiet (s t : Ledger B) : Prop where
  removed : t.removed = s.removed
  delivered : ∀ k, s.delivered k = true → t.delivered k = true
  requested : ∀ k, s.requested k = true → t.requested k = true
  waiting : ∀ n ctx, t.agent.builds.lookup n = some ctx → ctx.waitingReview = true →
    s.agent.builds.lookup n = some ctx

theorem quiet_same (hbuilds : ∀ n, t.agent.builds.lookup n = s.agent.builds.lookup n) (hremoved : t.removed = s.removed)
    (hdelivered : ∀ k, s.delivered k = true → t.delivered k = true)
    (hrequested : ∀ k, s.requested k = true → t.requested k = true) : Quiet s t where
  removed := hremoved
  delivered := hdelivered
  requested := hrequested
  waiting n _ hctx _ := (hbuilds n).symm.trans hctx

theorem Quiet.remembered (h : Quiet s t) (hs : Remembered s) : Remembered t where
  removed k hk := by
    rw [h.removed] at hk
    exact h.delivered k (hs.removed k hk)
  waiting n ctx hctx hw := h.requested _ (hs.waiting n ctx (h.waiting n ctx hctx hw) hw)

variable {g}

theorem remembered_mark {b : B} (hs : Remembered s)
    (hbuilds : t.agent.builds = markWaiting s.agent.builds (g.context b).buildNumber) (hremoved : t.removed = s.removed)
    (hdelivered : t.delivered = s.delivered) (hrequested : t.requested = s.requested) :
    Remembered t ↔ Covered g s (.agent (.mark b)) := by
  constructor
  · intro ht k hk
    obtain ⟨ctx, hctx, rfl⟩ := held_eq_some.mp hk
    rw [← hrequested]
    refine ht.waiting _ { ctx with waitingReview := true } ?_ rfl
    rw [hbuilds, Review.lookup_markWaiting, if_pos rfl, hctx, Option.map_some]
  · intro hcovered
    refine ⟨fun k hk => ?_, fun n ctx hctx hw => ?_⟩
    · rw [hremoved] at hk
      rw [hdelivered]
      exact hs.removed k hk
    · rw [hrequested]
      rw [hbuilds, Review.lookup_markWaiting] at hctx
      split at hctx
      · rename_i heq
        obtain ⟨old, hold, rfl⟩ := Option.map_eq_some_iff.mp hctx
        exact hcovered _ (held_eq_some.mpr ⟨old, hold, by rw [heq]⟩)
      · exact hs.waiting n ctx hctx hw

-- The entry goes out of the map here, so its message has to be among those delivered by now.
theorem remembered_erase {n : Int} {taken : Option Key} (hs : Remembered s)
    (hbuilds : t.agent.builds = s.agent.builds.erase n) (hremoved : t.removed = removing s taken)
    (hdelivered : t.delivered = s.delivered) (hrequested : t.requested = s.requested) :
    Remembered t ↔ ∀ k, taken = some k → s.delivered k = true := by
  constructor
  · intro ht k hk
    rw [← hdelivered]
    exact ht.removed k (by rw [hremoved, removing_iff]; exact .inl hk)
  · intro hcovered
    refine ⟨fun k hk => ?_, fun m ctx hctx hw => ?_⟩
    · rw [hremoved, removing_iff] at hk
      rw [hdelivered]
      exact hk.elim (hcovered k) (hs.removed k)
    · rw [hbuilds, Dict.lookup_erase_if] at hctx
      rw [hrequested]
      split at hctx
      · cases hctx
      · exact hs.waiting m ctx hctx hw

theorem known_of_asked (hs : Known g s) (hreported : t.reported = s.reported) (hasked : t.agent.asked = s.agent.asked)
    (hdelivered : ∀ k, s.delivered k = true → t.delivered k = true) (hrequested : t.requested = s.requested) :
    Known g t where
  reported b hb := hdelivered _ (hs.reported b (hreported ▸ hb))
  asked b hb := by
    rw [hrequested]
    exact hs.asked b (hasked ▸ hb)

theorem covered_of_entry {b : B} {known : Key → Bool} (hours : (g.context b).buildNumber ∈ s.agent.builds →
    Ours g s b ∧ known (key g b) = true) : ∀ k, held s (g.context b).buildNumber = some k → known k = true := by
  intro k hk
  obtain ⟨ctx, hctx, rfl⟩ := held_eq_some.mp hk
  obtain ⟨hjob, hknown⟩ := hours (AList.lookup_isSome.mp (Option.isSome_of_eq_some hctx))
  rw [hjob ctx hctx]
  exact hknown

theorem covered_of_sends {e : Event B} (hs : Known g s) (h : Sends g s e) : Covered g s e := by
  cases e with
  | agent a =>
      cases a with
      | mark b => exact covered_of_entry fun hmem => (h hmem).imp id (hs.asked b)
      | finish b => exact covered_of_entry fun hmem => (h hmem).imp id (hs.reported b)
      | verdict plaintext =>
          intro k hk
          rw [show takenKey g s plaintext = none from h] at hk
          cases hk
      | _ => trivial
  | _ => trivial

end Quiet

variable [DecidableEq B]

-- A poll thread asks for the review or reports, not both, and ends without a report only where there is no client.
def step (s : Ledger B) : Event B → Option (Ledger B)
  | .agent (.request b sent) =>
      if s.reported b = none then
        (AgentMain.step g s.agent (.request b sent)).map fun t =>
          { s with agent := t, requested := record sent (key g b) s.requested }
      else none
  | .report b sent =>
      match s.agent.thread b, s.agent.client, s.reported b with
      | .polling, true, none =>
          some { s with
            reported := Function.update s.reported b (some sent)
            delivered := record sent (key g b) s.delivered }
      | _, _, _ => none
  | .agent (.finish b) =>
      if s.reported b ≠ none ∨ s.agent.client = false then
        (AgentMain.step g s.agent (.finish b)).map fun t =>
          { s with agent := t, removed := removing s (held s (g.context b).buildNumber) }
      else none
  | .agent (.verdict plaintext) =>
      (AgentMain.step g s.agent (.verdict plaintext)).map fun t =>
        { s with agent := t, removed := removing s (takenKey g s plaintext) }
  | .agent (.release _) => none
  | .rehash builds =>
      if builds.entries.Perm s.agent.builds.entries then some { s with agent := { s.agent with builds } } else none
  | .release fetched sent =>
      match s.agent.callback with
      | .releasing _ wait result =>
          (AgentMain.step g s.agent (.release fetched)).map fun t =>
            { s with
              agent := t
              delivered := record (answeredBy g s fetched sent wait result) (keyOf wait) s.delivered }
      | _ => none
  | .agent e => (AgentMain.step g s.agent e).map fun t => { s with agent := t }

def machine : Machine (Ledger B) (Event B) where
  init :=
    { agent := (AgentMain.machine g).init, reported := fun _ => none, delivered := fun _ => false
      requested := fun _ => false, removed := fun _ => false }
  step := step g

inductive Change (s : Ledger B) : Event B → Ledger B → Prop where
  | quiet {e : Event B} {t : Ledger B} (hcovered : Covered g s e) (h : Quiet s t) : Change s e t
  | mark {b : B} {t : Ledger B} (hbuilds : t.agent.builds = markWaiting s.agent.builds (g.context b).buildNumber)
      (hremoved : t.removed = s.removed) (hdelivered : t.delivered = s.delivered)
      (hrequested : t.requested = s.requested) : Change s (.agent (.mark b)) t
  | finish {b : B} {t : Ledger B} (hbuilds : t.agent.builds = s.agent.builds.erase (g.context b).buildNumber)
      (hremoved : t.removed = removing s (held s (g.context b).buildNumber))
      (hdelivered : t.delivered = s.delivered) (hrequested : t.requested = s.requested) :
      Change s (.agent (.finish b)) t
  | take {plaintext : Bytes} {wait : BuildContext} {t : Ledger B}
      (hbuilds : t.agent.builds = s.agent.builds.erase wait.buildNumber)
      (hremoved : t.removed = removing s (takenKey g s plaintext))
      (hdelivered : t.delivered = s.delivered) (hrequested : t.requested = s.requested) :
      Change s (.agent (.verdict plaintext)) t

section Steps

variable {g} {s t : Ledger B} {e : Event B}

theorem change_trigger {b : B} (h : step g s (.agent (.trigger b)) = some t) : Quiet s t := by
  obtain ⟨u, hu, rfl⟩ := Option.map_eq_some_iff.mp h
  cases moves_of_step hu with
  | dropped => exact quiet_same (fun _ => rfl) rfl (fun _ => id) (fun _ => id)
  | started =>
      refine ⟨rfl, fun _ => id, fun _ => id, fun n ctx hctx hw => ?_⟩
      rw [Dict.lookup_insert_if] at hctx
      split at hctx
      · cases hctx
        cases hw
      · exact hctx

theorem change_verdict {plaintext : Bytes} (h : step g s (.agent (.verdict plaintext)) = some t) :
    Change g s (.agent (.verdict plaintext)) t := by
  obtain ⟨u, hu, rfl⟩ := Option.map_eq_some_iff.mp h
  cases moves_of_step hu with
  | unread _ hread =>
      have hnone : takenKey g s plaintext = none := by simp [takenKey, hread]
      simp only [hnone, removing]
      exact .quiet (fun k hk => by simp [hnone] at hk) (quiet_same (fun _ => rfl) rfl (fun _ => id) (fun _ => id))
  | unfound _ hread hfind =>
      have hnone : takenKey g s plaintext = none := by simp [takenKey, hread, hfind]
      simp only [hnone, removing]
      exact .quiet (fun k hk => by simp [hnone] at hk) (quiet_same (fun _ => rfl) rfl (fun _ => id) (fun _ => id))
  | taken => exact .take rfl rfl rfl rfl

theorem change_of_step (h : step g s e = some t) : Change g s e t := by
  cases e with
  | agent a =>
      cases a with
      | trigger b => exact .quiet trivial (change_trigger h)
      | request b sent =>
          simp only [step] at h
          split at h
          · obtain ⟨u, hu, rfl⟩ := Option.map_eq_some_iff.mp h
            cases moves_of_step hu with
            | requested => exact .quiet trivial (quiet_same (fun _ => rfl) rfl (fun _ => id) (fun _ => record_mono))
          · cases h
      | mark b =>
          obtain ⟨u, hu, rfl⟩ := Option.map_eq_some_iff.mp h
          cases moves_of_step hu with
          | marked => exact .mark rfl rfl rfl rfl
      | finish b =>
          simp only [step] at h
          split at h
          · obtain ⟨u, hu, rfl⟩ := Option.map_eq_some_iff.mp h
            cases moves_of_step hu with
            | finished => exact .finish rfl rfl rfl rfl
          · cases h
      | verdict plaintext => exact change_verdict h
      | release fetched => cases h
      | shutdown =>
          cases h
          exact .quiet trivial (quiet_same (fun _ => rfl) rfl (fun _ => id) (fun _ => id))
  | rehash builds =>
      simp only [step] at h
      split at h
      · rename_i hperm
        cases h
        exact .quiet trivial (quiet_same (fun n => AList.perm_lookup hperm) rfl (fun _ => id) (fun _ => id))
      · cases h
  | report b sent =>
      simp only [step] at h
      split at h <;> cases h
      exact .quiet trivial (quiet_same (fun _ => rfl) rfl (fun _ => record_mono) (fun _ => id))
  | release fetched sent =>
      simp only [step] at h
      split at h
      · rename_i asked wait result hrel
        obtain ⟨u, hu, rfl⟩ := Option.map_eq_some_iff.mp h
        simp only [AgentMain.step, hrel] at hu
        cases hu
        exact .quiet trivial (quiet_same (fun _ => rfl) rfl (fun _ => record_mono) (fun _ => id))
      · cases h

theorem remembered_step (hs : Remembered s) (h : step g s e = some t) : Remembered t ↔ Covered g s e := by
  cases change_of_step h with
  | quiet hcovered hquiet => exact iff_of_true (hquiet.remembered hs) hcovered
  | mark hbuilds hremoved hdelivered hrequested => exact remembered_mark hs hbuilds hremoved hdelivered hrequested
  | finish hbuilds hremoved hdelivered hrequested => exact remembered_erase hs hbuilds hremoved hdelivered hrequested
  | take hbuilds hremoved hdelivered hrequested => exact remembered_erase hs hbuilds hremoved hdelivered hrequested

theorem remembered_iff {es : List (Event B)} (hrun : (machine g).IsRun es) :
    (machine g).Always Remembered (machine g).init es ↔ (machine g).Guarded (Covered g) (machine g).init es := by
  have hinit : Remembered (machine g).init :=
    ⟨fun k h => (Bool.false_ne_true h).elim, fun n ctx h => by simp [machine, AgentMain.machine] at h⟩
  exact (machine g).always_iff_guarded (I := fun _ => True) (fun _ _ => trivial) (fun _ hs h => remembered_step hs h)
    trivial hinit hrun

theorem asked_step {s t : State B} {e : AgentMain.Event B} (h : AgentMain.step g s e = some t) :
    t.asked = s.asked ∨ ∃ b sent, e = .request b sent ∧ t.asked = Function.update s.asked b sent := by
  cases moves_of_step h with
  | requested => exact .inr ⟨_, _, rfl, rfl⟩
  | _ => exact .inl rfl

theorem known_agent {a : AgentMain.Event B} (hs : Known g s) (hrequest : ∀ b sent, a ≠ .request b sent)
    (h : step g s (.agent a) = some t) : Known g t := by
  have hstep : ∃ u, AgentMain.step g s.agent a = some u ∧ t.agent = u ∧ t.reported = s.reported ∧
      t.delivered = s.delivered ∧ t.requested = s.requested := by
    cases a with
    | request b sent => exact absurd rfl (hrequest b sent)
    | release fetched => cases h
    | finish b =>
        simp only [step] at h
        split at h
        · obtain ⟨u, hu, rfl⟩ := Option.map_eq_some_iff.mp h
          exact ⟨u, hu, rfl, rfl, rfl, rfl⟩
        · cases h
    | shutdown =>
        cases h
        exact ⟨_, rfl, rfl, rfl, rfl, rfl⟩
    | _ =>
        obtain ⟨u, hu, rfl⟩ := Option.map_eq_some_iff.mp h
        exact ⟨u, hu, rfl, rfl, rfl, rfl⟩
  obtain ⟨u, hu, rfl, hreported, hdelivered, hrequested⟩ := hstep
  obtain hasked | ⟨b, sent, rfl, -⟩ := asked_step hu
  · exact known_of_asked hs hreported hasked (fun k hk => hdelivered ▸ hk) hrequested
  · exact absurd rfl (hrequest b sent)

theorem known_request {b : B} {sent : Bool} (hs : Known g s) (h : step g s (.agent (.request b sent)) = some t) :
    Known g t := by
  simp only [step] at h
  split at h
  · obtain ⟨u, hu, rfl⟩ := Option.map_eq_some_iff.mp h
    cases moves_of_step hu with
    | requested =>
        refine ⟨hs.reported, fun b' (hb : Function.update s.agent.asked b sent b' = true) => ?_⟩
        rw [Function.update_apply] at hb
        split at hb
        · rename_i heq
          rw [heq]
          exact record_self.mpr (.inr hb)
        · exact record_mono (hs.asked b' hb)
  · cases h

theorem known_report {b : B} {sent : Bool} (hs : Known g s) (h : step g s (.report b sent) = some t) : Known g t := by
  simp only [step] at h
  split at h <;> cases h
  refine ⟨fun b' (hb : Function.update s.reported b (some sent) b' = some true) => ?_, hs.asked⟩
  rw [Function.update_apply] at hb
  split at hb
  · rename_i heq
    rw [heq]
    exact record_self.mpr (.inr (Option.some.inj hb))
  · exact record_mono (hs.reported b' hb)

theorem known_step (hs : Known g s) (h : step g s e = some t) : Known g t := by
  cases e with
  | agent a =>
      cases a with
      | request b sent => exact known_request hs h
      | _ => exact known_agent hs (fun _ _ heq => by cases heq) h
  | report b sent => exact known_report hs h
  | rehash builds =>
      simp only [step] at h
      split at h <;> cases h
      exact known_of_asked hs rfl rfl (fun _ => id) rfl
  | release fetched sent =>
      simp only [step] at h
      split at h
      · rename_i hrel
        obtain ⟨u, hu, rfl⟩ := Option.map_eq_some_iff.mp h
        simp only [AgentMain.step, hrel] at hu
        cases hu
        exact known_of_asked hs rfl rfl (fun _ => record_mono) rfl
      · cases h

theorem remembered_of_sends {es : List (Event B)} (hrun : (machine g).IsRun es)
    (hsends : (machine g).Guarded (Sends g) (machine g).init es) : (machine g).Always Remembered (machine g).init es := by
  have hknown : Known g (machine g).init := ⟨nofun, nofun⟩
  refine (remembered_iff hrun).mpr ?_
  exact (machine g).guarded_mono (fun hs _ h => known_step hs h) (fun hs hsend _ => covered_of_sends hs hsend) hknown
    hrun hsends

end Steps

def brokenRun : List (Event Bool) := [.agent (.trigger false), .report false false, .agent (.finish false)]

theorem report_failed_forgotten :
    (machine Review.sampleSetting).IsRun brokenRun ∧
      ¬ (machine Review.sampleSetting).Always Remembered (machine Review.sampleSetting).init brokenRun := by
  refine ⟨by decide +kernel, fun h => ?_⟩
  have hlast : ((machine Review.sampleSetting).exec (machine Review.sampleSetting).init brokenRun).map
      (fun s => (s.removed (str "app-build", 41), s.delivered (str "app-build", 41))) = some (true, false) := by
    decide +kernel
  obtain ⟨t, ht, hend⟩ := Option.map_eq_some_iff.mp hlast
  obtain ⟨hremoved, hdelivered⟩ := Prod.mk.inj hend
  have hremembered := (machine Review.sampleSetting).always_exec h ht
  exact Bool.false_ne_true (hdelivered.symm.trans (hremembered.removed _ hremoved))

def reviewedRun : List (Event Bool) :=
  [.agent (.trigger false), .agent (.trigger true), .agent (.request false true), .report true true,
    .agent (.mark false), .agent (.finish true), .agent (.verdict Review.otherApproval)]

theorem remembered_of_sends_reviewedRun :
    (machine Review.sampleSetting).Always Remembered (machine Review.sampleSetting).init reviewedRun :=
  remembered_of_sends (by decide +kernel) (by decide +kernel)

end Agent.Delivery
