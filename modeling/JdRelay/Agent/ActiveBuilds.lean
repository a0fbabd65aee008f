import JdRelay.Agent.Review

namespace Agent.ActiveBuilds
open Text Json Runs AgentMain

abbrev Key := Str × Int

def keyOf (ctx : BuildContext) : Key := (ctx.jobName, ctx.buildNumber)

-- live holds the builds that were put into the map and are not finished since.
structure Tracked (B : Type) where
  agent : State B
  live : Key → Bool

-- An unordered_map may be walked in another order after every change.
inductive Event (B : Type) where
  | agent (e : AgentMain.Event B)
  | rehash (builds : Builds)

variable {B : Type} (g : Setting B)

def key (b : B) : Key := keyOf (g.context b)

def Started (b : B) : Prop := ¬ (g.cfg.jenkinsUrl = [] ∨ (g.context b).buildNumber = 0)

instance started_decidable (b : B) : Decidable (Started g b) :=
  inferInstanceAs (Decidable (¬ (g.cfg.jenkinsUrl = [] ∨ (g.context b).buildNumber = 0)))

def taken (s : Tracked B) (plaintext : Bytes) : Option BuildContext :=
  match readVerdict g.nl plaintext with
  | .ok (issue, _) => findWaiting s.agent.builds issue
  | .error _ => none

def nextLive (s : Tracked B) : AgentMain.Event B → Key → Bool
  | .trigger b => if Started g b then Function.update s.live (key g b) true else s.live
  | .finish b => Function.update s.live (key g b) false
  | .verdict plaintext =>
      match taken g s plaintext with
      | some wait => Function.update s.live (keyOf wait) false
      | none => s.live
  | _ => s.live

def entry (s : Tracked B) (k : Key) : Option BuildContext :=
  (s.agent.builds.lookup k.2).filter fun ctx => decide (ctx.jobName = k.1)

def eventKey (s : Tracked B) : Event B → Option Key
  | .agent (.trigger b) | .agent (.mark b) | .agent (.finish b) => some (key g b)
  | .agent (.verdict plaintext) => (taken g s plaintext).map keyOf
  | _ => none

def Own (s : Tracked B) : Prop := ∀ k, s.live k = true → (entry s k).isSome

def Waiting (s : Tracked B) (k : Key) : Prop := ∃ ctx, entry s k = some ctx ∧ ctx.waitingReview = true

def Clear (s : Tracked B) (κ : Key) : Prop := ∀ k, s.live k = true → k.2 = κ.2 → k = κ

def Apart (s : Tracked B) : Event B → Prop
  | .agent (.trigger b) => Started g b → Clear s (key g b)
  | .agent (.mark b) => ∀ k, s.live k = true → k.2 = (key g b).2 → k = key g b ∨ Waiting s k
  | .agent (.finish b) => Clear s (key g b)
  | _ => True

def Tracks (s : Tracked B) : Prop :=
  ∀ n ctx, s.agent.builds.lookup n = some ctx → s.live (ctx.jobName, n) = true

section Map

variable {s t : Tracked B} {κ : Key}

theorem entry_eq_some {k : Key} {ctx : BuildContext} :
    entry s k = some ctx ↔ s.agent.builds.lookup k.2 = some ctx ∧ ctx.jobName = k.1 := by
  simp [entry, Option.filter_eq_some_iff]

theorem entry_congr {k : Key} (h : t.agent.builds.lookup k.2 = s.agent.builds.lookup k.2) :
    entry t k = entry s k := by
  simp only [entry, h]

theorem live_of_entry (hs : Tracks s) {k : Key} {ctx : BuildContext} (h : entry s k = some ctx) :
    s.live k = true := by
  obtain ⟨hlookup, hjob⟩ := entry_eq_some.mp h
  have hlive := hs k.2 ctx hlookup
  rwa [hjob] at hlive

theorem own_lookup (hown : Own s) {k : Key} (hlive : s.live k = true) :
    ∃ ctx, s.agent.builds.lookup k.2 = some ctx ∧ ctx.jobName = k.1 := by
  obtain ⟨ctx, hctx⟩ := Option.isSome_iff_exists.mp (hown k hlive)
  exact ⟨ctx, entry_eq_some.mp hctx⟩

theorem clear_of_entry (hown : Own s) {ctx : BuildContext} (h : s.agent.builds.lookup κ.2 = some ctx)
    (hjob : ctx.jobName = κ.1) : Clear s κ := by
  intro k hlive hnumber
  obtain ⟨ctx', hctx', hjob'⟩ := own_lookup hown hlive
  rw [hnumber, h] at hctx'
  cases hctx'
  exact Prod.ext (hjob'.symm.trans hjob) hnumber

theorem taken_lookup {g : Setting B} {plaintext : Bytes} {wait : BuildContext} (h : taken g s plaintext = some wait) :
    ∃ ctx, s.agent.builds.lookup (keyOf wait).2 = some ctx ∧ ctx.jobName = (keyOf wait).1 := by
  unfold taken at h
  split at h
  · obtain ⟨ctx, hctx, -, -, hwait⟩ := Review.findWaiting_some h
    exact ⟨ctx, hctx, (congrArg BuildContext.jobName hwait).symm⟩
  · cases h

theorem keep_own (hown : Own s) (hbuilds : ∀ n, t.agent.builds.lookup n = s.agent.builds.lookup n)
    (hlive : t.live = s.live) : Own t ∧ ∀ k, entry t k = entry s k := by
  have hentry : ∀ k, entry t k = entry s k := fun k => entry_congr (hbuilds k.2)
  refine ⟨fun k hk => ?_, hentry⟩
  rw [hentry k]
  exact hown k (hlive ▸ hk)

theorem erase_own (hs : Tracks s) (hown : Own s) (hbuilds : t.agent.builds = s.agent.builds.erase κ.2)
    (hlive : t.live = Function.update s.live κ false) :
    (Own t ∧ ∀ k, entry t k ≠ entry s k → k = κ) ↔ Clear s κ := by
  have hgone : ∀ k : Key, k.2 = κ.2 → entry t k = none := fun k hk => by
    have hnone : t.agent.builds.lookup k.2 = none := by rw [hbuilds, hk, AList.lookup_erase]
    simp [entry, hnone]
  have hkept : ∀ k : Key, k.2 ≠ κ.2 → entry t k = entry s k := fun k hk =>
    entry_congr (by rw [hbuilds, AList.lookup_erase_ne hk])
  constructor
  · rintro ⟨hownt, -⟩ k hk hnumber
    by_contra hne
    have hsome := hownt k (by rw [hlive, Function.update_of_ne hne]; exact hk)
    rw [hgone k hnumber] at hsome
    cases hsome
  · intro hclear
    have hother : ∀ k, k ≠ κ → s.live k = true → k.2 ≠ κ.2 := fun k hne hk h => hne (hclear k hk h)
    refine ⟨fun k hk => ?_, fun k hchanged => ?_⟩
    · have hne : k ≠ κ := by
        rintro rfl
        simp [hlive] at hk
      rw [hlive, Function.update_of_ne hne] at hk
      rw [hkept k (hother k hne hk)]
      exact hown k hk
    · by_contra hne
      cases hentry : entry s k with
      | none =>
          have hnumber : k.2 = κ.2 := by
            by_contra h
            exact hchanged (hkept k h)
          exact hchanged (by rw [hgone k hnumber, hentry])
      | some ctx => exact hchanged (hkept k (hother k hne (live_of_entry hs hentry)))

theorem insert_own (hs : Tracks s) (hown : Own s) {ctx : BuildContext} (hjob : ctx.jobName = κ.1)
    (hbuilds : t.agent.builds = s.agent.builds.insert κ.2 ctx) (hlive : t.live = Function.update s.live κ true) :
    (Own t ∧ ∀ k, entry t k ≠ entry s k → k = κ) ↔ Clear s κ := by
  have hnew : ∀ k : Key, k.2 = κ.2 → t.agent.builds.lookup k.2 = some ctx := fun k hk => by
    rw [hbuilds, hk, AList.lookup_insert]
  have hkept : ∀ k : Key, k.2 ≠ κ.2 → entry t k = entry s k := fun k hk =>
    entry_congr (by rw [hbuilds, AList.lookup_insert_ne hk])
  constructor
  · rintro ⟨hownt, -⟩ k hk hnumber
    by_contra hne
    obtain ⟨ctx', hctx', hjob'⟩ := own_lookup hownt (k := k) (by rw [hlive, Function.update_of_ne hne]; exact hk)
    rw [hnew k hnumber] at hctx'
    cases hctx'
    exact hne (Prod.ext (hjob'.symm.trans hjob) hnumber)
  · intro hclear
    have hother : ∀ k, k ≠ κ → s.live k = true → k.2 ≠ κ.2 := fun k hne hk h => hne (hclear k hk h)
    refine ⟨fun k hk => ?_, fun k hchanged => ?_⟩
    · rcases eq_or_ne k κ with rfl | hne
      · rw [entry_eq_some.mpr ⟨hnew k rfl, hjob⟩]
        rfl
      · rw [hlive, Function.update_of_ne hne] at hk
        rw [hkept k (hother k hne hk)]
        exact hown k hk
    · by_contra hne
      have hnumber : k.2 = κ.2 := by
        by_contra h
        exact hchanged (hkept k h)
      have hfirst : ctx.jobName ≠ k.1 := fun h => hne (Prod.ext (h.symm.trans hjob) hnumber)
      have hnone : entry t k = none := by simp [entry, hnew k hnumber, hfirst]
      cases hentry : entry s k with
      | none => exact hchanged (hnone.trans hentry.symm)
      | some old => exact hother k hne (live_of_entry hs hentry) hnumber

theorem mark_own (hs : Tracks s) (hown : Own s) (hbuilds : t.agent.builds = markWaiting s.agent.builds κ.2)
    (hlive : t.live = s.live) :
    (Own t ∧ ∀ k, entry t k ≠ entry s k → k = κ) ↔
      ∀ k, s.live k = true → k.2 = κ.2 → k = κ ∨ Waiting s k := by
  have hmarked : ∀ k : Key, k.2 = κ.2 →
      entry t k = (entry s k).map fun ctx => { ctx with waitingReview := true } := fun k hk => by
      have hmap : t.agent.builds.lookup k.2 =
          (s.agent.builds.lookup k.2).map fun ctx => { ctx with waitingReview := true } := by
        rw [hbuilds, Review.lookup_markWaiting, if_pos hk, hk]
      simp only [entry, hmap]
      cases s.agent.builds.lookup k.2 with
      | none => rfl
      | some ctx => by_cases h : ctx.jobName = k.1 <;> simp [Option.filter, h]
  have hkept : ∀ k : Key, k.2 ≠ κ.2 → entry t k = entry s k := fun k hk =>
    entry_congr (by rw [hbuilds, Review.lookup_markWaiting, if_neg hk])
  have hownt : Own t := fun k hk => by
    have hsome := hown k (hlive ▸ hk)
    by_cases h : k.2 = κ.2
    · rwa [hmarked k h, Option.isSome_map]
    · rwa [hkept k h]
  constructor
  · rintro ⟨-, honly⟩ k hk hnumber
    obtain ⟨ctx, hctx⟩ := Option.isSome_iff_exists.mp (hown k hk)
    by_cases hsame : entry t k = entry s k
    · rw [hmarked k hnumber, hctx] at hsame
      have hwaiting : true = ctx.waitingReview := congrArg BuildContext.waitingReview (Option.some.inj hsame)
      exact .inr ⟨ctx, hctx, hwaiting.symm⟩
    · exact .inl (honly k hsame)
  · intro hapart
    refine ⟨hownt, fun k hchanged => ?_⟩
    have hnumber : k.2 = κ.2 := by
      by_contra h
      exact hchanged (hkept k h)
    rw [hmarked k hnumber] at hchanged
    cases hentry : entry s k with
    | none => simp [hentry] at hchanged
    | some ctx =>
        rcases hapart k (live_of_entry hs hentry) hnumber with h | ⟨ctx', hctx', hwaiting⟩
        · exact h
        · rw [hentry] at hctx'
          cases hctx'
          refine absurd ?_ hchanged
          rw [hentry, Option.map_some, ← hwaiting]

end Map

variable [DecidableEq B]

def step (s : Tracked B) : Event B → Option (Tracked B)
  | .agent e => (AgentMain.step g s.agent e).map fun t => { agent := t, live := nextLive g s e }
  | .rehash builds =>
      if builds.entries.Perm s.agent.builds.entries then some { s with agent := { s.agent with builds } } else none

def machine : Machine (Tracked B) (Event B) where
  init := { agent := (AgentMain.machine g).init, live := fun _ => false }
  step := step g

def Isolated (s : Tracked B) (e : Event B) : Prop :=
  ∀ t, step g s e = some t → Own t ∧ ∀ k, entry t k ≠ entry s k → eventKey g s e = some k

inductive Change (s : Tracked B) : Event B → Tracked B → Prop where
  | keep {e : Event B} {t : Tracked B} (hapart : Apart g s e)
      (hbuilds : ∀ n, t.agent.builds.lookup n = s.agent.builds.lookup n)
      (hlive : t.live = s.live) : Change s e t
  | insert {b : B} {t : Tracked B} (hstarted : Started g b)
      (hbuilds : t.agent.builds = s.agent.builds.insert (key g b).2 { g.context b with waitingReview := false })
      (hlive : t.live = Function.update s.live (key g b) true) : Change s (.agent (.trigger b)) t
  | mark {b : B} {t : Tracked B} (hbuilds : t.agent.builds = markWaiting s.agent.builds (key g b).2)
      (hlive : t.live = s.live) : Change s (.agent (.mark b)) t
  | finish {b : B} {t : Tracked B} (hbuilds : t.agent.builds = s.agent.builds.erase (key g b).2)
      (hlive : t.live = Function.update s.live (key g b) false) : Change s (.agent (.finish b)) t
  | take {plaintext : Bytes} {wait : BuildContext} {t : Tracked B} (htaken : taken g s plaintext = some wait)
      (hbuilds : t.agent.builds = s.agent.builds.erase (keyOf wait).2)
      (hlive : t.live = Function.update s.live (keyOf wait) false) : Change s (.agent (.verdict plaintext)) t

variable {g} {s t : Tracked B} {e : Event B}

theorem change_agent {a : AgentMain.Event B} {u : State B} (h : AgentMain.step g s.agent a = some u) :
    Change g s (.agent a) { agent := u, live := nextLive g s a } := by
  cases moves_of_step h with
  | dropped _ hnot =>
      have hstarted : ¬ Started g _ := not_not.mpr hnot
      exact .keep (fun h => absurd h hstarted) (fun _ => rfl) (if_neg hstarted)
  | started _ _ hstarted => exact .insert hstarted rfl (if_pos hstarted)
  | requested | released | shutdown => exact .keep trivial (fun _ => rfl) rfl
  | marked => exact .mark rfl rfl
  | finished => exact .finish rfl rfl
  | @unread plaintext _ _ hread =>
      have hnone : taken g s plaintext = none := by simp [taken, hread]
      exact .keep trivial (fun _ => rfl) (by simp [nextLive, hnone])
  | @unfound plaintext _ _ _ hread hfind =>
      have hnone : taken g s plaintext = none := by simp [taken, hread, hfind]
      exact .keep trivial (fun _ => rfl) (by simp [nextLive, hnone])
  | @taken plaintext _ _ wait _ hread hfind =>
      have hsome : taken g s plaintext = some wait := by simp [taken, hread, hfind]
      exact .take hsome rfl (by simp [nextLive, hsome])

theorem change_of_step (h : step g s e = some t) : Change g s e t := by
  cases e with
  | agent a =>
      obtain ⟨u, hu, rfl⟩ := Option.map_eq_some_iff.mp h
      exact change_agent hu
  | rehash builds =>
      simp only [step] at h
      split at h
      · rename_i hperm
        cases h
        exact .keep trivial (fun n => AList.perm_lookup hperm) rfl
      · cases h

theorem tracks_step (hs : Tracks s) (h : step g s e = some t) : Tracks t := by
  intro n ctx hctx
  cases change_of_step h with
  | keep _ hbuilds hlive =>
      rw [hlive]
      exact hs n ctx (by rwa [← hbuilds])
  | insert _ hbuilds hlive =>
      rename_i b _
      rw [hbuilds, Dict.lookup_insert_if] at hctx
      rw [hlive]
      split at hctx
      · cases hctx
        subst n
        exact Function.update_self ..
      · exact Function.update_apply s.live _ _ _ ▸ by split <;> simp [hs n ctx hctx]
  | mark hbuilds hlive =>
      rw [hbuilds, Review.lookup_markWaiting] at hctx
      rw [hlive]
      split at hctx
      · obtain ⟨old, hold, rfl⟩ := Option.map_eq_some_iff.mp hctx
        subst n
        exact hs _ old hold
      · exact hs n ctx hctx
  | finish hbuilds hlive | take _ hbuilds hlive =>
      rw [hbuilds, Dict.lookup_erase_if] at hctx
      rw [hlive]
      split at hctx
      · cases hctx
      · rename_i hne
        rw [Function.update_of_ne fun h => hne (congrArg Prod.snd h)]
        exact hs n ctx hctx

theorem isolated_iff_apart (hs : Tracks s) (hown : Own s) (h : step g s e = some t) :
    (Own t ∧ ∀ k, entry t k ≠ entry s k → eventKey g s e = some k) ↔ Apart g s e := by
  have hflip : ∀ κ k : Key, some κ = some k ↔ k = κ := fun κ k => by rw [Option.some.injEq, eq_comm]
  cases change_of_step h with
  | keep hapart hbuilds hlive =>
      obtain ⟨hownt, hentry⟩ := keep_own hown hbuilds hlive
      exact iff_of_true ⟨hownt, fun k hk => absurd (hentry k) hk⟩ hapart
  | insert hstarted hbuilds hlive =>
      simp only [eventKey, hflip, Apart, hstarted, forall_const]
      refine insert_own hs hown ?_ hbuilds hlive
      rfl
  | mark hbuilds hlive =>
      simp only [eventKey, hflip, Apart]
      exact mark_own hs hown hbuilds hlive
  | finish hbuilds hlive =>
      simp only [eventKey, hflip, Apart]
      exact erase_own hs hown hbuilds hlive
  | take htaken hbuilds hlive =>
      obtain ⟨ctx, hctx, hjob⟩ := taken_lookup htaken
      simp only [eventKey, htaken, Option.map_some, hflip, Apart, iff_true]
      exact (erase_own hs hown hbuilds hlive).mpr (clear_of_entry hown hctx hjob)

theorem isolated_step (hs : Tracks s) (hown : Own s) (h : step g s e = some t) : Isolated g s e ↔ Apart g s e := by
  rw [← isolated_iff_apart hs hown h]
  refine ⟨fun hall => hall t h, fun hstep u hu => ?_⟩
  cases h.symm.trans hu
  exact hstep

def sampleSetting : Setting Bool where
  nl := { parse := fun text => (decodeUtf8 text).bind loads, ofDouble := fun _ => 0, boolAsLongLong := true }
  cfg := { agentId := [97], jenkinsUrl := str "http://jenkins" }
  context b :=
    { issue := if b then str "I-2" else str "I-1"
      project := if b then str "web" else str "app"
      jobName := if b then str "web-build" else str "app-build"
      buildNumber := 7
      waitingReview := false }

-- Both jobs are at their seventh build; the first one that ends erases the entry of the other.
def sharedRun : List (Event Bool) := [.agent (.trigger false), .agent (.trigger true), .agent (.finish false)]

end Agent.ActiveBuilds
