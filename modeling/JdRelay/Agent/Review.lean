import JdRelay.Base.Python
import JdRelay.Agent.AgentMain

namespace Agent.Review
open Text Json Runs AgentMain

variable {B : Type} (g : Setting B)

def issueOf (b : B) : Str := (g.context b).issue

def numberOf (b : B) : Int := (g.context b).buildNumber

structure Distinct : Prop where
  issue : Function.Injective (issueOf g)
  number : Function.Injective (numberOf g)

def Callback.asked : Callback B → B → Bool
  | .idle => fun _ => false
  | .releasing asked _ _ => asked
  | .returned asked _ _ => asked

def Answered (s : State B) : Prop :=
  ∀ asked issue outcome, s.callback = .returned asked (.ok issue) outcome →
    ∀ b, asked b = true → issueOf g b = issue →
      (∃ r, outcome = .attempted r ∧ r.issue = issue ∧ r.buildNumber = numberOf g b) ∧ numberOf g b ∉ s.builds

def Reportable : Fetched → Prop
  | none => False
  | some (_, log) => log.ok = true → log.logText ≠ [] → (decodeUtf8 (log.logText.take 2000)).isSome

def Ready (s : State B) : Event B → Prop
  | .verdict plaintext =>
      ∀ issue, verdictIssue g.nl plaintext = .ok issue → ∀ b, s.asked b = true → issueOf g b = issue →
        s.thread b = .marked ∧ numberOf g b ∈ s.builds ∧ ∃ result, verdictResult g.nl plaintext = .ok result
  | .release fetched =>
      ∀ asked wait result, s.callback = .releasing asked wait result → ∀ b, asked b = true →
        issueOf g b = wait.issue → s.client = true ∧ Reportable fetched
  | _ => True

def entryOf (s : State B) (b : B) : BuildContext :=
  { g.context b with waitingReview := decide (s.thread b = .marked) }

structure Inv (s : State B) : Prop where
  entries : ∀ n ctx, s.builds.lookup n = some ctx →
    ∃ b, numberOf g b = n ∧ ctx = entryOf g s b ∧ s.thread b ≠ .notStarted
  requested : ∀ b, s.asked b = true → (s.thread b = .requested ∨ s.thread b = .marked) ∧
    g.cfg.jenkinsUrl ≠ [] ∧ (decodeUtf8 g.cfg.agentId).isSome
  polling : ∀ b, s.thread b = .polling → g.cfg.jenkinsUrl ≠ []
  snapshot : ∀ b, Callback.asked s.callback b = true → s.asked b = true
  releasing : ∀ asked wait result, s.callback = .releasing asked wait result →
    ∃ b, wait.issue = issueOf g b ∧ wait.buildNumber = numberOf g b ∧ s.thread b = .marked ∧ numberOf g b ∉ s.builds

theorem readVerdict_ok {nl : Nlohmann} {plaintext : Bytes} {issue result : Str} :
    readVerdict nl plaintext = .ok (issue, result) ↔
      verdictIssue nl plaintext = .ok issue ∧ verdictResult nl plaintext = .ok result := by
  simp [readVerdict, Python.bind_ok]

theorem lookup_markWaiting (builds : Builds) (n m : Int) :
    (markWaiting builds n).lookup m =
      if m = n then (builds.lookup n).map fun ctx => { ctx with waitingReview := true } else builds.lookup m := by
  unfold markWaiting
  split
  · rename_i hnone
    split
    · subst m; simp [hnone]
    · rfl
  · rename_i ctx hsome
    rw [Dict.lookup_insert_if, hsome, Option.map_some]

theorem findWaiting_some {builds : Builds} {issue : Str} {wait : BuildContext}
    (h : findWaiting builds issue = some wait) :
    ∃ ctx, builds.lookup wait.buildNumber = some ctx ∧ ctx.waitingReview = true ∧ ctx.issue = issue ∧
      wait = { ctx with buildNumber := wait.buildNumber } := by
  obtain ⟨e, he, rfl⟩ := Option.map_eq_some_iff.mp h
  have hmem := List.mem_of_find?_eq_some he
  have hp := List.find?_some he
  simp only [Bool.and_eq_true, decide_eq_true_eq] at hp
  exact ⟨e.2, AList.mem_lookup_iff.mpr hmem, hp.1, hp.2, rfl⟩

theorem findWaiting_none {builds : Builds} {issue : Str} (h : findWaiting builds issue = none) {n : Int}
    {ctx : BuildContext} (hctx : builds.lookup n = some ctx) (hwait : ctx.waitingReview = true) : ctx.issue ≠ issue := by
  rintro rfl
  have hmem : (⟨n, ctx⟩ : Sigma fun _ : Int => BuildContext) ∈ builds.entries := AList.mem_lookup_iff.mp hctx
  have hnone := List.find?_eq_none.mp (Option.map_eq_none_iff.mp h) _ hmem
  simp [hwait] at hnone

variable {g} {s t : State B} {e : Event B}

theorem own_entry (hd : Distinct g) (hs : Inv g s) {b : B} {ctx : BuildContext}
    (h : s.builds.lookup (numberOf g b) = some ctx) : ctx = entryOf g s b ∧ s.thread b ≠ .notStarted := by
  obtain ⟨b', hnumber, hentry, hstarted⟩ := hs.entries _ _ h
  obtain rfl := hd.number hnumber
  exact ⟨hentry, hstarted⟩

theorem mem_insert_of_ne (hd : Distinct g) {b b' : B} {builds : Builds} {ctx : BuildContext} (hne : b' ≠ b)
    (h : numberOf g b' ∈ builds.insert (numberOf g b) ctx) : numberOf g b' ∈ builds :=
  ((AList.mem_insert _).mp h).resolve_left fun heq => hne (hd.number heq)

theorem reviewReqDump_ok {cfg : AgentConfig} {ctx : BuildContext} {text : Str}
    (h : reviewReqDump cfg ctx = .ok text) : (decodeUtf8 cfg.agentId).isSome := by
  simp only [reviewReqDump, Python.bind_ok, dumpString] at h
  obtain ⟨v, hv, -⟩ := h
  cases hdecode : decodeUtf8 cfg.agentId with
  | none => simp [hdecode] at hv
  | some id => rfl

theorem not_asked_of_polling (hs : Inv g s) {b b' : B} (hthread : s.thread b = .polling) (h : s.asked b' = true) :
    b' ≠ b := by
  rintro rfl
  rcases (hs.requested b' h).1 with hp | hp <;> rw [hthread] at hp <;> cases hp

theorem answered_failed {asked : B → Bool} {issue : Except Exn Str} {outcome : Outcome}
    (h : s.callback = .returned asked issue outcome) (hfailed : ∀ r, outcome ≠ .attempted r) :
    Answered g s ↔ ∀ i, issue = .ok i → ∀ b, asked b = true → issueOf g b ≠ i := by
  simp only [Answered, h, Callback.returned.injEq]
  constructor
  · rintro hall i rfl b hb hissue
    obtain ⟨⟨r, hr, -⟩, -⟩ := hall asked i outcome ⟨rfl, rfl, rfl⟩ b hb hissue
    exact hfailed r hr
  · rintro hall _ i _ ⟨rfl, hi, rfl⟩ b hb hissue
    exact absurd hissue (hall i hi b hb)

theorem dump_ok_iff {r : BuildResult} :
    (∃ text, r.dump = .ok text) ↔
      (decodeUtf8 r.agentId).isSome ∧ ∀ snippet ∈ r.logSnippet, (decodeUtf8 snippet).isSome := by
  unfold BuildResult.dump dumpString
  cases decodeUtf8 r.agentId with
  | none => simp [bind, Except.bind]
  | some id =>
      cases hsnippet : r.logSnippet with
      | none => simp [bind, Except.bind]
      | some snippet => cases hdecode : decodeUtf8 snippet <;> simp [bind, Except.bind, Except.map, hdecode]

theorem releaseBuild_attempted {cfg : AgentConfig} {client : Bool} {fetched : Fetched} {wait : BuildContext}
    {result : Str} (hurl : cfg.jenkinsUrl ≠ []) (hid : (decodeUtf8 cfg.agentId).isSome) :
    (∃ r, releaseBuild cfg client fetched wait result = .attempted r) ↔ client = true ∧ Reportable fetched := by
  unfold releaseBuild
  rw [if_neg hurl]
  cases fetched with
  | none => simp [Reportable]
  | some pair =>
      obtain ⟨st, log⟩ := pair
      have hdump : (∃ text, (buildResult cfg wait result st log).dump = .ok text) ↔ Reportable (some (st, log)) := by
        rw [dump_ok_iff]
        simp only [buildResult, hid, true_and, Reportable]
        cases hok : log.ok with
        | false => simp
        | true => by_cases htext : log.logText = [] <;> simp [htext]
      rw [← hdump]
      cases client with
      | false => simp
      | true => cases hr : (buildResult cfg wait result st log).dump <;> simp [hr]

theorem attempted_eq {cfg : AgentConfig} {client : Bool} {fetched : Fetched} {wait : BuildContext} {result : Str}
    {r : BuildResult} (h : releaseBuild cfg client fetched wait result = .attempted r) :
    ∃ st log, r = buildResult cfg wait result st log := by
  unfold releaseBuild at h
  split at h
  · cases h
  · split at h
    · cases h
    · simp only at h
      split at h
      · cases h
      · split at h
        · cases h
        · cases h
          exact ⟨_, _, rfl⟩

theorem attempted_wait {cfg : AgentConfig} {client : Bool} {fetched : Fetched} {wait : BuildContext} {result : Str}
    {r : BuildResult} (h : releaseBuild cfg client fetched wait result = .attempted r) :
    r.issue = wait.issue ∧ r.buildNumber = wait.buildNumber := by
  obtain ⟨st, log, rfl⟩ := attempted_eq h
  exact ⟨rfl, rfl⟩

variable [DecidableEq B]

theorem inv_init : Inv g (machine g).init where
  entries := fun n ctx h => by simp [machine] at h
  requested := fun b h => by cases h
  polling := fun b h => by cases h
  snapshot := fun b h => by cases h
  releasing := fun asked wait result h => by cases h

theorem entries_update (hs : Inv g s) {b : B} {p : Thread} {builds : Builds}
    (hother : ∀ n, n ≠ numberOf g b → builds.lookup n = s.builds.lookup n)
    (hown : ∀ ctx, builds.lookup (numberOf g b) = some ctx →
      ctx = { g.context b with waitingReview := decide (p = .marked) } ∧ p ≠ .notStarted) :
    ∀ n ctx, builds.lookup n = some ctx →
      ∃ b', numberOf g b' = n ∧
        ctx = entryOf g { s with builds, thread := Function.update s.thread b p } b' ∧
        Function.update s.thread b p b' ≠ .notStarted := by
  intro n ctx hctx
  by_cases hn : n = numberOf g b
  · subst hn
    obtain ⟨hentry, hp⟩ := hown ctx hctx
    exact ⟨b, rfl, by simpa [entryOf] using hentry, by simpa using hp⟩
  · rw [hother n hn] at hctx
    obtain ⟨b', rfl, hentry, hstarted⟩ := hs.entries n ctx hctx
    have hne : b' ≠ b := fun h => hn (h ▸ rfl)
    exact ⟨b', rfl, by simpa [entryOf, hne] using hentry, by simpa [hne] using hstarted⟩

theorem requested_update (hs : Inv g s) {b : B} {p : Thread} (hp : s.asked b = true → p = .requested ∨ p = .marked) :
    ∀ b', s.asked b' = true →
      (Function.update s.thread b p b' = .requested ∨ Function.update s.thread b p b' = .marked) ∧
        g.cfg.jenkinsUrl ≠ [] ∧ (decodeUtf8 g.cfg.agentId).isSome := by
  intro b' hasked
  refine ⟨?_, (hs.requested b' hasked).2⟩
  by_cases hne : b' = b
  · subst hne
    simpa using hp hasked
  · simpa [hne] using (hs.requested b' hasked).1

theorem polling_update (hs : Inv g s) {b : B} {p : Thread} (hp : p = .polling → g.cfg.jenkinsUrl ≠ []) :
    ∀ b', Function.update s.thread b p b' = .polling → g.cfg.jenkinsUrl ≠ [] := by
  intro b' h
  by_cases hne : b' = b
  · subst hne
    exact hp (by simpa using h)
  · exact hs.polling b' (by simpa [hne] using h)

theorem releasing_update (hs : Inv g s) {b : B} {p : Thread} {builds : Builds} (hp : s.thread b = .marked → p = .marked)
    (hbuilds : ∀ b', s.thread b' = .marked → numberOf g b' ∈ builds → numberOf g b' ∈ s.builds) :
    ∀ asked wait result, s.callback = .releasing asked wait result →
      ∃ b', wait.issue = issueOf g b' ∧ wait.buildNumber = numberOf g b' ∧
        Function.update s.thread b p b' = .marked ∧ numberOf g b' ∉ builds := by
  intro asked wait result hcallback
  obtain ⟨b', hissue, hnumber, hmarked, hgone⟩ := hs.releasing asked wait result hcallback
  refine ⟨b', hissue, hnumber, ?_, fun hmem => hgone (hbuilds b' hmarked hmem)⟩
  by_cases hne : b' = b
  · subst hne
    simpa using hp hmarked
  · simpa [hne] using hmarked

theorem mem_markWaiting {builds : Builds} {n m : Int} : m ∈ markWaiting builds n ↔ m ∈ builds := by
  rw [← AList.lookup_isSome, ← AList.lookup_isSome, lookup_markWaiting]
  split
  · subst m; simp
  · rfl

theorem inv_trigger (hd : Distinct g) (hs : Inv g s) {b : B} (h : step g s (.trigger b) = some t) : Inv g t := by
  have hmarked {b' : B} (hthread : s.thread b = .notStarted) (hp : s.thread b' = .marked) : b' ≠ b := by
    rintro rfl
    rw [hthread] at hp
    cases hp
  have hasked (hthread : s.thread b = .notStarted) : s.asked b = true → False := fun hasked => by
    rcases (hs.requested b hasked).1 with hp | hp <;> rw [hthread] at hp <;> cases hp
  cases moves_of_step h with
  | dropped hthread =>
      exact
        { entries := entries_update hs (fun _ _ => rfl) fun ctx hctx => absurd hthread (own_entry hd hs hctx).2
          requested := requested_update hs fun h => (hasked hthread h).elim
          polling := polling_update hs nofun
          snapshot := hs.snapshot
          releasing := releasing_update hs (fun h => absurd rfl (hmarked hthread h)) fun _ _ h => h }
  | started hthread _ hbuild =>
      refine
        { entries := entries_update hs (fun n hn => AList.lookup_insert_ne hn) fun ctx hctx => ?_
          requested := requested_update hs fun h => (hasked hthread h).elim
          polling := polling_update hs fun _ hurl => hbuild (.inl hurl)
          snapshot := hs.snapshot
          releasing := releasing_update hs (fun h => absurd rfl (hmarked hthread h)) fun b' hp h =>
            mem_insert_of_ne hd (hmarked hthread hp) h }
      rw [show (g.context b).buildNumber = numberOf g b from rfl, AList.lookup_insert] at hctx
      cases hctx
      exact ⟨rfl, nofun⟩

theorem inv_request (hd : Distinct g) (hs : Inv g s) {b : B} {sent : Bool} (h : step g s (.request b sent) = some t) :
    Inv g t := by
  cases moves_of_step h with
  | requested hthread hdump =>
      have hurl := hs.polling b hthread
      have hid := reviewReqDump_ok hdump
      refine
        { entries := entries_update hs (fun _ _ => rfl) fun ctx hctx => ?_
          requested := fun b' hb' => ?_
          polling := polling_update hs nofun
          snapshot := fun b' hb' => ?_
          releasing := releasing_update hs (fun h => by rw [hthread] at h; cases h) fun _ _ h => h }
      · rw [(own_entry hd hs hctx).1, entryOf, hthread]
        exact ⟨rfl, nofun⟩
      · by_cases hne : b' = b
        · subst hne
          exact ⟨.inl (Function.update_self ..), hurl, hid⟩
        · simp only [Function.update_of_ne hne] at hb' ⊢
          exact hs.requested b' hb'
      · have hb := hs.snapshot b' hb'
        have hne := not_asked_of_polling hs hthread hb
        simpa [hne] using hb

theorem inv_mark (hd : Distinct g) (hs : Inv g s) {b : B} (h : step g s (.mark b) = some t) : Inv g t := by
  cases moves_of_step h with
  | marked =>
      refine
        { entries := entries_update hs (fun n hn => ?_) fun ctx hctx => ?_
          requested := requested_update hs fun _ => .inr rfl
          polling := polling_update hs nofun
          snapshot := hs.snapshot
          releasing := releasing_update hs (fun _ => rfl) fun _ _ h => mem_markWaiting.mp h }
      · rw [lookup_markWaiting]
        exact if_neg hn
      · rw [show (g.context b).buildNumber = numberOf g b from rfl, lookup_markWaiting, if_pos rfl] at hctx
        obtain ⟨old, hold, rfl⟩ := Option.map_eq_some_iff.mp hctx
        rw [(own_entry hd hs hold).1]
        exact ⟨rfl, nofun⟩

theorem inv_finish (hs : Inv g s) {b : B} (h : step g s (.finish b) = some t) : Inv g t := by
  cases moves_of_step h with
  | finished hthread =>
      refine
        { entries := entries_update hs (fun n hn => AList.lookup_erase_ne hn) fun ctx hctx => ?_
          requested := requested_update hs fun h => absurd rfl (not_asked_of_polling hs hthread h)
          polling := polling_update hs nofun
          snapshot := hs.snapshot
          releasing := releasing_update hs (fun h => by rw [hthread] at h; cases h) fun b' _ h =>
            (AList.mem_erase.mp h).2 }
      rw [show (g.context b).buildNumber = numberOf g b from rfl, AList.lookup_erase] at hctx
      cases hctx

theorem inv_verdict (hs : Inv g s) {plaintext : Bytes} (h : step g s (.verdict plaintext) = some t) : Inv g t := by
  cases moves_of_step h with
  | unread | unfound => exact ⟨hs.entries, hs.requested, hs.polling, fun _ hb => hb, fun _ _ _ h => by cases h⟩
  | @taken _ _ _ wait _ _ hfind =>
      obtain ⟨ctx, hctx, hwaiting, hissue, hwait⟩ := findWaiting_some hfind
      obtain ⟨b, hnumber, rfl, -⟩ := hs.entries _ _ hctx
      refine ⟨fun n ctx hctx => ?_, hs.requested, hs.polling, fun _ hb => hb, ?_⟩
      · rw [Dict.lookup_erase_if] at hctx
        split at hctx
        · cases hctx
        · exact hs.entries n ctx hctx
      · intro asked wait' result hcallback
        cases hcallback
        have hwaitIssue : wait.issue = issueOf g b := (congrArg BuildContext.issue hwait : _)
        refine ⟨b, hwaitIssue, hnumber.symm, of_decide_eq_true hwaiting, ?_⟩
        rw [hnumber]
        exact fun hmem => (AList.mem_erase.mp hmem).1 rfl

theorem inv_release (hs : Inv g s) {fetched : Fetched} (h : step g s (.release fetched) = some t) : Inv g t := by
  cases moves_of_step h with
  | released hcallback =>
      exact ⟨hs.entries, hs.requested, hs.polling, fun b hb => hs.snapshot b (by rwa [hcallback]),
        fun _ _ _ h => by cases h⟩

theorem inv_step (hd : Distinct g) (hs : Inv g s) (h : step g s e = some t) : Inv g t := by
  cases e with
  | trigger b => exact inv_trigger hd hs h
  | request b sent => exact inv_request hd hs h
  | mark b => exact inv_mark hd hs h
  | finish b => exact inv_finish hs h
  | verdict plaintext => exact inv_verdict hs h
  | release fetched => exact inv_release hs h
  | shutdown =>
      cases h
      exact ⟨hs.entries, hs.requested, hs.polling, hs.snapshot, hs.releasing⟩

theorem frame_step (h : step g s e = some t) (hverdict : ∀ plaintext, e ≠ .verdict plaintext)
    (hrelease : ∀ fetched, e ≠ .release fetched) :
    t.callback = s.callback ∧ ∀ n ∈ t.builds, n ∈ s.builds ∨ ∃ b, numberOf g b = n ∧ s.thread b = .notStarted := by
  cases moves_of_step h with
  | dropped | requested | shutdown => exact ⟨rfl, fun n hn => .inl hn⟩
  | @started b hthread =>
      refine ⟨rfl, fun n hn => ?_⟩
      rcases (AList.mem_insert _).mp hn with rfl | hn
      · exact .inr ⟨b, rfl, hthread⟩
      · exact .inl hn
  | marked => exact ⟨rfl, fun n hn => .inl (mem_markWaiting.mp hn)⟩
  | finished => exact ⟨rfl, fun n hn => .inl (AList.mem_erase.mp hn).2⟩
  | unread | unfound | taken => exact absurd rfl (hverdict _)
  | released => exact absurd rfl (hrelease _)

theorem answered_frame (hd : Distinct g) (hs : Inv g s) (hanswered : Answered g s) (h : step g s e = some t)
    (hverdict : ∀ plaintext, e ≠ .verdict plaintext) (hrelease : ∀ fetched, e ≠ .release fetched) :
    Answered g t := by
  obtain ⟨hcallback, hbuilds⟩ := frame_step h hverdict hrelease
  intro asked issue outcome hreturned b hb hissue
  rw [hcallback] at hreturned
  obtain ⟨hattempt, hgone⟩ := hanswered asked issue outcome hreturned b hb hissue
  refine ⟨hattempt, fun hmem => ?_⟩
  rcases hbuilds _ hmem with hmem | ⟨b', hnumber, hthread⟩
  · exact hgone hmem
  · obtain rfl := hd.number hnumber
    have hasked := hs.snapshot b' (by rwa [hreturned])
    rcases (hs.requested b' hasked).1 with hp | hp <;> rw [hthread] at hp <;> cases hp

theorem answered_verdict (hd : Distinct g) (hs : Inv g s) {plaintext : Bytes}
    (h : step g s (.verdict plaintext) = some t) : Answered g t ↔ Ready g s (.verdict plaintext) := by
  cases moves_of_step h with
  | unread _ hread =>
      rw [answered_failed rfl fun _ h => by cases h]
      refine forall₂_congr fun issue hissue => forall₂_congr fun b hb => ?_
      refine ⟨fun hne heq => absurd heq hne, fun hready heq => ?_⟩
      obtain ⟨-, -, result, hresult⟩ := hready heq
      cases hread.symm.trans (readVerdict_ok.mpr ⟨hissue, hresult⟩)
  | unfound _ hread hfind =>
      obtain ⟨hissue, hresult⟩ := readVerdict_ok.mp hread
      rw [answered_failed rfl fun _ h => by cases h]
      constructor
      · rintro hall issue' hissue' b hb rfl
        cases hissue.symm.trans hissue'
        exact absurd rfl (hall _ rfl b hb)
      · rintro hready i hi b hb hb'
        cases hi
        obtain ⟨hmarked, hmem, -⟩ := hready _ hissue b hb hb'
        obtain ⟨ctx, hctx⟩ := Option.isSome_iff_exists.mp (AList.lookup_isSome.mpr hmem)
        obtain ⟨rfl, -⟩ := own_entry hd hs hctx
        exact findWaiting_none hfind hctx (decide_eq_true hmarked) hb'
  | @taken _ issue result _ _ hread hfind =>
      obtain ⟨hissue, hresult⟩ := readVerdict_ok.mp hread
      refine iff_of_true (fun _ _ _ h => by cases h) fun issue' hissue' b hb hb' => ?_
      cases hissue.symm.trans hissue'
      obtain ⟨ctx, hctx, hwaiting, hctxIssue, -⟩ := findWaiting_some hfind
      obtain ⟨b', hnumber, rfl, -⟩ := hs.entries _ _ hctx
      obtain rfl : b' = b := hd.issue (hctxIssue.trans hb'.symm)
      refine ⟨of_decide_eq_true hwaiting, ?_, result, hresult⟩
      rw [hnumber]
      exact AList.lookup_isSome.mp (by rw [hctx]; rfl)

theorem answered_release (hd : Distinct g) (hs : Inv g s) {fetched : Fetched}
    (h : step g s (.release fetched) = some t) : Answered g t ↔ Ready g s (.release fetched) := by
  cases moves_of_step h with
  | @released _ asked wait result hcallback =>
      obtain ⟨b, hissue, hnumber, hmarked, hgone⟩ := hs.releasing asked wait result hcallback
      have hown : ∀ b', issueOf g b' = wait.issue → b' = b := fun b' h => hd.issue (h.trans hissue)
      constructor
      · intro hanswered asked' wait' result' hcallback' b' hb' hissue'
        cases hcallback.symm.trans hcallback'
        obtain ⟨-, hurl, hid⟩ := hs.requested b' (hs.snapshot b' (by rwa [hcallback]))
        obtain ⟨⟨r, hr, -⟩, -⟩ := hanswered asked wait.issue _ rfl b' hb' hissue'
        exact (releaseBuild_attempted hurl hid).mp ⟨r, hr⟩
      · intro hready asked' issue' outcome' hreturned b' hb' hissue'
        cases hreturned
        obtain rfl := hown b' hissue'
        obtain ⟨-, hurl, hid⟩ := hs.requested b' (hs.snapshot b' (by rwa [hcallback]))
        have hclient := hready asked wait result hcallback b' hb' hissue'
        obtain ⟨r, hr⟩ := (releaseBuild_attempted hurl hid).mpr hclient
        obtain ⟨hrIssue, hrNumber⟩ := attempted_wait hr
        exact ⟨⟨r, hr, hrIssue, hrNumber.trans hnumber⟩, hgone⟩

theorem answered_step (hd : Distinct g) (hs : Inv g s) (hanswered : Answered g s) (h : step g s e = some t) :
    Answered g t ↔ Ready g s e := by
  cases e with
  | verdict plaintext => exact answered_verdict hd hs h
  | release fetched => exact answered_release hd hs h
  | _ => exact iff_of_true (answered_frame hd hs hanswered h nofun nofun) trivial

theorem verdict_answered_iff (hd : Distinct g) {es : List (Event B)} (hrun : (machine g).IsRun es) :
    (machine g).Always (Answered g) (machine g).init es ↔ (machine g).Guarded (Ready g) (machine g).init es :=
  (machine g).always_iff_guarded (fun hs h => inv_step hd hs h) (fun hs hp h => answered_step hd hs hp h) inv_init
    (fun _ _ _ h => by cases h) hrun

def sampleSetting : Setting Bool where
  nl := { parse := fun text => (decodeUtf8 text).bind loads, ofDouble := fun _ => 0, boolAsLongLong := true }
  cfg := { agentId := [97], jenkinsUrl := str "http://jenkins" }
  context b :=
    { issue := if b then str "I-2" else str "I-1"
      project := str "app"
      jobName := str "app-build"
      buildNumber := if b then 42 else 41
      waitingReview := false }

theorem sample_distinct : Distinct sampleSetting where
  issue := fun b b' => by revert b b'; decide
  number := fun b b' => by revert b b'; decide

def approval : Bytes :=
  ((encodeUtf8 (str "\x7b\"issue\":\"I-1\",\"result\":\"APPROVED\"\x7d")).getD [])

def otherApproval : Bytes :=
  ((encodeUtf8 (str "\x7b\"issue\":\"I-2\",\"result\":\"APPROVED\"\x7d")).getD [])

def fetchedLog : Fetched := some (⟨true, .success⟩, ⟨true, [111, 107]⟩)

def reviewedRun : List (Event Bool) :=
  [.trigger false, .trigger true, .request false true, .request true true, .mark false, .verdict approval, .mark true,
    .release fetchedLog]

theorem verdict_answered_iff_reviewedRun :
    (machine sampleSetting).Always (Answered sampleSetting) (machine sampleSetting).init reviewedRun ↔
      (machine sampleSetting).Guarded (Ready sampleSetting) (machine sampleSetting).init reviewedRun :=
  verdict_answered_iff sample_distinct (by decide +kernel)

-- The answer comes back between the send and the locked block: the build waits for ever.
def earlyRun : List (Event Bool) := [.trigger false, .request false true, .verdict approval]

def returnedFor (b : B) (s : State B) : Option (Bool × Except Exn Str × Outcome) :=
  match s.callback with
  | .returned asked issue outcome => some (asked b, issue, outcome)
  | _ => none

theorem early_verdict_lost :
    (machine sampleSetting).IsRun earlyRun ∧
      ¬ (machine sampleSetting).Always (Answered sampleSetting) (machine sampleSetting).init earlyRun := by
  refine ⟨by decide +kernel, fun h => ?_⟩
  have hreturned : ((machine sampleSetting).exec (machine sampleSetting).init earlyRun).map (returnedFor false) =
      some (some (true, .ok (str "I-1"), .noWaitingBuild)) := by decide +kernel
  obtain ⟨t, ht, hfor⟩ := Option.map_eq_some_iff.mp hreturned
  have hanswered := (machine sampleSetting).always_exec h ht
  unfold returnedFor at hfor
  split at hfor
  · rename_i asked issue outcome hcallback
    simp only [Option.some.injEq, Prod.mk.injEq] at hfor
    obtain ⟨hasked, rfl, rfl⟩ := hfor
    obtain ⟨⟨r, hr, -⟩, -⟩ := hanswered _ _ _ hcallback false hasked rfl
    cases hr
  · cases hfor

end Agent.Review
