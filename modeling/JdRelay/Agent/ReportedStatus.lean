import JdRelay.Agent.TriggerReport

namespace Agent.ReportedStatus
open Text Json AgentMain Jenkins BuildPoll TriggerReport

def jenkinsResults : List Str := str "UNSTABLE" :: finalResults

def statusFor (result : Str) : Option Str :=
  [(str "SUCCESS", str "SUCCESS"), (str "FAILURE", str "FAILED"), (str "ABORTED", str "ABORTED"),
    (str "NOT_BUILT", str "NOT_BUILT")].lookup result

variable (c : Client)

def StillBuilding (response : Response) : Prop :=
  ∃ body fields, httpGet response = (body, []) ∧ c.nl.parse body = some (.obj fields) ∧
    lookup? fields (str "building") = some (.bool true)

structure Completed (response : Response) (result : Str) : Prop where
  listed : result ∈ jenkinsResults
  closed : Closed c response result
  ended : ¬ StillBuilding c response

def NoneCompleted (replies : List Response) : Prop := ∀ r ∈ replies, ∀ result, ¬ Completed c r result

def OnCompletion (replies : List Response) (result : Str) : Prop :=
  ∃ before reply after, replies = before ++ reply :: after ∧ NoneCompleted c before ∧ Completed c reply result

inductive Heard (due : Int) : List Round → List Response → Option Round → Prop where
  | left {round : Round} {rounds : List Round} (h : ¬ Live due round) : Heard due (round :: rounds) [] (some round)
  | closed {round : Round} {rounds : List Round} (h : Live due round) (hfinal : Final c round.response) :
      Heard due (round :: rounds) [round.response] none
  | later {round : Round} {rounds : List Round} {replies : List Response} {exit : Option Round} (h : Live due round)
      (hopen : ¬ Final c round.response) (hrest : Heard due rounds replies exit) :
      Heard due (round :: rounds) (round.response :: replies) exit

def Faithful (due : Int) (replies : List Response) (exit : Option Round) (status : Str) : Prop :=
  (∃ result, OnCompletion c replies result ∧ statusFor result = some status) ∨
    status = str "ABORTED" ∧ (∃ round, exit = some round ∧ due ≤ round.now) ∧ NoneCompleted c replies

structure Plain (due : Int) (replies : List Response) (exit : Option Round) : Prop where
  listed : ∀ r ∈ replies, ¬ Completed c r (str "UNSTABLE")
  ended : exit = none → ∀ r ∈ replies.getLast?, ¬ StillBuilding c r
  late : ∀ round, exit = some round → due ≤ round.now

def ReportsJenkins (cfg : PollConfig) (run : PollRun) (status : Str) : Prop :=
  ∃ replies exit, Heard c (deadline cfg run) run.rounds replies exit ∧
    Faithful c (deadline cfg run) replies exit status

def EndsPlainly (cfg : PollConfig) (run : PollRun) : Prop :=
  ∃ replies exit, Heard c (deadline cfg run) run.rounds replies exit ∧ Plain c (deadline cfg run) replies exit

section Specs

variable {c} {cfg : PollConfig} {n due : Int} {rounds : List Round} {response : Response}

theorem heard_unique {replies replies' : List Response} {exit exit' : Option Round} (h : Heard c due rounds replies exit)
    (h' : Heard c due rounds replies' exit') : replies = replies' ∧ exit = exit' := by
  induction h generalizing replies' exit' with
  | left hleft =>
      cases h' with
      | left => exact ⟨rfl, rfl⟩
      | closed hlive => exact absurd hlive hleft
      | later hlive => exact absurd hlive hleft
  | closed hlive hfinal =>
      cases h' with
      | left hleft => exact absurd hlive hleft
      | closed => exact ⟨rfl, rfl⟩
      | later _ hopen => exact absurd hfinal hopen
  | later hlive hopen _ ih =>
      cases h' with
      | left hleft => exact absurd hlive hleft
      | closed _ hfinal => exact absurd hfinal hopen
      | later _ _ hrest =>
          obtain ⟨rfl, rfl⟩ := ih hrest
          exact ⟨rfl, rfl⟩

theorem pollLoop_heard {done : Option Jenkins.BuildStatusResult} (h : pollLoop c n due rounds = some done) :
    (∃ before reply result, Heard c due rounds (before ++ [reply]) none ∧ (∀ r ∈ before, ¬ Final c r) ∧
      result ∈ finalResults ∧ Closed c reply result ∧ (finalStatus done).status = parseBuildResult result) ∨
    (∃ replies round, Heard c due rounds replies (some round) ∧ (∀ r ∈ replies, ¬ Final c r) ∧ done = none) := by
  induction rounds with
  | nil => cases h
  | cons round rounds ih =>
      by_cases hlive : Live due round
      · rw [pollLoop_live hlive] at h
        split at h
        · rename_i hends
          cases h
          have hfinal : Final c round.response := final_iff.mpr hends
          obtain ⟨hunknown, hbuilding⟩ := final_ne hends.2
          obtain ⟨result, hst, hclosed⟩ := (getBuildStatus_gives hunknown hbuilding).mp ⟨hends.1, rfl⟩
          have hlisted : result ∈ finalResults := parseBuildResult_final.mp (hst ▸ hends.2)
          exact .inl ⟨[], round.response, result, .closed hlive hfinal, List.forall_mem_nil _, hlisted, hclosed, hst.symm⟩
        · rename_i hopen
          have hopen : ¬ Final c round.response := fun hfinal => hopen (final_iff.mp hfinal)
          rcases ih h with ⟨before, reply, result, hheard, hbefore, hrest⟩ | ⟨replies, exit, hheard, hreplies, hdone⟩
          · exact .inl ⟨round.response :: before, reply, result, .later hlive hopen hheard,
              List.forall_mem_cons.mpr ⟨hopen, hbefore⟩, hrest⟩
          · exact .inr ⟨round.response :: replies, exit, .later hlive hopen hheard,
              List.forall_mem_cons.mpr ⟨hopen, hreplies⟩, hdone⟩
      · rw [pollLoop, if_neg (by simpa [Live] using hlive)] at h
        exact .inr ⟨[], round, .left hlive, List.forall_mem_nil _, (Option.some.inj h).symm⟩

theorem closed_unique {a b : Str} (ha : Closed c response a) (hb : Closed c response b) : a = b := by
  obtain ⟨body, fields, hbody, hparse, hresult, -⟩ := ha
  obtain ⟨body', fields', hbody', hparse', hresult', -⟩ := hb
  obtain ⟨rfl, -⟩ := Prod.mk.inj (hbody.symm.trans hbody')
  obtain rfl : fields = fields' := Value.obj.inj (Option.some.inj (hparse.symm.trans hparse'))
  exact Value.str.inj (Option.some.inj (hresult.symm.trans hresult'))

theorem statusFor_final {result : Str} (h : result ∈ finalResults) :
    statusFor result = some (parseBuildResult result).toString := by
  simp only [finalResults, List.mem_cons, List.not_mem_nil, or_false] at h
  rcases h with rfl | rfl | rfl | rfl <;> decide

theorem statusFor_unstable : statusFor (str "UNSTABLE") = none := by decide

theorem final_of_completed {result status : Str} (h : Completed c response result) (hs : statusFor result = some status) :
    Final c response := by
  rcases List.mem_cons.mp h.listed with rfl | hfinal
  · rw [statusFor_unstable] at hs
    cases hs
  · exact ⟨result, hfinal, h.closed⟩

theorem noneCompleted_iff {replies : List Response} (hopen : ∀ r ∈ replies, ¬ Final c r) :
    NoneCompleted c replies ↔ ∀ r ∈ replies, ¬ Completed c r (str "UNSTABLE") := by
  refine ⟨fun h r hr => h r hr _, fun h r hr result hcompleted => ?_⟩
  rcases List.mem_cons.mp hcompleted.listed with rfl | hfinal
  · exact h r hr hcompleted
  · exact hopen r hr ⟨result, hfinal, hcompleted.closed⟩

theorem last_of_split {before b a : List Response} {reply r : Response} (h : before ++ [reply] = b ++ r :: a)
    (hopen : ∀ x ∈ before, ¬ Final c x) (hr : Final c r) : b = before ∧ r = reply := by
  rcases List.eq_nil_or_concat a with rfl | ⟨a, x, rfl⟩
  · obtain ⟨hb, hr⟩ := List.append_inj' h rfl
    exact ⟨hb.symm, (List.singleton_inj.mp hr).symm⟩
  · have hsplit : before ++ [reply] = (b ++ r :: a) ++ [x] := by simpa using h
    obtain ⟨hb, -⟩ := List.append_inj' hsplit rfl
    exact absurd hr (hopen r (by simp [hb]))

theorem faithful_closed_iff {before : List Response} {reply : Response} {result : Str} (hopen : ∀ r ∈ before, ¬ Final c r)
    (hfinal : result ∈ finalResults) (hclosed : Closed c reply result) :
    Faithful c due (before ++ [reply]) none (parseBuildResult result).toString ↔ Plain c due (before ++ [reply]) none := by
  constructor
  · rintro (⟨found, ⟨b, r, a, heq, hnone, hcompleted⟩, hstatus⟩ | ⟨-, ⟨round, hexit, -⟩, -⟩)
    · obtain ⟨rfl, rfl⟩ := last_of_split heq hopen (final_of_completed hcompleted hstatus)
      refine ⟨fun x hx hunstable => ?_, fun _ x hx => ?_, fun round hexit => by cases hexit⟩
      · rcases List.mem_append.mp hx with hx | hx
        · exact hnone x hx _ hunstable
        · obtain rfl := List.mem_singleton.mp hx
          rw [closed_unique hcompleted.closed hunstable.closed, statusFor_unstable] at hstatus
          cases hstatus
      · rw [List.getLast?_concat, Option.mem_some_iff] at hx
        exact hx ▸ hcompleted.ended
    · cases hexit
  · intro h
    have hnone : NoneCompleted c before :=
      (noneCompleted_iff hopen).mpr fun r hr => h.listed r (List.mem_append_left _ hr)
    have hended : ¬ StillBuilding c reply := h.ended rfl reply (by simp)
    exact .inl ⟨result, ⟨before, reply, [], rfl, hnone, List.mem_cons_of_mem _ hfinal, hclosed, hended⟩, statusFor_final hfinal⟩

theorem faithful_left_iff {replies : List Response} {round : Round} (hopen : ∀ r ∈ replies, ¬ Final c r) :
    Faithful c due replies (some round) (str "ABORTED") ↔ Plain c due replies (some round) := by
  constructor
  · rintro (⟨result, ⟨b, r, a, heq, -, hcompleted⟩, hstatus⟩ | ⟨-, ⟨exit, hexit, hlate⟩, hnone⟩)
    · exact absurd (final_of_completed hcompleted hstatus) (hopen r (by simp [heq]))
    · cases hexit
      exact ⟨(noneCompleted_iff hopen).mp hnone, fun h => (by cases h), fun round h => (by cases h; exact hlate)⟩
  · intro h
    exact .inr ⟨rfl, ⟨round, rfl, h.late round rfl⟩, (noneCompleted_iff hopen).mpr h.listed⟩

theorem exists_heard_iff {replies : List Response} {exit : Option Round} {P : List Response → Option Round → Prop}
    (h : Heard c due rounds replies exit) : (∃ xs e, Heard c due rounds xs e ∧ P xs e) ↔ P replies exit := by
  constructor
  · rintro ⟨xs, e, hheard, hP⟩
    obtain ⟨rfl, rfl⟩ := heard_unique h hheard
    exact hP
  · exact fun hP => ⟨replies, exit, h, hP⟩

theorem reports_jenkins_iff {run : PollRun} {r : PollResult} (h : buildPollThread c cfg run = .reported r) :
    ReportsJenkins c cfg run r.status ↔ EndsPlainly c cfg run := by
  obtain ⟨done, hdone, hstatus⟩ := reported_status h
  rw [hstatus]
  rcases pollLoop_heard hdone with ⟨before, reply, result, hheard, hopen, hfinal, hclosed, hst⟩ |
    ⟨replies, round, hheard, hopen, rfl⟩
  · rw [ReportsJenkins, EndsPlainly, exists_heard_iff hheard, exists_heard_iff hheard, hst]
    exact faithful_closed_iff hopen hfinal hclosed
  · rw [ReportsJenkins, EndsPlainly, exists_heard_iff hheard, exists_heard_iff hheard]
    exact faithful_left_iff hopen

end Specs

def plainBody (text : String) : Bytes := text.toList.map fun ch => UInt8.ofNat ch.toNat

def inProgress : Response := .answered 200 (plainBody "\x7b\"building\":true\x7d")

def unstable : Response := .answered 200 (plainBody "\x7b\"building\":false,\"result\":\"UNSTABLE\"\x7d")

def succeeded : Response := .answered 200 (plainBody "\x7b\"building\":false,\"result\":\"SUCCESS\"\x7d")

def runOf (rounds : List Round) : PollRun where
  ctx := ⟨str "I-1", str "app", str "app-build", 7, false⟩
  curl := true
  started := 0
  rounds := rounds
  log := .answered 200 []
  diff := none
  client := true

def stoppedRun : PollRun := runOf [⟨true, 1000000000, inProgress⟩, ⟨false, 6000000000, inProgress⟩]

-- The build ends UNSTABLE, and the loop asks on until the deadline.
def unstableRun : PollRun :=
  runOf [⟨true, 1000000000, inProgress⟩, ⟨true, 6000000000, unstable⟩, ⟨true, 60000000000, unstable⟩]

def successRun : PollRun := runOf [⟨true, 1000000000, inProgress⟩, ⟨true, 6000000000, succeeded⟩]

def reportedStatus : PollEnd → Option Str
  | .reported r => some r.status
  | _ => none

theorem reported_of_status {e : PollEnd} {status : Str} (h : reportedStatus e = some status) :
    ∃ r, e = .reported r ∧ r.status = status := by
  cases e with
  | reported r => exact ⟨r, rfl, Option.some.inj h⟩
  | _ => cases h

def unstableFields : List (Str × Value) :=
  [(str "building", .bool false), (str "result", .str (str "UNSTABLE"))]

theorem samples_read :
    (∀ r ∈ [inProgress, unstable], ¬ ((getBuildStatus sampleClient 7 r).ok = true ∧
      (getBuildStatus sampleClient 7 r).status ∈ [.success, .failed, .aborted, .notBuilt])) ∧
    sampleClient.nl.parse (httpGet unstable).1 = some (.obj unstableFields) ∧
    reportedStatus (buildPollThread sampleClient sampleConfig stoppedRun) = some (str "ABORTED") ∧
    reportedStatus (buildPollThread sampleClient sampleConfig unstableRun) = some (str "ABORTED") ∧
    reportedStatus (buildPollThread sampleClient sampleConfig successRun) = some (str "SUCCESS") := by
  decide +kernel

theorem samples_open : ∀ r ∈ [inProgress, unstable], ¬ Final sampleClient r :=
  fun r hr => mt (final_iff (n := 7)).mp (samples_read.1 r hr)

theorem open_inProgress : ¬ Final sampleClient inProgress := samples_open _ List.mem_cons_self

theorem parse_unstable : sampleClient.nl.parse (httpGet unstable).1 = some (.obj unstableFields) := samples_read.2.1

theorem completed_unstable : Completed sampleClient unstable (str "UNSTABLE") where
  listed := List.mem_cons_self
  closed := ⟨_, unstableFields, rfl, parse_unstable, by decide, by decide, by decide⟩
  ended := by
    rintro ⟨body, fields, hbody, hparse, hbuilding⟩
    obtain ⟨rfl, -⟩ := Prod.mk.inj hbody
    obtain rfl : unstableFields = fields := Value.obj.inj (Option.some.inj (parse_unstable.symm.trans hparse))
    revert hbuilding
    decide

theorem heard_stopped : Heard sampleClient (deadline sampleConfig stoppedRun) stoppedRun.rounds [inProgress]
    (some ⟨false, 6000000000, inProgress⟩) :=
  .later ⟨rfl, by decide⟩ open_inProgress (.left fun h => Bool.false_ne_true h.1)

theorem heard_unstable : Heard sampleClient (deadline sampleConfig unstableRun) unstableRun.rounds [inProgress, unstable]
    (some ⟨true, 60000000000, unstable⟩) :=
  .later ⟨rfl, by decide⟩ open_inProgress
    (.later ⟨rfl, by decide⟩ (samples_open _ (by simp)) (.left fun h => absurd h.2 (by decide)))

theorem aborted_stands_for_nothing :
    (reportedStatus (buildPollThread sampleClient sampleConfig stoppedRun) =
        some (str "ABORTED") ∧
      ¬ ReportsJenkins sampleClient sampleConfig stoppedRun (str "ABORTED")) ∧
    (reportedStatus (buildPollThread sampleClient sampleConfig unstableRun) =
        some (str "ABORTED") ∧
      ¬ ReportsJenkins sampleClient sampleConfig unstableRun (str "ABORTED")) := by
  obtain ⟨-, -, hstopped, hunstable, -⟩ := samples_read
  refine ⟨⟨hstopped, ?_⟩, hunstable, ?_⟩
  · rw [ReportsJenkins, exists_heard_iff heard_stopped, faithful_left_iff (by simpa using open_inProgress)]
    intro h
    exact absurd (h.late _ rfl) (by decide)
  · rw [ReportsJenkins, exists_heard_iff heard_unstable, faithful_left_iff samples_open]
    intro h
    exact h.listed unstable (by simp) completed_unstable

theorem reports_jenkins_iff_successRun : ∃ r,
    buildPollThread sampleClient sampleConfig successRun = .reported r ∧
      (ReportsJenkins sampleClient sampleConfig successRun r.status ↔
        EndsPlainly sampleClient sampleConfig successRun) := by
  obtain ⟨-, -, -, -, hstatus⟩ := samples_read
  obtain ⟨r, hr, -⟩ := reported_of_status hstatus
  exact ⟨r, hr, reports_jenkins_iff hr⟩

end Agent.ReportedStatus
