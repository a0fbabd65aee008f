import JdRelay.Agent.ReportedStatus

namespace Agent.PollBuild
open Text Json AgentMain Jenkins BuildPoll TriggerReport ReportedStatus

-- One pass of poll_build: the answer of its query, and the clock behind it. Times are in nanoseconds.
structure Poll where
  response : Response
  now : Int

def terminal (status : BuildStatus) : Bool := decide (status ∈ [.success, .failed, .aborted, .notBuilt])

def expired (start timeout : Int) (p : Poll) : Bool :=
  decide (0 < timeout) && decide (timeout * 1000000000 < p.now - start)

variable (c : Client)

-- What the callback is given, and the result once the loop returns one. A timeout keeps ok and status.
def pollBuild (number : Int) (callback : Bool) (start timeout : Int) :
    List Poll → List Jenkins.BuildStatusResult × Option Jenkins.BuildStatusResult
  | [] => ([], none)
  | p :: ps =>
      let result := getBuildStatus c number p.response
      let called := if callback && result.ok then [result] else []
      if terminal result.status || !result.ok then (called, some result)
      else if expired start timeout p then (called, some { result with error := some (.http (str "Polling timeout")) })
      else
        let rest := pollBuild number callback start timeout ps
        (called ++ rest.1, rest.2)

structure Reply extends Poll where
  fields : List (Str × Value)
  document : ∃ body, httpGet response = (body, []) ∧ c.nl.parse body = some (.obj fields)
  url : Nlohmann.hasType Nlohmann.getString fields (str "url") = true
  duration : Nlohmann.hasType (getInt c) fields (str "estimatedDuration") = true

def outcomes : List (Str × BuildStatus) :=
  [(str "SUCCESS", .success), (str "FAILURE", .failed), (str "ABORTED", .aborted), (str "NOT_BUILT", .notBuilt)]

namespace Reply

variable {c}

def NoResult (r : Reply c) : Prop := lookup? r.fields (str "result") = none

instance (r : Reply c) : Decidable r.NoResult := inferInstanceAs (Decidable (lookup? r.fields (str "result") = none))

structure InProgress (r : Reply c) : Prop where
  building : lookup? r.fields (str "building") = some (.bool true)
  result : r.NoResult ∨ lookup? r.fields (str "result") = some .null

structure Completed (r : Reply c) (status : BuildStatus) : Prop where
  building : lookup? r.fields (str "building") = some (.bool false)
  result : ∃ result, lookup? r.fields (str "result") = some (.str result) ∧ (result, status) ∈ outcomes

end Reply

def polls (progress : List (Reply c)) (completed : Reply c) : List Poll :=
  progress.map Reply.toPoll ++ [completed.toPoll]

structure EndsWithBuild (number : Int) (callback : Bool) (start timeout : Int) (progress : List (Reply c))
    (completed : Reply c) (status : BuildStatus) : Prop where
  building : ∀ r ∈ progress, Gives (getBuildStatus c number r.response) .building
  inTime : (∀ r ∈ progress, expired start timeout r.toPoll = false) →
    ∃ result, (pollBuild c number callback start timeout (polls c progress completed)).2 = some result ∧
      Gives result status
  terminal : ∀ result, (pollBuild c number callback start timeout (polls c progress completed)).2 = some result →
    result.ok = true → result.status ∈ [.success, .failed, .aborted, .notBuilt]

section Specs

variable {c} {number start timeout : Int} {callback : Bool} {status : BuildStatus}

theorem value_null {A : Type} {get : Value → Option A} {fields : List (Str × Value)} {key : Str} (default : A)
    (h : lookup? fields key = some .null) (hget : get .null = none) :
    Nlohmann.value get key default (.obj fields) = .error .typeError := by
  simp only [Nlohmann.value, h, hget]

theorem value_absent {A : Type} (get : Value → Option A) {fields : List (Str × Value)} {key : Str} (default : A)
    (h : lookup? fields key = none) : Nlohmann.value get key default (.obj fields) = .ok default := by
  simp only [Nlohmann.value, h]

-- The throw on a null result leaves ok false, whatever the building field says.
theorem not_ok_of_null {r : Reply c} (h : lookup? r.fields (str "result") = some .null) :
    (getBuildStatus c number r.response).ok = false := by
  obtain ⟨body, hget, hdocument⟩ := r.document
  simp only [getBuildStatus, hget, ne_eq, not_true_eq_false, if_false, parsed_eq_ok.mpr hdocument, catching,
    @value_null _ Nlohmann.getString _ _ [] h rfl]
  rfl

theorem gives_building {r : Reply c} (hresult : r.NoResult)
    (hbuilding : lookup? r.fields (str "building") = some (.bool true)) :
    Gives (getBuildStatus c number r.response) .building := by
  obtain ⟨body, hget, hdocument⟩ := r.document
  have hurl : ∃ url, Nlohmann.value Nlohmann.getString (str "url") [] (.obj r.fields) = .ok url := value_eq_ok.mpr r.url
  have hms : ∃ ms, Nlohmann.value (getInt c) (str "estimatedDuration") 0 (.obj r.fields) = .ok ms :=
    value_eq_ok.mpr r.duration
  obtain ⟨url, hurl⟩ := hurl
  obtain ⟨ms, hms⟩ := hms
  have hread : Nlohmann.value getBool (str "building") false (.obj r.fields) = .ok true := by
    simp only [Nlohmann.value, hbuilding, getBool]
  simp only [getBuildStatus, hget, ne_eq, not_true_eq_false, if_false, parsed_eq_ok.mpr hdocument, catching,
    value_absent Nlohmann.getString [] hresult, hurl, hms, hread]
  exact ⟨rfl, rfl⟩

theorem gives_building_iff {r : Reply c} (h : r.InProgress) :
    Gives (getBuildStatus c number r.response) .building ↔ r.NoResult := by
  constructor
  · rintro ⟨hok, -⟩
    refine h.result.resolve_right fun hnull => ?_
    rw [not_ok_of_null hnull] at hok
    cases hok
  · exact fun hnone => gives_building hnone h.building

theorem outcome_final {result : Str} (h : (result, status) ∈ outcomes) :
    result ∈ finalResults ∧ parseBuildResult result = status := by
  simp only [outcomes, List.mem_cons, Prod.mk.injEq, List.not_mem_nil, or_false] at h
  rcases h with ⟨rfl, rfl⟩ | ⟨rfl, rfl⟩ | ⟨rfl, rfl⟩ | ⟨rfl, rfl⟩ <;> exact ⟨by decide, by decide⟩

theorem gives_completed (number : Int) {r : Reply c} (h : r.Completed status) :
    Gives (getBuildStatus c number r.response) status ∧ terminal status = true := by
  obtain ⟨result, hresult, hmem⟩ := h.result
  obtain ⟨hfinal, hparse⟩ := outcome_final hmem
  have hlisted : status ∈ [.success, .failed, .aborted, .notBuilt] := hparse ▸ parseBuildResult_final.mpr hfinal
  obtain ⟨hunknown, hbuilding⟩ := final_ne hlisted
  obtain ⟨body, hget, hdocument⟩ := r.document
  refine ⟨(getBuildStatus_gives hunknown hbuilding).mpr ⟨result, hparse, ?_⟩, decide_eq_true hlisted⟩
  exact ⟨body, r.fields, hget, hdocument, hresult, r.url, r.duration⟩

theorem pollBuild_running {r : Reply c} {ps : List Poll} (h : Gives (getBuildStatus c number r.response) .building)
    (htime : expired start timeout r.toPoll = false) :
    (pollBuild c number callback start timeout (r.toPoll :: ps)).2 = (pollBuild c number callback start timeout ps).2 := by
  rw [pollBuild]
  simp [h.1, h.2, terminal, htime]

theorem pollBuild_expired {r : Reply c} {ps : List Poll} (h : Gives (getBuildStatus c number r.response) .building)
    (htime : expired start timeout r.toPoll = true) :
    ∃ result, (pollBuild c number callback start timeout (r.toPoll :: ps)).2 = some result ∧ Gives result .building := by
  refine ⟨{ getBuildStatus c number r.response with error := some (.http (str "Polling timeout")) }, ?_, h⟩
  rw [pollBuild]
  simp [h.1, h.2, terminal, htime]

theorem pollBuild_completed {r : Reply c} {ps : List Poll} (h : r.Completed status) :
    (pollBuild c number callback start timeout (r.toPoll :: ps)).2 = some (getBuildStatus c number r.response) := by
  obtain ⟨⟨hok, hstatus⟩, hterminal⟩ := gives_completed number h
  rw [pollBuild]
  simp [hstatus, hterminal]

theorem pollBuild_inTime (callback : Bool) {progress : List (Reply c)} {completed : Reply c} (hcompleted : completed.Completed status)
    (hbuilding : ∀ r ∈ progress, Gives (getBuildStatus c number r.response) .building)
    (htime : ∀ r ∈ progress, expired start timeout r.toPoll = false) :
    (pollBuild c number callback start timeout (polls c progress completed)).2 =
      some (getBuildStatus c number completed.response) := by
  unfold polls
  induction progress with
  | nil => exact pollBuild_completed hcompleted
  | cons r progress ih =>
      obtain ⟨hr, hbuilding⟩ := List.forall_mem_cons.mp hbuilding
      obtain ⟨hrt, htime⟩ := List.forall_mem_cons.mp htime
      rw [List.map_cons, List.cons_append, pollBuild_running hr hrt]
      exact ih hbuilding htime

theorem pollBuild_late (callback : Bool) {progress : List (Reply c)} (completed : Reply c)
    (hbuilding : ∀ r ∈ progress, Gives (getBuildStatus c number r.response) .building)
    (hlate : ∃ r ∈ progress, expired start timeout r.toPoll = true) :
    ∃ result, (pollBuild c number callback start timeout (polls c progress completed)).2 = some result ∧
      Gives result .building := by
  unfold polls
  induction progress with
  | nil => obtain ⟨r, hr, -⟩ := hlate; cases hr
  | cons r progress ih =>
      obtain ⟨hr, hbuilding⟩ := List.forall_mem_cons.mp hbuilding
      rw [List.map_cons, List.cons_append]
      cases htime : expired start timeout r.toPoll with
      | true => exact pollBuild_expired hr htime
      | false =>
          rw [pollBuild_running hr htime]
          obtain ⟨x, hx, hxlate⟩ := hlate
          rcases List.mem_cons.mp hx with rfl | hx
          · rw [htime] at hxlate
            cases hxlate
          · exact ih hbuilding ⟨x, hx, hxlate⟩

theorem polling_ends_iff {progress : List (Reply c)} {completed : Reply c} (hprogress : ∀ r ∈ progress, r.InProgress)
    (hcompleted : completed.Completed status) :
    EndsWithBuild c number callback start timeout progress completed status ↔
      ∀ r ∈ progress, r.NoResult ∧ expired start timeout r.toPoll = false := by
  constructor
  · intro h r hr
    refine ⟨(gives_building_iff (hprogress r hr)).mp (h.building r hr), Bool.eq_false_iff.mpr fun hlate => ?_⟩
    obtain ⟨result, hresult, hok, hstatus⟩ := pollBuild_late callback completed h.building ⟨r, hr, hlate⟩
    have hmem := h.terminal result hresult hok
    rw [hstatus] at hmem
    simp at hmem
  · intro h
    have hbuilding : ∀ r ∈ progress, Gives (getBuildStatus c number r.response) .building :=
      fun r hr => (gives_building_iff (hprogress r hr)).mpr (h r hr).1
    obtain ⟨hgives, hterminal⟩ := gives_completed number hcompleted
    have hends := pollBuild_inTime callback hcompleted hbuilding fun r hr => (h r hr).2
    refine ⟨hbuilding, fun _ => ⟨_, hends, hgives⟩, fun result hresult _ => ?_⟩
    rw [hends] at hresult
    cases hresult
    rw [hgives.2]
    exact of_decide_eq_true hterminal

end Specs

def nullReply : Reply sampleClient where
  response := .answered 200 (plainBody "\x7b\"building\":true,\"result\":null\x7d")
  now := 1000000000
  fields := [(str "building", .bool true), (str "result", .null)]
  document := ⟨_, rfl, by decide +kernel⟩
  url := by decide
  duration := by decide

def lateReply : Reply sampleClient where
  response := .answered 200 (plainBody "\x7b\"building\":true\x7d")
  now := 61000000000
  fields := [(str "building", .bool true)]
  document := ⟨_, rfl, by decide +kernel⟩
  url := by decide
  duration := by decide

def doneReply : Reply sampleClient where
  response := .answered 200 (plainBody "\x7b\"building\":false,\"result\":\"SUCCESS\"\x7d")
  now := 62000000000
  fields := [(str "building", .bool false), (str "result", .str (str "SUCCESS"))]
  document := ⟨_, rfl, by decide +kernel⟩
  url := by decide
  duration := by decide

theorem completed_doneReply : doneReply.Completed .success := ⟨by decide, _, rfl, List.mem_cons_self⟩

theorem inProgress_lateReply : lateReply.InProgress := ⟨by decide, .inl (by decide)⟩

theorem null_result_ends_polling :
    (nullReply.InProgress ∧ (getBuildStatus sampleClient 7 nullReply.response).ok = false ∧
      ¬ EndsWithBuild sampleClient 7 false 0 0 [nullReply] doneReply .success) ∧
    (lateReply.InProgress ∧ (∃ result, (pollBuild sampleClient 7 false 0 60
        (polls sampleClient [lateReply] doneReply)).2 = some result ∧ Gives result .building) ∧
      ¬ EndsWithBuild sampleClient 7 false 0 60 [lateReply] doneReply .success) := by
  have hnull : (getBuildStatus sampleClient 7 nullReply.response).ok = false := not_ok_of_null (by decide)
  have hlate : ∃ result, (pollBuild sampleClient 7 false 0 60 (polls sampleClient [lateReply] doneReply)).2 = some result ∧
      Gives result .building :=
    pollBuild_late false doneReply (List.forall_mem_singleton.mpr (gives_building (by decide) (by decide)))
      ⟨lateReply, List.mem_singleton_self _, by decide⟩
  refine ⟨⟨⟨by decide, .inr (by decide)⟩, hnull, fun h => ?_⟩, inProgress_lateReply, hlate, fun h => ?_⟩
  · exact Bool.false_ne_true (hnull.symm.trans (h.building nullReply (List.mem_singleton_self _)).1)
  · obtain ⟨result, hresult, hok, hstatus⟩ := hlate
    have hmem := h.terminal result hresult hok
    rw [hstatus] at hmem
    exact absurd hmem (by decide)

theorem polling_ends_iff_late :
    EndsWithBuild sampleClient 7 true 0 0 [lateReply] doneReply .success ↔
      ∀ r ∈ [lateReply], r.NoResult ∧ expired 0 0 r.toPoll = false :=
  polling_ends_iff (List.forall_mem_singleton.mpr inProgress_lateReply) completed_doneReply

end Agent.PollBuild
