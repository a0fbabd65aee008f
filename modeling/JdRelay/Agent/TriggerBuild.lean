import Mathlib.Data.List.DropRight
import Mathlib.Data.List.Forall2
import JdRelay.Base.Url
import JdRelay.Agent.BuildPoll

namespace Agent.TriggerBuild
open Text Percent Url

def text (s : String) : Bytes := s.toList.flatMap String.utf8EncodeChar

-- c_str() as libcurl reads it.
def cString (s : Bytes) : Bytes := s.takeWhile (· ≠ 0)

structure Config where
  jenkinsUrl : Bytes
  jobMapping : List (Bytes × Bytes)

structure Request where
  project : Bytes
  branch : Bytes
  buildCmd : Bytes
  issue : Bytes

structure Post where
  url : Bytes
  fields : Bytes

def resolveJobName (mapping : List (Bytes × Bytes)) (project : Bytes) : Bytes := (mapping.lookup project).getD project

def base (url : Bytes) : Bytes := url.rdropWhile (· = slash)

def apiUrl (url path : Bytes) : Bytes := base url ++ slash :: path

def path (jobName : Bytes) : Bytes := text "job/" ++ jobName ++ text "/buildWithParameters"

def addField (fields : Bytes) (p : Bytes × Bytes) : Bytes :=
  (if fields ≠ [] then fields ++ [ampersand] else fields) ++ escape p.1 ++ [equals] ++ escape p.2

def postFields (params : List (Bytes × Bytes)) : Bytes := params.foldl addField []

def triggerBuild (url jobName : Bytes) (params : List (Bytes × Bytes)) : Post where
  url := cString (apiUrl url (path jobName))
  fields := postFields params

def Request.params (r : Request) : List (Bytes × Bytes) :=
  [(text "ISSUE", r.issue), (text "PROJECT", r.project), (text "BRANCH", r.branch), (text "BUILD_CMD", r.buildCmd)]

def jobName (cfg : Config) (r : Request) : Bytes := resolveJobName cfg.jobMapping r.project

def onBuildTrigger (cfg : Config) (r : Request) : Post := triggerBuild cfg.jenkinsUrl (jobName cfg r) r.params

section Fields

theorem addField_nil (p : Bytes × Bytes) : addField [] p = formPair p := by
  simp [addField, formPair]

theorem addField_of_ne_nil {fields : Bytes} (h : fields ≠ []) (p : Bytes × Bytes) :
    addField fields p = fields ++ ampersand :: formPair p := by
  rw [addField, if_pos h]
  simp [formPair]

theorem foldl_addField {fields : Bytes} (h : fields ≠ []) (params : List (Bytes × Bytes)) :
    params.foldl addField fields = join ampersand (fields :: params.map formPair) := by
  induction params generalizing fields with
  | nil => simp [join]
  | cons p params ih =>
      rw [List.foldl_cons, addField_of_ne_nil h, ih (by simp)]
      cases params <;> simp [join]

-- A pair is never empty, so the test for the first one is right even where key and value are empty.
theorem postFields_eq (params : List (Bytes × Bytes)) : postFields params = join ampersand (params.map formPair) := by
  cases params with
  | nil => rfl
  | cons p params =>
      rw [postFields, List.foldl_cons, addField_nil, foldl_addField (by simp [formPair])]
      rfl

end Fields

section Address

def job : Bytes := text "job"

def buildWithParameters : Bytes := text "buildWithParameters"

def basePath (url : Bytes) : List Bytes := dirs (cString (base url))

def address (url name : Bytes) : Target where
  path := basePath url ++ [job, name, buildWithParameters]
  query := []
  fragment := []

def keeps (b : UInt8) : Bool := decide (b ≠ 0) && !stops b

structure Clean (url : Bytes) : Prop where
  keeps : ∀ b ∈ url, keeps b = true

structure Segment (name : Bytes) : Prop where
  keeps : ∀ b ∈ name, keeps b = true
  noSlash : slash ∉ name
  noDot : name ≠ dot
  noDotdot : name ≠ dotdot

structure Literal (name : Bytes) : Prop extends Segment name where
  decoded : decode name = name

variable {url name : Bytes}

theorem keeps_iff {b : UInt8} : keeps b = true ↔ b ≠ 0 ∧ b ≠ question ∧ b ≠ hash := by
  simp [keeps, stops]

theorem keeps_slash : keeps slash = true := by decide

theorem keeps_job : ∀ b ∈ job, keeps b = true := List.all_eq_true.mp (by decide)

theorem keeps_action : ∀ b ∈ buildWithParameters, keeps b = true := List.all_eq_true.mp (by decide)

theorem hierarchy_cString (s : Bytes) : hierarchy (cString s) = s.takeWhile keeps := by
  rw [hierarchy_eq, cString, List.takeWhile_takeWhile]
  congr 1
  funext b
  simp [keeps, Bool.and_comm]

theorem path_eq (name : Bytes) : path name = job ++ slash :: (name ++ slash :: buildWithParameters) := by
  have hjob : text "job/" = job ++ [slash] := by decide
  have haction : text "/buildWithParameters" = slash :: buildWithParameters := by decide
  rw [path, hjob, haction]
  simp

theorem base_getLast? (url : Bytes) : (base url).getLast? ≠ some slash := by
  intro h
  have hne : base url ≠ [] := by
    intro hnil
    rw [hnil] at h
    cases h
  have hlast := List.rdropWhile_last_not (fun b => decide (b = slash)) url hne
  rw [List.getLast?_eq_getLast_of_ne_nil hne, Option.some.injEq] at h
  exact hlast (decide_eq_true h)

theorem mem_base {b : UInt8} (hb : b ≠ slash) : b ∈ base url ↔ b ∈ url := by
  have hsplit : base url ++ url.rtakeWhile (· = slash) = url := List.rdropWhile_append_rtakeWhile
  constructor
  · intro h
    rw [← hsplit]
    exact List.mem_append_left _ h
  · intro h
    rw [← hsplit] at h
    rcases List.mem_append.mp h with h | h
    · exact h
    · have heq := List.mem_rtakeWhile_imp h
      exact absurd (of_decide_eq_true heq) hb

theorem base_keeps (h : Clean url) : ∀ b ∈ base url, keeps b = true := by
  intro b hb
  by_cases hslash : b = slash
  · rw [hslash]
    exact keeps_slash
  · exact h.keeps b ((mem_base hslash).mp hb)

def tail (name : Bytes) : Bytes := (name ++ slash :: buildWithParameters).takeWhile keeps

def baseSegments (url : Bytes) : List Bytes := segments (pathOf (base url))

theorem hierarchy_url (h : Clean url) (name : Bytes) :
    hierarchy (cString (apiUrl url (path name))) = base url ++ slash :: (job ++ slash :: tail name) := by
  rw [hierarchy_cString, apiUrl, path_eq, List.takeWhile_append_of_pos (base_keeps h), List.takeWhile_cons,
    if_pos keeps_slash, List.takeWhile_append_of_pos keeps_job, List.takeWhile_cons, if_pos keeps_slash]
  rfl

theorem segments_url (h : Clean url) (name : Bytes) :
    segments (pathOf (hierarchy (cString (apiUrl url (path name))))) =
      (baseSegments url ++ [job]) ++ (tail name).splitOn slash := by
  have hhead : (job ++ slash :: tail name).head? ≠ some slash := by
    have hj : job.head? = some 106 := by decide
    rw [List.head?_append, hj, Option.some_or]
    decide
  have hjob : job.splitOn slash = [job] := List.splitOn_eq_singleton (by decide)
  rw [hierarchy_url h, pathOf_append (base_getLast? url) hhead, segments_append, List.splitOn_append_cons_self, hjob,
    List.append_assoc]
  rfl

theorem basePath_eq (h : Clean url) : basePath url = (walk [] (baseSegments url)).map decode := by
  have hself : (base url).takeWhile keeps = base url := List.takeWhile_eq_self_iff.mpr (base_keeps h)
  rw [basePath, dirs, hierarchy_cString, hself]
  rfl

theorem walk_job (url : Bytes) : walk [] (baseSegments url ++ [job]) = walk [] (baseSegments url) ++ [job] := by
  rw [walk_append, walk_of_ne_dots]
  intro s hs
  rw [List.mem_singleton.mp hs]
  decide

theorem tail_of_keeps (h : ∀ b ∈ name, keeps b = true) : tail name = name ++ slash :: buildWithParameters := by
  rw [tail, List.takeWhile_append_of_pos h, List.takeWhile_cons, if_pos keeps_slash,
    List.takeWhile_eq_self_iff.mpr keeps_action]

theorem splitOn_action (name : Bytes) :
    (name ++ slash :: buildWithParameters).splitOn slash = name.splitOn slash ++ [buildWithParameters] := by
  have haction : buildWithParameters.splitOn slash = [buildWithParameters] := List.splitOn_eq_singleton (by decide)
  rw [List.splitOn_append_cons_self, haction]

theorem path_of_segment (hclean : Clean url) (h : Segment name) :
    (parse (cString (apiUrl url (path name)))).path = basePath url ++ [job, decode name, buildWithParameters] := by
  have hmore : ∀ s ∈ [name, buildWithParameters], s ≠ dot ∧ s ≠ dotdot := by
    intro s hs
    simp only [List.mem_cons, List.not_mem_nil, or_false] at hs
    rcases hs with rfl | rfl
    · exact ⟨h.noDot, h.noDotdot⟩
    · decide
  have hpieces : (tail name).splitOn slash = [name, buildWithParameters] := by
    rw [tail_of_keeps h.keeps, splitOn_action, List.splitOn_eq_singleton h.noSlash]
    rfl
  have hjob : decode job = job := by decide
  have haction : decode buildWithParameters = buildWithParameters := by decide
  rw [parse, segments_url hclean, hpieces, resolve_append_of_ne_dots (by simp) hmore, walk_job, basePath_eq hclean]
  simp [hjob, haction]

theorem tail_of_not_keeps {b : UInt8} (hb : b ∈ name) (h : keeps b = false) :
    (tail name).length < name.length := by
  have hlt : (name.takeWhile keeps).length < name.length := by
    refine lt_of_le_of_ne (List.takeWhile_prefix _).length_le fun heq => ?_
    have hall := List.takeWhile_eq_self_iff.mp ((List.takeWhile_prefix keeps).eq_of_length heq)
    rw [hall b hb] at h
    cases h
  rw [tail, List.takeWhile_append, if_neg hlt.ne]
  exact hlt

theorem piece_of_not_segment (h : ¬Segment name) {s : Bytes} (hs : s ∈ (tail name).splitOn slash) (hdot : s ≠ dot)
    (hdotdot : s ≠ dotdot) : s = buildWithParameters ∨ s.length < name.length := by
  by_cases hkeeps : ∀ b ∈ name, keeps b = true
  · rw [tail_of_keeps hkeeps, splitOn_action] at hs
    rcases List.mem_append.mp hs with hs | hs
    · refine .inr ?_
      by_cases hslash : slash ∈ name
      · exact length_lt_of_mem_splitOn hslash hs
      · rw [List.splitOn_eq_singleton hslash, List.mem_singleton] at hs
        exact absurd ⟨hkeeps, hslash, hs ▸ hdot, hs ▸ hdotdot⟩ h
    · exact .inl (List.mem_singleton.mp hs)
  · push Not at hkeeps
    obtain ⟨b, hb, hb'⟩ := hkeeps
    have hlt := tail_of_not_keeps hb (Bool.eq_false_iff.mpr hb')
    exact .inr ((length_le_of_mem_splitOn hs).trans_lt hlt)

theorem length_pos_of_not_segment (h : ¬Segment name) : 0 < name.length := by
  refine List.length_pos_of_ne_nil ?_
  rintro rfl
  exact h ⟨by simp, by simp, by decide, by decide⟩

theorem ne_action_of_not_segment (h : ¬Segment name) : name ≠ buildWithParameters := by
  rintro rfl
  exact h ⟨keeps_action, by decide, by decide, by decide⟩

theorem behind_job_of_not_segment (h : ¬Segment name) (url : Bytes) :
    ∀ s ∈ (resolve ((baseSegments url ++ [job]) ++ (tail name).splitOn slash)).drop
        ((walk [] (baseSegments url)).length + 1), s = buildWithParameters ∨ s.length < name.length := by
  refine mem_drop_resolve (.inr (length_pos_of_not_segment h)) ?_ fun s hs => piece_of_not_segment h hs
  rw [walk_job, List.drop_of_length_le (by simp)]
  simp

theorem segment_of_path (hclean : Clean url)
    (h : (parse (cString (apiUrl url (path name)))).path = basePath url ++ [job, name, buildWithParameters]) :
    Segment name := by
  by_contra hnot
  let n := (walk [] (baseSegments url)).length + 1
  have hdrop := congrArg (List.drop n) h
  rw [parse, segments_url hclean, basePath_eq hclean, List.drop_append, ← List.map_drop, ← List.map_drop] at hdrop
  have hmem : name ∈ ((resolve ((baseSegments url ++ [job]) ++ (tail name).splitOn slash)).drop n).map decode := by
    rw [hdrop]
    simp [n]
  obtain ⟨s, hs, hdecode⟩ := List.mem_map.mp hmem
  rcases behind_job_of_not_segment hnot url s hs with rfl | hlt
  · exact ne_action_of_not_segment hnot hdecode.symm
  · have hle := length_decode_le s
    rw [hdecode] at hle
    exact absurd hlt (Nat.not_lt.mpr hle)

theorem literal_of_path (hclean : Clean url)
    (h : (parse (cString (apiUrl url (path name)))).path = basePath url ++ [job, name, buildWithParameters]) :
    Literal name := by
  have hsegment := segment_of_path hclean h
  rw [path_of_segment hclean hsegment] at h
  exact ⟨hsegment, by simpa using h⟩

theorem length_path_le (s : Bytes) : (parse s).path.length ≤ (dirs s).length + 1 := by
  rw [parse, dirs, List.length_map, List.length_map]
  exact length_resolve_le _

theorem cString_of_notMem {s : Bytes} (h : 0 ∉ s) (t : Bytes) : cString (s ++ t) = s ++ cString t := by
  rw [cString, List.takeWhile_append_of_pos]
  · rfl
  · rintro b hb
    exact decide_eq_true (by rintro rfl; exact h hb)

theorem cString_of_mem {s : Bytes} (h : 0 ∈ s) (t : Bytes) : cString (s ++ t) = cString s := by
  obtain ⟨u, v, rfl, hu⟩ := List.eq_append_cons_of_mem h
  rw [List.append_assoc, cString_of_notMem hu, cString_of_notMem hu]
  rfl

theorem cString_url (h : 0 ∉ base url) (name : Bytes) :
    cString (apiUrl url (path name)) = base url ++ slash :: cString (path name) := by
  rw [apiUrl, cString_of_notMem h]
  rfl

theorem nul_notMem_base (h : parse (cString (apiUrl url (path name))) = address url name) : 0 ∉ base url := by
  intro hmem
  have hlength := length_path_le (cString (apiUrl url (path name)))
  have hcut : cString (apiUrl url (path name)) = cString (base url) := cString_of_mem hmem _
  rw [h, hcut] at hlength
  simp [address, basePath] at hlength

theorem hash_notMem_base (h : parse (cString (apiUrl url (path name))) = address url name) : hash ∉ base url := by
  intro hmem
  have hfragment := congrArg Target.fragment h
  rw [cString_url (nul_notMem_base h)] at hfragment
  exact behind_append_cons_ne_nil hash slash (by decide) hmem _ hfragment

theorem question_notMem_base (h : parse (cString (apiUrl url (path name))) = address url name) :
    question ∉ base url := by
  intro hmem
  have hquery := congrArg Target.query h
  have hall : ∀ b ∈ base url, decide (b ≠ hash) = true := by
    refine fun b hb => decide_eq_true ?_
    rintro rfl
    exact hash_notMem_base h hb
  have hbefore : before hash (base url ++ slash :: cString (path name)) =
      base url ++ slash :: before hash (cString (path name)) := by
    rw [before, List.takeWhile_append_of_pos hall]
    rfl
  rw [cString_url (nul_notMem_base h), parse, hbefore] at hquery
  exact behind_append_cons_ne_nil question slash (by decide) hmem _ hquery

theorem clean_of_address (h : parse (cString (apiUrl url (path name))) = address url name) : Clean url := by
  refine ⟨fun b hb => keeps_iff.mpr ⟨?_, ?_, ?_⟩⟩
  · rintro rfl
    exact nul_notMem_base h ((mem_base (by decide)).mpr hb)
  · rintro rfl
    exact question_notMem_base h ((mem_base (by decide)).mpr hb)
  · rintro rfl
    exact hash_notMem_base h ((mem_base (by decide)).mpr hb)

theorem url_keeps (hclean : Clean url) (h : ∀ b ∈ name, keeps b = true) :
    ∀ b ∈ cString (apiUrl url (path name)), keeps b = true := by
  intro b hb
  have htext : b ∈ apiUrl url (path name) := (List.takeWhile_prefix _).subset hb
  rw [apiUrl, path_eq] at htext
  simp only [List.mem_append, List.mem_cons] at htext
  rcases htext with hb | rfl | hb | rfl | hb | rfl | hb
  · exact base_keeps hclean b hb
  · exact keeps_slash
  · exact keeps_job b hb
  · exact keeps_slash
  · exact h b hb
  · exact keeps_slash
  · exact keeps_action b hb

theorem behind_of_keeps {c : UInt8} (hc : keeps c = false) {s : Bytes} (h : ∀ b ∈ s, keeps b = true) :
    behind c s = [] := by
  refine behind_eq_nil fun hmem => ?_
  rw [h c hmem] at hc
  cases hc

theorem address_of_literal (hclean : Clean url) (h : Literal name) :
    parse (cString (apiUrl url (path name))) = address url name := by
  have hkeeps := url_keeps hclean h.keeps
  have hpath := path_of_segment hclean h.toSegment
  have hquery : behind question (before hash (cString (apiUrl url (path name)))) = [] := by
    refine behind_of_keeps (by decide) fun b hb => hkeeps b ?_
    exact (List.takeWhile_prefix _).subset hb
  have hfragment : behind hash (cString (apiUrl url (path name))) = [] := behind_of_keeps (by decide) hkeeps
  have hparse : parse (cString (apiUrl url (path name))) = ⟨(parse (cString (apiUrl url (path name)))).path,
      behind question (before hash (cString (apiUrl url (path name)))),
      behind hash (cString (apiUrl url (path name)))⟩ := rfl
  rw [hparse, hpath, h.decoded, hquery, hfragment, address]

end Address

section Trigger

theorem trigger_target_iff (cfg : Config) (r : Request) :
    parse (onBuildTrigger cfg r).url = address cfg.jenkinsUrl (jobName cfg r) ↔
      Clean cfg.jenkinsUrl ∧ Literal (jobName cfg r) := by
  constructor
  · intro h
    have hclean := clean_of_address h
    exact ⟨hclean, literal_of_path hclean (congrArg Target.path h)⟩
  · rintro ⟨hclean, hname⟩
    exact address_of_literal hclean hname

-- The mapping has no entry for the project, so the project names the job.
theorem query_project_starts_other_job :
    let cfg : Config := ⟨text "http://jenkins/ci", [(text "app", text "app-build")]⟩
    let r : Request := ⟨text "other/build?", text "main", [], text "ISSUE-1"⟩
    parse (onBuildTrigger cfg r).url =
        ⟨[text "ci", text "job", text "other", text "build"], text "/buildWithParameters", []⟩ ∧
      jobName cfg r = text "other/build?" ∧
      parse (onBuildTrigger cfg r).url ≠ address cfg.jenkinsUrl (jobName cfg r) := by
  decide +kernel

end Trigger

end Agent.TriggerBuild
