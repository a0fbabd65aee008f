import JdRelay.Base.Python
import JdRelay.Agent.ConfigFile

namespace Agent.ConfigMeaning
open Text Fields LoadConfig ConfigFile

section Meaning

def wholeDigits (s : Bytes) : Option Nat := if s ≠ [] ∧ s.all digit = true then some (decimal s) else none

def literal? (s : Bytes) : Option Int := signed wholeDigits s

def elements (value : Bytes) : List Bytes := ((value.splitOn 44).map LoadConfig.trim).filter (· ≠ [])

def Right (cfg : AgentConfig) (f : Field) (s : Setting) : Prop :=
  match f with
  | .text f => cfg.getText f = s.value
  | .int f => literal? s.value = some (cfg.getInt f)
  | .projects => cfg.projects = elements s.value
  | .job key => cfg.jobMapping.lookup key = some s.value

-- Nothing is stored where an integer setting is no number in the range of int.
def Means (file : File) : Except StdError AgentConfig → Prop
  | .ok cfg => ∀ f s, file.Sets f s → Right cfg f s
  | .error _ => ∃ f s, file.Sets (.int f) s ∧ ∀ n, literal? s.value = some n → n < -2147483648 ∨ 2147483647 < n

def Fits (f : Field) (s : Setting) : Prop :=
  match f with
  | .text _ => s.comment = none
  | .int f => ∃ n, literal? s.value = some n ∧ (f = .forwarderPort → 0 ≤ n ∧ n < 65536)
  | .projects => s.comment = none ∧ ∀ p ∈ pieces 44 s.value, LoadConfig.trim p ≠ []
  | .job _ => s.comment = none

def Rejected (s : Setting) : Prop := ∀ n, stoi s.value ≠ .ok n

end Meaning

section Run

def Owns (f : Field) (a : Bytes × Setting) : Prop := f.name = (a.1, a.2.key)

theorem apply_owned {f : Field} {a : Bytes × Setting} (h : Owns f a) (cfg : AgentConfig) : apply cfg a = cfg.store f a.2.raw := by
  have hsec : f.name.1 = a.1 := congrArg Prod.fst h
  have hkey : f.name.2 = a.2.key := congrArg Prod.snd h
  rw [apply, ← hsec, ← hkey]
  exact setting_field cfg f a.2.raw

theorem apply_cases (cfg : AgentConfig) (a : Bytes × Setting) :
    (∃ g, Owns g a ∧ apply cfg a = cfg.store g a.2.raw) ∨ apply cfg a = .ok cfg := by
  by_cases hg : ∃ g, Owns g a
  · obtain ⟨g, hg⟩ := hg
    exact .inl ⟨g, hg, apply_owned hg cfg⟩
  · exact .inr (setting_unknown (fun g hown => hg ⟨g, hown⟩) cfg a.2.raw)

theorem same_of_apply {f : Field} {a : Bytes × Setting} {cfg cfg' : AgentConfig} (h : apply cfg a = .ok cfg')
    (hf : ¬ Owns f a) : Same f cfg cfg' := by
  rcases apply_cases cfg a with ⟨g, hg, hstore⟩ | hunknown
  · exact same_of_store (hstore ▸ h) fun heq => hf (heq ▸ hg)
  · rw [hunknown] at h
    cases h
    exact .refl f cfg

theorem foldlM_apply {a : Bytes × Setting} {as : List (Bytes × Setting)} {cfg cfg' : AgentConfig}
    (h : (a :: as).foldlM apply cfg = .ok cfg') : ∃ mid, apply cfg a = .ok mid ∧ as.foldlM apply mid = .ok cfg' := by
  rw [List.foldlM_cons] at h
  exact Python.bind_ok.mp h

theorem same_of_run {f : Field} {as : List (Bytes × Setting)} {cfg cfg' : AgentConfig} (h : as.foldlM apply cfg = .ok cfg')
    (hf : ∀ a ∈ as, ¬ Owns f a) : Same f cfg cfg' := by
  induction as generalizing cfg with
  | nil =>
      cases h
      exact .refl f _
  | cons a as ih =>
      obtain ⟨mid, hmid, hrest⟩ := foldlM_apply h
      exact (same_of_apply hmid (hf a List.mem_cons_self)).trans (ih hrest fun b hb => hf b (List.mem_cons_of_mem _ hb))

theorem stored_of_run {f : Field} {a : Bytes × Setting} (hf : Owns f a) {as : List (Bytes × Setting)}
    (hdistinct : (as.map fun a => (a.1, a.2.key)).Nodup) (ha : a ∈ as) {cfg cfg' : AgentConfig}
    (hprojects : ∀ b ∈ as, Owns .projects b → cfg.projects = []) (h : as.foldlM apply cfg = .ok cfg') :
    Stored cfg' f a.2.raw := by
  induction as generalizing cfg with
  | nil => cases ha
  | cons b as ih =>
      obtain ⟨mid, hmid, hrest⟩ := foldlM_apply h
      obtain ⟨hb, hdistinct⟩ := List.nodup_cons.mp hdistinct
      have hother : ∀ c ∈ as, ∀ g, Owns g c → ¬ Owns g b := fun c hc g hg hown =>
        hb (List.mem_map.mpr ⟨c, hc, hg.symm.trans hown⟩)
      rcases List.mem_cons.mp ha with rfl | ha
      · rw [apply_owned hf] at hmid
        have hstored := stored_of_store hmid fun heq => hprojects a List.mem_cons_self (heq ▸ hf)
        exact hstored.same (same_of_run hrest fun c hc hown => hother c hc f hown hf)
      · refine ih hdistinct ha (fun c hc hown => ?_) hrest
        exact Eq.trans (same_of_apply hmid (hother c hc _ hown)) (hprojects c (List.mem_cons_of_mem _ hc) hown)

theorem error_of_run {as : List (Bytes × Setting)} {cfg : AgentConfig} {err : StdError}
    (h : as.foldlM apply cfg = .error err) : ∃ a ∈ as, ∃ f, Owns (.int f) a ∧ stoi a.2.raw = .error err := by
  induction as generalizing cfg with
  | nil => cases h
  | cons a as ih =>
      rw [List.foldlM_cons] at h
      cases hmid : apply cfg a with
      | error e =>
          rw [hmid] at h
          cases h
          rcases apply_cases cfg a with ⟨g, hg, hstore⟩ | hunknown
          · obtain ⟨f, rfl, hstoi⟩ := store_error (hstore ▸ hmid)
            exact ⟨a, List.mem_cons_self, f, hg, hstoi⟩
          · rw [hunknown] at hmid
            cases hmid
      | ok mid =>
          rw [hmid] at h
          obtain ⟨b, hb, hrest⟩ := ih h
          exact ⟨b, List.mem_cons_of_mem _ hb, hrest⟩

end Run

section Numbers

theorem leadingDigits_append {t : Bytes} (ht : ∀ b ∈ t.head?, digit b = false) (s : Bytes) :
    leadingDigits (s ++ t) = leadingDigits s := by
  have htake : (s ++ t).takeWhile digit = s.takeWhile digit := by
    induction s with
    | nil =>
        cases t with
        | nil => rfl
        | cons b t => simp [ht b rfl]
    | cons c s ih => rw [List.cons_append, List.takeWhile_cons, List.takeWhile_cons, ih]
  rw [leadingDigits, leadingDigits, htake]

theorem signed_append {number : Bytes → Option Nat} {t : Bytes} (hnumber : ∀ s, number (s ++ t) = number s) {s : Bytes}
    (hs : s ≠ []) : signed number (s ++ t) = signed number s := by
  cases s with
  | nil => exact absurd rfl hs
  | cons c s => rw [List.cons_append, signed, signed, hnumber, ← List.cons_append, hnumber]

theorem map_mono {f g : Bytes → Option Nat} (h : ∀ s n, f s = some n → g s = some n) {k : Nat → Int} {s : Bytes} {n : Int}
    (hs : (f s).map k = some n) : (g s).map k = some n := by
  obtain ⟨m, hm, rfl⟩ := Option.map_eq_some_iff.mp hs
  exact Option.map_eq_some_iff.mpr ⟨m, h s m hm, rfl⟩

theorem signed_mono {f g : Bytes → Option Nat} (h : ∀ s n, f s = some n → g s = some n) {s : Bytes} {n : Int}
    (hs : signed f s = some n) : signed g s = some n := by
  cases s with
  | nil => exact map_mono h hs
  | cons c s =>
      rw [signed] at hs ⊢
      split_ifs at hs ⊢
      · exact map_mono h hs
      · exact map_mono h hs
      · exact map_mono h hs

theorem leading_of_whole (s : Bytes) (n : Nat) (h : wholeDigits s = some n) : leadingDigits s = some n := by
  rw [wholeDigits] at h
  split_ifs at h with hwhole
  have htake : s.takeWhile digit = s := List.takeWhile_eq_self_iff.mpr (List.all_eq_true.mp hwhole.2)
  rw [leadingDigits, htake, if_neg hwhole.1, h]

theorem not_isspace_of_visible {b : UInt8} (h : visible b = true) : isspace b = false := by
  have hblank := not_blank_of_visible h
  simp only [visible, isspace, blank, Bool.and_eq_true, bne_iff_ne, decide_eq_true_eq, Bool.or_eq_false_iff,
    beq_eq_false_iff_ne, Bool.and_eq_false_iff, decide_eq_false_iff_not, UInt8.le_iff_toNat_le, ne_eq] at h hblank ⊢
  refine ⟨hblank.1.1.1, .inr ?_⟩
  simp only [UInt8.reduceToNat] at h ⊢
  omega

theorem dropWhile_isspace {s : Bytes} (h : s.head?.all visible = true) : s.dropWhile isspace = s := by
  cases s with
  | nil => rfl
  | cons b s => rw [List.dropWhile_cons, not_isspace_of_visible h, if_neg Bool.false_ne_true]

theorem stoi_append {s t : Bytes} (hs : s ≠ []) (hhead : s.head?.all visible = true) (ht : ∀ b ∈ t.head?, digit b = false) :
    stoi (s ++ t) = stoi s := by
  have happend : (s ++ t).head?.all visible = true := by
    obtain ⟨b, s, rfl⟩ := List.exists_cons_of_ne_nil hs
    exact hhead
  rw [stoi, stoi, dropWhile_isspace happend, dropWhile_isspace hhead, signed_append (leadingDigits_append ht) hs]

theorem not_digit_of_space {b : UInt8} (h : space b = true) : digit b = false := by
  simp only [space, Bool.or_eq_true, beq_iff_eq] at h
  rcases h with (rfl | rfl) | rfl <;> rfl

theorem not_digit_behind {trail : Bytes} (h : trail.all space = true) (c : Bytes) :
    ∀ b ∈ (trail ++ 35 :: c).head?, digit b = false := by
  cases trail with
  | nil =>
      intro b hb
      cases hb
      rfl
  | cons x xs =>
      intro b hb
      cases hb
      exact not_digit_of_space (List.all_eq_true.mp h _ List.mem_cons_self)

variable (s : Setting)

theorem stoi_raw : stoi s.raw = stoi s.value := by
  cases hc : s.comment with
  | none => rw [s.raw_of_comment_none hc]
  | some c =>
      have hnote : s.note = 35 :: c := by rw [Setting.note, hc]; rfl
      have hhead := s.value_head
      rw [Setting.raw, LoadConfig.trim, hnote, List.append_assoc, List.append_assoc,
        trim_append_left (all_blank s.pad_space)]
      cases hv : s.value with
      | nil =>
          rw [List.nil_append, trim_append_left (all_blank s.trail_space), trim_cons (by decide)]
          rfl
      | cons b rest =>
          rw [hv] at hhead
          rw [List.cons_append, trim_cons (not_blank_of_visible hhead), ← List.append_assoc,
            rdropWhile_append_cons (by decide), List.append_assoc, ← List.cons_append]
          exact stoi_append (List.cons_ne_nil _ _) hhead (not_digit_behind s.trail_space _)

theorem stoi_literal {n : Int} (h : literal? s.value = some n) :
    stoi s.value = if -2147483648 ≤ n ∧ n ≤ 2147483647 then .ok n else .error .outOfRange := by
  rw [stoi, dropWhile_isspace s.value_head, signed_mono leading_of_whole h]

theorem narrow_eq_iff {f : IntField} {n : Int} : f.narrow n = n ↔ (f = .forwarderPort → 0 ≤ n ∧ n < 65536) := by
  unfold IntField.narrow toUint16
  split_ifs with hport
  · simp only [hport, forall_const]
    omega
  · simp [hport]

end Numbers

section Lists

theorem elements_eq (value : Bytes) : elements value = ((pieces 44 value).map LoadConfig.trim).filter (· ≠ []) := by
  rw [elements]
  rcases splitOn_pieces 44 value with h | h
  · rw [h]
  · rw [h, List.map_append, List.filter_append]
    exact List.append_nil _

theorem mem_of_elements {value l : Bytes} (hl : l ∈ elements value) {b : UInt8} (hb : b ∈ l) : b ∈ value := by
  obtain ⟨p, hp, rfl⟩ := List.mem_map.mp (List.mem_of_mem_filter hl)
  have hpb : b ∈ p := (List.dropWhile_sublist _).mem ((List.rdropWhile_prefix _ _).subset hb)
  have hflat : b ∈ (value.splitOn 44).flatten := List.mem_flatten.mpr ⟨p, hp, hpb⟩
  rw [Url.flatten_splitOn] at hflat
  exact List.mem_of_mem_filter hflat

variable (s : Setting)

theorem projects_iff : (pieces 44 s.raw).map LoadConfig.trim = elements s.value ↔
    s.comment = none ∧ ∀ p ∈ pieces 44 s.value, LoadConfig.trim p ≠ [] := by
  have hkeep : (pieces 44 s.value).map LoadConfig.trim = elements s.value ↔
      ∀ p ∈ pieces 44 s.value, LoadConfig.trim p ≠ [] := by
    rw [elements_eq, eq_comm, List.filter_eq_self]
    simp
  cases hc : s.comment with
  | none => rw [s.raw_of_comment_none hc, hkeep, and_iff_right rfl]
  | some c =>
      refine iff_of_false (fun heq => ?_) fun h => Option.some_ne_none c h.1
      obtain ⟨l, hl, hhash⟩ := mem_pieces (d := 44) (by decide) (s.hash_mem_raw hc)
      have hmem : LoadConfig.trim l ∈ elements s.value := heq ▸ List.mem_map_of_mem hl
      exact s.hash_notMem_value (mem_of_elements hmem (mem_trim (by decide) hhash))

theorem right_iff_fits {cfg : AgentConfig} {f : Field} (h : Stored cfg f s.raw) : Right cfg f s ↔ Fits f s := by
  cases f with
  | text f =>
      rw [Right, show cfg.getText f = s.raw from h]
      exact s.raw_eq_value_iff
  | projects =>
      rw [Right, show cfg.projects = _ from h]
      exact projects_iff s
  | job key =>
      rw [Right, show cfg.jobMapping.lookup key = some s.raw from h, Option.some_inj]
      exact s.raw_eq_value_iff
  | int f =>
      obtain ⟨n, hn, hget⟩ := h
      rw [stoi_raw] at hn
      have hnumber : ∀ {m}, literal? s.value = some m → m = n := fun hm => by
        rw [stoi_literal s hm] at hn
        split_ifs at hn
        exact Except.ok.inj hn
      rw [Right, Fits, hget]
      constructor
      · intro hright
        have hnarrow := hnumber hright
        exact ⟨n, hnarrow ▸ hright, narrow_eq_iff.mp hnarrow⟩
      · rintro ⟨m, hm, hport⟩
        obtain rfl := hnumber hm
        rw [hm, narrow_eq_iff.mpr hport]

end Lists

section Loading

theorem sets_owns {file : File} {f : Field} {s : Setting} (h : file.Sets f s) : Owns f (f.name.1, s) := Prod.ext rfl h.2

theorem sets_of_owns {file : File} {f : Field} {a : Bytes × Setting} (ha : a ∈ file.settings) (h : Owns f a) :
    file.Sets f a.2 := by
  have hsec : f.name.1 = a.1 := congrArg Prod.fst h
  exact ⟨hsec ▸ ha, congrArg Prod.snd h⟩

theorem stored_of_load {file : File} {cfg : AgentConfig} (h : loadConfig (some file.text) = .ok cfg) {f : Field} {s : Setting}
    (hset : file.Sets f s) : Stored cfg f s.raw := by
  rw [loadConfig_text] at h
  exact stored_of_run (sets_owns hset) file.distinct hset.1 (fun _ _ _ => rfl) h

theorem config_means_iff (file : File) :
    Means file (loadConfig (some file.text)) ↔
      (∃ f s, file.Sets (.int f) s ∧ Rejected s) ∨ ∀ f s, file.Sets f s → Fits f s := by
  cases hload : loadConfig (some file.text) with
  | ok cfg =>
      have hright : Means file (.ok cfg) ↔ ∀ f s, file.Sets f s → Fits f s :=
        forall₃_congr fun f s hset => right_iff_fits s (stored_of_load hload hset)
      rw [hright, or_iff_right]
      rintro ⟨f, s, hset, hrejected⟩
      obtain ⟨n, hn, -⟩ := stored_of_load hload hset
      exact hrejected n (stoi_raw s ▸ hn)
  | error err =>
      rw [loadConfig_text] at hload
      obtain ⟨a, ha, f, hown, hstoi⟩ := error_of_run hload
      rw [stoi_raw] at hstoi
      have hset := sets_of_owns ha hown
      refine iff_of_true ⟨f, a.2, hset, fun n hn => ?_⟩ (.inl ⟨f, a.2, hset, fun n hn => ?_⟩)
      · rw [stoi_literal a.2 hn] at hstoi
        split_ifs at hstoi with hrange
        omega
      · rw [hstoi] at hn
        cases hn

end Loading

section Samples

open TriggerBuild (text)

theorem not_means {file : File} {A : Type} (get : AgentConfig → A) {a : A}
    (hload : (loadConfig (some file.text)).map get = .ok a) {f : Field} {s : Setting} (hset : file.Sets f s)
    (hwrong : ∀ cfg, get cfg = a → ¬ Right cfg f s) : ¬ Means file (loadConfig (some file.text)) := by
  intro hmeans
  cases hcfg : loadConfig (some file.text) with
  | error err =>
      rw [hcfg] at hload
      cases hload
  | ok cfg =>
      rw [hcfg] at hload hmeans
      exact hwrong cfg (Except.ok.inj hload) (hmeans f s hset)

def oneSetting (sec : Bytes) (h : sec.all (· != 10) = true) (s : Setting) : File where
  items := [.header [] sec [] rfl h rfl]
  last := .setting s
  distinct := List.nodup_singleton _

def repoPath : Setting where
  lead := []
  key := text "repo_path"
  gap := text " "
  pad := text " "
  value := text "/repo"
  trail := text "   "
  comment := some (text " local")
  lead_space := by decide
  gap_space := by decide
  pad_space := by decide
  trail_space := by decide
  key_plain := by decide
  key_head := by decide
  key_last := by decide
  value_plain := by decide
  value_head := by decide
  value_last := by decide
  comment_line := by decide

def port : Setting where
  lead := []
  key := text "port"
  gap := text " "
  pad := text " "
  value := text "70000"
  trail := []
  comment := none
  lead_space := by decide
  gap_space := by decide
  pad_space := by decide
  trail_space := by decide
  key_plain := by decide
  key_head := by decide
  key_last := by decide
  value_plain := by decide
  value_head := by decide
  value_last := by decide
  comment_line := by decide

-- The shipped file's own line ends up in the repository path, comment and all; the port keeps 16 bits of its number.
theorem comment_stored_in_value :
    (∃ file : File, (loadConfig (some file.text)).map (·.repoPath) = .ok (text "/repo   # local") ∧
      ¬ Means file (loadConfig (some file.text))) ∧
    ∃ file : File, (loadConfig (some file.text)).map (·.forwarderPort) = .ok 4464 ∧
      ¬ Means file (loadConfig (some file.text)) := by
  constructor
  · have hload : (loadConfig (some (oneSetting (text "agent") (by decide) repoPath).text)).map (·.repoPath) =
        .ok (text "/repo   # local") := by decide +kernel
    refine ⟨_, hload, not_means _ hload (f := .text .repoPath) (s := repoPath) ?_ fun cfg hcfg hright => ?_⟩
    · exact ⟨List.mem_singleton.mpr rfl, rfl⟩
    · have heq : text "/repo   # local" = text "/repo" := hcfg.symm.trans hright
      revert heq
      decide
  · have hload : (loadConfig (some (oneSetting (text "forwarder") (by decide) port).text)).map (·.forwarderPort) =
        .ok 4464 := by decide +kernel
    refine ⟨_, hload, not_means _ hload (f := .int .forwarderPort) (s := port) ?_ fun cfg hcfg hright => ?_⟩
    · exact ⟨List.mem_singleton.mpr rfl, rfl⟩
    · have heq : literal? port.value = some 4464 := by rw [hright, AgentConfig.getInt, hcfg]; rfl
      revert heq
      decide

end Samples

end Agent.ConfigMeaning
