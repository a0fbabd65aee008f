import JdRelay.Agent.LoadConfig

namespace Agent.ConfigFile
open Text Fields LoadConfig

section Format

def space (b : UInt8) : Bool := b == 32 || b == 9 || b == 13

def visible (b : UInt8) : Bool := 33 ≤ b && b != 127

def plain (b : UInt8) : Bool := (visible b && b != 35) || b == 32 || b == 9

-- key = value # comment
structure Setting where
  lead : Bytes
  key : Bytes
  gap : Bytes
  pad : Bytes
  value : Bytes
  trail : Bytes
  comment : Option Bytes
  lead_space : lead.all space = true
  gap_space : gap.all space = true
  pad_space : pad.all space = true
  trail_space : trail.all space = true
  key_plain : key.all (fun b => plain b && b != 61) = true
  key_head : key.head?.any (fun b => visible b && b != 91) = true
  key_last : key.getLast?.all visible = true
  value_plain : value.all plain = true
  value_head : value.head?.all visible = true
  value_last : value.getLast?.all visible = true
  comment_line : (comment.getD []).all (· != 10) = true

inductive Item where
  | blank (spaces : Bytes) (h : spaces.all space = true)
  | comment (lead note : Bytes) (hlead : lead.all space = true) (hnote : note.all (· != 10) = true)
  | header (lead name trail : Bytes) (hlead : lead.all space = true) (hname : name.all (· != 10) = true)
      (htrail : trail.all space = true)
  | setting (s : Setting)

namespace Setting

def note (s : Setting) : Bytes := s.comment.elim [] fun c => 35 :: c

def line (s : Setting) : Bytes := s.lead ++ (s.key ++ s.gap ++ 61 :: (s.pad ++ s.value ++ s.trail ++ s.note))

def raw (s : Setting) : Bytes := LoadConfig.trim (s.pad ++ s.value ++ s.trail ++ s.note)

end Setting

def Item.line : Item → Bytes
  | .blank spaces _ => spaces
  | .comment lead note _ _ => lead ++ 35 :: note
  | .header lead name trail _ _ _ => lead ++ 91 :: (name ++ 93 :: trail)
  | .setting s => s.line

def assigns (sec : Bytes) : List Item → List (Bytes × Setting)
  | [] => []
  | .blank .. :: items => assigns sec items
  | .comment .. :: items => assigns sec items
  | .header _ name _ _ _ _ :: items => assigns name items
  | .setting s :: items => (sec, s) :: assigns sec items

-- last is the line that no newline ends, a blank one without spaces where the file ends with a newline.
structure File where
  items : List Item
  last : Item
  distinct : ((assigns [] (items ++ [last])).map fun a => (a.1, a.2.key)).Nodup

namespace File

def text (f : File) : Bytes := f.items.flatMap (fun i => i.line ++ [10]) ++ f.last.line

def settings (f : File) : List (Bytes × Setting) := assigns [] (f.items ++ [f.last])

def Sets (f : File) (field : Field) (s : Setting) : Prop := (field.name.1, s) ∈ f.settings ∧ field.name.2 = s.key

end File

end Format

section Bytes

theorem blank_of_space {b : UInt8} (h : space b = true) : blank b = true := by
  simp only [space, Bool.or_eq_true] at h
  simp only [blank, Bool.or_eq_true]
  exact .inl h

theorem not_blank_of_visible {b : UInt8} (h : visible b = true) : blank b = false := by
  simp only [visible, blank, Bool.and_eq_true, bne_iff_ne, decide_eq_true_eq, Bool.or_eq_false_iff, beq_eq_false_iff_ne,
    UInt8.le_iff_toNat_le, ne_eq, UInt8.ext_iff] at h ⊢
  simp only [UInt8.reduceToNat] at h ⊢
  omega

theorem all_blank {s : Bytes} (h : s.all space = true) : ∀ b ∈ s, blank b = true := fun b hb =>
  blank_of_space (List.all_eq_true.mp h b hb)

theorem trimmed_of_visible {s : Bytes} (hhead : s.head?.all visible = true) (hlast : s.getLast?.all visible = true) :
    Trimmed blank s := by
  refine ⟨fun b hb => not_blank_of_visible ?_, fun b hb => not_blank_of_visible ?_⟩
  · rw [Option.mem_def.mp hb] at hhead
    exact hhead
  · rw [Option.mem_def.mp hb] at hlast
    exact hlast

end Bytes

section Settings

variable (s : Setting)

namespace Setting

theorem key_cons : ∃ k rest, s.key = k :: rest ∧ visible k = true ∧ k ≠ 91 ∧ k ≠ 35 := by
  have hhead := s.key_head
  cases hkey : s.key with
  | nil =>
      rw [hkey] at hhead
      cases hhead
  | cons k rest =>
      have hplain := s.key_plain
      rw [hkey] at hhead hplain
      simp only [List.head?_cons, Option.any_some, Bool.and_eq_true, bne_iff_ne] at hhead
      simp only [List.all_cons, Bool.and_eq_true] at hplain
      refine ⟨k, rest, rfl, hhead.1, hhead.2, ?_⟩
      rintro rfl
      exact Bool.false_ne_true hplain.1.1

theorem key_trimmed : Trimmed blank s.key := by
  obtain ⟨k, rest, hkey, hk, -⟩ := s.key_cons
  refine trimmed_of_visible ?_ s.key_last
  rw [hkey]
  exact hk

theorem value_trimmed : Trimmed blank s.value := trimmed_of_visible s.value_head s.value_last

theorem key_padded : LoadConfig.trim (s.key ++ s.gap) = s.key :=
  (trim_append_right (all_blank s.gap_space) s.key).trans (trim_of_trimmed s.key_trimmed)

theorem equals_notMem_key : 61 ∉ s.key ++ s.gap := by
  rw [List.mem_append, not_or]
  exact ⟨notMem_of_all (by decide) s.key_plain, notMem_of_all (by decide) s.gap_space⟩

theorem hash_notMem_value : 35 ∉ s.value := notMem_of_all (by decide) s.value_plain

theorem newline_notMem_note : 10 ∉ s.note := by
  have hline := s.comment_line
  rw [note]
  cases hc : s.comment with
  | none => exact List.not_mem_nil
  | some c =>
      rw [hc] at hline
      exact List.not_mem_cons_of_ne_of_not_mem (by decide) (notMem_of_all rfl hline)

theorem newline_notMem_line : 10 ∉ s.line := by
  simp only [line, List.mem_append, List.mem_cons, not_or]
  exact ⟨notMem_of_all (by decide) s.lead_space,
    ⟨notMem_of_all (by decide) s.key_plain, notMem_of_all (by decide) s.gap_space⟩, by decide,
    ⟨⟨notMem_of_all (by decide) s.pad_space, notMem_of_all (by decide) s.value_plain⟩,
      notMem_of_all (by decide) s.trail_space⟩, s.newline_notMem_note⟩

theorem trim_line :
    LoadConfig.trim s.line = s.key ++ s.gap ++ 61 :: (s.pad ++ s.value ++ s.trail ++ s.note).rdropWhile blank := by
  obtain ⟨k, rest, hkey, hk, -⟩ := s.key_cons
  rw [LoadConfig.trim, line, trim_append_left (all_blank s.lead_space), hkey, List.cons_append, List.cons_append,
    trim_cons (not_blank_of_visible hk), rdropWhile_append_cons (by decide)]
  rfl

theorem raw_of_comment_none (h : s.comment = none) : s.raw = s.value := by
  have hnote : s.note = [] := by rw [note, h]; rfl
  rw [raw, hnote, List.append_nil]
  exact trim_padded (all_blank s.pad_space) (all_blank s.trail_space) s.value_trimmed

theorem hash_mem_raw {c : Bytes} (h : s.comment = some c) : 35 ∈ s.raw := by
  have hnote : s.note = 35 :: c := by rw [note, h]; rfl
  rw [raw, hnote]
  exact mem_trim (by decide) (List.mem_append_right _ List.mem_cons_self)

theorem raw_eq_value_iff : s.raw = s.value ↔ s.comment = none := by
  refine ⟨fun h => ?_, s.raw_of_comment_none⟩
  cases hc : s.comment with
  | none => rfl
  | some c => exact absurd (h ▸ s.hash_mem_raw hc) s.hash_notMem_value

end Setting

theorem readLine_setting (cfg : AgentConfig) (sec : Bytes) :
    readLine (cfg, sec) s.line = (setting cfg sec s.key s.raw).map fun cfg => (cfg, sec) := by
  obtain ⟨k, rest, hkey, hk, hbracket, hhash⟩ := s.key_cons
  have hhead : (LoadConfig.trim s.line).head? = some k := by rw [s.trim_line, hkey]; rfl
  have hne : LoadConfig.trim s.line ≠ [] := fun h => by
    rw [h] at hhead
    cases hhead
  rw [readLine]
  simp only [hhead]
  rw [if_neg (by simpa using ⟨hne, hhash⟩), if_neg (by simpa using fun h => absurd h hbracket), s.trim_line,
    cut_append s.equals_notMem_key]
  simp only [s.key_padded]
  rw [LoadConfig.trim, trim_rdropWhile]
  rfl

end Settings

section Lines

theorem newline_notMem_item (i : Item) : 10 ∉ i.line := by
  cases i with
  | blank spaces h => exact notMem_of_all (by decide) h
  | comment lead note hlead hnote =>
      rw [Item.line, List.mem_append, List.mem_cons, not_or, not_or]
      exact ⟨notMem_of_all (by decide) hlead, by decide, notMem_of_all rfl hnote⟩
  | header lead name trail hlead hname htrail =>
      simp only [Item.line, List.mem_append, List.mem_cons, not_or]
      exact ⟨notMem_of_all (by decide) hlead, by decide, notMem_of_all rfl hname, by decide, notMem_of_all (by decide) htrail⟩
  | setting s => exact s.newline_notMem_line

theorem readLine_nil (s : AgentConfig × Bytes) : readLine s [] = .ok s := by
  rw [readLine]
  exact if_pos (.inl rfl)

theorem readLine_blank (s : AgentConfig × Bytes) {spaces : Bytes} (h : spaces.all space = true) :
    readLine s spaces = .ok s := by
  rw [readLine, LoadConfig.trim, trim_of_all (all_blank h)]
  exact if_pos (.inl rfl)

theorem readLine_comment (s : AgentConfig × Bytes) {lead : Bytes} (h : lead.all space = true) (note : Bytes) :
    readLine s (lead ++ 35 :: note) = .ok s := by
  rw [readLine, LoadConfig.trim, trim_append_left (all_blank h), trim_cons (by decide)]
  exact if_pos (.inr rfl)

theorem readLine_header (s : AgentConfig × Bytes) {lead trail : Bytes} (hlead : lead.all space = true)
    (htrail : trail.all space = true) (name : Bytes) :
    readLine s (lead ++ 91 :: (name ++ 93 :: trail)) = .ok (s.1, name) := by
  have hline : LoadConfig.trim (lead ++ 91 :: (name ++ 93 :: trail)) = 91 :: (name ++ [93]) := by
    rw [LoadConfig.trim, trim_append_left (all_blank hlead), trim_cons (by decide), rdropWhile_append_cons (by decide),
      List.rdropWhile_eq_nil_iff.mpr (all_blank htrail)]
  have hlast : (91 :: (name ++ [93])).getLast? = some 93 := List.getLast?_concat (l := 91 :: name)
  rw [readLine, hline]
  refine (if_neg (by simp)).trans ((if_pos ⟨rfl, hlast⟩).trans ?_)
  simp

def apply (cfg : AgentConfig) (a : Bytes × Setting) : Except StdError AgentConfig := setting cfg a.1 a.2.key a.2.raw

theorem readLines_items (items : List Item) (cfg : AgentConfig) (sec : Bytes) :
    ((items.map Item.line).foldlM readLine (cfg, sec)).map Prod.fst = (assigns sec items).foldlM apply cfg := by
  induction items generalizing cfg sec with
  | nil => rfl
  | cons i items ih =>
      rw [List.map_cons, List.foldlM_cons]
      cases i with
      | blank spaces h =>
          rw [Item.line, readLine_blank _ h]
          exact ih cfg sec
      | comment lead note hlead _ =>
          rw [Item.line, readLine_comment _ hlead]
          exact ih cfg sec
      | header lead name trail hlead _ htrail =>
          rw [Item.line, readLine_header _ hlead htrail]
          exact ih cfg name
      | setting s =>
          rw [Item.line, readLine_setting, assigns, List.foldlM_cons, apply]
          cases setting cfg sec s.key s.raw with
          | error err => rfl
          | ok cfg => exact ih cfg sec

theorem pieces_text (items : List Item) (last : Bytes) (hlast : 10 ∉ last) :
    pieces 10 (items.flatMap (fun i => i.line ++ [10]) ++ last) =
      items.map Item.line ++ if last = [] then [] else [last] := by
  induction items with
  | nil => exact pieces_of_notMem hlast
  | cons i items ih =>
      rw [List.flatMap_cons, List.append_assoc, List.append_assoc, List.singleton_append,
        pieces_append (newline_notMem_item i), ih]
      rfl

theorem loadConfig_text (file : File) :
    loadConfig (some file.text) = file.settings.foldlM apply AgentConfig.default := by
  rw [loadConfig, File.text, pieces_text _ _ (newline_notMem_item _), File.settings, ← readLines_items, List.map_append,
    List.map_singleton]
  split_ifs with hnil
  · rw [hnil, List.append_nil, List.foldlM_append]
    cases (file.items.map Item.line).foldlM readLine (AgentConfig.default, []) with
    | error err => rfl
    | ok s => simp [bind, Except.bind, readLine_nil, pure, Except.pure]
  · rfl

end Lines

end Agent.ConfigFile
