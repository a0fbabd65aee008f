import JdRelay.Base.RoundTrip
import JdRelay.Ws.ManualClient

namespace Ws.UpgradeRequest
open Text Json ManualClient

section Heads

def tchar (b : UInt8) : Bool :=
  (48 ≤ b && b ≤ 57) || (65 ≤ b && b ≤ 90) || (97 ≤ b && b ≤ 122) ||
    [33, 35, 36, 37, 38, 39, 42, 43, 45, 46, 94, 95, 96, 124, 126].contains b

def blank (b : UInt8) : Bool := b == 32 || b == 9

def visible (b : UInt8) : Bool := 33 ≤ b && b != 127

def latin1 (b : Bytes) : Str := b.map fun b => codePoint b.toNat

def crlf : Bytes := [13, 10]

structure Header where
  name : Bytes
  lead : Bytes
  value : Bytes
  trail : Bytes
  name_ne : name ≠ []
  name_token : name.all tchar = true
  lead_blank : lead.all blank = true
  trail_blank : trail.all blank = true
  value_field : (value.all fun b => visible b || blank b) = true
  value_head : value.head?.all visible = true
  value_last : value.getLast?.all visible = true

namespace Header

def raw (h : Header) : Bytes := h.lead ++ h.value ++ h.trail

def line (h : Header) : Bytes := h.name ++ 58 :: h.raw

def key (h : Header) : Str := (latin1 h.name).map lower

end Header

structure Head where
  method : Bytes
  path : Bytes
  version : Bytes
  headers : List Header
  body : Bytes
  method_token : method.all tchar = true
  path_visible : path.all visible = true
  version_visible : version.all visible = true
  full : method ≠ [] ∧ path ≠ [] ∧ version ≠ []
  distinct : (headers.map Header.key).Nodup

namespace Head

def text (q : Head) : Bytes :=
  q.method ++ 32 :: q.path ++ 32 :: q.version ++ crlf ++ q.headers.flatMap (fun h => h.line ++ crlf) ++ crlf ++ q.body

def pseudo (q : Head) (k : Str) : Option Bytes :=
  if k = str "_method" then some q.method
  else if k = str "_path" then some q.path
  else if k = str "_version" then some q.version
  else none

-- One space in front of the value and none behind it; a pseudo-entry's own name goes with that entry's token only.
def Fits (q : Head) (h : Header) : Prop :=
  (q.pseudo h.key = none ∧ h.raw = 32 :: h.value) ∨
    (q.pseudo h.key = some h.value ∧ (h.raw = 32 :: h.value ∨ h.raw.head? ≠ some 32))

end Head

def Parsed (q : Head) (parsed : Option (Dict Str Str)) : Prop :=
  ∃ headers, parsed = some headers ∧ (∀ h ∈ q.headers, headers.lookup h.key = some (latin1 h.value)) ∧
    headers.lookup (str "_method") = some (latin1 q.method) ∧ headers.lookup (str "_path") = some (latin1 q.path) ∧
    headers.lookup (str "_version") = some (latin1 q.version)

end Heads

section Text

theorem latin1_append (a b : Bytes) : latin1 (a ++ b) = latin1 a ++ latin1 b := List.map_append

theorem codePoint_toNat (b : UInt8) : (codePoint b.toNat).val = b.toNat := by
  have hlt := b.toNat_lt
  exact Nat.mod_eq_of_lt (by omega)

theorem latin1_injective {a b : Bytes} (h : latin1 a = latin1 b) : a = b := by
  refine List.map_injective_iff.mpr (fun x y hxy => ?_) h
  have hval := congrArg Fin.val hxy
  rw [codePoint_toNat, codePoint_toNat] at hval
  exact UInt8.toNat_inj.mp hval

theorem mem_latin1 {n : Nat} (hn : n < 256) {b : Bytes} : codePoint n ∈ latin1 b ↔ UInt8.ofNat n ∈ b := by
  have hbyte : codePoint n = codePoint (UInt8.ofNat n).toNat := by rw [UInt8.toNat_ofNat_of_lt' hn]
  refine ⟨fun h => ?_, fun h => hbyte ▸ List.mem_map_of_mem h⟩
  obtain ⟨x, hx, heq⟩ := List.mem_map.mp h
  have hval := congrArg Fin.val (heq.trans hbyte)
  rw [codePoint_toNat, codePoint_toNat] at hval
  exact UInt8.toNat_inj.mp hval ▸ hx

theorem notMem_latin1 {n : Nat} (hn : n < 256) {p : UInt8 → Bool} (hp : p (UInt8.ofNat n) = false) {b : Bytes}
    (hb : b.all p = true) : codePoint n ∉ latin1 b := by
  rw [mem_latin1 hn]
  exact notMem_of_all hp hb

theorem lines_cons {c : CodePoint} (hc : c ≠ ofChar '\r') (s : Str) : lines (c :: s) = (lines s).modifyHead (c :: ·) := by
  cases s with
  | nil => rfl
  | cons d s => rw [lines, if_neg fun h => hc h.1]

theorem lines_line {l : Str} (hl : ofChar '\r' ∉ l) (s : Str) :
    lines (l ++ ofChar '\r' :: ofChar '\n' :: s) = l :: lines s := by
  induction l with
  | nil => rw [List.nil_append, lines, if_pos ⟨rfl, rfl⟩]
  | cons c l ih =>
      obtain ⟨hc, hl⟩ := not_or.mp (mt List.mem_cons.mpr hl)
      rw [List.cons_append, lines_cons (Ne.symm hc), ih hl]
      rfl

theorem header?_cons {c : CodePoint} (hc : c ≠ ofChar ':') (s : Str) :
    header? (c :: s) = (header? s).map fun r => (c :: r.1, r.2) := by
  cases s with
  | nil => rfl
  | cons d s => rw [header?, if_neg fun h => hc h.1]

theorem header?_spaced {k : Str} (hk : ofChar ':' ∉ k) (s : Str) :
    header? (k ++ ofChar ':' :: ofChar ' ' :: s) = some (k, s) := by
  induction k with
  | nil => rw [List.nil_append, header?, if_pos ⟨rfl, rfl⟩]
  | cons c k ih =>
      obtain ⟨hc, hk⟩ := not_or.mp (mt List.mem_cons.mpr hk)
      rw [List.cons_append, header?_cons (Ne.symm hc), ih hk]
      rfl

-- Where no space follows the first colon, a later one may; the key then holds the first.
theorem colon_of_unspaced {k s : Str} (hk : ofChar ':' ∉ k) (hs : s.head? ≠ some (ofChar ' ')) {r : Str × Str}
    (h : header? (k ++ ofChar ':' :: s) = some r) : ofChar ':' ∈ r.1 := by
  induction k generalizing r with
  | nil =>
      cases s with
      | nil => cases h
      | cons d s =>
          rw [List.nil_append, header?, if_neg fun heq => hs (congrArg some heq.2)] at h
          obtain ⟨r, -, rfl⟩ := Option.map_eq_some_iff.mp h
          exact List.mem_cons_self
  | cons c k ih =>
      obtain ⟨hc, hk⟩ := not_or.mp (mt List.mem_cons.mpr hk)
      rw [List.cons_append, header?_cons (Ne.symm hc)] at h
      obtain ⟨r, hr, rfl⟩ := Option.map_eq_some_iff.mp h
      exact List.mem_cons_of_mem _ (ih hk hr)

theorem lower_eq_colon {c : CodePoint} : lower c = ofChar ':' ↔ c = ofChar ':' := by
  have hcolon : (ofChar ':').val = 58 := rfl
  refine ⟨fun h => ?_, fun h => by rw [h]; rfl⟩
  unfold lower at h
  split_ifs at h with hupper
  · have hval := congrArg Fin.val h
    have hlt := c.isLt
    simp only [codePoint, Fin.ofNat, hcolon] at hval
    omega
  · exact h

end Text

section Lines

variable (h : Header)

theorem colon_notMem_key : ofChar ':' ∉ h.key := by
  intro hmem
  obtain ⟨c, hc, hlower⟩ := List.mem_map.mp hmem
  rw [lower_eq_colon.mp hlower] at hc
  exact notMem_latin1 (n := 58) (by decide) (by decide) h.name_token hc

theorem mem_raw {b : UInt8} (hb : b ∈ h.raw) : visible b = true ∨ blank b = true := by
  rcases List.mem_append.mp hb with hb | hb
  · rcases List.mem_append.mp hb with hb | hb
    · exact .inr (List.all_eq_true.mp h.lead_blank _ hb)
    · exact Bool.or_eq_true_iff.mp (List.all_eq_true.mp h.value_field _ hb)
  · exact .inr (List.all_eq_true.mp h.trail_blank _ hb)

theorem latin1_line : latin1 h.line = latin1 h.name ++ ofChar ':' :: latin1 h.raw := latin1_append _ _

theorem return_notMem_line : ofChar '\r' ∉ latin1 h.line := by
  rw [latin1_line, List.mem_append, List.mem_cons, not_or, not_or]
  refine ⟨notMem_latin1 (n := 13) (by decide) (by decide) h.name_token, by decide, fun hmem => ?_⟩
  have hraw := mem_raw h ((mem_latin1 (n := 13) (by decide)).mp hmem)
  revert hraw
  decide

theorem head?_latin1 (b : Bytes) : (latin1 b).head? = some (ofChar ' ') ↔ b.head? = some 32 := by
  cases b with
  | nil => simp [latin1]
  | cons x b =>
      simp only [latin1, List.map_cons, List.head?_cons, Option.some.injEq]
      refine ⟨fun heq => ?_, fun heq => by rw [heq]; rfl⟩
      exact List.cons.inj (latin1_injective (a := [x]) (b := [32]) (congrArg (fun c => [c]) heq)) |>.1

def store (headers : Dict Str Str) : Dict Str Str :=
  match header? (latin1 h.line) with
  | some (key, value) => headers.insert (key.map lower) value
  | none => headers

theorem readHeaders_line (headers : Dict Str Str) (rest : List Str) :
    readHeaders headers (latin1 h.line :: rest) = readHeaders (store h headers) rest := by
  have hne : latin1 h.line ≠ [] := by
    rw [latin1_line]
    exact List.append_ne_nil_of_right_ne_nil _ (List.cons_ne_nil _ _)
  rw [readHeaders, store]
  cases header? (latin1 h.line) with
  | none => rw [if_neg hne]
  | some r => rfl

theorem lookup_store {k : Str} (hk : ofChar ':' ∉ k) (headers : Dict Str Str) :
    (store h headers).lookup k =
      if k = h.key ∧ h.raw.head? = some 32 then some (latin1 h.raw.tail) else headers.lookup k := by
  have hname : ofChar ':' ∉ latin1 h.name := notMem_latin1 (n := 58) (by decide) (by decide) h.name_token
  by_cases hspace : h.raw.head? = some 32
  · obtain ⟨rest, hraw⟩ := List.head?_eq_some_iff.mp hspace
    have hline : latin1 h.line = latin1 h.name ++ ofChar ':' :: ofChar ' ' :: latin1 rest := by
      rw [latin1_line, hraw]
      rfl
    rw [store, hline, header?_spaced hname]
    simp only [hraw, List.head?_cons, and_true, List.tail_cons]
    exact Dict.lookup_insert_if _ _ _ _
  · rw [if_neg fun hand => hspace hand.2, store]
    cases hheader : header? (latin1 h.line) with
    | none => rfl
    | some r =>
        rw [latin1_line] at hheader
        have hcolon := colon_of_unspaced hname (mt (head?_latin1 _).mp hspace) hheader
        refine AList.lookup_insert_ne fun heq => hk ?_
        rw [heq]
        exact List.mem_map.mpr ⟨_, hcolon, rfl⟩

end Lines

section Run

theorem notMem_keys {h : Header} {hs : List Header} (hnodup : ((h :: hs).map Header.key).Nodup) {g : Header} (hg : g ∈ hs) :
    g.key ≠ h.key := fun heq => (List.nodup_cons.mp hnodup).1 (heq ▸ List.mem_map_of_mem hg)

theorem lookup_untouched {k : Str} (hk : ofChar ':' ∉ k) (rest : List Str) {hs : List Header}
    (hfree : ∀ h ∈ hs, k = h.key → h.raw.head? ≠ some 32) (headers : Dict Str Str) :
    (readHeaders headers ((hs.map fun h => latin1 h.line) ++ [] :: rest)).lookup k = headers.lookup k := by
  induction hs generalizing headers with
  | nil => rfl
  | cons h hs ih =>
      rw [List.map_cons, List.cons_append, readHeaders_line, ih fun g hg => hfree g (List.mem_cons_of_mem _ hg),
        lookup_store h hk, if_neg fun hand => hfree h List.mem_cons_self hand.1 hand.2]

theorem lookup_header (rest : List Str) {hs : List Header} (hnodup : (hs.map Header.key).Nodup) {h : Header} (hh : h ∈ hs)
    (headers : Dict Str Str) :
    (readHeaders headers ((hs.map fun h => latin1 h.line) ++ [] :: rest)).lookup h.key =
      if h.raw.head? = some 32 then some (latin1 h.raw.tail) else headers.lookup h.key := by
  induction hs generalizing headers with
  | nil => cases hh
  | cons g hs ih =>
      rw [List.map_cons, List.cons_append, readHeaders_line]
      rcases List.mem_cons.mp hh with rfl | hmem
      · rw [lookup_untouched (colon_notMem_key h) rest (fun g hg heq => absurd heq.symm (notMem_keys hnodup hg)),
          lookup_store h (colon_notMem_key h)]
        simp
      · rw [ih (List.nodup_cons.mp hnodup).2 hmem, lookup_store g (colon_notMem_key h),
          if_neg (fun hand : h.key = g.key ∧ _ => notMem_keys hnodup hmem hand.1)]

end Run

section Request

variable (q : Head)

def opened : Dict Str Str :=
  (((∅ : Dict Str Str).insert (str "_method") (latin1 q.method)).insert (str "_path") (latin1 q.path)).insert
    (str "_version") (latin1 q.version)

theorem lookup_opened (k : Str) : (opened q).lookup k = (q.pseudo k).map latin1 := by
  have hmethod : str "_method" ≠ str "_path" ∧ str "_method" ≠ str "_version" ∧ str "_path" ≠ str "_version" := by decide
  obtain ⟨hpath, hversion, hboth⟩ := hmethod
  simp only [opened, Dict.lookup_insert_if, Head.pseudo, AList.lookup_empty]
  by_cases hm : k = str "_method"
  · rw [if_neg (hm ▸ hversion), if_neg (hm ▸ hpath), if_pos hm, if_pos hm, Option.map_some]
  by_cases hp : k = str "_path"
  · rw [if_neg (hp ▸ hboth), if_pos hp, if_neg hm, if_pos hp, Option.map_some]
  rw [if_neg hm, if_neg hp, if_neg hm, if_neg hp]
  split_ifs <;> rfl

theorem colon_notMem_pseudo {k : Str} {token : Bytes} (h : q.pseudo k = some token) : ofChar ':' ∉ k := by
  unfold Head.pseudo at h
  split_ifs at h with hm hp hv
  · rw [hm]
    decide
  · rw [hp]
    decide
  · rw [hv]
    decide

def requestLine : Str := latin1 q.method ++ ofChar ' ' :: (latin1 q.path ++ ofChar ' ' :: latin1 q.version)

theorem return_notMem_requestLine : ofChar '\r' ∉ requestLine q := by
  simp only [requestLine, List.mem_append, List.mem_cons, not_or]
  exact ⟨notMem_latin1 (n := 13) (by decide) (by decide) q.method_token, by decide,
    notMem_latin1 (n := 13) (by decide) (by decide) q.path_visible, by decide,
    notMem_latin1 (n := 13) (by decide) (by decide) q.version_visible⟩

theorem splitOn_requestLine :
    (requestLine q).splitOn (ofChar ' ') = [latin1 q.method, latin1 q.path, latin1 q.version] := by
  have hmethod : ofChar ' ' ∉ latin1 q.method := notMem_latin1 (n := 32) (by decide) (by decide) q.method_token
  have hpath : ofChar ' ' ∉ latin1 q.path := notMem_latin1 (n := 32) (by decide) (by decide) q.path_visible
  have hversion : ofChar ' ' ∉ latin1 q.version := notMem_latin1 (n := 32) (by decide) (by decide) q.version_visible
  rw [requestLine, List.splitOn_append_cons_self, List.splitOn_append_cons_self, List.splitOn_eq_singleton hmethod,
    List.splitOn_eq_singleton hpath, List.splitOn_eq_singleton hversion]
  rfl

theorem lines_headers (hs : List Header) (s : Str) :
    lines (latin1 (hs.flatMap fun h => h.line ++ crlf) ++ s) = (hs.map fun h => latin1 h.line) ++ lines s := by
  induction hs with
  | nil => rfl
  | cons h hs ih =>
      rw [List.flatMap_cons, latin1_append, latin1_append, List.append_assoc, List.append_assoc, List.map_cons,
        List.cons_append, ← ih]
      exact lines_line (return_notMem_line h) _

theorem lines_text :
    lines (latin1 q.text) = requestLine q :: ((q.headers.map fun h => latin1 h.line) ++ [] :: lines (latin1 q.body)) := by
  have htext : latin1 q.text = requestLine q ++ ofChar '\r' :: ofChar '\n' ::
      (latin1 (q.headers.flatMap fun h => h.line ++ crlf) ++ ([] ++ ofChar '\r' :: ofChar '\n' :: latin1 q.body)) := by
    simp [Head.text, requestLine, latin1, crlf]
    decide
  rw [htext, lines_line (return_notMem_requestLine q), lines_headers, lines_line List.not_mem_nil]

def received : Dict Str Str :=
  readHeaders (opened q) ((q.headers.map fun h => latin1 h.line) ++ [] :: lines (latin1 q.body))

theorem parse_text : parseHttpUpgrade q.text = some (received q) := by
  have hlines := lines_text q
  rw [latin1] at hlines
  simp only [parseHttpUpgrade, hlines, splitOn_requestLine, received, opened]

theorem parsed_some_iff (headers : Dict Str Str) :
    Parsed q (some headers) ↔ (∀ h ∈ q.headers, headers.lookup h.key = some (latin1 h.value)) ∧
      ∀ k token, q.pseudo k = some token → headers.lookup k = some (latin1 token) := by
  constructor
  · rintro ⟨found, hsome, hheaders, hmethod, hpath, hversion⟩
    obtain rfl := Option.some.inj hsome
    refine ⟨hheaders, fun k token h => ?_⟩
    unfold Head.pseudo at h
    split_ifs at h with hm hp hv
    · rw [hm, hmethod, Option.some.inj h]
    · rw [hp, hpath, Option.some.inj h]
    · rw [hv, hversion, Option.some.inj h]
  · rintro ⟨hheaders, h⟩
    exact ⟨headers, rfl, hheaders, h _ _ rfl, h _ _ rfl, h _ _ rfl⟩

variable {q} {h : Header}

theorem lookup_received (hh : h ∈ q.headers) : (received q).lookup h.key =
    if h.raw.head? = some 32 then some (latin1 h.raw.tail) else (q.pseudo h.key).map latin1 := by
  rw [received, lookup_header _ q.distinct hh, lookup_opened]

theorem fits_of_lookup (hh : h ∈ q.headers) (hlookup : (received q).lookup h.key = some (latin1 h.value))
    (hpseudo : ∀ k token, q.pseudo k = some token → (received q).lookup k = some (latin1 token)) : q.Fits h := by
  have hread := lookup_received hh
  rw [hlookup] at hread
  split_ifs at hread with hspace
  · obtain ⟨rest, hraw⟩ := List.head?_eq_some_iff.mp hspace
    rw [hraw] at hread
    obtain rfl := latin1_injective (Option.some.inj hread)
    cases hkey : q.pseudo h.key with
    | none => exact .inl ⟨hkey, hraw⟩
    | some token =>
        have htoken := hpseudo _ _ hkey
        rw [hlookup] at htoken
        rw [← latin1_injective (Option.some.inj htoken)] at hkey
        exact .inr ⟨hkey, .inl hraw⟩
  · obtain ⟨token, htoken, heq⟩ := Option.map_eq_some_iff.mp hread.symm
    rw [latin1_injective heq] at htoken
    exact .inr ⟨htoken, .inr hspace⟩

theorem lookup_of_fits (hh : h ∈ q.headers) (hfits : q.Fits h) : (received q).lookup h.key = some (latin1 h.value) := by
  rw [lookup_received hh]
  rcases hfits with ⟨-, hraw⟩ | ⟨hkey, hraw | hraw⟩
  · rw [hraw]
    rfl
  · rw [hraw]
    rfl
  · rw [if_neg hraw, hkey]
    rfl

theorem pseudo_of_fits (hfits : ∀ h ∈ q.headers, q.Fits h) {k : Str} {token : Bytes} (hk : q.pseudo k = some token) :
    (received q).lookup k = some (latin1 token) := by
  by_cases hmem : ∃ h ∈ q.headers, k = h.key
  · obtain ⟨h, hh, rfl⟩ := hmem
    rw [lookup_of_fits hh (hfits h hh)]
    rcases hfits h hh with ⟨hnone, -⟩ | ⟨hkey, -⟩
    · rw [hnone] at hk
      cases hk
    · rw [hkey] at hk
      rw [Option.some.inj hk]
  · rw [received, lookup_untouched (colon_notMem_pseudo q hk) _ (fun h hh heq => absurd ⟨h, hh, heq⟩ hmem), lookup_opened,
      hk]
    rfl

theorem parsed_iff (q : Head) : Parsed q (parseHttpUpgrade q.text) ↔ ∀ h ∈ q.headers, q.Fits h := by
  rw [parse_text, parsed_some_iff]
  constructor
  · rintro ⟨hheaders, hpseudo⟩ h hh
    exact fits_of_lookup hh (hheaders h hh) hpseudo
  · intro hfits
    exact ⟨fun h hh => lookup_of_fits hh (hfits h hh), fun k token => pseudo_of_fits hfits⟩

end Request

section Differing

theorem Parsed.lookup_key {q : Head} {parsed : Option (Dict Str Str)} (hp : Parsed q parsed) {h : Header}
    (hh : h ∈ q.headers) : parsed.bind (fun headers => headers.lookup h.key) = some (latin1 h.value) := by
  obtain ⟨headers, rfl, hheaders, -⟩ := hp
  exact hheaders h hh

theorem Parsed.lookup_method {q : Head} {parsed : Option (Dict Str Str)} (hp : Parsed q parsed) :
    parsed.bind (fun headers => headers.lookup (str "_method")) = some (latin1 q.method) := by
  obtain ⟨headers, rfl, -, hmethod, -⟩ := hp
  exact hmethod

def get (h : Header) : Head where
  method := [71, 69, 84]
  path := [47]
  version := [72, 84, 84, 80, 47, 49, 46, 49]
  headers := [h]
  body := []
  method_token := by decide
  path_visible := by decide
  version_visible := by decide
  full := ⟨List.cons_ne_nil _ _, List.cons_ne_nil _ _, List.cons_ne_nil _ _⟩
  distinct := List.nodup_singleton _

def unspaced : Header where
  name := [72, 111, 115, 116]
  lead := []
  value := [120]
  trail := []
  name_ne := List.cons_ne_nil _ _
  name_token := by decide
  lead_blank := by decide
  trail_blank := by decide
  value_field := by decide
  value_head := by decide
  value_last := by decide

def twoSpaces : Header := { unspaced with lead := [32, 32], lead_blank := by decide }

def ownMethod : Header :=
  { unspaced with
    name := [95, 109, 101, 116, 104, 111, 100]
    lead := [32]
    name_ne := List.cons_ne_nil _ _
    name_token := by decide
    lead_blank := by decide }

theorem unspaced_header_lost :
    ¬ Parsed (get unspaced) (parseHttpUpgrade (get unspaced).text) ∧
      ¬ Parsed (get twoSpaces) (parseHttpUpgrade (get twoSpaces).text) ∧
      ¬ Parsed (get ownMethod) (parseHttpUpgrade (get ownMethod).text) := by
  refine ⟨fun hp => ?_, fun hp => ?_, fun hp => ?_⟩
  · have hlookup := hp.lookup_key List.mem_cons_self
    revert hlookup
    decide +kernel
  · have hlookup := hp.lookup_key List.mem_cons_self
    revert hlookup
    decide +kernel
  · have hmethod := hp.lookup_method
    revert hmethod
    decide +kernel

end Differing

end Ws.UpgradeRequest
