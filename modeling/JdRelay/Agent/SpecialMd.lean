import Mathlib.Data.List.TakeWhile
import JdRelay.Agent.Jenkins
import JdRelay.Base.Lines

namespace Agent.SpecialMd
open Text Jenkins

def newline : UInt8 := 10

def slash : UInt8 := 47

def quote : UInt8 := 34

def backslash : UInt8 := 92

-- char buf[256]: a read is at most 255 bytes, and output += buf stops at a NUL.
def fgets (pipe : Bytes) : List Bytes := Lines.reads newline 255 pipe.length pipe

def output (pipe : Bytes) : Bytes := (fgets pipe).flatMap fun buf => buf.takeWhile (· ≠ 0)

def detect (pipe : Option Bytes) : Bool := detectSpecialMdChange (pipe.map output)

-- A file name holds no NUL.
structure Path where
  bytes : Bytes
  nul : 0 ∉ bytes

def specialMd : Bytes := "special.md".toList.flatMap String.utf8EncodeChar

def Path.last (p : Path) : Bytes := (p.bytes.reverse.takeWhile (· ≠ slash)).reverse

-- What git quotes: control characters, the quote and the backslash, and with core.quotePath all bytes behind ASCII.
def unusual (quotePath : Bool) (b : UInt8) : Bool :=
  decide (b < 32) || decide (b = 127) || decide (b = quote) || decide (b = backslash) || quotePath && decide (128 ≤ b)

def digit (n : Nat) : UInt8 := UInt8.ofNat (48 + n % 8)

def code (b : UInt8) : Bytes :=
  if b = 7 then [97]
  else if b = 8 then [98]
  else if b = 9 then [116]
  else if b = 10 then [110]
  else if b = 11 then [118]
  else if b = 12 then [102]
  else if b = 13 then [114]
  else if b = quote ∨ b = backslash then [b]
  else [digit (b.toNat / 64), digit (b.toNat / 8), digit b.toNat]

def escape (quotePath : Bool) (b : UInt8) : Bytes := if unusual quotePath b then backslash :: code b else [b]

def Path.printed (quotePath : Bool) (p : Path) : Bytes :=
  if p.bytes.any (unusual quotePath) then quote :: p.bytes.flatMap (escape quotePath) ++ [quote] else p.bytes

-- git diff --name-only
def nameOnly (quotePath : Bool) (paths : List Path) : Bytes := paths.flatMap fun p => p.printed quotePath ++ [newline]

section Specs

variable {quotePath : Bool} {paths : List Path}

theorem specialMd_eq : specialMd = [115, 112, 101, 99, 105, 97, 108, 46, 109, 100] := by decide

theorem digit_bounds (n : Nat) : (digit n).toNat = 48 + n % 8 := by
  rw [digit, UInt8.toNat_ofNat', Nat.mod_eq_of_lt (by omega)]

theorem notMem_code {b x : UInt8} (hb : b ≠ x) (hletters : x ∉ ([97, 98, 116, 110, 118, 102, 114] : Bytes))
    (hdigits : x.toNat < 48 ∨ 55 < x.toNat) : x ∉ code b := by
  have hdigit : ∀ n, x ≠ digit n := by
    rintro n rfl
    rw [digit_bounds] at hdigits
    omega
  simp only [List.mem_cons, List.not_mem_nil, or_false, not_or] at hletters
  unfold code
  split_ifs <;> simp only [List.mem_cons, List.not_mem_nil, or_false, not_or] <;> tauto

theorem escape_self {b : UInt8} (h : unusual quotePath b = false) : escape quotePath b = [b] := by
  rw [escape, h]
  rfl

theorem zero_notMem_escape {b : UInt8} (hb : b ≠ 0) : 0 ∉ escape quotePath b := by
  unfold escape
  split
  · rintro (_ | ⟨_, h⟩)
    exact notMem_code hb (by decide) (.inl (by decide)) h
  · exact fun h => hb (List.mem_singleton.mp h).symm

theorem zero_notMem_printed (p : Path) : 0 ∉ p.printed quotePath := by
  unfold Path.printed
  split
  · simp only [List.mem_append, List.mem_cons, List.not_mem_nil, or_false, List.mem_flatMap]
    rintro ((h | ⟨b, hb, h⟩) | h)
    · exact absurd h (by decide)
    · exact zero_notMem_escape (fun hz => p.nul (hz ▸ hb)) h
    · exact absurd h (by decide)
  · exact p.nul

theorem zero_notMem_nameOnly : 0 ∉ nameOnly quotePath paths := by
  simp only [nameOnly, List.mem_flatMap, List.mem_append, List.mem_singleton]
  rintro ⟨p, -, h | h⟩
  · exact zero_notMem_printed p h
  · exact absurd h (by decide)

theorem output_eq {pipe : Bytes} (h : 0 ∉ pipe) : output pipe = pipe := by
  have hflatten : (fgets pipe).flatten = pipe := Lines.reads_flatten (by decide) (le_refl _)
  have hbuf : ∀ buf ∈ fgets pipe, buf.takeWhile (· ≠ 0) = buf := by
    intro buf hbuf
    refine List.takeWhile_eq_self_iff.mpr fun b hb => decide_eq_true ?_
    rintro rfl
    exact h (hflatten ▸ List.mem_flatten_of_mem hbuf hb)
  rw [output, List.flatMap_def, List.map_congr_left hbuf, List.map_id', hflatten]

theorem escapes_specialMd : Lines.Escapes (escape quotePath) backslash specialMd where
  unmarked := by decide
  plain b := by
    cases hb : unusual quotePath b with
    | false => exact .inl (escape_self hb)
    | true =>
        have hescape : escape quotePath b = backslash :: code b := by rw [escape, if_pos hb]
        refine .inr ⟨⟨code b, hescape⟩, fun x hx => ?_⟩
        obtain rfl : 115 = x := Option.some.inj (by rw [specialMd_eq] at hx; exact hx)
        have hne : b ≠ 115 := by
          rintro rfl
          revert hb
          cases quotePath <;> decide
        rw [hescape]
        rintro (_ | ⟨_, h⟩)
        exact notMem_code hne (by decide) (.inr (by decide)) h

theorem escape_specialMd : ∀ b ∈ specialMd, escape quotePath b = [b] := by
  have hall : (specialMd.all fun b => decide (escape quotePath b = [b])) = true := by
    cases quotePath <;> decide
  exact fun b hb => of_decide_eq_true (List.all_eq_true.mp hall b hb)

theorem infix_printed_iff (p : Path) : specialMd <:+: p.printed quotePath ↔ specialMd <:+: p.bytes := by
  unfold Path.printed
  split
  · rw [List.cons_append, Lines.infix_cons_of_notMem (by decide) (by decide),
      Lines.infix_line_iff (by decide) (by decide), Lines.infix_escape_iff (by decide) escapes_specialMd escape_specialMd,
      List.infix_nil, or_iff_left (by decide)]
  · rfl

theorem detectSpecialMdChange_some (out : Bytes) : detectSpecialMdChange (some out) = decide (specialMd <:+: out) := rfl

theorem detect_iff : detect (some (nameOnly quotePath paths)) = true ↔ ∃ p ∈ paths, specialMd <:+: p.bytes := by
  rw [detect, Option.map_some, output_eq zero_notMem_nameOnly, detectSpecialMdChange_some, decide_eq_true_iff,
    nameOnly, Lines.infix_lines_iff (by decide) (by decide)]
  simp only [infix_printed_iff]

theorem last_suffix (p : Path) : p.last <:+ p.bytes := by
  have hprefix : p.bytes.reverse.takeWhile (· ≠ slash) <+: p.bytes.reverse := List.takeWhile_prefix _
  have hsuffix : p.last <:+ p.bytes.reverse.reverse := List.reverse_suffix.mpr hprefix
  rwa [List.reverse_reverse] at hsuffix

theorem infix_of_last {p : Path} (h : p.last = specialMd) : specialMd <:+: p.bytes := by
  rw [← h]
  exact (last_suffix p).isInfix

theorem detect_exact_iff (quotePath : Bool) (paths : List Path) :
    (detect (some (nameOnly quotePath paths)) = true ↔ ∃ p ∈ paths, p.last = specialMd) ↔
      (∃ p ∈ paths, p.last = specialMd) ∨ ∀ p ∈ paths, ¬ specialMd <:+: p.bytes := by
  rw [detect_iff]
  constructor
  · intro h
    by_cases hlast : ∃ p ∈ paths, p.last = specialMd
    · exact .inl hlast
    · exact .inr fun p hp hin => hlast (h.mp ⟨p, hp, hin⟩)
  · rintro (⟨p, hp, hlast⟩ | hnone)
    · exact iff_of_true ⟨p, hp, infix_of_last hlast⟩ ⟨p, hp, hlast⟩
    · exact iff_of_false (fun ⟨p, hp, hin⟩ => hnone p hp hin) (fun ⟨p, hp, hlast⟩ => hnone p hp (infix_of_last hlast))

end Specs

def backup : Path where
  bytes := "docs/special.md.bak".toList.flatMap String.utf8EncodeChar
  nul := by decide

theorem backup_detected : detect (some (nameOnly true [backup])) = true ∧ ¬ ∃ p ∈ [backup], p.last = specialMd := by
  refine ⟨detect_iff.mpr ⟨backup, List.mem_singleton_self _, ?_⟩, ?_⟩
  · decide
  · simp only [List.mem_singleton, exists_eq_left]
    decide

end Agent.SpecialMd
