import Mathlib
import ScriptHost.Text.Lowercase
/-!
# Text in small letters stays as it is

A second lower-casing changes nothing.  The proof goes through the characters: no small letter that
the table of capitals gives is a capital itself, which is checked once for the whole table, one pair
of runs after the other.

## Main statements

* `Text.IsSmall`: a character that lower-casing leaves as it is.
* `Text.isSmall_lowerChar`: lower-casing gives small characters.
* `Text.lowercase_lowercase`: lower-casing twice is lower-casing once.
* `Text.slash_mem_of_mem_lowercase`: lower-casing makes no slash.
-/

namespace ScriptHost.Text

/-! ## The table of capitals -/

namespace CapitalRun

/-- The capitals of a run. -/
def codes (run : CapitalRun) : List Nat :=
  List.range' run.first ((run.last - run.first) / run.step + 1) run.step

/-- The code point of the small letter of a capital. -/
def small (run : CapitalRun) (code : Nat) : Nat := ((code : Int) + run.shift).toNat

/-- Whether the small letters of a run are apart from the capitals of another.  Most runs are apart
as a whole. -/
def avoids (run other : CapitalRun) : Bool :=
  (match run.shift with
    | .ofNat k => Nat.blt (run.last + k) other.first || Nat.blt other.last (run.first + k)
    | .negSucc k =>
      Nat.blt k run.first &&
        (Nat.blt run.last (other.first + k + 1) || Nat.blt (other.last + k + 1) run.first)) ||
    run.codes.all fun code => !other.covers (run.small code)

/-- Whether a code point is that of a character. -/
def isScalar (code : Nat) : Bool :=
  Nat.blt code 0xD800 || Nat.blt 0xDFFF code && Nat.blt code 0x110000

/-- Whether a code point is neither an ASCII capital nor the capital I with a dot above, which are
treated apart from the table. -/
def isPlain (code : Nat) : Bool := code != 0x130 && (Nat.blt 0x5A code || Nat.blt code 0x41)

theorem mem_codes {run : CapitalRun} {code : Nat} (h : run.covers code) : code ∈ run.codes := by
  unfold covers at h
  simp only [Bool.and_eq_true, decide_eq_true_eq, beq_iff_eq] at h
  obtain ⟨⟨hfirst, hlast⟩, hstep⟩ := h
  rw [codes, List.mem_range']
  refine ⟨(code - run.first) / run.step, ?_, ?_⟩
  · exact Nat.lt_succ_of_le (Nat.div_le_div_right (by omega))
  · have hexact := Nat.div_add_mod (code - run.first) run.step
    rw [hstep, Nat.add_zero] at hexact
    omega

/-- The small letter has the code point that it should have. -/
theorem toNat_lower {run : CapitalRun} {code : Nat} (h : isScalar (run.small code)) :
    (run.lower code).toNat = run.small code := by
  unfold isScalar at h
  simp only [Bool.or_eq_true, Bool.and_eq_true, Nat.blt_eq] at h
  have hvalid : (run.small code).isValidChar := h
  show (Char.ofNat (run.small code)).toNat = run.small code
  unfold Char.ofNat
  rw [dif_pos hvalid]
  rfl

/-- Runs that avoid each other do so at every capital. -/
theorem not_covers_small {run other : CapitalRun} (h : run.avoids other) {code : Nat}
    (hc : run.covers code) : ¬ other.covers (run.small code) := by
  have hmem := mem_codes hc
  unfold covers at hc ⊢
  simp only [Bool.and_eq_true, decide_eq_true_eq, beq_iff_eq] at hc ⊢
  unfold avoids at h
  rcases Bool.or_eq_true_iff.1 h with hapart | hall
  · unfold small
    split at hapart
    · rename_i k hk
      rw [Int.ofNat_eq_natCast] at hk
      simp only [Nat.blt_eq, Bool.or_eq_true] at hapart
      omega
    · rename_i k hk
      rw [Int.negSucc_eq] at hk
      simp only [Nat.blt_eq, Bool.or_eq_true, Bool.and_eq_true] at hapart
      omega
  · have hnot := List.all_eq_true.1 hall code hmem
    simp only [covers, Bool.not_eq_true', Bool.and_eq_false_iff, decide_eq_false_iff_not,
      beq_eq_false_iff_ne] at hnot
    rintro ⟨⟨hfirst, hlast⟩, hstep⟩
    rcases hnot with (hlow | hhigh) | hmod
    · exact hlow hfirst
    · exact hhigh hlast
    · exact hmod hstep

end CapitalRun

set_option maxRecDepth 4000 in
/-- No small letter of the table is a capital of the table. -/
theorem avoids_table : capitalRuns.all (fun run => capitalRuns.all run.avoids) := by
  decide +kernel

/-- The table gives characters that are not treated apart from it. -/
theorem isPlain_table :
    capitalRuns.all (fun run => run.codes.all fun code =>
      CapitalRun.isScalar (run.small code) && CapitalRun.isPlain (run.small code)) := by
  decide +kernel

/-- The table holds no ASCII characters. -/
theorem first_table : ∀ run ∈ capitalRuns, 0x80 ≤ run.first := by decide +kernel

/-! ## Small characters -/

/-- A character that lower-casing leaves as it is. -/
structure IsSmall (c : Char) : Prop where
  ne_sigma : c ≠ 'Σ'
  ne_dotted : c ≠ 'İ'
  lowerChar_eq : lowerChar c = c

/-- ASCII capitals are 32 below their small letters. -/
theorem toNat_toLower (c : Char) :
    c.toLower.toNat = if 0x41 ≤ c.toNat ∧ c.toNat ≤ 0x5A then c.toNat + 32 else c.toNat := by
  unfold Char.toLower
  by_cases h : c.val ≥ 'A'.val ∧ c.val ≤ 'Z'.val
  · have hrange : 0x41 ≤ c.toNat ∧ c.toNat ≤ 0x5A := h
    rw [dif_pos h, if_pos hrange]
    show (c.val + ('a'.val - 'A'.val)).toNat = c.toNat + 32
    rw [UInt32.toNat_add]
    show (c.toNat + 32) % 4294967296 = c.toNat + 32
    omega
  · have hrange : ¬ (0x41 ≤ c.toNat ∧ c.toNat ≤ 0x5A) := h
    rw [dif_neg h, if_neg hrange]

/-- A character out of the table, and not treated apart from it, is small. -/
theorem isSmall_of_isPlain {c : Char} (hplain : CapitalRun.isPlain c.toNat)
    (htable : ∀ run ∈ capitalRuns, ¬ run.covers c.toNat) : IsSmall c := by
  unfold CapitalRun.isPlain at hplain
  simp only [Bool.and_eq_true, Bool.or_eq_true, Nat.blt_eq, bne_iff_ne] at hplain
  obtain ⟨hdotted, hascii⟩ := hplain
  refine ⟨?_, ?_, ?_⟩
  · rintro rfl
    exact htable ⟨0x3A3, 0x3AB, 1, 32⟩ (by decide) (by decide)
  · rintro rfl
    exact hdotted rfl
  · unfold lowerChar
    split
    · apply Char.toNat_inj.1
      rw [toNat_toLower, if_neg (by omega)]
    · rw [List.find?_eq_none.2 htable]

/-- Lower-casing gives small characters. -/
theorem isSmall_lowerChar {c : Char} (hc : c ≠ 'İ') : IsSmall (lowerChar c) := by
  unfold lowerChar
  split
  · rename_i hascii
    have hlow := toNat_toLower c
    apply isSmall_of_isPlain
    · unfold CapitalRun.isPlain
      simp only [Bool.and_eq_true, Bool.or_eq_true, Nat.blt_eq, bne_iff_ne]
      split at hlow <;> omega
    · intro run hrun hcovers
      have hfirst := first_table run hrun
      unfold CapitalRun.covers at hcovers
      simp only [Bool.and_eq_true, decide_eq_true_eq] at hcovers
      split at hlow <;> omega
  · rename_i hascii
    split
    · rename_i run hrun
      have hmem := List.mem_of_find?_eq_some hrun
      have hcovers : run.covers c.toNat = true :=
        List.find?_some (p := fun r : CapitalRun => r.covers c.toNat) hrun
      have hplain := List.all_eq_true.1 (List.all_eq_true.1 isPlain_table run hmem) c.toNat
        (CapitalRun.mem_codes hcovers)
      rw [Bool.and_eq_true] at hplain
      have hcode := CapitalRun.toNat_lower hplain.1
      apply isSmall_of_isPlain
      · rw [hcode]
        exact hplain.2
      · intro other hother
        rw [hcode]
        exact CapitalRun.not_covers_small
          (List.all_eq_true.1 (List.all_eq_true.1 avoids_table run hmem) other hother) hcovers
    · rename_i hnone
      apply isSmall_of_isPlain
      · unfold CapitalRun.isPlain
        simp only [Bool.and_eq_true, Bool.or_eq_true, Nat.blt_eq, bne_iff_ne]
        refine ⟨?_, .inl (by omega)⟩
        intro hdotted
        exact hc (Char.toNat_inj.1 hdotted)
      · exact List.find?_eq_none.1 hnone

/-! ## Small text -/

/-- Small characters are left as they are, whatever comes before them. -/
theorem lowerFrom_eq_self {l : List Char} (h : ∀ c ∈ l, IsSmall c) (before : List Char) :
    lowerFrom before l = l := by
  induction l generalizing before with
  | nil => rfl
  | cons c rest ih =>
      have hc := h c List.mem_cons_self
      rw [lowerFrom, if_neg hc.ne_sigma, if_neg hc.ne_dotted, hc.lowerChar_eq,
        ih fun d hd => h d (List.mem_cons_of_mem c hd)]
      rfl

/-- The two small forms of sigma, and what a capital I with a dot above becomes. -/
theorem isSmall_special : ∀ c ∈ ['ς', 'σ', 'i', '\u0307'], IsSmall c := by
  have htable : ['ς', 'σ', 'i', '\u0307'].all fun c =>
      CapitalRun.isPlain c.toNat && capitalRuns.all fun run => !run.covers c.toNat := by
    decide +kernel
  intro c hc
  have hsmall := List.all_eq_true.1 htable c hc
  rw [Bool.and_eq_true] at hsmall
  apply isSmall_of_isPlain hsmall.1
  intro run hrun hcovers
  have hnot := List.all_eq_true.1 hsmall.2 run hrun
  rw [hcovers] at hnot
  cases hnot

/-- Lower-casing leaves small characters only. -/
theorem isSmall_of_mem_lowerFrom {before l : List Char} {c : Char} (h : c ∈ lowerFrom before l) :
    IsSmall c := by
  induction l generalizing before with
  | nil => exact absurd h List.not_mem_nil
  | cons d rest ih =>
      rw [lowerFrom] at h
      rcases List.mem_append.1 h with hsmall | hrest
      · split at hsmall
        · rw [List.mem_singleton.1 hsmall]
          split
          · exact isSmall_special _ (by simp)
          · exact isSmall_special _ (by simp)
        · split at hsmall
          · exact isSmall_special c (List.mem_cons_of_mem _ (List.mem_cons_of_mem _ hsmall))
          · rename_i hd
            rw [List.mem_singleton.1 hsmall]
            exact isSmall_lowerChar hd
      · exact ih hrest

/-- Lower-casing twice is lower-casing once. -/
theorem lowercase_lowercase (text : String) : lowercase (lowercase text) = lowercase text := by
  unfold lowercase
  rw [String.toList_ofList, lowerFrom_eq_self fun c hc => isSmall_of_mem_lowerFrom hc]

/-! ## Slashes -/

/-- No small letter of the table is a slash. -/
theorem slash_table :
    capitalRuns.all fun run => run.codes.all fun code => run.small code != 0x2F := by
  decide +kernel

/-- Lower-casing makes no slash. -/
theorem lowerChar_eq_slash {c : Char} (h : lowerChar c = '/') : c = '/' := by
  unfold lowerChar at h
  split at h
  · have hlow := toNat_toLower c
    have hslash : c.toLower.toNat = 0x2F := by
      rw [h]
      rfl
    apply Char.toNat_inj.1
    show c.toNat = 0x2F
    split at hlow <;> omega
  · split at h
    · rename_i run hrun
      have hmem := List.mem_of_find?_eq_some hrun
      have hcovers : run.covers c.toNat = true :=
        List.find?_some (p := fun r : CapitalRun => r.covers c.toNat) hrun
      have hcode := CapitalRun.mem_codes hcovers
      have hplain := List.all_eq_true.1 (List.all_eq_true.1 isPlain_table run hmem) c.toNat hcode
      have hnot := List.all_eq_true.1 (List.all_eq_true.1 slash_table run hmem) c.toNat hcode
      rw [Bool.and_eq_true] at hplain
      rw [bne_iff_ne, ← CapitalRun.toNat_lower hplain.1, h] at hnot
      exact absurd rfl hnot
    · exact h

/-- Lower-casing makes no slash, whatever comes before. -/
theorem slash_mem_of_mem_lowerFrom {before l : List Char} (h : '/' ∈ lowerFrom before l) :
    '/' ∈ l := by
  induction l generalizing before with
  | nil => exact h
  | cons d rest ih =>
      rw [lowerFrom] at h
      rcases List.mem_append.1 h with hsmall | hrest
      · split at hsmall
        · split at hsmall <;> simp at hsmall
        · split at hsmall
          · simp at hsmall
          · rw [lowerChar_eq_slash (List.mem_singleton.1 hsmall).symm]
            exact List.mem_cons_self
      · exact List.mem_cons_of_mem d (ih hrest)

/-- A text without a slash has none in small letters. -/
theorem slash_mem_of_mem_lowercase {text : String} (h : '/' ∈ (lowercase text).toList) :
    '/' ∈ text.toList := by
  unfold lowercase at h
  rw [String.toList_ofList] at h
  exact slash_mem_of_mem_lowerFrom h

/-- A text with a character has one in small letters. -/
theorem lowercase_ne_empty {text : String} (h : text ≠ "") : lowercase text ≠ "" := by
  intro hempty
  unfold lowercase at hempty
  rw [← String.toList_inj, String.toList_ofList] at hempty
  cases hlist : text.toList with
  | nil => exact h (String.toList_inj.1 hlist)
  | cons c rest =>
    rw [hlist, lowerFrom] at hempty
    have hnil := (List.append_eq_nil_iff.1 hempty).1
    split at hnil
    · cases hnil
    · split at hnil <;> cases hnil

end ScriptHost.Text
