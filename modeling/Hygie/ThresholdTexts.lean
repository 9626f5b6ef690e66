/-
**Thresholds and the texts that mean them.**

A text of thresholds may have blanks, empty tokens, leading zeros, repetitions and tokens that are
no numbers.  What is read from it is a list in one form only: positive numbers, strictly descending,
each the value of one of the tokens of digits.  Joined with commas, the list is a text that means
the same list, and every token of it is a number.

`int` refuses a text of more than 4300 digits, so the laws are about texts whose tokens of digits
are no longer than that.  The numeral of a value is never longer than the token, so `str` writes it.

Main definitions:

* `TokensReadable` — `int` reads the tokens of digits;
* `ReadsCanonically` — the laws of the days that are read.

Main results:

* `mem_of_readTokens` — which days are read;
* `parseThresholds_join` — **the round trip**;
* `parseThresholds_canonical` — **the laws**, and that a text which a request may store is applied
  as it is read.
-/

import Hygie.PyInt
import Hygie.Thresholds

set_option relaxedAutoImplicit false
set_option autoImplicit false

namespace Hygie

open PyText

/-- No token of digits is too long for `int`. -/
def TokensReadable (raw : String) : Prop :=
  ∀ token ∈ thresholdTokens raw, isThresholdToken token = true → token.length ≤ maxStrDigits

/-- The days are in one form, they are what the tokens say, and their text means them again. -/
structure ReadsCanonically (raw : String) (days : List ℕ) : Prop where
  descending : days.Pairwise (· > ·)
  positive : ∀ d ∈ days, 0 < d
  mem_iff : ∀ d, d ∈ days ↔ 0 < d ∧
    ∃ token ∈ thresholdTokens raw, isThresholdToken token = true ∧ intOfDigits token = some d
  /-- `str` writes each of them. -/
  writable : ∀ d ∈ days, (toString d).length ≤ maxStrDigits
  again : parseThresholds (some (",".intercalate (days.map toString))) = some (days, [])

section Texts

variable {raw token : String} {tokens : List String} {days : List ℕ} {n d : ℕ}

/-! ### Numerals -/

theorem intOfDigits_eq (h : token.length ≤ maxStrDigits) :
    intOfDigits token = some (Nat.ofDigitChars 10 token.toList 0) := by
  rw [intOfDigits, if_neg (Nat.not_lt.2 h), Nat.ofDigitChars_eq_foldl]

/-- A number of `k` digits is less than `10 ^ k`. -/
theorem ofDigitChars_lt {l : List Char} (h : ∀ c ∈ l, c.isDigit = true) :
    Nat.ofDigitChars 10 l 0 < 10 ^ l.length := by
  induction l with
  | nil => simp
  | cons c l ih =>
      have hrest := ih fun c hc => h c (List.mem_cons_of_mem _ hc)
      have hdigit : c.toNat - '0'.toNat ≤ 9 := by
        have hc := h c List.mem_cons_self
        simp only [Char.isDigit, Bool.and_eq_true, decide_eq_true_eq] at hc
        have hhigh : c.toNat ≤ 57 := hc.2
        have hzero : '0'.toNat = 48 := rfl
        omega
      rw [Nat.ofDigitChars_cons, Nat.ofDigitChars_eq_ofDigitChars_zero, Nat.mul_zero, Nat.zero_add,
        List.length_cons, Nat.pow_succ]
      calc 10 ^ l.length * (c.toNat - '0'.toNat) + Nat.ofDigitChars 10 l 0
          < 10 ^ l.length * (c.toNat - '0'.toNat) + 10 ^ l.length := Nat.add_lt_add_left hrest _
        _ = 10 ^ l.length * (c.toNat - '0'.toNat + 1) := (Nat.mul_succ _ _).symm
        _ ≤ 10 ^ l.length * 10 := Nat.mul_le_mul_left _ (by omega)

/-- The characters of a numeral. -/
theorem toList_toString : (toString n).toList = Nat.toDigits 10 n := Nat.toList_repr

theorem isDigit_of_mem_toString {c : Char} (h : c ∈ (toString n).toList) : c.isDigit = true := by
  rw [toList_toString] at h
  exact Nat.isDigit_of_mem_toDigits (by decide) (by decide) h

/-- The numeral of a value is no longer than the token that has it. -/
theorem length_toString_le (htoken : isThresholdToken token = true)
    (hread : intOfDigits token = some n) : (toString n).length ≤ maxStrDigits := by
  have hlength : token.length ≤ maxStrDigits := by
    by_contra hlong
    rw [intOfDigits, if_pos (Nat.lt_of_not_le hlong)] at hread
    cases hread
  rw [intOfDigits_eq hlength] at hread
  obtain rfl := Option.some.inj hread
  have hdigits : ∀ c ∈ token.toList, c.isDigit = true := by
    simp only [isThresholdToken, Bool.and_eq_true] at htoken
    exact List.all_eq_true.1 htoken.2
  have hlt : Nat.ofDigitChars 10 token.toList 0 < 10 ^ maxStrDigits :=
    (ofDigitChars_lt hdigits).trans_le
      (Nat.pow_le_pow_right (by decide) (by rwa [String.length_toList]))
  rw [← String.length_toList, toList_toString]
  exact (Nat.length_toDigits_le_iff (by decide) (by decide)).2 hlt

/-- A numeral is a token of digits. -/
theorem isThresholdToken_toString : isThresholdToken (toString n) = true := by
  have hne : toString n ≠ "" := Nat.repr_ne_empty
  simp only [isThresholdToken, Bool.and_eq_true, decide_eq_true_eq]
  exact ⟨hne, List.all_eq_true.2 fun c hc => isDigit_of_mem_toString hc⟩

/-- `int` reads what `str` writes. -/
theorem intOfDigits_toString (h : (toString n).length ≤ maxStrDigits) :
    intOfDigits (toString n) = some n := by
  rw [intOfDigits_eq h, toList_toString, Nat.ofDigitChars_ten_toDigits]

/-- The tokens of a text that is made of numerals. -/
theorem thresholdTokens_join :
    thresholdTokens (",".intercalate (days.map toString)) = days.map toString := by
  by_cases hdays : days = []
  · rw [hdays]
    rfl
  · have hcomma : ∀ l ∈ (days.map toString).map String.toList, ',' ∉ l := by
      intro l hl hmem
      obtain ⟨_, hs, rfl⟩ := List.mem_map.1 hl
      obtain ⟨d, -, rfl⟩ := List.mem_map.1 hs
      exact absurd (isDigit_of_mem_toString hmem) (by decide)
    have hsplit : (",".intercalate (days.map toString)).toList.splitOn ',' =
        (days.map toString).map String.toList := by
      rw [String.toList_intercalate]
      exact List.splitOn_intercalate ',' hcomma (by simpa using hdays)
    -- a numeral has no blanks, and it is not empty
    have hstrip : ∀ d : ℕ, strip (toString d) = toString d := fun d =>
      strip_eq_self fun c hc => isSpace_of_isDigit (isDigit_of_mem_toString hc)
    rw [thresholdTokens, hsplit, List.map_map, List.map_map]
    have hmap : (fun d : ℕ => strip (String.ofList (toString d).toList)) = toString := by
      funext d
      rw [String.ofList_toList, hstrip]
    calc (days.map fun d => strip (String.ofList (toString d).toList)).filter (· ≠ "")
        = (days.map toString).filter (· ≠ "") := by rw [hmap]
      _ = days.map toString := by
        refine List.filter_eq_self.2 fun s hs => ?_
        obtain ⟨d, -, rfl⟩ := List.mem_map.1 hs
        exact decide_eq_true Nat.repr_ne_empty

/-! ### The form of the days -/

theorem mem_sortedDescending : d ∈ sortedDescending days ↔ d ∈ days := by
  rw [sortedDescending, List.mem_insertionSort, List.mem_dedup]

theorem pairwise_sortedDescending : (sortedDescending days).Pairwise (· > ·) := by
  have hnodup : (sortedDescending days).Nodup :=
    (List.perm_insertionSort _ _).nodup_iff.2 (List.nodup_dedup days)
  have hsorted : (sortedDescending days).Pairwise (· ≥ ·) := List.pairwise_insertionSort _ _
  refine (hsorted.and hnodup).imp ?_
  rintro a b ⟨hge, hne⟩
  omega

/-- Days in this form stay as they are. -/
theorem sortedDescending_eq_self (h : days.Pairwise (· > ·)) : sortedDescending days = days := by
  have hnodup : days.Nodup := h.imp fun hlt => (Nat.ne_of_lt hlt).symm
  rw [sortedDescending, hnodup.dedup]
  exact List.Pairwise.insertionSort_eq (h.imp fun hlt => Nat.le_of_lt hlt)

/-! ### Reading -/

/-- Tokens that `int` can read are read. -/
theorem isSome_readTokens
    (h : ∀ token ∈ tokens, isThresholdToken token = true → token.length ≤ maxStrDigits) :
    (readTokens tokens).isSome := by
  induction tokens with
  | nil => rfl
  | cons token rest ih =>
      obtain ⟨read, hread⟩ :=
        Option.isSome_iff_exists.1 (ih fun token ht => h token (List.mem_cons_of_mem _ ht))
      rw [readTokens, hread]
      split_ifs with htoken
      · rw [intOfDigits_eq (h token List.mem_cons_self htoken)]
        rfl
      · rfl

/-- **Which days are read**: the positive values of the tokens of digits. -/
theorem mem_of_readTokens {read : List ℕ × List String} (h : readTokens tokens = some read) :
    d ∈ read.1 ↔ 0 < d ∧
      ∃ token ∈ tokens, isThresholdToken token = true ∧ intOfDigits token = some d := by
  induction tokens generalizing read with
  | nil =>
      obtain rfl := Option.some.inj h
      simp
  | cons token rest ih =>
      rw [readTokens] at h
      simp only [List.mem_cons, exists_eq_or_imp]
      -- a token of digits counts unless it is zero; any other one is invalid
      split_ifs at h with htoken
      · split at h
        · next n valid invalid hn hrest =>
            obtain rfl := Option.some.inj h
            have hmem := ih hrest
            by_cases hpos : 0 < n
            · rw [if_pos hpos, List.mem_cons, hmem, hn]
              simp only [htoken, true_and, Option.some.injEq]
              constructor
              · rintro (rfl | ⟨hd, hrest⟩)
                · exact ⟨hpos, .inl rfl⟩
                · exact ⟨hd, .inr hrest⟩
              · rintro ⟨hd, rfl | hrest⟩
                · exact .inl rfl
                · exact .inr ⟨hd, hrest⟩
            · rw [if_neg hpos, hmem, hn]
              simp only [htoken, true_and, Option.some.injEq]
              constructor
              · rintro ⟨hd, hrest⟩
                exact ⟨hd, .inr hrest⟩
              · rintro ⟨hd, rfl | hrest⟩
                · exact absurd hd hpos
                · exact ⟨hd, hrest⟩
        · cases h
      · obtain ⟨read', hrest, rfl⟩ := Option.map_eq_some_iff.1 h
        rw [ih hrest]
        simp [htoken]

example : parseThresholds (some " 007, 1,,x, 0, 7, \u0667") =
    some ([7, 1], ["x", "0", "\u0667"]) := by decide

/-- Numerals of positive numbers are all valid. -/
theorem readTokens_map_toString
    (h : ∀ d ∈ days, 0 < d ∧ (toString d).length ≤ maxStrDigits) :
    readTokens (days.map toString) = some (days, []) := by
  induction days with
  | nil => rfl
  | cons d days ih =>
      obtain ⟨hpos, hlength⟩ := h d List.mem_cons_self
      rw [List.map_cons, readTokens, if_pos isThresholdToken_toString,
        intOfDigits_toString hlength, ih fun d hd => h d (List.mem_cons_of_mem _ hd)]
      simp only [if_pos hpos]

/-- **The round trip**: days in this form are what their text means. -/
theorem parseThresholds_join (hdescending : days.Pairwise (· > ·))
    (h : ∀ d ∈ days, 0 < d ∧ (toString d).length ≤ maxStrDigits) :
    parseThresholds (some (",".intercalate (days.map toString))) = some (days, []) := by
  have hread : readTokens (thresholdTokens (",".intercalate (days.map toString))) =
      some (days, []) := by
    rw [thresholdTokens_join]
    exact readTokens_map_toString h
  simp only [parseThresholds, Option.getD_some, hread, Option.map_some,
    sortedDescending_eq_self hdescending]

/-- What is read is in this form. -/
theorem readsCanonically {read : List ℕ × List String}
    (h : readTokens (thresholdTokens raw) = some read) :
    ReadsCanonically raw (sortedDescending read.1) := by
  have hmem : ∀ d, d ∈ sortedDescending read.1 ↔ 0 < d ∧
      ∃ token ∈ thresholdTokens raw, isThresholdToken token = true ∧ intOfDigits token = some d :=
    fun d => mem_sortedDescending.trans (mem_of_readTokens h)
  have hpositive : ∀ d ∈ sortedDescending read.1, 0 < d := fun d hd => ((hmem d).1 hd).1
  have hwritable : ∀ d ∈ sortedDescending read.1, (toString d).length ≤ maxStrDigits := by
    intro d hd
    obtain ⟨-, token, -, htoken, hvalue⟩ := (hmem d).1 hd
    exact length_toString_le htoken hvalue
  exact
    { descending := pairwise_sortedDescending
      positive := hpositive
      mem_iff := hmem
      writable := hwritable
      again := parseThresholds_join pairwise_sortedDescending
        fun d hd => ⟨hpositive d hd, hwritable d hd⟩ }

/-- What is accepted has no invalid token, and it has a threshold or is blank. -/
theorem eq_of_checkThresholds (h : checkThresholds raw = .ok ()) :
    ∃ days, parseThresholds (some raw) = some (days, []) ∧ (days = [] → strip raw = "") := by
  rw [checkThresholds] at h
  split at h
  · cases h
  · next days invalid hparse =>
      split_ifs at h with hinvalid hempty
      obtain rfl := not_not.1 hinvalid
      refine ⟨days, hparse, fun hdays => ?_⟩
      by_contra hblank
      exact hempty ⟨hblank, hdays⟩

end Texts

/-- **The laws**: what is read is in one form, and what a request may store is applied as it is
read. -/
theorem parseThresholds_canonical :
    (∀ raw, TokensReadable raw →
      ∃ days invalid, parseThresholds (some raw) = some (days, invalid) ∧
        ReadsCanonically raw days) ∧
    ∀ raw, checkThresholds raw = .ok () →
      ∃ days, parseThresholds (some raw) = some (days, []) ∧
        resolveThresholds (some raw) = some days ∧ (days = [] → strip raw = "") := by
  constructor
  · intro raw hreadable
    obtain ⟨read, hread⟩ := Option.isSome_iff_exists.1 (isSome_readTokens hreadable)
    refine ⟨sortedDescending read.1, read.2, ?_, readsCanonically hread⟩
    simp only [parseThresholds, Option.getD_some, hread, Option.map_some]
  · intro raw haccepted
    obtain ⟨days, hparse, hblank⟩ := eq_of_checkThresholds haccepted
    refine ⟨days, hparse, ?_, hblank⟩
    -- no days only for a blank text, and then there is no fallback
    have hno : ¬ (days = [] ∧ (some raw).map strip ≠ some "") := by
      rintro ⟨hdays, hne⟩
      exact hne (congrArg some (hblank hdays))
    simp only [resolveThresholds, hparse, Option.map_some] at hno ⊢
    rw [if_neg hno]

/-- Blanks, leading zeros, an empty token, a repetition, a zero, and a seven that is no ASCII digit.
-/
def mixedTokens : String := " 007, 1,,x, 0, 7, \u0667"

theorem parseThresholds_mixedTokens :
    (∃ days invalid, parseThresholds (some mixedTokens) = some (days, invalid) ∧
      ReadsCanonically mixedTokens days) ∧
    ∃ days, parseThresholds (some "30, 7,07") = some (days, []) ∧
      resolveThresholds (some "30, 7,07") = some days ∧ (days = [] → strip "30, 7,07" = "") := by
  have hreadable : TokensReadable mixedTokens := by
    unfold TokensReadable
    decide
  have haccepted : checkThresholds "30, 7,07" = .ok () := by rfl
  exact ⟨parseThresholds_canonical.1 mixedTokens hreadable,
    parseThresholds_canonical.2 "30, 7,07" haccepted⟩

end Hygie
