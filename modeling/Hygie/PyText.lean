/-
**The string functions of Python that paths and base addresses go through.**

`str.rstrip`, `str.strip`, `str.startswith` and `os.path.dirname` on `String`, by recursion on the
list of characters so that they evaluate.  Case folding is not among them: the modules that
compare strings up to case take `str.lower` as a parameter, and no result depends on which
function it is.

Main definitions:

* `PyText.rstrip`, `PyText.strip` — removing trailing, or leading and trailing, characters;
* `PyText.startsWith` — the prefix test;
* `PyText.replaceChar` — replacing a character by a text;
* `PyText.dirname` — the directory part of a POSIX path.

Main results:

* `PyText.startsWith_iff` — the prefix test finds a prefix.
-/

import Mathlib.Tactic

set_option relaxedAutoImplicit false
set_option autoImplicit false

namespace PyText

/-! ### Stripping -/

/-- The list without its trailing characters satisfying `p`. -/
def rstripList (p : Char → Bool) (l : List Char) : List Char :=
  (l.reverse.dropWhile p).reverse

/-- `s.rstrip(chars)`, the characters being given by `p`. -/
def rstrip (p : Char → Bool) (s : String) : String :=
  String.ofList (rstripList p s.toList)

/-- The characters that `str.strip()` removes: Unicode white space and the separators
`\x1c` to `\x1f`. -/
def isSpace (c : Char) : Bool :=
  let n := c.toNat
  (9 ≤ n && n ≤ 13) || (28 ≤ n && n ≤ 32) || n == 0x85 || n == 0xa0 || n == 0x1680 ||
    (0x2000 ≤ n && n ≤ 0x200a) || n == 0x2028 || n == 0x2029 || n == 0x202f || n == 0x205f ||
    n == 0x3000

/-- `s.strip()`. -/
def strip (s : String) : String :=
  String.ofList (rstripList isSpace (s.toList.dropWhile isSpace))

/-- The character `/`. -/
def isSlash (c : Char) : Bool := c == '/'

/-- `s.rstrip("/")`. -/
def rstripSlash (s : String) : String := rstrip isSlash s

@[simp] theorem rstripList_nil (p : Char → Bool) : rstripList p [] = [] := rfl

@[simp] theorem rstripSlash_empty : rstripSlash "" = "" := by decide

/-! ### Prefixes -/

/-- `s.startswith(p)`. -/
def startsWith (s p : String) : Bool := p.toList.isPrefixOf s.toList

theorem startsWith_iff {s p : String} : startsWith s p = true ↔ ∃ r, s = p ++ r := by
  rw [startsWith, List.isPrefixOf_iff_prefix]
  constructor
  · rintro ⟨r, hr⟩
    refine ⟨String.ofList r, ?_⟩
    apply String.toList_injective
    simp [hr]
  · rintro ⟨r, rfl⟩
    exact ⟨r.toList, by simp⟩

/-! ### Replacing a character -/

/-- `s.replace(c, new)`, for one character `c`. -/
def replaceChar (c : Char) (new : String) (s : String) : String :=
  String.ofList (s.toList.flatMap fun d => if d = c then new.toList else [d])

theorem toList_replaceChar (c : Char) (new s : String) :
    (replaceChar c new s).toList =
      s.toList.flatMap fun d => if d = c then new.toList else [d] := String.toList_ofList

/-! ### Directories -/

/-- The characters up to and including the last slash. -/
def headList (l : List Char) : List Char :=
  (l.reverse.dropWhile fun c => !isSlash c).reverse

/-- `os.path.dirname(p)` (POSIX): the part before the last slash, without its trailing slashes
unless it consists of slashes only. -/
def dirname (p : String) : String :=
  let head := headList p.toList
  if head.all isSlash then String.ofList head else String.ofList (rstripList isSlash head)

end PyText
