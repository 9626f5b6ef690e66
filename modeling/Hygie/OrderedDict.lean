/-
**Dictionaries that keep the order of their keys.**

A dictionary is the list of its entries.  Assigning to a key that is there replaces the value and
leaves the key where it is; a new key comes at the end.  So after several assignments the keys stand
in the order of their first assignments, and each has the value of its last one.

Main definitions:

* `OrderedDict.value`, `OrderedDict.assign`, `OrderedDict.ofWrites` — a lookup, one assignment, and
  several.

Main results:

* `OrderedDict.value_ofWrites` — **the last assignment decides the value**;
* `OrderedDict.find?_keys_ofWrites` — **the first assignment decides the place**;
* `OrderedDict.find?_eq` — the first entry whose key has a property;
* `OrderedDict.find?_key` — a row is found by a key of its own.
-/

import Mathlib.Data.List.Basic
import Mathlib.Tactic

set_option relaxedAutoImplicit false
set_option autoImplicit false

variable {α β : Type} [DecidableEq α]

namespace OrderedDict

/-- `d.get(k)`. -/
def value (d : List (α × β)) (k : α) : Option β := (d.find? fun e => e.1 = k).map Prod.snd

/-- `d[k] = v`. -/
def assign (d : List (α × β)) (w : α × β) : List (α × β) :=
  if w.1 ∈ d.map Prod.fst then d.map fun old => if old.1 = w.1 then w else old else d ++ [w]

/-- Several assignments, to an empty dictionary. -/
def ofWrites (ws : List (α × β)) : List (α × β) := ws.foldl assign []

variable {d ws : List (α × β)} {w : α × β} {k : α} {P : α → Bool}

/-! ### One assignment -/

/-- The keys after an assignment. -/
theorem keys_assign : (assign d w).map Prod.fst =
    if w.1 ∈ d.map Prod.fst then d.map Prod.fst else d.map Prod.fst ++ [w.1] := by
  rw [assign]
  split_ifs
  · rw [List.map_map]
    refine List.map_congr_left fun old _ => ?_
    rw [Function.comp_apply]
    split_ifs with heq
    · exact heq.symm
    · rfl
  · rw [List.map_append, List.map_singleton]

theorem value_isSome : (value d k).isSome = true ↔ k ∈ d.map Prod.fst := by
  rw [value, Option.isSome_map, List.find?_isSome, List.mem_map]
  refine exists_congr fun e => and_congr_right fun _ => ?_
  exact decide_eq_true_iff

/-- The value of a key after an entry at the end. -/
theorem value_append : value (d ++ [w]) k =
    (value d k).or (if k = w.1 then some w.2 else none) := by
  rw [value, value, List.find?_append, List.find?_singleton]
  cases d.find? (fun e => decide (e.1 = k)) with
  | some e => rfl
  | none =>
      by_cases hk : k = w.1
      · rw [if_pos hk, if_pos (decide_eq_true hk.symm)]
        rfl
      · rw [if_neg hk, if_neg (by simpa using fun heq : w.1 = k => hk heq.symm)]
        rfl

theorem value_append_list {d' : List (α × β)} :
    value (d ++ d') k = (value d k).or (value d' k) := by
  rw [value, value, value, List.find?_append, Option.map_or]

/-- The value of a key whose entry may be replaced. -/
theorem value_map : value (d.map fun old => if old.1 = w.1 then w else old) k =
    (value d k).map fun v => if k = w.1 then w.2 else v := by
  have hsame : ((fun e : α × β => decide (e.1 = k)) ∘ fun old => if old.1 = w.1 then w else old) =
      fun e => decide (e.1 = k) := by
    funext old
    rw [Function.comp_apply]
    split_ifs with heq
    · rw [heq]
    · rfl
  rw [value, value, List.find?_map, hsame]
  cases hfind : d.find? (fun e => decide (e.1 = k)) with
  | none => rfl
  | some e =>
      have hkey : e.1 = k := by simpa using List.find?_some hfind
      rw [Option.map_some, Option.map_some, Option.map_some, Option.map_some, hkey]
      split_ifs <;> rfl

/-- The value of a key after an assignment. -/
theorem value_assign : value (assign d w) k = if k = w.1 then some w.2 else value d k := by
  rw [assign]
  split_ifs with hmem hk hk
  · obtain ⟨v, hv⟩ := Option.isSome_iff_exists.1 (value_isSome.2 (hk ▸ hmem))
    rw [value_map, hv, Option.map_some, if_pos hk]
  · rw [value_map]
    simp only [if_neg hk]
    exact Option.map_id'
  · have hnone : value d k = none := by
      rw [← Option.not_isSome_iff_eq_none, value_isSome, hk]
      exact hmem
    rw [value_append, hnone, if_pos hk]
    rfl
  · rw [value_append, if_neg hk, Option.or_none]

/-! ### Several assignments -/

/-- What the assignments leave of a dictionary. -/
theorem value_foldl : value (ws.foldl assign d) k = (value ws.reverse k).or (value d k) := by
  induction ws generalizing d with
  | nil => rfl
  | cons w ws ih =>
      rw [List.foldl_cons, ih, value_assign, List.reverse_cons, value_append, Option.or_assoc]
      split_ifs <;> rfl

/-- **The last assignment decides the value.** -/
theorem value_ofWrites : value (ofWrites ws) k = value ws.reverse k :=
  value_foldl.trans Option.or_none

theorem find?_keys_foldl : ((ws.foldl assign d).map Prod.fst).find? P =
    (d.map Prod.fst ++ ws.map Prod.fst).find? P := by
  induction ws generalizing d with
  | nil => rw [List.foldl_nil, List.map_nil, List.append_nil]
  | cons w ws ih =>
      rw [List.foldl_cons, ih, keys_assign, List.map_cons]
      split_ifs with hmem
      · -- a key that is there is found before
        rw [List.find?_append, List.find?_append, List.find?_cons]
        cases hP : P w.1 with
        | false => rfl
        | true =>
            obtain ⟨k', hk'⟩ := Option.isSome_iff_exists.1
              (List.find?_isSome.2 ⟨w.1, hmem, hP⟩)
            rw [hk']
            rfl
      · rw [List.append_assoc, List.singleton_append]

/-- **The first assignment decides the place.** -/
theorem find?_keys_ofWrites : ((ofWrites ws).map Prod.fst).find? P = (ws.map Prod.fst).find? P :=
  find?_keys_foldl

/-- The first entry whose key has a property: the first such key, with its value. -/
theorem find?_eq : (d.find? fun e => P e.1).map Prod.snd =
    ((d.map Prod.fst).find? P).bind (value d) := by
  induction d with
  | nil => rfl
  | cons e d ih =>
      rw [List.map_cons, List.find?_cons, List.find?_cons]
      cases hP : P e.1 with
      | true => simp [value]
      | false =>
          rw [ih]
          cases hfind : (d.map Prod.fst).find? P with
          | none => rfl
          | some k =>
              have hother : ¬ e.1 = k := by
                rintro rfl
                rw [List.find?_some hfind] at hP
                cases hP
              rw [Option.bind_some, Option.bind_some, value, value,
                List.find?_cons_of_neg (by simpa using hother)]

/-! ### Rows with a key -/

/-- A row is found by a key that no other row has. -/
theorem find?_key {ρ : Type} {key : ρ → α} {rows : List ρ} {row : ρ}
    (hnodup : (rows.map key).Nodup) (hrow : row ∈ rows) :
    rows.find? (fun old => key old = key row) = some row := by
  cases hfind : rows.find? fun old => decide (key old = key row) with
  | none => exact absurd (decide_eq_true rfl) (List.find?_eq_none.1 hfind row hrow)
  | some old =>
      have hkey : key old = key row := by simpa using List.find?_some hfind
      exact congrArg some
        (List.inj_on_of_nodup_map hnodup (List.mem_of_find?_eq_some hfind) hrow hkey)

end OrderedDict
