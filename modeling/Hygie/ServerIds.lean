/-
**The identifiers of media servers.**

A media server is added under the number after the largest one in the list.  Libraries name their
server by its identifier and outlive it: when a server is removed its libraries stay, and with them
the rows of the queue and of `ignored_media` that point to them.  So the number of a removed server
is free again as soon as it was the largest, and the next server gets it together with the
libraries.

Main definitions:

* `newServerId` — the identifier of the next server;
* `Registry`, `Request`, `Registry.step` — the servers and the libraries, and what changes them;
* `Registry.Fresh` — the next identifier is that of no library;
* `Registry.Covered`, `Registry.Covers` — no library is above the largest number, and the requests
  that keep it so.

Main results:

* `Registry.fresh_of_run` — **the identifier of a new server is fresh** in every history of such
  requests.
-/

import Hygie.GuardedRuns
import Hygie.PyInt
import Hygie.Schema

set_option relaxedAutoImplicit false
set_option autoImplicit false

namespace Hygie

/-! ### The allocator -/

/-- `int(s.get("id", 0))`. -/
def serverNumber (id : Option String) : Option ℤ :=
  match id with
  | none => some 0
  | some s => PyText.pyInt s

/-- `max(existing_ids, default=-1)`; identifiers that are no numbers are passed over. -/
def largestId (ids : List (Option String)) : ℤ := ((ids.filterMap serverNumber).max?).getD (-1)

/-- The identifier that `add_media_server` gives. -/
def newServerId (ids : List (Option String)) : String := Int.repr (largestId ids + 1)

/-- The identifiers in the stored list of servers, and the libraries. -/
structure Registry where
  servers : List (Option String)
  libraries : List Library

/-- The requests that change them; a scan or a change of the queue changes neither. -/
inductive Request
  | addServer
  | updateServer (id : String)
  | deleteServer (id : String)
  | createLibrary (id : String) (serverId : String)
  | updateLibrary (id : String) (serverId : String)
  | cloneLibrary (source : String) (id : String)
  | deleteLibrary (id : String)
  | scan
  deriving DecidableEq, Repr

namespace Registry

/-- `str(s.get("id")) == server_id`. -/
def isNamed (id : String) (server : Option String) : Bool := server.getD "None" = id

/-- What a request does; the libraries of a removed server stay. -/
def step (s : Registry) : Request → Option Registry
  | .addServer => some { s with servers := s.servers ++ [some (newServerId s.servers)] }
  | .updateServer _ => some s
  | .deleteServer id => some { s with servers := s.servers.filter fun server => !isNamed id server }
  | .createLibrary id serverId =>
      some { s with libraries := s.libraries ++ [{ id := id, serverId := some serverId }] }
  | .updateLibrary id serverId =>
      some
        { s with
          libraries := s.libraries.map fun lib =>
            if lib.id = id then { lib with serverId := some serverId } else lib }
  | .cloneLibrary source id =>
      match s.libraries.find? (·.id = source) with
      | some lib => some { s with libraries := s.libraries ++ [{ lib with id := id }] }
      | none => some s
  | .deleteLibrary id => some { s with libraries := s.libraries.filter (·.id ≠ id) }
  | .scan => some s

/-- The next identifier is that of no library. -/
def Fresh (s : Registry) : Prop := ∀ lib ∈ s.libraries, lib.serverId ≠ some (newServerId s.servers)

/-- An identifier is not the numeral of a number above the largest one. -/
def IsCovered (servers : List (Option String)) (serverId : Option String) : Prop :=
  ∀ n, serverId = some (Int.repr n) → n ≤ largestId servers

/-- No library is above the largest number. -/
def Covered (s : Registry) : Prop := ∀ lib ∈ s.libraries, IsCovered s.servers lib.serverId

/-- The requests that keep it so: a server is removed only if the remaining ones still cover every
library, and a library is put on a server that is covered. -/
def Covers (s : Registry) : Request → Prop
  | .deleteServer id => ∀ lib ∈ s.libraries,
      IsCovered (s.servers.filter fun server => !isNamed id server) lib.serverId
  | .createLibrary _ serverId | .updateLibrary _ serverId => IsCovered s.servers (some serverId)
  | _ => True

variable {s t : Registry} {r : Request} {rs : List Request}

theorem le_largestId {ids : List (Option String)} {n : ℤ} (h : n ∈ ids.filterMap serverNumber) :
    n ≤ largestId ids := by
  rw [largestId]
  obtain ⟨m, hm⟩ := Option.isSome_iff_exists.1 (List.isSome_max?_iff.2 (List.ne_nil_of_mem h))
  rw [hm]
  exact (List.max?_eq_some_iff.1 hm).2 n h

/-- Adding a server makes its number the largest. -/
theorem largestId_add {ids : List (Option String)} :
    largestId (ids ++ [some (newServerId ids)]) = largestId ids + 1 := by
  have hnumber : serverNumber (some (newServerId ids)) = some (largestId ids + 1) := by
    simp only [serverNumber, newServerId, PyText.pyInt_repr]
  have hmax : (ids.filterMap serverNumber ++ [largestId ids + 1]).max? =
      some (largestId ids + 1) := by
    refine List.max?_eq_some_iff.2 ⟨by simp, fun n hn => ?_⟩
    rcases List.mem_append.1 hn with hn | hn
    · have hle := le_largestId hn
      omega
    · exact (List.mem_singleton.1 hn).le
  have hlast : [some (newServerId ids)].filterMap serverNumber = [largestId ids + 1] := by
    rw [List.filterMap_cons_some hnumber, List.filterMap_nil]
  rw [largestId, List.filterMap_append, hlast, hmax, Option.getD_some]

theorem IsCovered.mono {servers servers' : List (Option String)} {serverId : Option String}
    (h : IsCovered servers serverId) (hle : largestId servers ≤ largestId servers') :
    IsCovered servers' serverId := fun n hn => (h n hn).trans hle

/-- A library that is not above the largest number does not have the next identifier. -/
theorem Covered.fresh (h : s.Covered) : s.Fresh := by
  intro lib hlib heq
  have hle := h lib hlib (largestId s.servers + 1) heq
  omega

/-- Such requests keep every library covered. -/
theorem covered_step (h : s.Covered) (hcovers : s.Covers r) (hstep : s.step r = some t) :
    t.Covered := by
  cases r with
  | addServer =>
      obtain rfl := Option.some.inj hstep
      have hle : largestId s.servers ≤ largestId (s.servers ++ [some (newServerId s.servers)]) := by
        rw [largestId_add]
        omega
      exact fun lib hlib => (h lib hlib).mono hle
  | updateServer id =>
      obtain rfl := Option.some.inj hstep
      exact h
  | deleteServer id =>
      obtain rfl := Option.some.inj hstep
      exact hcovers
  | createLibrary id serverId =>
      obtain rfl := Option.some.inj hstep
      intro lib hlib
      rcases List.mem_append.1 hlib with hlib | hlib
      · exact h lib hlib
      · obtain rfl := List.mem_singleton.1 hlib
        exact hcovers
  | updateLibrary id serverId =>
      obtain rfl := Option.some.inj hstep
      intro lib hlib
      obtain ⟨old, hold, rfl⟩ := List.mem_map.1 hlib
      split_ifs
      · exact hcovers
      · exact h old hold
  | cloneLibrary source id =>
      simp only [step] at hstep
      split at hstep
      · next old hfind =>
          obtain rfl := Option.some.inj hstep
          intro lib hlib
          rcases List.mem_append.1 hlib with hlib | hlib
          · exact h lib hlib
          · -- the clone is on the server of its source
            obtain rfl := List.mem_singleton.1 hlib
            exact h old (List.mem_of_find?_eq_some hfind)
      · obtain rfl := Option.some.inj hstep
        exact h
  | deleteLibrary id =>
      obtain rfl := Option.some.inj hstep
      exact fun lib hlib => h lib (List.mem_of_mem_filter hlib)
  | scan =>
      obtain rfl := Option.some.inj hstep
      exact h

/-- **The identifier of a new server is fresh**, in every history of requests that keep the
libraries covered. -/
theorem fresh_of_run (hstart : s.Covered) (hrun : GuardedRun step Covers s rs t) : t.Fresh :=
  (hrun.invariant hstart fun _ _ _ h hok hstep => covered_step h hok hstep).fresh

/-- A fresh installation. -/
def empty : Registry := { servers := [], libraries := [] }

theorem covered_empty : empty.Covered := fun _ h => nomatch h

/-! The first two identifiers. -/

theorem newServerId_nil : newServerId [] = "0" := rfl

theorem largestId_zero : largestId [some "0"] = 0 := by
  have hadd : largestId ([] ++ [some (newServerId [])]) = largestId [] + 1 := largestId_add
  have hnil : largestId [] = -1 := rfl
  rw [newServerId_nil, List.nil_append] at hadd
  omega

theorem newServerId_zero : newServerId [some "0"] = "1" := by
  rw [newServerId, largestId_zero]
  rfl

/-- The first of two servers is removed while a library is on it: the second one covers it. -/
theorem fresh_of_run_addServer :
    ∃ t, GuardedRun step Covers empty
      [.addServer, .createLibrary "movies" "0", .addServer, .deleteServer "0"] t ∧ t.Fresh := by
  have hcovered : ∀ {servers : List (Option String)}, 0 ≤ largestId servers →
      IsCovered servers (some "0") := by
    intro servers hle n hn
    have hzero : n = 0 := (Int.repr_injective (Option.some.inj hn : Int.repr 0 = Int.repr n)).symm
    rwa [hzero]
  have hsecond : step { servers := [some "0"], libraries := [⟨"movies", some "0"⟩] } .addServer =
      some { servers := [some "0", some "1"], libraries := [⟨"movies", some "0"⟩] } := by
    simp [step, newServerId_zero]
  have hremaining : 0 ≤ largestId [some "1"] := by
    have hnumber : serverNumber (some "1") = some 1 := PyText.pyInt_repr 1
    have hone : (1 : ℤ) ≤ largestId [some "1"] :=
      le_largestId (List.mem_filterMap.2 ⟨_, List.mem_singleton_self _, hnumber⟩)
    omega
  have hadded : GuardedRun step Covers empty [.addServer, .createLibrary "movies" "0"]
      { servers := [some "0"], libraries := [⟨"movies", some "0"⟩] } :=
    .snoc (.snoc .nil trivial rfl) (hcovered largestId_zero.ge) rfl
  have hgrown : GuardedRun step Covers empty
      [.addServer, .createLibrary "movies" "0", .addServer]
      { servers := [some "0", some "1"], libraries := [⟨"movies", some "0"⟩] } :=
    .snoc hadded (by exact trivial) hsecond
  have hcovers : Covers { servers := [some "0", some "1"], libraries := [⟨"movies", some "0"⟩] }
      (.deleteServer "0") := by
    intro lib hlib
    obtain rfl := List.mem_singleton.1 hlib
    exact hcovered hremaining
  have hrun : GuardedRun step Covers empty
      [.addServer, .createLibrary "movies" "0", .addServer, .deleteServer "0"]
      { servers := [some "1"], libraries := [⟨"movies", some "0"⟩] } :=
    .snoc hgrown hcovers rfl
  exact ⟨_, hrun, fresh_of_run covered_empty hrun⟩

/-- The second of two servers is removed while a library is on it: the next server gets its
identifier. -/
theorem not_fresh_of_run_deleteServer :
    ¬ ∀ (rs : List Request) (t : Registry), GuardedRun step (fun _ _ => True) empty rs t →
      t.Fresh := by
  intro hclaim
  have hadds : step { servers := [some "0"], libraries := [] } .addServer =
      some { servers := [some "0", some "1"], libraries := [] } := by
    simp [step, newServerId_zero]
  have hrun : GuardedRun step (fun _ _ => True) empty
      [.addServer, .addServer, .createLibrary "shows" "1", .deleteServer "1"]
      { servers := [some "0"], libraries := [{ id := "shows", serverId := some "1" }] } :=
    .snoc (.snoc (.snoc (.snoc .nil trivial rfl) trivial hadds) trivial rfl) trivial rfl
  exact hclaim _ _ hrun { id := "shows", serverId := some "1" } (List.mem_singleton_self _)
    (congrArg some newServerId_zero.symm)

end Registry

end Hygie
