/-
**The due rows of a Plex server.**

A Plex server has no activity log that Emby knows of.  Its rows should be treated by the last look
at the watch state as those of a server that is not configured: they go on as the last scan has left
them, and the rescue decides.  But `get_client` does not look at the type of a server, and a Plex
server is listed with an address and a token; so it is asked for the log of an Emby server, and when
it answers that it does not know the request, its rows are postponed, in this batch and in every
other one.

Main definitions:

* `ListedPlex` — an entry of the setting that is a Plex server;
* `KeptAsItIs` — the law: a row goes on unchanged, and nothing is written for it;
* `ServesLog`, `ReportsPlay` — what a server has to serve for that.

Main results:

* `getPlayActivity_eq_ok_iff` — what is read of a log that is served;
* `keptAsItIs_iff` — **exactly when the law holds**.
-/

import Hygie.DueSelection

set_option relaxedAutoImplicit false
set_option autoImplicit false

namespace Hygie

/-! ### The law -/

/-- The identifier is that of a Plex server. -/
structure ListedPlex (cfg : Config) (serverId : String) (server : MediaServer) : Prop where
  listed : cfg.mediaServers.find? (·.id == serverId) = some server
  plex : isPlex cfg server = true

/-- The entry has an address and a token. -/
def MediaServer.HasAccess (cfg : Config) (server : MediaServer) : Prop :=
  Contactable (PyText.rstripSlash server.url, server.key cfg)

/-- What `get_play_activity` comes to for a server that is asked, when it answers with `replies`. -/
def LogOutcome (cfg : Config) (serverId : String) (replies : ℕ → PageReply LogEntry)
    (outcome : Option Activity) : Prop :=
  Contactable (getClient cfg serverId) → ∃ fuel result,
    getPlayActivity (getClient cfg serverId) replies fuel = some result ∧ outcome = result.toOption

/-- **The law**: the log of the server comes to an end, and, whatever the logs of the others are,
the row goes on as it is and nothing is written for it. -/
def KeptAsItIs (rt : Runtime) (w : WatchSources) (serverOf : String → String) (rows : List QueueRow)
    (replies : ℕ → PageReply LogEntry) (row : QueueRow) : Prop :=
  ∃ outcome, LogOutcome w.cfg (serverOf row.libraryId) replies outcome ∧
    ∀ log faults, log (serverOf row.libraryId) = outcome →
      row ∈ keptRows rt w log serverOf rows ∧
        ∀ write ∈ writtenPlays rt w log serverOf faults rows, write.embyId ≠ row.embyId

/-- The server serves these entries as its activity log. -/
def ServesLog (replies : ℕ → PageReply LogEntry) (entries : List LogEntry) : Prop :=
  ∃ n, (∀ k < n, Continues (fun _ => true) replies k) ∧ (replies n).Readable (fun _ => true) ∧
    ((replies n).records = [] ∨ (replies n).announced ≤ (recordsOf replies (n + 1)).length) ∧
    entries = recordsOf replies (n + 1)

/-- The entries hold a play of the row: a stop of its item, or of a listed episode of its group. -/
def ReportsPlay (w : WatchSources) (row : QueueRow) (serverId : String) (entries : List LogEntry) :
    Prop :=
  ∃ entry ∈ entries, entry.isStop = true ∧
    if isConsolidatedId row.embyId then
      ∃ item, groupItem w row serverId = some item ∧
        entry.itemId ∈ (w.server serverId).getItemsInLibrary item.id 500 0
    else entry.itemId = row.embyId

section Plex

variable {rt : Runtime} {w : WatchSources} {log : String → Option Activity}
  {serverOf : String → String} {faults : SelectionFaults} {rows : List QueueRow} {q : QueueTable}
  {row : QueueRow} {replies : ℕ → PageReply LogEntry} {entries : List LogEntry}
  {activity : Activity} {client : String × String} {serverId : String} {server : MediaServer}

/-- `get_client` does not look at the type of the server. -/
theorem contactable_getClient (hplex : ListedPlex w.cfg serverId server) :
    Contactable (getClient w.cfg serverId) ↔ server.HasAccess w.cfg := by
  rw [getClient, hplex.listed]
  exact Iff.rfl

/-! ### What is read -/

/-- **What is read of a log that is served.** -/
theorem getPlayActivity_eq_ok_iff (hclient : Contactable client) :
    (∃ fuel, getPlayActivity client replies fuel = some (.ok activity)) ↔
      ∃ entries, ServesLog replies entries ∧ activity = entries.foldl addEntry fun _ => none := by
  simp only [getPlayActivity, if_pos hclient, readPages_eq_some_iff, stopsAt_iff]
  have hround := readPage_after (fun _ => true) addEntry replies (fun _ => none)
  constructor
  · rintro ⟨fuel, n, _, hbefore, hstop⟩
    rcases hround n with ⟨_, cause, h⟩ | ⟨_, _, h⟩ | ⟨hreadable, hlast, h⟩ | ⟨_, h⟩
    · rw [h] at hstop
      cases hstop
    · rw [h] at hstop
      cases hstop
    · rw [h] at hstop
      exact ⟨_, ⟨n, hbefore, hreadable, hlast, rfl⟩, (Except.ok.inj (Turn.stop.inj hstop)).symm⟩
    · rw [h] at hstop
      cases hstop
  · rintro ⟨_, ⟨n, hbefore, hreadable, hlast, rfl⟩, rfl⟩
    refine ⟨n + 1, n, Nat.lt_succ_self n, hbefore, ?_⟩
    rcases hround n with ⟨hfails, _⟩ | ⟨_, hunreadable, _⟩ | ⟨_, _, h⟩ | ⟨hmore, _⟩
    · exact absurd hfails hreadable.not_fails
    · exact absurd hreadable hunreadable
    · exact h
    · exact absurd hlast (not_or.2 ⟨hmore.2.1, not_le.2 hmore.2.2⟩)

/-- An item has a value if it has a stop. -/
theorem foldl_addEntry_isSome_iff {id : String} :
    (entries.foldl addEntry (fun _ => none) id).isSome = true ↔
      ∃ entry ∈ entries, entry.isStop = true ∧ entry.itemId = id := by
  rw [foldl_addEntry, Option.toList_none, List.nil_append, List.isSome_max?_iff, stopDates, Ne,
    List.map_eq_nil_iff, List.filter_eq_nil_iff]
  push Not
  simp only [Bool.and_eq_true, decide_eq_true_eq]

/-- A play of the row is reported if the entries hold one. -/
theorem reportedPlay_isSome_iff :
    (reportedPlay w row serverId (entries.foldl addEntry fun _ => none)).isSome = true ↔
      ReportsPlay w row serverId entries := by
  rw [reportedPlay]
  by_cases hconsolidated : isConsolidatedId row.embyId = true
  · simp only [ReportsPlay, hconsolidated, if_true, consolidatedLastPlay]
    cases groupItem w row serverId with
    | none => simp
    | some item =>
        simp only [List.isSome_max?_iff, Ne, List.filterMap_eq_nil_iff, Option.some.injEq,
          exists_eq_left']
        push Not
        simp only [← Option.isSome_iff_ne_none, foldl_addEntry_isSome_iff]
        constructor
        · rintro ⟨_, hepisode, entry, hentry, hstop, rfl⟩
          exact ⟨entry, hentry, hstop, hepisode⟩
        · rintro ⟨entry, hentry, hstop, hepisode⟩
          exact ⟨_, hepisode, entry, hentry, hstop, rfl⟩
  · simp only [ReportsPlay, hconsolidated, if_false, Bool.false_eq_true]
    exact foldl_addEntry_isSome_iff

/-! ### What becomes of the rows -/

/-- A row goes on as it is if its refreshed row is the same. -/
theorem self_mem_keptRows_iff (hrows : ∀ row ∈ rows, row ∈ q.rows) (hrow : row ∈ rows) :
    row ∈ keptRows rt w log serverOf rows ↔ refreshedRow rt w serverOf row log = some row := by
  rw [mem_keptRows]
  constructor
  · rintro ⟨old, hold, hrefreshed⟩
    obtain rfl := q.eq_of_id (hrows row hrow) (hrows old hold) (refreshedRow_id hrefreshed)
    exact hrefreshed
  · exact fun hrefreshed => ⟨row, hrow, hrefreshed⟩

/-- A reported play is written if no write fails. -/
theorem exists_mem_writtenPlays (rt : Runtime) (log : String → Option Activity) {played : String}
    (hrow : row ∈ rows)
    (hclient : Contactable (getClient w.cfg (serverOf row.libraryId)))
    (hlog : log (serverOf row.libraryId) = some activity)
    (hplayed : reportedPlay w row (serverOf row.libraryId) activity = some played) :
    ∃ write ∈ writtenPlays rt w log serverOf {} rows, write.embyId = row.embyId := by
  obtain ⟨write, hwrite, hid⟩ : ∃ write,
      watchWrite w (serverOf row.libraryId) activity row = some write ∧
        write.embyId = row.embyId := by
    rw [watchWrite, hplayed]
    exact ⟨_, rfl, rfl⟩
  refine ⟨write, List.mem_flatMap.2 ⟨_, mem_serversOf.2 ⟨row, hrow, rfl⟩, ?_⟩, hid⟩
  have hmem : row ∈ rowsOf serverOf rows (serverOf row.libraryId) := mem_rowsOf.2 ⟨hrow, rfl⟩
  simp only [refreshRowsOf, if_pos hclient, hlog, ServerBatch.written, Bool.false_eq_true, if_false,
    List.mem_append, List.mem_filterMap, List.mem_filter]
  cases hconsolidated : isConsolidatedId row.embyId with
  | false => exact .inl ⟨row, ⟨hmem, by simp [hconsolidated]⟩, hwrite⟩
  | true => exact .inr ⟨row, ⟨hmem, hconsolidated⟩, hwrite⟩

/-- **Exactly when the law holds.** -/
theorem keptAsItIs_iff (hplex : ListedPlex w.cfg (serverOf row.libraryId) server)
    (hrows : ∀ row ∈ rows, row ∈ q.rows) (hrow : row ∈ rows) :
    KeptAsItIs rt w serverOf rows replies row ↔
      (server.HasAccess w.cfg → ∃ entries, ServesLog replies entries ∧
        ¬ ReportsPlay w row (serverOf row.libraryId) entries) := by
  rw [← contactable_getClient hplex]
  constructor
  · rintro ⟨outcome, houtcome, hkept⟩ hclient
    obtain ⟨fuel, result, hresult, rfl⟩ := houtcome hclient
    obtain ⟨hmem, hunwritten⟩ := hkept (fun _ => result.toOption) {} rfl
    rw [self_mem_keptRows_iff hrows hrow, refreshedRow, if_pos hclient] at hmem
    cases result with
    | error e => cases hmem
    | ok activity =>
        obtain ⟨entries, hserves, rfl⟩ := (getPlayActivity_eq_ok_iff hclient).1 ⟨fuel, hresult⟩
        refine ⟨entries, hserves, fun hreports => ?_⟩
        obtain ⟨played, hplayed⟩ := Option.isSome_iff_exists.1 (reportedPlay_isSome_iff.2 hreports)
        obtain ⟨write, hwrite, hid⟩ := exists_mem_writtenPlays rt (fun _ => some _) hrow hclient rfl
          hplayed
        exact hunwritten write hwrite hid
  · intro hserved
    by_cases hclient : Contactable (getClient w.cfg (serverOf row.libraryId))
    · obtain ⟨entries, hserves, hunreported⟩ := hserved hclient
      obtain ⟨fuel, hresult⟩ := (getPlayActivity_eq_ok_iff hclient).2 ⟨entries, hserves, rfl⟩
      have hnone : reportedPlay w row (serverOf row.libraryId)
          (entries.foldl addEntry fun _ => none) = none := by
        rw [← Option.not_isSome_iff_eq_none, reportedPlay_isSome_iff]
        exact hunreported
      refine ⟨_, fun _ => ⟨fuel, _, hresult, rfl⟩, fun log faults hlog => ⟨?_, ?_⟩⟩
      · rw [self_mem_keptRows_iff hrows hrow, refreshedRow, if_pos hclient, hlog]
        simp only [Except.toOption, Option.map_some, refreshRow, hnone]
      · intro write hwrite hid
        obtain ⟨other, hother, hembyId, _, activity, hactivity, hplayed⟩ := mem_writtenPlays hwrite
        obtain rfl := q.eq_of_embyId (hrows other hother) (hrows row hrow) (hembyId.symm.trans hid)
        obtain rfl := Option.some.inj (hlog.symm.trans hactivity)
        rw [hnone] at hplayed
        cases hplayed
    · refine ⟨none, fun h => absurd h hclient, fun log faults _ => ⟨?_, ?_⟩⟩
      · rw [self_mem_keptRows_iff hrows hrow, refreshedRow, if_neg hclient]
      · intro write hwrite hid
        obtain ⟨other, hother, hembyId, hcontactable, _⟩ := mem_writtenPlays hwrite
        obtain rfl := q.eq_of_embyId (hrows other hother) (hrows row hrow) (hembyId.symm.trans hid)
        exact hclient hcontactable

end Plex

/-! ### A Plex server that is asked for its log -/

/-- One Plex server with the given token. -/
def plexSources (token : String) : WatchSources where
  cfg :=
    { mediaServers :=
        [{ id := "0", url := "http://plex:32400", apiKey := token, type := "plex" }] }
  answer _ := .error .fatal
  server _ :=
    { log := []
      recent := fun _ => true
      logDown := fun _ => false
      episodes := fun _ => []
      listDown := fun _ => false }

/-- One page, with a stop of another title. -/
def otherPlays : ℕ → PageReply LogEntry := fun _ =>
  .answered 200 (.object
    (.value [{ type := "playback.stop", itemId := "e2", date := "2025-02-11T00:00:00Z" }])
    (.value 1))

/-- The server is asked for its log, and serves one without a play of the row. -/
theorem keptAsItIs_iff_otherPlays :
    KeptAsItIs isoRuntime (plexSources "t") (fun _ => "0") [dueFilm] otherPlays dueFilm := by
  have hplex : ListedPlex (plexSources "t").cfg "0" ⟨"0", "http://plex:32400", "t", "plex"⟩ :=
    ⟨rfl, rfl⟩
  have hrows : ∀ row ∈ [dueFilm], row ∈ dueQueue.rows := fun _ h => h
  have hserves : ServesLog otherPlays (recordsOf otherPlays 1) :=
    ⟨0, fun k hk => absurd hk (Nat.not_lt_zero k), ⟨rfl, nofun, rfl, fun _ => nofun⟩,
      .inr (by decide), rfl⟩
  refine (keptAsItIs_iff hplex hrows (List.mem_singleton_self _)).2 fun _ => ⟨_, hserves, ?_⟩
  rintro ⟨entry, hentry, -, hitem⟩
  obtain rfl := List.mem_singleton.1 hentry
  revert hitem
  decide

/-- A Plex server that does not know the request: the row is postponed. -/
theorem not_keptAsItIs_notFound :
    ¬ ∀ (rt : Runtime) (w : WatchSources) (serverOf : String → String) (rows : List QueueRow)
      (q : QueueTable) (replies : ℕ → PageReply LogEntry) (row : QueueRow) (server : MediaServer),
      ListedPlex w.cfg (serverOf row.libraryId) server → (∀ row ∈ rows, row ∈ q.rows) → row ∈ rows →
      KeptAsItIs rt w serverOf rows replies row := by
  intro hclaim
  obtain ⟨outcome, houtcome, hkept⟩ := hclaim isoRuntime (plexSources "t") (fun _ => "0") [dueFilm]
    dueQueue (fun _ => .answered 404 .notJson) dueFilm ⟨"0", "http://plex:32400", "t", "plex"⟩
    ⟨rfl, rfl⟩ (fun _ h => h) (List.mem_singleton_self _)
  have hclient : Contactable (getClient (plexSources "t").cfg "0") := by decide +kernel
  obtain ⟨fuel, result, hresult, rfl⟩ := houtcome hclient
  have hraises : getPlayActivity (getClient (plexSources "t").cfg "0")
      (fun _ => .answered 404 .notJson) 1 = some (.error (.unreachable (.status 404))) := by
    rw [getPlayActivity, if_pos hclient]
    rfl
  rw [getPlayActivity, if_pos hclient] at hresult hraises
  obtain rfl := loop_unique hresult hraises
  have hmem := (hkept (fun _ => none) {} rfl).1
  rw [mem_keptRows] at hmem
  obtain ⟨row, _, hrefreshed⟩ := hmem
  rw [refreshedRow, if_pos hclient] at hrefreshed
  cases hrefreshed

end Hygie
