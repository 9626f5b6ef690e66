/-
**The key of the stored secrets.**

Secrets are encrypted with a key that a process looks up once, when it first needs it: in its
environment, else in a file beside the database, else it generates one and writes the file.  The
file may be unreadable, and writing it may fail at any point; then the process works without a key,
stores secrets as they are, and returns the encrypted ones as they are stored.  The next process may
find the key again.

A history is made of restarts, lookups of the key, saves, and migrations that encrypt what is not
encrypted and that may be interrupted.  A file that exists is never overwritten, so that no history
loses a secret: with the key that the environment and the file hold, every value is read back as it
was saved last.  The one thing to avoid is that a process without a key is told to save a text that
starts like an encrypted one.

Main definitions:

* `Deployment`, `KeyAccess`, `loadOrCreateKey` — the lookup of the key, with its failures;
* `SecretsState.step`, `SecretsState.Moves` — one step of a history, and what it can do;
* `SecretsState.standing` — the cipher that the environment and the file stand for;
* `SecretsState.Sealed` — every secret that is not empty is stored encrypted.

Main results:

* `SecretsState.keyFile_step` — a key file is never replaced;
* `SecretsState.Recoverable.step` — what one step preserves;
* `SecretsState.recoverable_of_run` — **no history loses a secret**;
* `SecretsState.SecretsAre.step` — what one step leaves of how the secrets are stored;
* `SecretsState.sealed_of_run` — **once migrated, no secret is stored as it is again**.
-/

import Hygie.SettingsStore

set_option relaxedAutoImplicit false
set_option autoImplicit false

namespace Hygie

open PyText

/-! ### The lookup of the key -/

/-- What a process is started with. -/
structure Deployment where
  /-- `HYGIE_ENCRYPTION_KEY`, empty where it is not set. -/
  envKey : String
  dialect : String
  dbPath : String

/-- `_may_auto_generate_key`. -/
def mayAutoGenerateKey (d : Deployment) : Bool := d.dialect == "sqlite" && d.dbPath != ":memory:"

-- `Fernet(key)`; nothing where it raises
variable (cipher : String → Option Fernet)

/-- A key of `Fernet.generate_key`: it has no white space around it. -/
structure FreshKey where
  text : String
  stripped : strip text = text

/-- What becomes of the new key file. -/
inductive KeyWrite
  | written
  /-- The directory or the file cannot be created. -/
  | refused
  /-- Only so many characters arrive. -/
  | cut (n : ℕ)
  /-- The file is complete, but an exception follows, as from `os.chmod`. -/
  | unprotected
  deriving DecidableEq, Repr

/-- What one lookup meets: whether an existing file can be read, the key that would be generated,
and what would become of its file. -/
structure KeyAccess where
  readable : Bool
  fresh : FreshKey
  write : KeyWrite

/-- `_load_or_create_encryption_key`: the key, and the key file afterwards. -/
def loadOrCreateKey (d : Deployment) (access : KeyAccess) (keyFile : Option String) :
    Option String × Option String :=
  if strip d.envKey ≠ "" then (some (strip d.envKey), keyFile)
  else
    match keyFile with
    | some content =>
        if access.readable && (cipher (strip content)).isSome then (some (strip content), keyFile)
        else (none, keyFile)
    | none =>
        if mayAutoGenerateKey d then
          match access.write with
          | .written => (some access.fresh.text, some access.fresh.text)
          | .refused => (none, none)
          | .cut n => (none, some (String.ofList (access.fresh.text.toList.take n)))
          | .unprotected => (none, some access.fresh.text)
        else (none, none)

/-! ### Histories -/

/-- The key file, the rows of the settings, the key that the process has looked up, and the values
that were saved last. -/
structure SecretsState where
  keyFile : Option String
  rows : List (String × String)
  /-- Nothing until `_get_fernet` is called; then its key, if it has one. -/
  loaded : Option (Option String)
  saved : String → Option String

inductive SecretsAction
  | restart
  /-- The first call of `_get_fernet`. -/
  | getFernet (access : KeyAccess)
  | setSetting (key value : String) (nonce : ℕ)
  /-- `_migrate_encrypt_settings`, which gets through so many rows. -/
  | migrate (nonces : String → ℕ) (n : ℕ)

/-- One row of the migration. -/
def migrateRow (fernet : Fernet) (nonces : String → ℕ) (row : String × String) : String × String :=
  if row.1 ∈ sensitiveKeys && row.2 != "" && !startsWith row.2 encPrefix then
    (row.1, encryptValue (some fernet) (nonces row.1) row.2)
  else row

namespace SecretsState

/-- The cipher of the process, if it has one. -/
def fernet (s : SecretsState) : Option Fernet := s.loaded.join.bind cipher

/-- The step function, for processes of one deployment. -/
def step (d : Deployment) (s : SecretsState) : SecretsAction → Option SecretsState
  | .restart => some { s with loaded := none }
  | .getFernet access =>
      match s.loaded with
      | some _ => none
      | none =>
          let found := loadOrCreateKey cipher d access s.keyFile
          some { s with loaded := some found.1, keyFile := found.2 }
  | .setSetting key value nonce =>
      match s.loaded with
      | none => none
      | some _ => some
          { s with
            rows := upsertSetting s.rows key (storedSetting (s.fernet cipher) nonce key value)
            saved := Function.update s.saved key (some value) }
  | .migrate nonces n =>
      match s.loaded with
      | none => none
      | some _ =>
          match s.fernet cipher with
          | none => some s
          | some f => some
              { s with rows := (s.rows.take n).map (migrateRow f nonces) ++ s.rows.drop n }

/-- Before the first start: no key file, and settings that nobody has encrypted. -/
def start (rows : List (String × String)) : SecretsState where
  keyFile := none
  rows := rows
  loaded := none
  saved := fun key => rows.lookup key

/-- The cipher that the environment and the key file stand for. -/
def standing (d : Deployment) (s : SecretsState) : Option Fernet :=
  if strip d.envKey ≠ "" then cipher (strip d.envKey)
  else (s.keyFile.map strip).bind cipher

/-- The condition: a process without a key is not told to save a secret that starts like an
encrypted one. -/
def Plausible (s : SecretsState) : SecretsAction → Prop
  | .setSetting key value _ =>
      s.fernet cipher = none → key ∈ sensitiveKeys → startsWith value encPrefix = false
  | _ => True

/-- The condition: no secret is saved by a process without a key. -/
def Keyed (s : SecretsState) : SecretsAction → Prop
  | .setSetting key _ _ => key ∈ sensitiveKeys → s.fernet cipher ≠ none
  | _ => True

/-- Every secret is stored encrypted with the standing cipher, or as `P` says. -/
def SecretsAre (P : String → Prop) (d : Deployment) (s : SecretsState) : Prop :=
  ∀ row ∈ s.rows, row.1 ∈ sensitiveKeys →
    P row.2 ∨ ∃ f nonce value, s.standing cipher d = some f ∧ value ≠ "" ∧
      row.2 = encryptValue (some f) nonce value

/-- Every secret that is not empty is stored encrypted with the standing cipher. -/
abbrev Sealed (d : Deployment) (s : SecretsState) : Prop := s.SecretsAre cipher (· = "") d

/-- What a step can do. -/
inductive Moves (d : Deployment) (s : SecretsState) : SecretsAction → SecretsState → Prop
  | restart : s.Moves d .restart { s with loaded := none }
  | look (access : KeyAccess) {key file : Option String}
      (hfound : loadOrCreateKey cipher d access s.keyFile = (key, file)) :
      s.Moves d (.getFernet access) { s with loaded := some key, keyFile := file }
  | save (key value : String) (nonce : ℕ) : s.Moves d (.setSetting key value nonce)
      { s with
        rows := upsertSetting s.rows key (storedSetting (s.fernet cipher) nonce key value)
        saved := Function.update s.saved key (some value) }
  | skip (nonces : String → ℕ) (n : ℕ) (hnone : s.fernet cipher = none) :
      s.Moves d (.migrate nonces n) s
  | encrypt (nonces : String → ℕ) (n : ℕ) (f : Fernet) (hf : s.fernet cipher = some f) :
      s.Moves d (.migrate nonces n)
        { s with rows := (s.rows.take n).map (migrateRow f nonces) ++ s.rows.drop n }

variable {cipher} {d : Deployment} {s t u : SecretsState} {a : SecretsAction}

theorem moves_of_step (hstep : s.step cipher d a = some t) : s.Moves cipher d a t := by
  cases a with
  | restart =>
      obtain rfl := Option.some.inj hstep
      exact .restart
  | getFernet access =>
      simp only [step] at hstep
      split at hstep
      · cases hstep
      · obtain rfl := Option.some.inj hstep
        exact .look access rfl
  | setSetting key value nonce =>
      simp only [step] at hstep
      split at hstep
      · cases hstep
      · obtain rfl := Option.some.inj hstep
        exact .save key value nonce
  | migrate nonces n =>
      simp only [step] at hstep
      split at hstep
      · cases hstep
      split at hstep
      · next hnone =>
          obtain rfl := Option.some.inj hstep
          exact .skip nonces n hnone
      · next f hf =>
          obtain rfl := Option.some.inj hstep
          exact .encrypt nonces n f hf

/-! ### The key file -/

/-- **A key file is never replaced.** -/
theorem keyFile_step {content : String} (hfile : s.keyFile = some content)
    (hstep : s.step cipher d a = some t) : t.keyFile = some content := by
  cases moves_of_step hstep with
  | restart | save | skip | encrypt => exact hfile
  | look access hfound =>
      simp only [loadOrCreateKey, hfile] at hfound
      split_ifs at hfound <;> exact (Prod.mk.inj hfound).2.symm

end SecretsState

/-! ### Nothing is lost -/

/-- A value as it is, or encrypted with the cipher. -/
def StoredAs (fernet : Option Fernet) (key raw value : String) : Prop :=
  if key ∈ sensitiveKeys then
    (raw = value ∧ startsWith value encPrefix = false) ∨
      ∃ f nonce, fernet = some f ∧ raw = encryptValue (some f) nonce value
  else raw = value

theorem StoredAs.of_none {key raw value : String} (h : StoredAs none key raw value)
    (fernet : Option Fernet) : StoredAs fernet key raw value := by
  unfold StoredAs at h ⊢
  split_ifs at h ⊢
  · rcases h with h | ⟨f, nonce, hnone, -⟩
    · exact .inl h
    · cases hnone
  · exact h

/-- A value that is stored so is read back. -/
theorem StoredAs.read {fernet : Option Fernet} {rows : List (String × String)}
    {key raw value : String} (h : StoredAs fernet key raw value)
    (hrow : rows.lookup key = some raw) : readSetting fernet rows key = value := by
  unfold StoredAs at h
  simp only [readSetting, hrow, Option.getD_some]
  split_ifs at h ⊢
  · rcases h with ⟨rfl, hplain⟩ | ⟨f, nonce, rfl, rfl⟩
    · simp [decryptValue, hplain]
    · exact decryptValue_encryptValue (some f) nonce value
  · exact h

/-- What `set_setting` stores, by a process whose cipher is the one in question. -/
theorem storedAs_storedSetting {fernet standing : Option Fernet} {key value : String} (nonce : ℕ)
    (hsame : ∀ f, fernet = some f → standing = some f)
    (hplain : fernet = none → key ∈ sensitiveKeys → startsWith value encPrefix = false) :
    StoredAs standing key (storedSetting fernet nonce key value) value := by
  unfold StoredAs storedSetting
  split_ifs with hkey
  · cases hfernet : fernet with
    | none => exact .inl ⟨rfl, hplain hfernet hkey⟩
    | some f => exact .inr ⟨f, nonce, hsame f hfernet, rfl⟩
  · rfl

theorem startsWith_encryptValue (f : Fernet) (nonce : ℕ) {value : String} (h : value ≠ "") :
    startsWith (encryptValue (some f) nonce value) encPrefix = true := by
  simp only [encryptValue, if_neg h]
  exact startsWith_iff.2 ⟨_, rfl⟩

theorem migrateRow_fst (f : Fernet) (nonces : String → ℕ) (row : String × String) :
    (migrateRow f nonces row).1 = row.1 := by
  unfold migrateRow
  split_ifs <;> rfl

/-- A row of the migration still says the same. -/
theorem StoredAs.migrateRow {f : Fernet} {nonces : String → ℕ} {key raw value : String}
    (h : StoredAs (some f) key raw value) :
    StoredAs (some f) key (migrateRow f nonces (key, raw)).2 value := by
  unfold Hygie.migrateRow
  split_ifs with hrow
  · simp only [Bool.and_eq_true, decide_eq_true_eq, bne_iff_ne, ne_eq, Bool.not_eq_true'] at hrow
    obtain ⟨⟨hkey, hne⟩, hstart⟩ := hrow
    unfold StoredAs at h ⊢
    rw [if_pos hkey] at h ⊢
    rcases h with ⟨rfl, -⟩ | ⟨g, nonce, hg, rfl⟩
    · exact .inr ⟨f, _, rfl, rfl⟩
    · -- an encrypted value is encrypted already
      obtain rfl := Option.some.inj hg
      by_cases hempty : value = ""
      · exact absurd (by simp [encryptValue, hempty]) hne
      · rw [startsWith_encryptValue f nonce hempty] at hstart
        cases hstart
  · exact h

/-- A row is found as it was, or as the migration leaves it. -/
theorem lookup_migrated {g : String × String → String × String} (hg : ∀ row, (g row).1 = row.1)
    {rows : List (String × String)} {key raw : String} (n : ℕ)
    (h : rows.lookup key = some raw) :
    ((rows.take n).map g ++ rows.drop n).lookup key = some raw ∨
      ((rows.take n).map g ++ rows.drop n).lookup key = some (g (key, raw)).2 := by
  induction rows generalizing n with
  | nil => cases h
  | cons row rows ih =>
      obtain ⟨k, v⟩ := row
      cases n with
      | zero => exact .inl h
      | succ n =>
          rw [List.lookup_cons] at h
          rw [List.take_succ_cons, List.map_cons, List.cons_append, List.drop_succ_cons]
          have hhead : g (k, v) = (k, (g (k, v)).2) := Prod.ext (hg (k, v)) rfl
          rw [hhead, List.lookup_cons]
          by_cases hk : key = k
          · subst hk
            simp only [beq_self_eq_true, Option.some.injEq] at h
            subst h
            exact .inr (by simp)
          · have hne : (key == k) = false := by simpa using hk
            rw [hne] at h ⊢
            exact ih n h

/-- A text that is stored as it is, or is encrypted, as a process without a key returns it. -/
theorem StoredAs.read_none {fernet : Option Fernet} {rows : List (String × String)}
    {key raw value : String} (h : StoredAs fernet key raw value)
    (hrow : rows.lookup key = some raw) :
    readSetting none rows key = value ∨
      startsWith (readSetting none rows key) encPrefix = true := by
  have hraw : readSetting none rows key = raw := by
    simp only [readSetting, hrow, Option.getD_some, decryptValue]
    split_ifs <;> rfl
  rw [hraw]
  unfold StoredAs at h
  split_ifs at h
  · rcases h with ⟨rfl, -⟩ | ⟨f, nonce, -, rfl⟩
    · exact .inl rfl
    · by_cases hempty : value = ""
      · exact .inl (by simp [encryptValue, hempty])
      · exact .inr (startsWith_encryptValue f nonce hempty)
  · exact .inl h

namespace SecretsState

variable {cipher} {d : Deployment} {s t u : SecretsState} {a : SecretsAction}

/-- Every value that was saved last is stored in a way that the standing cipher reads, and a process
that has a cipher has that one. -/
structure Recoverable (cipher : String → Option Fernet) (d : Deployment) (s : SecretsState) :
    Prop where
  stored : ∀ key value, s.saved key = some value →
    ∃ raw, s.rows.lookup key = some raw ∧ StoredAs (s.standing cipher d) key raw value
  loaded : ∀ f, s.fernet cipher = some f → s.standing cipher d = some f

/-- What a lookup of the key can come to. -/
theorem loadOrCreateKey_cases (cipher : String → Option Fernet) (d : Deployment)
    (access : KeyAccess) (keyFile : Option String) :
    (strip d.envKey ≠ "" ∧
      loadOrCreateKey cipher d access keyFile = (some (strip d.envKey), keyFile)) ∨
      (strip d.envKey = "" ∧ keyFile ≠ none ∧
        ∃ key, loadOrCreateKey cipher d access keyFile = (key, keyFile) ∧
          (key = none ∨ key = keyFile.map strip)) ∨
        (strip d.envKey = "" ∧ keyFile = none ∧
          ∃ key file, loadOrCreateKey cipher d access keyFile = (key, file) ∧
            (key = none ∨ key = some access.fresh.text ∧ file = some access.fresh.text)) := by
  unfold loadOrCreateKey
  by_cases henv : strip d.envKey = ""
  · rw [if_neg (not_not.2 henv)]
    cases keyFile with
    | some content =>
        refine .inr (.inl ⟨henv, by simp, ?_⟩)
        dsimp only
        split_ifs
        · exact ⟨_, rfl, .inr rfl⟩
        · exact ⟨_, rfl, .inl rfl⟩
    | none =>
        refine .inr (.inr ⟨henv, rfl, ?_⟩)
        dsimp only
        split_ifs
        · cases access.write with
          | written => exact ⟨_, _, rfl, .inr ⟨rfl, rfl⟩⟩
          | refused => exact ⟨_, _, rfl, .inl rfl⟩
          | cut n => exact ⟨_, _, rfl, .inl rfl⟩
          | unprotected => exact ⟨_, _, rfl, .inl rfl⟩
        · exact ⟨_, _, rfl, .inl rfl⟩
  · rw [if_pos henv]
    exact .inl ⟨henv, rfl⟩

/-- **One step loses nothing.** -/
theorem Recoverable.step (h : s.Recoverable cipher d) (hok : s.Plausible cipher a)
    (hstep : s.step cipher d a = some t) : t.Recoverable cipher d := by
  cases moves_of_step hstep with
  | restart => exact ⟨h.stored, nofun⟩
  | look access hlook =>
      rcases loadOrCreateKey_cases cipher d access s.keyFile with
        ⟨henv, hfound⟩ | ⟨henv, hfile, key, hfound, hkey⟩ | ⟨henv, hfile, key, file, hfound, hkey⟩
      all_goals obtain ⟨rfl, rfl⟩ := Prod.mk.inj (hlook.symm.trans hfound)
      · refine ⟨h.stored, fun f hf => ?_⟩
        simpa [standing, fernet, henv] using hf
      · refine ⟨h.stored, fun f hf => ?_⟩
        rcases hkey with rfl | rfl
        · cases hf
        · simpa [standing, fernet, henv] using hf
      · -- nothing has been encrypted before there was a key
        have hnone : s.standing cipher d = none := by simp [standing, henv, hfile]
        refine ⟨fun k value hsaved => ?_, fun f hf => ?_⟩
        · obtain ⟨raw, hraw, hstored⟩ := h.stored k value hsaved
          rw [hnone] at hstored
          exact ⟨raw, hraw, hstored.of_none _⟩
        · rcases hkey with rfl | ⟨rfl, rfl⟩
          · cases hf
          · simpa [standing, fernet, henv, access.fresh.stripped] using hf
  | save key value nonce =>
      refine ⟨fun k v hsaved => ?_, h.loaded⟩
      simp only [lookup_upsertSetting]
      by_cases hk : k = key
      · subst hk
        obtain rfl : value = v := by simpa using hsaved
        exact ⟨_, if_pos rfl, storedAs_storedSetting nonce h.loaded hok⟩
      · rw [if_neg hk]
        simp only [Function.update_of_ne hk] at hsaved
        exact h.stored k v hsaved
  | skip => exact h
  | encrypt nonces n f hf =>
      refine ⟨fun k v hsaved => ?_, h.loaded⟩
      obtain ⟨raw, hraw, hstored⟩ := h.stored k v hsaved
      have hstanding : s.standing cipher d = some f := h.loaded f hf
      show ∃ raw, _ ∧ StoredAs (s.standing cipher d) k raw v
      rcases lookup_migrated (migrateRow_fst f nonces) n hraw with hrow | hrow
      · exact ⟨raw, hrow, hstored⟩
      · rw [hstanding] at hstored ⊢
        exact ⟨_, hrow, hstored.migrateRow⟩

theorem recoverable_start {rows : List (String × String)}
    (hplain : ∀ row ∈ rows, row.1 ∈ sensitiveKeys → startsWith row.2 encPrefix = false) :
    (start rows).Recoverable cipher d := by
  refine ⟨fun key value hsaved => ⟨value, hsaved, ?_⟩, nofun⟩
  unfold StoredAs
  split_ifs with hkey
  · refine .inl ⟨rfl, hplain (key, value) ?_ hkey⟩
    obtain ⟨l, l', hsplit, -⟩ := List.lookup_eq_some_iff.1 hsaved
    rw [hsplit]
    simp
  · rfl

/-! ### No history loses a secret -/

/-- **No history loses a secret.**  From settings that nobody has encrypted, whatever becomes of the
key file and of the processes: with the key that the environment and the file hold, every value is
read as it was saved last.  A process that has a key reads it so; a process without one does, or
gets the text as it is encrypted. -/
theorem recoverable_of_run {rows : List (String × String)} {as : List (SecretsAction)}
    {key value : String}
    (hplain : ∀ row ∈ rows, row.1 ∈ sensitiveKeys → startsWith row.2 encPrefix = false)
    (hrun : GuardedRun (SecretsState.step cipher d) (Plausible cipher) (start rows) as s)
    (hsaved : s.saved key = some value) :
    readSetting (s.standing cipher d) s.rows key = value ∧
      (readSetting (s.fernet cipher) s.rows key = value ∨
        (s.fernet cipher = none ∧
          startsWith (readSetting (s.fernet cipher) s.rows key) encPrefix = true)) := by
  have hrecoverable : s.Recoverable cipher d :=
    hrun.invariant (recoverable_start hplain) fun _ _ _ h hok hstep => h.step hok hstep
  obtain ⟨raw, hraw, hstored⟩ := hrecoverable.stored key value hsaved
  refine ⟨hstored.read hraw, ?_⟩
  cases hfernet : s.fernet cipher with
  | some f =>
      left
      rw [← hrecoverable.loaded f hfernet]
      exact hstored.read hraw
  | none => exact (hstored.read_none hraw).imp id fun h => ⟨rfl, h⟩

/-- A cipher with one key. -/
def sampleCipher (key : String) : Option Fernet :=
  if key = "k0" then
    some
      { encrypt := fun _ value => String.ofList value.toList.reverse
        decrypt := fun token => some (String.ofList token.toList.reverse)
        decrypt_encrypt := by simp }
  else none

def sampleKey : FreshKey where
  text := "k0"
  stripped := by decide

def sampleDeployment : Deployment := ⟨"", "sqlite", "/app/data/hygie.db"⟩

/-- A key is generated and the settings are migrated; the next process cannot read the key. -/
def sampleHistory : List (SecretsAction) :=
  [.getFernet ⟨true, sampleKey, .written⟩, .migrate (fun _ => 0) 5, .restart,
    .getFernet ⟨false, sampleKey, .written⟩]

theorem recoverable_of_run_sample :
    ∃ s : SecretsState, s.saved "emby_api_key" = some "secret" ∧ s.fernet sampleCipher = none ∧
      readSetting (s.standing sampleCipher sampleDeployment) s.rows "emby_api_key" = "secret" := by
  have hrun : GuardedRun (SecretsState.step sampleCipher sampleDeployment) (Plausible sampleCipher)
      (start [("emby_api_key", "secret")]) sampleHistory _ :=
    .cons trivial rfl (.cons trivial rfl (.cons trivial rfl (.cons trivial rfl .nil)))
  exact ⟨_, rfl, rfl, (recoverable_of_run (by decide) hrun rfl).1⟩

/-! ### No secret is stored as it is -/

/-- The standing cipher stays. -/
theorem standing_step {f : Fernet} (h : s.standing cipher d = some f)
    (hstep : s.step cipher d a = some t) : t.standing cipher d = some f := by
  unfold standing at h ⊢
  split_ifs at h ⊢ with henv
  · exact h
  · cases hfile : s.keyFile with
    | none =>
        rw [hfile] at h
        cases h
    | some content => rwa [keyFile_step hfile hstep, ← hfile]

/-- **How a step leaves the secrets stored**: as they were, encrypted, or as a process without a key
was told to save them. -/
theorem SecretsAre.step {P : String → Prop} (h : s.SecretsAre cipher P d) (hempty : P "")
    (hloaded : ∀ f, s.fernet cipher = some f → s.standing cipher d = some f)
    (hset : ∀ key value nonce, a = .setSetting key value nonce → key ∈ sensitiveKeys →
      s.fernet cipher = none → P value)
    (hstep : s.step cipher d a = some t) : t.SecretsAre cipher P d := by
  -- a row that was there before
  have hkept : ∀ row ∈ s.rows, row.1 ∈ sensitiveKeys →
      P row.2 ∨ ∃ f nonce value, t.standing cipher d = some f ∧ value ≠ "" ∧
        row.2 = encryptValue (some f) nonce value := by
    intro row hrow hkey
    refine (h row hrow hkey).imp id ?_
    rintro ⟨f, nonce, value, hf, hvalue⟩
    exact ⟨f, nonce, value, standing_step hf hstep, hvalue⟩
  have hstanding : ∀ f, s.fernet cipher = some f → t.standing cipher d = some f :=
    fun f hf => standing_step (hloaded f hf) hstep
  cases moves_of_step hstep with
  | restart | look | skip => exact hkept
  | save key value nonce =>
      intro row hrow hkey
      rcases List.mem_cons.1 hrow with rfl | hrow
      · simp only [storedSetting] at hkey ⊢
        rw [if_pos hkey]
        cases hf : s.fernet cipher with
        | none => exact .inl (hset key value nonce rfl hkey hf)
        | some f =>
            by_cases hvalue : value = ""
            · exact .inl (by simpa [encryptValue, hvalue] using hempty)
            · exact .inr ⟨f, nonce, value, hstanding f hf, hvalue, rfl⟩
      · exact hkept row (List.mem_of_mem_filter hrow) hkey
  | encrypt nonces n f hf =>
      intro row hrow hkey
      rcases List.mem_append.1 hrow with hrow | hrow
      · obtain ⟨old, hold, rfl⟩ := List.mem_map.1 hrow
        rw [migrateRow_fst] at hkey
        unfold migrateRow
        split_ifs with hplain
        · simp only [Bool.and_eq_true, bne_iff_ne, ne_eq] at hplain
          exact .inr ⟨f, _, old.2, hstanding f hf, hplain.1.2, rfl⟩
        · exact hkept old (List.mem_of_mem_take hold) hkey
      · exact hkept row (List.mem_of_mem_drop hrow) hkey

/-- A row that is empty or looks encrypted stays as it is. -/
theorem migrateRow_of_sealed {f : Fernet} {nonces : String → ℕ} {row : String × String}
    (h : row.1 ∈ sensitiveKeys → row.2 = "" ∨ startsWith row.2 encPrefix = true) :
    migrateRow f nonces row = row := by
  unfold migrateRow
  split_ifs with hrow
  · simp only [Bool.and_eq_true, decide_eq_true_eq, bne_iff_ne, ne_eq, Bool.not_eq_true'] at hrow
    obtain ⟨⟨hkey, hne⟩, hstart⟩ := hrow
    rcases h hkey with hempty | henc
    · exact absurd hempty hne
    · rw [henc] at hstart
      cases hstart
  · rfl

/-- A migration of settings that are sealed finds nothing to do. -/
theorem migrate_of_sealed (h : u.Sealed cipher d) {nonces : String → ℕ} {n : ℕ} {v : SecretsState}
    (hstep : u.step cipher d (.migrate nonces n) = some v) : v = u := by
  cases moves_of_step hstep with
  | skip => rfl
  | encrypt _ _ f =>
      have hsame : (u.rows.take n).map (migrateRow f nonces) = u.rows.take n := by
        conv_rhs => rw [← List.map_id (u.rows.take n)]
        refine List.map_congr_left fun row hrow => migrateRow_of_sealed fun hkey => ?_
        refine (h row (List.mem_of_mem_take hrow) hkey).imp id ?_
        rintro ⟨f, nonce, value, -, hvalue, hraw⟩
        rw [hraw]
        exact startsWith_encryptValue f nonce hvalue
      rw [hsame, List.take_append_drop]

/-- A process with a key that migrates all rows seals them, where what looks encrypted is. -/
theorem sealed_of_migrate {nonces : String → ℕ} {n : ℕ}
    (h : s.SecretsAre cipher (startsWith · encPrefix = false) d)
    (hloaded : ∀ f, s.fernet cipher = some f → s.standing cipher d = some f)
    (hkey : s.fernet cipher ≠ none) (hall : s.rows.length ≤ n)
    (hstep : s.step cipher d (.migrate nonces n) = some t) : t.Sealed cipher d := by
  have hafter := h.step (by decide) hloaded (fun _ _ _ ha => by cases ha) hstep
  cases moves_of_step hstep with
  | skip _ _ hnone => exact absurd hnone hkey
  | encrypt _ _ f =>
      intro row hrow hsensitive
      refine (hafter row hrow hsensitive).imp (fun hplain => ?_) id
      simp only [List.take_of_length_le hall, List.drop_of_length_le hall, List.append_nil] at hrow
      obtain ⟨old, -, rfl⟩ := List.mem_map.1 hrow
      rw [migrateRow_fst] at hsensitive
      -- what does not look encrypted has been encrypted, unless it is empty
      unfold migrateRow at hplain ⊢
      split_ifs at hplain ⊢ with hcond
      · simp only [Bool.and_eq_true, bne_iff_ne, ne_eq] at hcond
        rw [startsWith_encryptValue f _ hcond.1.2] at hplain
        cases hplain
      · simpa [hsensitive, hplain] using hcond

/-- **Once migrated, no secret is stored as it is again.**  From settings that nobody has encrypted,
once a process with a key has migrated all rows, and as long as only such processes save secrets:
every secret is stored empty or encrypted with the key that the environment and the file hold, and
no further migration changes anything. -/
theorem sealed_of_run {rows : List (String × String)} {nonces : String → ℕ} {n : ℕ}
    {as bs : List SecretsAction}
    (hplain : ∀ row ∈ rows, row.1 ∈ sensitiveKeys → startsWith row.2 encPrefix = false)
    (hbefore : GuardedRun (SecretsState.step cipher d) (Plausible cipher) (start rows) as s)
    (hkey : s.fernet cipher ≠ none) (hall : s.rows.length ≤ n)
    (hstep : s.step cipher d (.migrate nonces n) = some t)
    (hrun : GuardedRun (SecretsState.step cipher d) (Keyed cipher) t bs u) :
    u.Sealed cipher d ∧ ∀ nonces' m v, u.step cipher d (.migrate nonces' m) = some v → v = u := by
  have hs : s.Recoverable cipher d ∧ s.SecretsAre cipher (startsWith · encPrefix = false) d := by
    refine hbefore.invariant (I := fun s => s.Recoverable cipher d ∧
      s.SecretsAre cipher (startsWith · encPrefix = false) d)
      ⟨recoverable_start hplain, fun row hrow hkey => .inl (hplain row hrow hkey)⟩ ?_
    intro s a t h hok hnext
    refine ⟨h.1.step hok hnext, h.2.step (by decide) h.1.loaded ?_ hnext⟩
    rintro key value nonce rfl hsensitive hnone
    exact hok hnone hsensitive
  have ht : t.Recoverable cipher d ∧ t.Sealed cipher d :=
    ⟨hs.1.step (a := .migrate nonces n) trivial hstep,
      sealed_of_migrate hs.2 hs.1.loaded hkey hall hstep⟩
  have hu : u.Recoverable cipher d ∧ u.Sealed cipher d := by
    refine hrun.invariant (I := fun s => s.Recoverable cipher d ∧ s.Sealed cipher d) ht ?_
    intro s a t h hok hnext
    have hset : ∀ key value nonce, a = .setSetting key value nonce → key ∈ sensitiveKeys →
        s.fernet cipher ≠ none := by
      rintro key value nonce rfl hsensitive
      exact hok hsensitive
    refine ⟨h.1.step ?_ hnext, h.2.step rfl h.1.loaded ?_ hnext⟩
    · cases a with
      | setSetting key value nonce =>
          exact fun hnone hsensitive => absurd hnone (hset key value nonce rfl hsensitive)
      | _ => trivial
    · exact fun key value nonce ha hsensitive hnone =>
        absurd hnone (hset key value nonce ha hsensitive)
  exact ⟨hu.2, fun _ _ _ => migrate_of_sealed hu.2⟩

/-- A secret is saved without a key; the next process has one. -/
def sampleBefore : List SecretsAction :=
  [.getFernet ⟨true, sampleKey, .unprotected⟩, .setSetting "qbit_password" "p" 0, .restart,
    .getFernet ⟨true, sampleKey, .written⟩]

/-- The settings of `sampleBefore`, as the process that has the key migrates them. -/
def sampleMigrated : SecretsState where
  keyFile := some "k0"
  rows := [("qbit_password", "enc:p"), ("emby_api_key", "enc:terces")]
  loaded := some (some "k0")
  saved := Function.update (fun key => [("emby_api_key", "secret")].lookup key) "qbit_password"
    (some "p")

/-- A process without a key saves what is no secret, and one with the key a secret that starts like
an encrypted one. -/
def sampleAfter : List SecretsAction :=
  [.restart, .getFernet ⟨false, sampleKey, .written⟩, .setSetting "language" "fr" 0, .restart,
    .getFernet ⟨true, sampleKey, .written⟩, .setSetting "qbit_password" "enc:p" 0]

theorem sealed_of_run_sample :
    ∃ u : SecretsState, u.saved "qbit_password" = some "enc:p" ∧
      u.rows.lookup "language" = some "fr" ∧ u.Sealed sampleCipher sampleDeployment := by
  have hbefore : GuardedRun (SecretsState.step sampleCipher sampleDeployment)
      (Plausible sampleCipher) (start [("emby_api_key", "secret")]) sampleBefore _ :=
    .cons trivial rfl (.cons (fun _ _ => by decide) rfl (.cons trivial rfl
      (.cons trivial rfl .nil)))
  have hafter : GuardedRun (SecretsState.step sampleCipher sampleDeployment) (Keyed sampleCipher)
      sampleMigrated sampleAfter _ :=
    .cons trivial rfl (.cons trivial rfl (.cons (fun h => absurd h (by decide)) rfl
      (.cons trivial rfl (.cons trivial rfl (.cons (fun _ => by exact Option.some_ne_none _) rfl
        .nil)))))
  have hmigrate : SecretsState.step sampleCipher sampleDeployment
      { sampleMigrated with
        rows := [("qbit_password", "p"), ("emby_api_key", "secret")] }
      (.migrate (fun _ => 0) 2) = some sampleMigrated := rfl
  exact ⟨_, rfl, rfl, (sealed_of_run (by decide) hbefore (by exact Option.some_ne_none _)
    (by decide) hmigrate hafter).1⟩

end SecretsState

end Hygie
