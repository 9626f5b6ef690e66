/-
**Users, refresh tokens, and the requests of the login pages.**

A request takes one step between two awaits: it reads a user, asks the rate limiter, verifies a
password in a thread, writes a row.  Requests take their steps in any order, and each may fail at
any point.

The setup asks whether a user exists, then asks the rate limiter, and then inserts its user; only
equal names exclude each other.

A token is a number that is given out once; its hash and its text are not told apart, and access
tokens, which are in no table, are left out.  What the rate limiter answers is not looked at here.

Main definitions:

* `UserTable`, `TokenTable` — the tables `users` and `refresh_tokens`;
* `AuthCall`, `AuthRequest` — the requests, and how far one has come;
* `AccountState.step` — the step function;
* `AuthRequest.stale` — for a request that revokes tokens, those that it must end;
* `AccountState.StillEmpty` — an insertion of a setup that still finds no user;
* `AccountState.SetUpOnce` — the law of the setup.

Main results:

* `AccountState.setUpOnce_of_run` — **one user and one answer with tokens** in any run of such
  insertions.
-/

import Hygie.GuardedRuns

set_option relaxedAutoImplicit false
set_option autoImplicit false

namespace Hygie

/-! ### The tables -/

/-- What the requests read of a row of `users`. -/
structure UserRow where
  id : ℕ
  username : String
  passwordHash : String
  deriving DecidableEq, Repr

/-- The rows of `users`. -/
structure UserTable where
  rows : List UserRow
  nextId : ℕ
  id_nodup : (rows.map (·.id)).Nodup
  username_nodup : (rows.map (·.username)).Nodup
  lt_nextId : ∀ row ∈ rows, row.id < nextId

/-- A row of `refresh_tokens`. -/
structure TokenRow where
  userId : ℕ
  token : ℕ
  expiresAt : ℤ
  revoked : Bool

/-- The rows of `refresh_tokens`, and the next token that `secrets` gives. -/
structure TokenTable where
  rows : List TokenRow
  nextToken : ℕ
  token_nodup : (rows.map (·.token)).Nodup
  lt_nextToken : ∀ row ∈ rows, row.token < nextToken

namespace UserTable

/-- Nobody has an account. -/
def empty : UserTable where
  rows := []
  nextId := 1
  id_nodup := List.nodup_nil
  username_nodup := List.nodup_nil
  lt_nextId := by simp

variable (u : UserTable)

/-- `get_user`. -/
def find (username : String) : Option UserRow := u.rows.find? (·.username = username)

/-- `create_user`; the constraint on names refuses one that is taken. -/
def insert (username passwordHash : String) (h : username ∉ u.rows.map (·.username)) :
    UserTable where
  rows := u.rows ++ [{ id := u.nextId, username := username, passwordHash := passwordHash }]
  nextId := u.nextId + 1
  id_nodup := by
    rw [List.map_append, List.nodup_append_comm]
    refine List.nodup_cons.2 ⟨fun hmem => ?_, u.id_nodup⟩
    obtain ⟨row, hrow, heq⟩ := List.mem_map.1 hmem
    exact absurd heq (u.lt_nextId row hrow).ne
  username_nodup := by
    rw [List.map_append, List.nodup_append_comm]
    exact List.nodup_cons.2 ⟨h, u.username_nodup⟩
  lt_nextId := by
    intro row hrow
    rcases List.mem_append.1 hrow with hrow | hrow
    · have hlt := u.lt_nextId row hrow
      omega
    · rw [List.mem_singleton.1 hrow]
      exact Nat.lt_succ_self _

/-- `update_password`. -/
def updatePassword (username passwordHash : String) : UserTable where
  rows := u.rows.map fun row =>
    if row.username = username then { row with passwordHash := passwordHash } else row
  nextId := u.nextId
  id_nodup := by
    have hids : (fun row : UserRow => (if row.username = username then
        { row with passwordHash := passwordHash } else row).id) = (·.id) :=
      funext fun row => by split_ifs <;> rfl
    simpa only [List.map_map, Function.comp_def, hids] using u.id_nodup
  username_nodup := by
    have hnames : (fun row : UserRow => (if row.username = username then
        { row with passwordHash := passwordHash } else row).username) = (·.username) :=
      funext fun row => by split_ifs <;> rfl
    simpa only [List.map_map, Function.comp_def, hnames] using u.username_nodup
  lt_nextId := by
    intro row hrow
    obtain ⟨old, hold, rfl⟩ := List.mem_map.1 hrow
    split_ifs
    · exact u.lt_nextId old hold
    · exact u.lt_nextId old hold

end UserTable

namespace TokenTable

def empty : TokenTable where
  rows := []
  nextToken := 0
  token_nodup := List.nodup_nil
  lt_nextToken := by simp

variable (t : TokenTable)

/-- The row that `create_refresh_token` inserts. -/
def insert (userId : ℕ) (expiresAt : ℤ) : TokenTable where
  rows := t.rows ++
    [{ userId := userId, token := t.nextToken, expiresAt := expiresAt, revoked := false }]
  nextToken := t.nextToken + 1
  token_nodup := by
    rw [List.map_append, List.nodup_append_comm]
    refine List.nodup_cons.2 ⟨fun hmem => ?_, t.token_nodup⟩
    obtain ⟨row, hrow, heq⟩ := List.mem_map.1 hmem
    exact absurd heq (t.lt_nextToken row hrow).ne
  lt_nextToken := by
    intro row hrow
    rcases List.mem_append.1 hrow with hrow | hrow
    · have hlt := t.lt_nextToken row hrow
      omega
    · rw [List.mem_singleton.1 hrow]
      exact Nat.lt_succ_self _

/-- An update of the columns `expires_at` and `revoked`. -/
def update (set : TokenRow → TokenRow)
    (h : ∀ row, (set row).token = row.token ∧ (set row).userId = row.userId) : TokenTable where
  rows := t.rows.map set
  nextToken := t.nextToken
  token_nodup := by
    have htokens : (fun row => (set row).token) = (·.token) := funext fun row => (h row).1
    simpa only [List.map_map, Function.comp_def, htokens] using t.token_nodup
  lt_nextToken := by
    intro row hrow
    obtain ⟨old, hold, rfl⟩ := List.mem_map.1 hrow
    rw [(h old).1]
    exact t.lt_nextToken old hold

/-- `retire_refresh_token`, with the end of the grace window. -/
def retire (raw : ℕ) (cutoff : ℤ) : TokenTable :=
  t.update (fun row =>
    if row.token = raw ∧ cutoff < row.expiresAt then { row with expiresAt := cutoff } else row)
    fun row => by split_ifs <;> exact ⟨rfl, rfl⟩

/-- `revoke_refresh_token`. -/
def revoke (raw : ℕ) : TokenTable :=
  t.update (fun row => if row.token = raw then { row with revoked := true } else row)
    fun row => by split_ifs <;> exact ⟨rfl, rfl⟩

/-- The `UPDATE` of `revoke_all_refresh_tokens`. -/
def revokeAll (userId : ℕ) : TokenTable :=
  t.update (fun row =>
    if row.userId = userId ∧ row.revoked = false then { row with revoked := true } else row)
    fun row => by split_ifs <;> exact ⟨rfl, rfl⟩

end TokenTable

/-! ### The requests -/

/-- `hash_password` and `verify_password`. -/
structure Passwords where
  hash : String → String
  verify : String → String → Bool

/-- The requests that read or write the tables. -/
inductive AuthCall
  | setup (username password : String)
  | login (username password : String)
  | refresh (raw : ℕ)
  | logoutAll (username : String)
  | changePassword (username currentPassword newPassword : String)
  deriving DecidableEq, Repr

/-- How far a request has come. -/
inductive AuthStage
  | begun
  /-- The setup has seen that no user exists. -/
  | checked
  /-- The rate limiter has let the request pass. -/
  | allowed
  | found (user : Option UserRow)
  | verified (username : String)
  | updated
  /-- The setup has inserted its user. -/
  | inserted
  | revoked
  | minted
  | done
  deriving DecidableEq, Repr

/-- A request, and the tokens that it must end. -/
structure AuthRequest where
  call : AuthCall
  stage : AuthStage
  stale : List ℕ
  deriving DecidableEq, Repr

/-- What a step of a request leaves: the tables, its stage, unless it ends without an answer, and
the token that replaces another one. -/
structure Progress where
  users : UserTable
  tokens : TokenTable
  stage : Option AuthStage
  heir : Option (ℕ × ℕ) := none

/-- A token that replaces one that must end must end as well. -/
def AuthRequest.inherit (req : AuthRequest) (heir : Option (ℕ × ℕ)) : AuthRequest :=
  match heir with
  | some (raw, token) => if raw ∈ req.stale then { req with stale := token :: req.stale } else req
  | none => req

/-- The time, the tables, and the requests. -/
structure AccountState where
  now : ℤ
  users : UserTable
  tokens : TokenTable
  requests : ℕ → Option AuthRequest

inductive AuthAction
  | tick (now : ℤ)
  | begin (r : ℕ) (call : AuthCall)
  /-- The next step of a request; the rate limiter may block it. -/
  | advance (r : ℕ) (blocked : Bool)
  /-- An exception or a cancellation ends the request. -/
  | fail (r : ℕ)
  /-- `logout`. -/
  | logout (raw : ℕ)

namespace AccountState

/-- `REFRESH_TOKEN_EXPIRE_DAYS`, in microseconds. -/
def refreshLifetime : ℤ := 30 * 86400000000

/-- `grace_seconds`, in microseconds. -/
def graceWindow : ℤ := 60000000

/-- `verify_refresh_token`. -/
def verifyRefreshToken (s : AccountState) (raw : ℕ) : Option String :=
  match s.tokens.rows.find? (·.token = raw) with
  | none => none
  | some row =>
      match s.users.rows.find? (·.id = row.userId) with
      | none => none
      | some user =>
          if row.revoked then none else if row.expiresAt < s.now then none else some user.username

/-- The tokens of a user. -/
def tokensOf (s : AccountState) (username : String) : List ℕ :=
  match s.users.find username with
  | none => []
  | some user => (s.tokens.rows.filter (·.userId = user.id)).map (·.token)

/-- The tokens that a request must end are those that exist when it starts. -/
def staleAt (s : AccountState) : AuthCall → List ℕ
  | .logoutAll username | .changePassword username .. => s.tokensOf username
  | _ => []

/-- A step that writes nothing. -/
def stay (s : AccountState) (stage : Option AuthStage) : Progress where
  users := s.users
  tokens := s.tokens
  stage := stage

/-- `create_refresh_token`, in place of another token or not; it raises `ValueError` when there is
no such user. -/
def mint (s : AccountState) (username : String) (raw : Option ℕ) (stage : AuthStage) : Progress :=
  match s.users.find username with
  | none => s.stay none
  | some user =>
      { users := s.users
        tokens := s.tokens.insert user.id (s.now + refreshLifetime)
        stage := some stage
        heir := raw.map fun raw => (raw, s.tokens.nextToken) }

/-- `revoke_all_refresh_tokens`. -/
def revokeAll (s : AccountState) (username : String) (stage : AuthStage) : Progress :=
  match s.users.find username with
  | none => s.stay (some stage)
  | some user => { s.stay (some stage) with tokens := s.tokens.revokeAll user.id }

variable (pw : Passwords)

/-- The next step of a request. -/
def progress (s : AccountState) (blocked : Bool) : AuthCall → AuthStage → Option Progress
  | .setup .., .begun => some (s.stay (if s.users.rows = [] then some .checked else none))
  | .setup .., .checked => some (s.stay (if blocked then none else some .allowed))
  | .setup username password, .allowed =>
      if h : username ∉ s.users.rows.map (·.username) then
        some { s.stay (some .inserted) with users := s.users.insert username (pw.hash password) h }
      else some (s.stay none)
  | .setup username _, .inserted => some (s.mint username none .done)
  | .login .., .begun => some (s.stay (if blocked then none else some .allowed))
  | .login username _, .allowed => some (s.stay (some (.found (s.users.find username))))
  | .login _ password, .found (some user) =>
      some (s.stay
        (if pw.verify password user.passwordHash then some (.verified user.username) else none))
  | .login .., .found none => some (s.stay none)
  | .login .., .verified username => some (s.mint username none .done)
  | .refresh _, .begun => some (s.stay (if blocked then none else some .allowed))
  | .refresh raw, .allowed => some (s.stay ((s.verifyRefreshToken raw).map .verified))
  | .refresh raw, .verified username => some (s.mint username (some raw) .minted)
  | .refresh raw, .minted =>
      some { s.stay (some .done) with tokens := s.tokens.retire raw (s.now + graceWindow) }
  | .logoutAll username, .begun => some (s.revokeAll username .done)
  | .changePassword username .., .begun => some (s.stay (some (.found (s.users.find username))))
  | .changePassword username currentPassword _, .found (some user) =>
      some (s.stay
        (if pw.verify currentPassword user.passwordHash then some (.verified username) else none))
  | .changePassword .., .found none => some (s.stay none)
  | .changePassword _ _ newPassword, .verified username =>
      some { s.stay (some .updated) with
        users := s.users.updatePassword username (pw.hash newPassword) }
  | .changePassword username .., .updated => some (s.revokeAll username .revoked)
  | .changePassword username .., .revoked => some (s.mint username none .done)
  | _, _ => none

/-- The state after a step of a request. -/
def advance (s : AccountState) (r : ℕ) (req : AuthRequest) (p : Progress) : AccountState :=
  { s with
    users := p.users
    tokens := p.tokens
    requests := Function.update (fun r => (s.requests r).map (·.inherit p.heir)) r
      (p.stage.map fun stage => { req.inherit p.heir with stage := stage }) }

/-- The step function. -/
def step (s : AccountState) : AuthAction → Option AccountState
  | .tick now => if s.now ≤ now then some { s with now := now } else none
  | .begin r call =>
      match s.requests r with
      | some _ => none
      | none =>
          some { s with
            requests := Function.update s.requests r
              (some { call := call, stage := .begun, stale := s.staleAt call }) }
  | .advance r blocked =>
      match s.requests r with
      | some req => (s.progress pw blocked req.call req.stage).map (s.advance r req)
      | none => none
  | .fail r => some { s with requests := Function.update s.requests r none }
  | .logout raw => some { s with tokens := s.tokens.revoke raw }

/-- No request is running. -/
def start (now : ℤ) (users : UserTable) (tokens : TokenTable) : AccountState where
  now := now
  users := users
  tokens := tokens
  requests _ := none

end AccountState

/-! ### The setup -/

/-- A setup that has inserted its user. -/
def AuthRequest.hasInserted (req : AuthRequest) : Bool :=
  match req.call, req.stage with
  | .setup .., .inserted | .setup .., .done => true
  | _, _ => false

/-- A setup that is answered with tokens. -/
def AuthRequest.isSetUp (req : AuthRequest) : Bool :=
  match req.call, req.stage with
  | .setup .., .done => true
  | _, _ => false

namespace AccountState

/-- A setup inserts its user while `user_exists` would still answer no, or its name is taken. -/
def StillEmpty (s : AccountState) : AuthAction → Prop
  | .advance r _ => ∀ username password stale,
      s.requests r = some ⟨.setup username password, .allowed, stale⟩ →
        s.users.rows = [] ∨ username ∈ s.users.rows.map (·.username)
  | _ => True

/-- There is one user at most, and one setup that is answered with tokens. -/
structure SetUpOnce (s : AccountState) : Prop where
  one_user : s.users.rows.length ≤ 1
  one_answer : ∀ r r' req req', s.requests r = some req → s.requests r' = some req' →
    req.isSetUp = true → req'.isSetUp = true → r = r'

/-- What holds in every run: a setup that has inserted its user is the only one. -/
structure SetupInvariant (s : AccountState) : Prop where
  one_user : s.users.rows.length ≤ 1
  user : ∀ r req, s.requests r = some req → req.hasInserted = true → s.users.rows ≠ []
  alone : ∀ r r' req req', s.requests r = some req → s.requests r' = some req' →
    req.hasInserted = true → req'.hasInserted = true → r = r'

section Setup

variable {pw : Passwords} {s t : AccountState} {r : ℕ}

@[simp] theorem users_stay {stage : Option AuthStage} : (s.stay stage).users = s.users := rfl

@[simp] theorem users_mint {username : String} {raw : Option ℕ} {stage : AuthStage} :
    (s.mint username raw stage).users = s.users := by
  rw [mint]
  split <;> rfl

@[simp] theorem users_revokeAll {username : String} {stage : AuthStage} :
    (s.revokeAll username stage).users = s.users := by
  rw [revokeAll]
  split <;> rfl

/-- The requests after a step of one. -/
theorem requests_advance {req : AuthRequest} {p : Progress} {r' : ℕ} :
    (s.advance r req p).requests r' =
      if r' = r then p.stage.map fun stage => { req.inherit p.heir with stage := stage }
      else (s.requests r').map (·.inherit p.heir) := by
  simp only [advance, Function.update_apply]

/-- What is read of a request is not changed by another one's token. -/
theorem inherit_eq {req : AuthRequest} {heir : Option (ℕ × ℕ)} :
    (req.inherit heir).call = req.call ∧ (req.inherit heir).stage = req.stage := by
  cases heir with
  | none => exact ⟨rfl, rfl⟩
  | some heir =>
      simp only [AuthRequest.inherit]
      split_ifs <;> exact ⟨rfl, rfl⟩

theorem hasInserted_congr {req req' : AuthRequest} (hcall : req.call = req'.call)
    (hstage : req.stage = req'.stage) : req.hasInserted = req'.hasInserted := by
  simp only [AuthRequest.hasInserted, hcall, hstage]

/-- A step inserts a user, or it leaves their number alone and no setup has inserted its user by it.
-/
theorem progress_cases {blocked : Bool} {call : AuthCall} {stage : AuthStage} {p : Progress}
    (h : s.progress pw blocked call stage = some p) :
    (∃ username password, call = .setup username password ∧ stage = .allowed ∧
      username ∉ s.users.rows.map (·.username) ∧ p.users.rows.length = s.users.rows.length + 1) ∨
    p.users.rows.length = s.users.rows.length ∧ ∀ stage' stale, p.stage = some stage' →
      AuthRequest.hasInserted ⟨call, stage', stale⟩ = true →
        AuthRequest.hasInserted ⟨call, stage, stale⟩ = true := by
  rw [progress.eq_def] at h
  split at h
  case h_3 username password =>
    split_ifs at h with hname
    · obtain rfl := Option.some.inj h
      exact .inr ⟨rfl, nofun⟩
    · obtain rfl := Option.some.inj h
      exact .inl ⟨username, password, rfl, rfl, hname, by simp [UserTable.insert]⟩
  case h_1 | h_2 =>
    -- the first steps of a setup
    obtain rfl := Option.some.inj h
    refine .inr ⟨rfl, fun stage' stale hstage hinserted => ?_⟩
    simp only [stay] at hstage
    split_ifs at hstage
    obtain rfl := Option.some.inj hstage
    cases hinserted
  case h_4 =>
    obtain rfl := Option.some.inj h
    exact .inr ⟨by rw [users_mint], fun _ _ _ _ => rfl⟩
  all_goals
    -- the other requests
    cases h <;> exact .inr ⟨by simp [UserTable.updatePassword], fun _ _ _ hinserted => by
      simp [AuthRequest.hasInserted] at hinserted⟩

/-- What one step preserves. -/
theorem setupInvariant_step {a : AuthAction} (h : s.SetupInvariant) (hok : s.StillEmpty a)
    (hstep : s.step pw a = some t) : t.SetupInvariant := by
  -- requests that come from earlier ones, with the same number of users
  have hkeep : t.users.rows.length = s.users.rows.length →
      (∀ r req, t.requests r = some req → req.hasInserted = true →
        ∃ old, s.requests r = some old ∧ old.hasInserted = true) → t.SetupInvariant := by
    intro hlength hback
    refine ⟨hlength ▸ h.one_user, ?_, ?_⟩
    · intro r req hreq hinserted hempty
      obtain ⟨old, hold, hinserted'⟩ := hback r req hreq hinserted
      refine h.user r old hold hinserted' (List.eq_nil_of_length_eq_zero ?_)
      rw [← hlength, hempty, List.length_nil]
    · intro r r' req req' hreq hreq' hinserted hinserted'
      obtain ⟨old, hold, hold₁⟩ := hback r req hreq hinserted
      obtain ⟨old', hold', hold₂⟩ := hback r' req' hreq' hinserted'
      exact h.alone r r' old old' hold hold' hold₁ hold₂
  cases a with
  | tick now =>
      simp only [step] at hstep
      split_ifs at hstep
      obtain rfl := Option.some.inj hstep
      exact hkeep rfl fun r req hreq hinserted => ⟨req, hreq, hinserted⟩
  | begin r call =>
      simp only [step] at hstep
      split at hstep
      · cases hstep
      · obtain rfl := Option.some.inj hstep
        refine hkeep rfl fun r' req hreq hinserted => ?_
        by_cases hr : r' = r
        · subst hr
          simp only [Function.update_self, Option.some.injEq] at hreq
          subst hreq
          cases call <;> cases hinserted
        · exact ⟨req, by simpa only [Function.update_of_ne hr] using hreq, hinserted⟩
  | fail r =>
      obtain rfl := Option.some.inj hstep
      refine hkeep rfl fun r' req hreq hinserted => ?_
      by_cases hr : r' = r
      · subst hr
        simp at hreq
      · exact ⟨req, by simpa only [Function.update_of_ne hr] using hreq, hinserted⟩
  | logout raw =>
      obtain rfl := Option.some.inj hstep
      exact hkeep rfl fun r req hreq hinserted => ⟨req, hreq, hinserted⟩
  | advance r blocked =>
      simp only [step] at hstep
      split at hstep
      · next req hreq =>
          obtain ⟨p, hp, rfl⟩ := Option.map_eq_some_iff.1 hstep
          -- a request other than this one
          have hother : ∀ r' req', r' ≠ r → (s.advance r req p).requests r' = some req' →
              req'.hasInserted = true →
                ∃ old, s.requests r' = some old ∧ old.hasInserted = true := by
            intro r' req' hr hreq' hinserted
            rw [requests_advance, if_neg hr] at hreq'
            obtain ⟨old, hold, rfl⟩ := Option.map_eq_some_iff.1 hreq'
            rw [hasInserted_congr inherit_eq.1 inherit_eq.2] at hinserted
            exact ⟨old, hold, hinserted⟩
          rcases progress_cases hp with
            ⟨username, password, hcall, hstage, hname, hlength⟩ | ⟨hlength, hback⟩
          · -- the insertion: the table was empty, so no other setup had come that far
            have hempty : s.users.rows = [] := by
              refine (hok username password req.stale ?_).resolve_right hname
              rw [hreq, ← hcall, ← hstage]
            have hnone : ∀ r' req', r' ≠ r → (s.advance r req p).requests r' = some req' →
                req'.hasInserted = true → False := by
              intro r' req' hr hreq' hinserted
              obtain ⟨old, hold, hinserted'⟩ := hother r' req' hr hreq' hinserted
              exact h.user r' old hold hinserted' hempty
            have hone : (s.advance r req p).users.rows.length = 1 := by
              rw [advance, hlength, hempty, List.length_nil]
            refine ⟨hone.le, ?_, ?_⟩
            · intro _ _ _ _ hnil
              rw [hnil, List.length_nil] at hone
              cases hone
            · intro r₁ r₂ req₁ req₂ hreq₁ hreq₂ hins₁ hins₂
              have h₁ : r₁ = r := by
                by_contra hne
                exact hnone r₁ req₁ hne hreq₁ hins₁
              have h₂ : r₂ = r := by
                by_contra hne
                exact hnone r₂ req₂ hne hreq₂ hins₂
              rw [h₁, h₂]
          · refine hkeep hlength fun r' req' hreq' hinserted => ?_
            by_cases hr : r' = r
            · subst hr
              rw [requests_advance, if_pos rfl] at hreq'
              obtain ⟨stage', hstage', rfl⟩ := Option.map_eq_some_iff.1 hreq'
              have hcall : (req.inherit p.heir).call = req.call := inherit_eq.1
              refine ⟨req, hreq, hback stage' req.stale hstage' ?_⟩
              rw [← hinserted]
              exact hasInserted_congr hcall.symm rfl
            · exact hother r' req' hr hreq' hinserted
      · cases hstep

theorem setupInvariant_start {now : ℤ} {users : UserTable} {tokens : TokenTable}
    (hempty : users.rows = []) : (start now users tokens).SetupInvariant where
  one_user := by simp [start, hempty]
  user _ _ hreq := nomatch hreq
  alone _ _ _ _ hreq := nomatch hreq

theorem hasInserted_of_isSetUp {req : AuthRequest} (h : req.isSetUp = true) :
    req.hasInserted = true := by
  obtain ⟨call, stage, stale⟩ := req
  cases call <;> cases stage <;> first | rfl | cases h

/-- **One user and one answer with tokens**: from an empty table, in any run in which no setup
inserts its user after another one. -/
theorem setUpOnce_of_run {now : ℤ} {users : UserTable} {tokens : TokenTable} {as : List AuthAction}
    (hempty : users.rows = [])
    (hrun : GuardedRun (step pw) StillEmpty (start now users tokens) as s) :
    s.SetUpOnce := by
  have hinv : s.SetupInvariant :=
    hrun.invariant (setupInvariant_start hempty) fun _ _ _ h hok hstep =>
      setupInvariant_step h hok hstep
  refine ⟨hinv.one_user, fun r r' req req' hreq hreq' hdone hdone' => ?_⟩
  exact hinv.alone r r' req req' hreq hreq' (hasInserted_of_isSetUp hdone)
    (hasInserted_of_isSetUp hdone')

theorem stillEmpty_of_empty {a : AuthAction} (hempty : s.users.rows = []) : s.StillEmpty a := by
  cases a with
  | advance r blocked => exact fun _ _ _ _ => .inl hempty
  | _ => trivial

/-- Passwords that are stored as they are. -/
def plainPasswords : Passwords where
  hash := id
  verify password hash := password = hash

/-- Two setups that both find no user, and ask for the same name: one is refused by the table. -/
theorem setUpOnce_of_run_admin :
    ∃ s, GuardedRun (step plainPasswords) StillEmpty (start 0 .empty .empty)
      [.begin 0 (.setup "admin" "correct horse"), .begin 1 (.setup "admin" "battery staple"),
        .advance 0 false, .advance 1 false, .advance 0 false, .advance 1 false, .advance 0 false,
        .advance 1 false, .advance 0 false] s ∧
      s.users.rows.length = 1 ∧ s.SetUpOnce := by
  have hrun : ∃ s, GuardedRun (step plainPasswords) StillEmpty (start 0 .empty .empty)
      [.begin 0 (.setup "admin" "correct horse"), .begin 1 (.setup "admin" "battery staple"),
        .advance 0 false, .advance 1 false, .advance 0 false, .advance 1 false, .advance 0 false,
        .advance 1 false, .advance 0 false] s ∧ s.users.rows.length = 1 := by
    have hboth : GuardedRun (step plainPasswords) StillEmpty (start 0 .empty .empty)
        [.begin 0 (.setup "admin" "correct horse"), .begin 1 (.setup "admin" "battery staple"),
          .advance 0 false, .advance 1 false, .advance 0 false, .advance 1 false,
          .advance 0 false] _ :=
      .cons trivial rfl (.cons trivial rfl (.cons (stillEmpty_of_empty rfl) rfl
        (.cons (stillEmpty_of_empty rfl) rfl (.cons (stillEmpty_of_empty rfl) rfl
          (.cons (stillEmpty_of_empty rfl) rfl (.cons (stillEmpty_of_empty rfl) rfl .nil))))))
    refine ⟨_, .snoc (.snoc hboth ?_ rfl) ?_ rfl, rfl⟩
    · intro username _ _ hreq
      cases hreq
      exact .inr (List.mem_singleton_self _)
    · intro _ _ _ hreq
      cases hreq
  obtain ⟨s, hrun, hone⟩ := hrun
  exact ⟨s, hrun, hone, setUpOnce_of_run rfl hrun⟩

/-- Two setups in step with each other. -/
def twoSetups : List AuthAction :=
  [.begin 0 (.setup "admin" "correct horse"), .begin 1 (.setup "intruder" "battery staple"),
    .advance 0 false, .advance 1 false, .advance 0 false, .advance 1 false, .advance 0 false,
    .advance 1 false, .advance 0 false, .advance 1 false]

theorem isSome_runAll_twoSetups :
    (runAll (step plainPasswords) (start 0 .empty .empty) twoSetups).isSome = true := by
  decide +kernel

/-- Two setups with different names that both find no user insert one each. -/
theorem not_setUpOnce_twoSetups :
    ¬ ∀ (pw : Passwords) now (users : UserTable) tokens as s, users.rows = [] →
      GuardedRun (step pw) (fun _ _ => True) (start now users tokens) as s → s.SetUpOnce := by
  intro hclaim
  have hone := (hclaim _ _ _ _ _ _ rfl
    (GuardedRun.of_runAll (Option.some_get isSome_runAll_twoSetups).symm)).one_user
  have htwo : (Option.get _ isSome_runAll_twoSetups).users.rows.length = 2 := by decide +kernel
  rw [htwo] at hone
  exact absurd hone (by decide)

end Setup

end AccountState

end Hygie
