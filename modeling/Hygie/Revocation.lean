/-
**Ending all sessions of a user.**

A request that changes a password, or that logs a user out everywhere, marks the refresh tokens that
are in the table at one instant.  A refresh verifies a token, inserts a new one, and shortens the
life of the old one, in three transactions: a new token that is inserted after that instant, in
place of a token that was verified before it, is marked by nobody.

Main definitions:

* `AccountState.Timely` — a refresh does not insert a token in place of one that was revoked
  meanwhile;
* `AccountState.RevocationComplete` — the law: when such a request has returned, no token that it
  must end is accepted.

Main results:

* `AccountState.revocationInvariant_step` — what one step preserves;
* `AccountState.revocationComplete_of_run` — **revocation is complete** in any run of timely
  refreshes.
-/

import Hygie.Accounts

set_option relaxedAutoImplicit false
set_option autoImplicit false

namespace Hygie

/-- The user whose tokens a request revokes. -/
def AuthCall.revoker : AuthCall → Option String
  | .logoutAll username | .changePassword username .. => some username
  | _ => none

/-- A request has revoked the tokens. -/
def AuthStage.hasRevoked : AuthStage → Bool
  | .revoked | .done => true
  | _ => false

namespace AccountState

/-- A refresh inserts no token in place of one that a request has revoked. -/
def Timely (s : AccountState) : AuthAction → Prop
  | .advance q _ => ∀ raw username stale,
      s.requests q = some ⟨.refresh raw, .verified username, stale⟩ →
        ∀ r req, s.requests r = some req → req.stage.hasRevoked = true → raw ∉ req.stale
  | _ => True

/-- When a request that revokes tokens has returned, those that existed when it started are not
accepted, nor those that replaced one of them. -/
def RevocationComplete (s : AccountState) : Prop :=
  ∀ r req, s.requests r = some req → req.stage = .done →
    ∀ token ∈ req.stale, s.verifyRefreshToken token = none

/-! ### The tokens of a user -/

/-- A token is in the table, and belongs to the user. -/
def Owns (users : UserTable) (tokens : TokenTable) (username : String) (token : ℕ) : Prop :=
  ∃ row ∈ tokens.rows, row.token = token ∧ ∃ user ∈ users.rows, user.username = username ∧
    user.id = row.userId

/-- A token is marked. -/
def Revoked (tokens : TokenTable) (token : ℕ) : Prop :=
  ∃ row ∈ tokens.rows, row.token = token ∧ row.revoked = true

section Tables

variable {users : UserTable} {tokens : TokenTable} {username : String} {token : ℕ}

/-- A token belongs to one user. -/
theorem Owns.unique {other : String} (h : Owns users tokens username token)
    (h' : Owns users tokens other token) : username = other := by
  obtain ⟨row, hrow, htoken, user, huser, rfl, hid⟩ := h
  obtain ⟨row', hrow', htoken', user', huser', rfl, hid'⟩ := h'
  obtain rfl := List.inj_on_of_nodup_map tokens.token_nodup hrow hrow' (htoken.trans htoken'.symm)
  obtain rfl := List.inj_on_of_nodup_map users.id_nodup huser huser' (hid.trans hid'.symm)
  rfl

theorem Owns.insertUser {name hash : String} (h : Owns users tokens username token)
    (hname : name ∉ users.rows.map (·.username)) :
    Owns (users.insert name hash hname) tokens username token := by
  obtain ⟨row, hrow, htoken, user, huser, hrest⟩ := h
  exact ⟨row, hrow, htoken, user, List.mem_append_left _ huser, hrest⟩

theorem Owns.updatePassword {name hash : String} (h : Owns users tokens username token) :
    Owns (users.updatePassword name hash) tokens username token := by
  obtain ⟨row, hrow, htoken, user, huser, hname, hid⟩ := h
  refine ⟨row, hrow, htoken, _, List.mem_map_of_mem huser, ?_, ?_⟩
  · split_ifs <;> exact hname
  · split_ifs <;> exact hid

theorem Owns.insertToken {userId : ℕ} {expiresAt : ℤ} (h : Owns users tokens username token) :
    Owns users (tokens.insert userId expiresAt) username token := by
  obtain ⟨row, hrow, hrest⟩ := h
  exact ⟨row, List.mem_append_left _ hrow, hrest⟩

theorem Owns.update {set : TokenRow → TokenRow} (h : Owns users tokens username token)
    (hset : ∀ row, (set row).token = row.token ∧ (set row).userId = row.userId) :
    Owns users (tokens.update set hset) username token := by
  obtain ⟨row, hrow, htoken, user, huser, hname, hid⟩ := h
  exact ⟨set row, List.mem_map_of_mem hrow, (hset row).1.trans htoken, user, huser, hname,
    hid.trans (hset row).2.symm⟩

theorem Revoked.insertToken {userId : ℕ} {expiresAt : ℤ} (h : Revoked tokens token) :
    Revoked (tokens.insert userId expiresAt) token := by
  obtain ⟨row, hrow, hrest⟩ := h
  exact ⟨row, List.mem_append_left _ hrow, hrest⟩

/-- An update that takes no mark away. -/
theorem Revoked.update {set : TokenRow → TokenRow} (h : Revoked tokens token)
    (hset : ∀ row, (set row).token = row.token ∧ (set row).userId = row.userId)
    (hmark : ∀ row, row.revoked = true → (set row).revoked = true) :
    Revoked (tokens.update set hset) token := by
  obtain ⟨row, hrow, htoken, hrevoked⟩ := h
  exact ⟨set row, List.mem_map_of_mem hrow, (hset row).1.trans htoken, hmark row hrevoked⟩

theorem Owns.retire {raw : ℕ} {cutoff : ℤ} (h : Owns users tokens username token) :
    Owns users (tokens.retire raw cutoff) username token :=
  h.update fun row => by split_ifs <;> exact ⟨rfl, rfl⟩

theorem Owns.revoke {raw : ℕ} (h : Owns users tokens username token) :
    Owns users (tokens.revoke raw) username token :=
  h.update fun row => by split_ifs <;> exact ⟨rfl, rfl⟩

theorem Owns.revokeAll {userId : ℕ} (h : Owns users tokens username token) :
    Owns users (tokens.revokeAll userId) username token :=
  h.update fun row => by split_ifs <;> exact ⟨rfl, rfl⟩

theorem Revoked.retire {raw : ℕ} {cutoff : ℤ} (h : Revoked tokens token) :
    Revoked (tokens.retire raw cutoff) token := by
  refine h.update (fun row => by split_ifs <;> exact ⟨rfl, rfl⟩) fun row hrow => ?_
  split_ifs <;> exact hrow

theorem Revoked.revoke {raw : ℕ} (h : Revoked tokens token) :
    Revoked (tokens.revoke raw) token := by
  refine h.update (fun row => by split_ifs <;> exact ⟨rfl, rfl⟩) fun row hrow => ?_
  split_ifs
  · rfl
  · exact hrow

theorem Revoked.revokeAll {userId : ℕ} (h : Revoked tokens token) :
    Revoked (tokens.revokeAll userId) token := by
  refine h.update (fun row => by split_ifs <;> exact ⟨rfl, rfl⟩) fun row hrow => ?_
  split_ifs
  · rfl
  · exact hrow

/-- All tokens of the user are marked. -/
theorem revoked_revokeAll {user : UserRow} (huser : user ∈ users.rows)
    (h : Owns users tokens user.username token) : Revoked (tokens.revokeAll user.id) token := by
  obtain ⟨row, hrow, htoken, other, hother, hname, hid⟩ := h
  obtain rfl := List.inj_on_of_nodup_map users.username_nodup huser hother hname.symm
  refine ⟨_, List.mem_map_of_mem hrow, ?_, ?_⟩
  · split_ifs <;> exact htoken
  · cases hrevoked : row.revoked <;> simp [hid, hrevoked]

end Tables

section Steps

variable {pw : Passwords} {s t : AccountState} {call : AuthCall} {stage stage' : AuthStage}
  {blocked : Bool}
  {p : Progress} {username : String} {token raw : ℕ}

theorem mem_of_find {users : UserTable} {user : UserRow} (h : users.find username = some user) :
    user ∈ users.rows ∧ user.username = username :=
  ⟨List.mem_of_find?_eq_some h, by simpa using List.find?_some h⟩

/-- What is accepted belongs to the user that is found. -/
theorem owns_of_verify (h : s.verifyRefreshToken raw = some username) :
    Owns s.users s.tokens username raw := by
  rw [verifyRefreshToken] at h
  split at h
  · cases h
  · next row hrow =>
      split at h
      · cases h
      · next user huser =>
          split_ifs at h
          obtain rfl := Option.some.inj h
          exact ⟨row, List.mem_of_find?_eq_some hrow, by simpa using List.find?_some hrow, user,
            List.mem_of_find?_eq_some huser, rfl, by simpa using List.find?_some huser⟩

/-- What is marked is not accepted. -/
theorem verify_of_revoked (h : Revoked s.tokens token) : s.verifyRefreshToken token = none := by
  obtain ⟨row, hrow, htoken, hrevoked⟩ := h
  rw [verifyRefreshToken]
  split
  · rfl
  · next found hfound =>
      have hsame : found.token = row.token := by
        rw [htoken]
        simpa using List.find?_some hfound
      obtain rfl := List.inj_on_of_nodup_map s.tokens.token_nodup
        (List.mem_of_find?_eq_some hfound) hrow hsame
      split
      · rfl
      · rw [if_pos hrevoked]

/-- A step of a request takes no token away from its user, and no mark from a token. -/
theorem progress_mono (h : s.progress pw blocked call stage = some p) :
    (∀ username token, Owns s.users s.tokens username token →
      Owns p.users p.tokens username token) ∧
      ∀ token, Revoked s.tokens token → Revoked p.tokens token := by
  have hmint : ∀ username raw stage,
      (∀ name token, Owns s.users s.tokens name token →
        Owns (s.mint username raw stage).users (s.mint username raw stage).tokens name token) ∧
      ∀ token, Revoked s.tokens token → Revoked (s.mint username raw stage).tokens token := by
    intro username raw stage
    rw [mint]
    split
    · exact ⟨fun _ _ h => h, fun _ h => h⟩
    · exact ⟨fun _ _ h => h.insertToken, fun _ h => h.insertToken⟩
  have hrevoke : ∀ username stage,
      (∀ name token, Owns s.users s.tokens name token →
        Owns (s.revokeAll username stage).users (s.revokeAll username stage).tokens name token) ∧
      ∀ token, Revoked s.tokens token → Revoked (s.revokeAll username stage).tokens token := by
    intro username stage
    rw [revokeAll]
    split
    · exact ⟨fun _ _ h => h, fun _ h => h⟩
    · exact ⟨fun _ _ h => h.revokeAll, fun _ h => h.revokeAll⟩
  rw [progress.eq_def] at h
  split at h
  case h_3 name password =>
    split_ifs at h with hname
    · obtain rfl := Option.some.inj h
      exact ⟨fun _ _ h => h, fun _ h => h⟩
    · obtain rfl := Option.some.inj h
      exact ⟨fun _ _ h => h.insertUser hname, fun _ h => h⟩
  all_goals
    cases h <;> first
    | exact ⟨fun _ _ h => h, fun _ h => h⟩
    | exact hmint _ _ _
    | exact hrevoke _ _
    | exact ⟨fun _ _ h => h.updatePassword, fun _ h => h⟩
    | exact ⟨fun _ _ h => h.retire, fun _ h => h.retire⟩

/-- The token that replaces another one belongs to the user that the refresh has verified. -/
theorem progress_heir (h : s.progress pw blocked call stage = some p)
    (hheir : p.heir = some (raw, token)) :
    ∃ username, call = .refresh raw ∧ stage = .verified username ∧
      Owns p.users p.tokens username token := by
  have hmint : ∀ username stage, (s.mint username none stage).heir = none := by
    intro username stage
    rw [mint]
    split <;> rfl
  have hrevoke : ∀ username stage, (s.revokeAll username stage).heir = none := by
    intro username stage
    rw [revokeAll]
    split <;> rfl
  rw [progress.eq_def] at h
  split at h
  case h_3 name password =>
    split_ifs at h <;> (obtain rfl := Option.some.inj h; cases hheir)
  case h_12 old name =>
    obtain rfl := Option.some.inj h
    rw [mint] at hheir ⊢
    split at hheir
    · cases hheir
    · next user huser =>
        obtain ⟨hmem, hname⟩ := mem_of_find huser
        obtain ⟨rfl, rfl⟩ := Prod.mk.inj (Option.some.inj hheir)
        exact ⟨name, rfl, rfl, _, List.mem_append_right _ (List.mem_singleton_self _), rfl,
          user, hmem, hname, rfl⟩
  all_goals
    cases h <;> first
    | cases hheir
    | (rw [hmint] at hheir; cases hheir)
    | (rw [hrevoke] at hheir; cases hheir)

/-- When a request has revoked the tokens, those of its user are marked. -/
theorem progress_revokes (h : s.progress pw blocked call stage = some p)
    (hcall : call.revoker = some username) (hstage : p.stage = some stage')
    (hrevoked : stage'.hasRevoked = true) (hbefore : stage.hasRevoked = false)
    (howns : Owns s.users s.tokens username token) : Revoked p.tokens token := by
  have hall : ∀ stage, Revoked (s.revokeAll username stage).tokens token := by
    intro stage
    obtain ⟨row, hrow, htoken, user, huser, hname, hid⟩ := howns
    rw [revokeAll]
    split
    · next hnone => exact absurd (List.find?_eq_none.1 hnone user huser) (by simpa using hname)
    · next found hfound =>
        obtain ⟨hmem, hname'⟩ := mem_of_find hfound
        exact revoked_revokeAll hmem ⟨row, hrow, htoken, user, huser, hname.trans hname'.symm, hid⟩
  -- only these two calls revoke, and each does so in one of its steps
  cases call with
  | logoutAll name =>
      obtain rfl := Option.some.inj hcall
      cases stage with
      | begun =>
          obtain rfl := Option.some.inj h
          exact hall _
      | _ => cases h
  | changePassword name current new =>
      obtain rfl := Option.some.inj hcall
      cases stage with
      | updated =>
          obtain rfl := Option.some.inj h
          exact hall _
      | begun | verified =>
          obtain rfl := Option.some.inj h
          obtain rfl := Option.some.inj hstage
          cases hrevoked
      | found user =>
          cases user with
          | none =>
              obtain rfl := Option.some.inj h
              cases hstage
          | some user =>
              obtain rfl := Option.some.inj h
              simp only [stay] at hstage
              split_ifs at hstage
              obtain rfl := Option.some.inj hstage
              cases hrevoked
      | revoked => cases hbefore
      | _ => cases h
  | _ => cases hcall

/-- A refresh has verified its token. -/
theorem progress_verified (h : s.progress pw blocked (.refresh raw) stage = some p)
    (hstage : p.stage = some (.verified username)) : Owns s.users s.tokens username raw := by
  cases stage with
  | begun =>
      obtain rfl := Option.some.inj h
      simp only [stay] at hstage
      split_ifs at hstage
      cases hstage
  | allowed =>
      obtain rfl := Option.some.inj h
      obtain ⟨name, hname, heq⟩ := Option.map_eq_some_iff.1 hstage
      obtain rfl := AuthStage.verified.inj heq
      exact owns_of_verify hname
  | verified name =>
      obtain rfl := Option.some.inj h
      rw [mint] at hstage
      split at hstage <;> cases hstage
  | minted =>
      obtain rfl := Option.some.inj h
      cases hstage
  | _ => cases h

/-! ### The law -/

/-- What holds in every run: the tokens that a request must end belong to its user and are marked
once it has revoked them, and so does a token that a refresh has verified. -/
structure RevocationInvariant (s : AccountState) : Prop where
  owned : ∀ r req, s.requests r = some req → ∀ token ∈ req.stale, ∃ username,
    req.call.revoker = some username ∧ Owns s.users s.tokens username token ∧
      (req.stage.hasRevoked = true → Revoked s.tokens token)
  verified : ∀ q raw username stale, s.requests q = some ⟨.refresh raw, .verified username, stale⟩ →
    Owns s.users s.tokens username raw

/-- The tokens that must end are those that had to, and the one that replaces one of them. -/
theorem mem_inherit {req : AuthRequest} {heir : Option (ℕ × ℕ)} :
    token ∈ (req.inherit heir).stale ↔
      token ∈ req.stale ∨ ∃ raw ∈ req.stale, heir = some (raw, token) := by
  cases heir with
  | none => simp [AuthRequest.inherit]
  | some heir =>
      obtain ⟨raw, heir⟩ := heir
      simp only [AuthRequest.inherit, Option.some.injEq, Prod.mk.injEq]
      split_ifs with hraw
      · rw [List.mem_cons]
        constructor
        · rintro (rfl | htoken)
          · exact .inr ⟨raw, hraw, rfl, rfl⟩
          · exact .inl htoken
        · rintro (htoken | ⟨_, _, rfl, rfl⟩)
          · exact .inr htoken
          · exact .inl rfl
      · constructor
        · exact .inl
        · rintro (htoken | ⟨_, hmem, rfl, rfl⟩)
          · exact htoken
          · exact absurd hmem hraw

theorem RevocationInvariant.advance {q : ℕ} {req : AuthRequest} (h : s.RevocationInvariant)
    (hok : s.Timely (.advance q blocked)) (hreq : s.requests q = some req)
    (hp : s.progress pw blocked req.call req.stage = some p) :
    (s.advance q req p).RevocationInvariant := by
  obtain ⟨hmono, hmark⟩ := progress_mono hp
  -- a token of an earlier request, whose stage may be a new one
  have hstale : ∀ r old (stage' : AuthStage), s.requests r = some old →
      (stage'.hasRevoked = true → old.stage.hasRevoked = true ∨
        ∀ username token, old.call.revoker = some username → Owns s.users s.tokens username token →
          Revoked p.tokens token) →
      (old.call.revoker.isSome → stage'.hasRevoked = true → old.stage.hasRevoked = true ∨ r = q) →
      ∀ token ∈ (old.inherit p.heir).stale, ∃ username, old.call.revoker = some username ∧
        Owns p.users p.tokens username token ∧
          (stage'.hasRevoked = true → Revoked p.tokens token) := by
    intro r old stage' hold hrevokes hsame token htoken
    rcases mem_inherit.1 htoken with htoken | ⟨raw, hraw, hheir⟩
    · obtain ⟨username, hcall, howns, hrevoked⟩ := h.owned r old hold token htoken
      refine ⟨username, hcall, hmono _ _ howns, fun hstage => ?_⟩
      rcases hrevokes hstage with hbefore | hall
      · exact hmark _ (hrevoked hbefore)
      · exact hall username token hcall howns
    · -- a refresh has replaced one of its tokens, and so before they were revoked
      obtain ⟨name, hcall', hstage', hnew⟩ := progress_heir hp hheir
      obtain ⟨username, hcall, howns, -⟩ := h.owned r old hold raw hraw
      have hself : s.requests q = some ⟨.refresh raw, .verified name, req.stale⟩ := by
        rw [hreq, ← hcall', ← hstage']
      obtain rfl := (h.verified q raw name req.stale hself).unique howns
      refine ⟨name, hcall, hnew, fun hstage => ?_⟩
      rcases hsame (hcall ▸ rfl) hstage with hbefore | rfl
      · exact absurd hraw (hok raw name req.stale hself r old hold hbefore)
      · rw [hreq] at hold
        obtain rfl := Option.some.inj hold
        rw [hcall'] at hcall
        cases hcall
  refine ⟨fun r req' hreq' => ?_, fun r raw username stale hreq' => ?_⟩
  · rw [requests_advance] at hreq'
    split_ifs at hreq' with hr
    · subst hr
      obtain ⟨stage', hstage', rfl⟩ := Option.map_eq_some_iff.1 hreq'
      have hcall : (req.inherit p.heir).call = req.call := inherit_eq.1
      have hfound := hstale r req stage' hreq (fun hrevoked => ?_) fun _ _ => .inr rfl
      · simp only [hcall]
        exact hfound
      · cases hbefore : req.stage.hasRevoked with
        | true => exact .inl rfl
        | false =>
            exact .inr fun username token hcall howns =>
              progress_revokes hp hcall hstage' hrevoked hbefore howns
    · obtain ⟨old, hold, rfl⟩ := Option.map_eq_some_iff.1 hreq'
      rw [inherit_eq.1, inherit_eq.2]
      exact hstale r old old.stage hold .inl fun _ => .inl
  · rw [requests_advance] at hreq'
    split_ifs at hreq' with hr
    · subst hr
      obtain ⟨stage', hstage', heq⟩ := Option.map_eq_some_iff.1 hreq'
      have hcall : req.call = .refresh raw := by
        rw [← inherit_eq.1]
        exact congrArg AuthRequest.call heq
      obtain rfl : stage' = .verified username := congrArg AuthRequest.stage heq
      rw [hcall] at hp
      exact hmono _ _ (progress_verified hp hstage')
    · obtain ⟨old, hold, heq⟩ := Option.map_eq_some_iff.1 hreq'
      have hcall : old.call = .refresh raw := by
        rw [← inherit_eq.1, heq]
      have hstage : old.stage = .verified username := by
        rw [← inherit_eq.2, heq]
      refine hmono _ _ (h.verified r raw username old.stale ?_)
      rw [hold, ← hcall, ← hstage]

theorem owns_of_mem_tokensOf (h : token ∈ s.tokensOf username) :
    Owns s.users s.tokens username token := by
  rw [tokensOf] at h
  split at h
  · cases h
  · next user huser =>
      obtain ⟨hmem, hname⟩ := mem_of_find huser
      obtain ⟨row, hrow, rfl⟩ := List.mem_map.1 h
      obtain ⟨hrow, hid⟩ := List.mem_filter.1 hrow
      exact ⟨row, hrow, rfl, user, hmem, hname, by simpa using (of_decide_eq_true hid).symm⟩

/-- **What one step preserves.** -/
theorem revocationInvariant_step {a : AuthAction} (h : s.RevocationInvariant) (hok : s.Timely a)
    (hstep : s.step pw a = some t) : t.RevocationInvariant := by
  cases a with
  | tick now =>
      simp only [step] at hstep
      split_ifs at hstep
      obtain rfl := Option.some.inj hstep
      exact ⟨h.owned, h.verified⟩
  | begin r call =>
      simp only [step] at hstep
      split at hstep
      · cases hstep
      · obtain rfl := Option.some.inj hstep
        refine ⟨fun r' req hreq token htoken => ?_, fun r' raw username stale hreq => ?_⟩
        · by_cases hr : r' = r
          · subst hr
            simp only [Function.update_self, Option.some.injEq] at hreq
            subst hreq
            -- a new request has deleted no row, so nothing is revoked for it yet
            cases call with
            | logoutAll name | changePassword name =>
                exact ⟨name, rfl, owns_of_mem_tokensOf htoken, fun hrevoked => by cases hrevoked⟩
            | _ => cases htoken
          · exact h.owned r' req (by simpa only [Function.update_of_ne hr] using hreq) token htoken
        · by_cases hr : r' = r
          · subst hr
            simp at hreq
          · exact h.verified r' raw username stale
              (by simpa only [Function.update_of_ne hr] using hreq)
  | advance q blocked =>
      simp only [step] at hstep
      split at hstep
      · next req hreq =>
          obtain ⟨p, hp, rfl⟩ := Option.map_eq_some_iff.1 hstep
          exact h.advance hok hreq hp
      · cases hstep
  | fail r =>
      obtain rfl := Option.some.inj hstep
      have hback : ∀ r' req, Function.update s.requests r none r' = some req →
          s.requests r' = some req := by
        intro r' req hreq
        by_cases hr : r' = r
        · subst hr
          simp at hreq
        · simpa only [Function.update_of_ne hr] using hreq
      exact ⟨fun r' req hreq => h.owned r' req (hback r' req hreq),
        fun r' raw username stale hreq => h.verified r' raw username stale (hback r' _ hreq)⟩
  | logout raw =>
      obtain rfl := Option.some.inj hstep
      refine ⟨fun r req hreq token htoken => ?_, fun q raw username stale hreq => ?_⟩
      · obtain ⟨username, hcall, howns, hrevoked⟩ := h.owned r req hreq token htoken
        exact ⟨username, hcall, howns.revoke, fun hstage => (hrevoked hstage).revoke⟩
      · exact (h.verified q raw username stale hreq).revoke

/-- **Revocation is complete** in any run in which no refresh replaces a token after it was revoked.
-/
theorem revocationComplete_of_run {now : ℤ} {users : UserTable} {tokens : TokenTable}
    {as : List AuthAction} (hrun : GuardedRun (step pw) Timely (start now users tokens) as s) :
    s.RevocationComplete := by
  have hstart : (start now users tokens).RevocationInvariant :=
    ⟨fun _ _ hreq => (nomatch hreq), fun _ _ _ _ hreq => (nomatch hreq)⟩
  have hinv : s.RevocationInvariant :=
    hrun.invariant hstart fun _ _ _ h hok hstep => revocationInvariant_step h hok hstep
  intro r req hreq hdone token htoken
  obtain ⟨_, _, _, hrevoked⟩ := hinv.owned r req hreq token htoken
  exact verify_of_revoked (hrevoked (hdone ▸ rfl))

/-! ### A refresh and a logout from all sessions -/

/-- An account, with the password as it is. -/
def adminUsers : UserTable :=
    UserTable.empty.insert "admin" "correct horse" (by simp [UserTable.empty])

/-- A session of it. -/
def adminTokens : TokenTable := TokenTable.empty.insert 1 refreshLifetime

/-- A token is renewed; a refresh with the new one verifies it after all sessions were ended. -/
theorem revocationComplete_of_run_refused :
    ∃ s, GuardedRun (step plainPasswords) Timely (start 0 adminUsers adminTokens)
      [.begin 0 (.refresh 0), .advance 0 false, .advance 0 false, .advance 0 false,
        .advance 0 false, .begin 1 (.refresh 1), .advance 1 false, .begin 2 (.logoutAll "admin"),
        .advance 2 false, .advance 1 false] s ∧ s.RevocationComplete := by
  have hrun : ∃ s, GuardedRun (step plainPasswords) Timely (start 0 adminUsers adminTokens)
      [.begin 0 (.refresh 0), .advance 0 false, .advance 0 false, .advance 0 false,
        .advance 0 false, .begin 1 (.refresh 1), .advance 1 false, .begin 2 (.logoutAll "admin"),
        .advance 2 false, .advance 1 false] s := by
    refine ⟨_, .cons trivial rfl (.cons ?_ rfl (.cons ?_ rfl (.cons ?renewed rfl (.cons ?_ rfl
      (.cons trivial rfl (.cons ?_ rfl (.cons trivial rfl (.cons ?_ rfl (.cons ?_ rfl
        .nil)))))))))⟩
    case renewed =>
      -- nobody has revoked anything
      intro _ _ _ _ r req hreq hrevoked
      cases r with
      | zero =>
          obtain rfl := Option.some.inj hreq
          cases hrevoked
      | succ r => cases hreq
    all_goals
      intro _ _ _ hreq
      cases hreq
  obtain ⟨s, hrun⟩ := hrun
  exact ⟨s, hrun, revocationComplete_of_run hrun⟩

/-- A refresh that has verified its token before all sessions are ended, and goes on after. -/
def lateRefresh : List AuthAction :=
  [.begin 0 (.refresh 0), .advance 0 false, .advance 0 false, .begin 1 (.logoutAll "admin"),
    .advance 1 false, .advance 0 false]

theorem isSome_runAll_lateRefresh :
    (runAll (step plainPasswords) (start 0 adminUsers adminTokens) lateRefresh).isSome = true := by
  decide +kernel

/-- Its new token stands in for the old one, and is accepted. -/
theorem not_revocationComplete_lateRefresh :
    ¬ ∀ (pw : Passwords) now users tokens as s,
      GuardedRun (step pw) (fun _ _ => True) (start now users tokens) as s →
        s.RevocationComplete := by
  intro hclaim
  have hcomplete := hclaim _ _ _ _ _ _
    (GuardedRun.of_runAll (Option.some_get isSome_runAll_lateRefresh).symm)
  have hreq : (Option.get _ isSome_runAll_lateRefresh).requests 1 =
      some ⟨.logoutAll "admin", .done, [1, 0]⟩ := by decide +kernel
  have haccepted :
      (Option.get _ isSome_runAll_lateRefresh).verifyRefreshToken 1 = some "admin" := by
    decide +kernel
  have hrefused := hcomplete 1 _ hreq rfl 1 (by decide)
  rw [haccepted] at hrefused
  cases hrefused

end Steps

end AccountState

end Hygie
