/-
Tokens stay with their team.

A token that is signed in for is written to the log with its team before it is returned.  A token
out of the cache carries no team, so what it is returned for has to be compared with the call that
filled the cache: that is the condition `Separate`.
-/
import Aether.Lib.Pieces
import Aether.Team.Token

namespace Aether.Team

open List Machine

/-! ### The log -/

variable {log : List Event} {settings : TeamSettings}

theorem Belongs.append {team token : Text} (h : Belongs log team token) (events : List Event) :
    Belongs (log ++ events) team token := by
  obtain hsigned | ⟨settings, hteam, hresolved⟩ := h
  · exact .inl (mem_append_left _ hsigned)
  · exact .inr ⟨settings, hteam, mem_append_left _ hresolved⟩

theorem confined_nil : Confined [] := by
  intro front settings token rest heq
  exact absurd heq.symm (by simp)

theorem Confined.append_signedIn (h : Confined log) (team token : Text) :
    Confined (log ++ [.signedIn team token]) := by
  intro front settings token' rest heq
  obtain ⟨-, hlast⟩ | ⟨rest, hlog⟩ := append_singleton_eq heq
  · cases hlast
  · exact h front settings token' rest hlog

/-- What is returned next has to be supplied or to belong to the team. -/
theorem Confined.append_resolved (h : Confined log) {token : Text}
    (htoken : settings.token = some token ∨ Belongs log settings.team token) :
    Confined (log ++ [.resolved settings token]) := by
  intro front settings' token' rest heq
  obtain ⟨rfl, hlast⟩ | ⟨rest, hlog⟩ := append_singleton_eq heq
  · cases hlast
    exact htoken
  · exact h front settings' token' rest hlog

/-! ### One call -/

/-- The log is in order, and a cache that was filled for a team holds a token of that team. -/
structure Kept (s : Session) : Prop where
  confined : Confined s.log
  held : ∀ team, s.holder = some team → ∃ cached, s.cache = some cached ∧ Belongs s.log team cached

theorem kept_initial : Kept .initial where
  confined := confined_nil
  held _ h := by cases h

variable {L : Libraries} {s : Session}

theorem Kept.enrol (h : Kept s) (settings : TeamSettings) (now : Nat) (answer : Except Text Text) :
    Kept (s.enrol L settings now answer).2 := by
  unfold Session.enrol
  split
  · exact ⟨h.confined, fun team hteam => by cases hteam⟩
  · next token _ =>
      have hsigned : Belongs (s.log ++ [.signedIn settings.team token]) settings.team token :=
        .inl (by simp)
      have hlog : s.log ++ [.signedIn settings.team token, .resolved settings token] =
          s.log ++ [.signedIn settings.team token] ++ [.resolved settings token] := by simp
      refine ⟨?_, fun team hteam => ?_⟩
      · show Confined (s.log ++ [.signedIn settings.team token, .resolved settings token])
        rw [hlog]
        exact (h.confined.append_signedIn settings.team token).append_resolved (.inr hsigned)
      · cases hteam
        refine ⟨token, rfl, ?_⟩
        show Belongs (s.log ++ [.signedIn settings.team token, .resolved settings token]) _ _
        rw [hlog]
        exact hsigned.append _

/-- What is logged leaves the cache. -/
theorem Kept.append (h : Kept s) {e : Event} (hconfined : Confined (s.log ++ [e])) :
    Kept { s with log := s.log ++ [e] } where
  confined := hconfined
  held team hteam := by
    obtain ⟨cached, hcache, hbelongs⟩ := h.held team hteam
    exact ⟨cached, hcache, hbelongs.append _⟩

/-- A token out of the cache is returned for whom the condition allows. -/
theorem Kept.reuse (h : Kept s) {cached : Text} (hcache : s.cache = some cached)
    (hallowed : settings.token = some cached ∨ s.holder = some settings.team) :
    Kept { s with log := s.log ++ [.resolved settings cached] } := by
  refine h.append (h.confined.append_resolved (hallowed.imp_right fun hholder => ?_))
  obtain ⟨cached', hcache', hbelongs⟩ := h.held settings.team hholder
  rw [hcache] at hcache'
  cases hcache'
  exact hbelongs

theorem Kept.resolveToken (h : Kept s) {now later : Nat} {answer : Except Text Text}
    (hok : Separate L s (.resolveToken settings now later answer)) :
    Kept (s.resolveToken L settings now later answer).2 := by
  unfold Session.resolveToken
  split
  · next cached hcache =>
      split
      · next hfresh => exact h.reuse hcache (hok cached hcache (by simpa using hfresh))
      · exact h.enrol settings later answer
  · exact h.enrol settings later answer

theorem Kept.clear (h : Kept s) : Kept s.clearToken :=
  ⟨h.confined, fun team hteam => by cases hteam⟩

theorem Kept.storeToken (h : Kept s) (holder : Option Text) (token : Text) (now : Nat)
    (hholder : ∀ team, holder = some team → Belongs s.log team (Text.trim token)) :
    Kept (s.storeToken L holder token now).2 := by
  unfold Session.storeToken
  dsimp only
  split
  · exact h
  · split
    · exact h
    · exact ⟨h.confined, fun team hteam => ⟨Text.trim token, rfl, hholder team hteam⟩⟩

/-- A token found on a page has no white space around it. -/
theorem trim_of_extractJwtFromHtml {html token : Text}
    (h : extractJwtFromHtml L html = some token) :
    Text.trim token = token := by
  unfold extractJwtFromHtml at h
  rw [Option.bind_eq_bind, Option.bind_eq_some_iff] at h
  obtain ⟨⟨before, rest⟩, -, h⟩ := h
  dsimp only at h
  split at h
  · cases h
    exact Pieces.trimBy_idem _ _
  · cases h

theorem Kept.teamEmailCodeSubmit (h : Kept s) (team body : Text) (now : Nat) :
    Kept (s.teamEmailCodeSubmit L team body now).2 := by
  unfold Session.teamEmailCodeSubmit
  split
  · exact h
  · next token htoken =>
      have hlogged := h.append (h.confined.append_signedIn team token)
      have hstored : Kept (Session.storeToken L
          { s with log := s.log ++ [.signedIn team token] } (some team) token now).2 := by
        refine hlogged.storeToken (some team) token now fun team' hteam => ?_
        cases hteam
        rw [trim_of_extractJwtFromHtml htoken]
        exact .inl (by simp)
      dsimp only
      split
      · next heq => rwa [heq] at hstored
      · next heq => rwa [heq] at hstored

/-! ### Runs -/

theorem Kept.step (h : Kept s) {s' : Session} {l : Label} (hok : Separate L s l)
    (hstep : step L s l = .ok s') : Kept s' := by
  cases l with
  | resolveToken settings now later answer =>
    cases hstep
    exact h.resolveToken hok
  | storeToken token now =>
    cases hstep
    exact h.storeToken none token now fun team hteam => by cases hteam
  | cachedToken now =>
    cases hstep
    exact h
  | clearToken =>
    cases hstep
    exact h.clear
  | teamEmailCodeSubmit team body now =>
    cases hstep
    exact h.teamEmailCodeSubmit team body now

/-- **An enrolment token is only returned for the team it was issued for**, in every run in which
a cached token is only asked for by the team that filled the cache. -/
theorem tokens_confined {ls : List Label} {s : Session}
    (hrun : Run (step L) (Separate L) .initial ls s) : Confined s.log := by
  have hkept : Kept s := hrun.invariant kept_initial fun _ _ _ h hok hstep => h.step hok hstep
  exact hkept.confined

/-- Every part of a token decodes, and no payload has an expiry. -/
def plain : Libraries := ⟨fun _ => some [], fun _ => none⟩

/-- Settings that supply a token, and settings that bring nothing. -/
def supplied (team token : Text) : TeamSettings := ⟨team, none, none, some token, none⟩

def bare (team : Text) : TeamSettings := ⟨team, none, none, none, none⟩

def acmeToken : Text := "AAAAAAAA.AAAAAAAA.acmeacmeacmeacme".toList

def globexToken : Text := "AAAAAAAA.AAAAAAAA.globexglobexglobex".toList

/-- Two teams with the cache cleared between them. -/
theorem tokens_confined_cleared :
    ∃ s, Run (step plain) (Separate plain) .initial
        [.resolveToken (supplied "acme".toList acmeToken) 0 0 (.error []), .clearToken,
          .resolveToken (supplied "globex".toList globexToken) 0 0 (.error [])] s ∧
      s.cache = some globexToken ∧ Confined s.log := by
  refine Run.exists_and (.snoc (.snoc (.snoc .nil (fun _ hcache => by cases hcache) rfl) trivial
    rfl) (fun _ hcache => by cases hcache) rfl) fun hrun => ?_
  exact ⟨rfl, tokens_confined hrun⟩

/-- A team that brings nothing to sign in with is given the token of another one. -/
theorem token_crosses_teams :
    ∃ s, Run (step plain) (fun _ _ => True) .initial
        [.resolveToken (supplied "acme".toList acmeToken) 0 0 (.error []),
          .resolveToken (bare "globex".toList) 0 0 (.error [])] s ∧
      ¬ Confined s.log := by
  refine ⟨_, .of_perform .nil rfl, fun hconfined => ?_⟩
  obtain htoken | hsigned | ⟨settings, hteam, hresolved⟩ :=
    hconfined [.signedIn "acme".toList acmeToken,
      .resolved (supplied "acme".toList acmeToken) acmeToken] (bare "globex".toList) acmeToken []
      rfl
  · cases htoken
  · exact absurd hsigned (by decide)
  · simp only [mem_cons, not_mem_nil, or_false, reduceCtorEq, false_or] at hresolved
    obtain ⟨rfl, -⟩ := Event.resolved.inj hresolved
    exact absurd hteam (by decide)

end Aether.Team
