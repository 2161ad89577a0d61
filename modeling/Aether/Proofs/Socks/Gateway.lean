/-
What becomes of a refusal by the gateway.

Whatever keeps `open_through_gateway` from giving a connection, a refusal as well as an outage,
leads to the same two steps: the gateway is retired and the target is opened straight.  So the
policy of the gateway is kept in a run of requests exactly if none is refused.
-/
import Aether.Proofs.Socks.Connect
import Aether.Proofs.Socks.Forward

namespace Aether.Socks

open List

open Routing

/-! ### Answers -/

/-- The answer of a gateway that took the request and sent a complete, well-formed head:
whether its status is a success. -/
def GatewayEnv.status (env : GatewayEnv) : Option Bool :=
  if env.opening = .connected ∧ env.sent = true ∧ (findHeadEnd env.answers.flatten).isSome then
    proxyConnectSucceeded env.answers.flatten
  else none

/-- Only the first line of a head is read. -/
theorem proxyConnectSucceeded_line (line rest : Bytes) :
    proxyConnectSucceeded (line ++ cr :: lf :: rest) =
      proxyConnectSucceeded (line ++ [cr, lf]) := by
  have hsome := Text.isSome_splitOnce crlf (Utf8.decodeLossy line) []
  obtain ⟨⟨text, tail⟩, hcut⟩ := Option.isSome_iff_exists.mp hsome
  have hmore := Text.splitOnce_append hcut (Utf8.decodeLossy rest)
  rw [append_nil] at hcut hmore
  rw [append_assoc] at hmore
  unfold proxyConnectSucceeded
  rw [decodeLossy_crlf, decodeLossy_crlf, Utf8.decodeLossy_nil, append_nil, hcut, hmore]
  rfl

theorem proxyConnectSucceeded_head (before after : Bytes) :
    proxyConnectSucceeded (before ++ crlfcrlf ++ after) =
      proxyConnectSucceeded (before ++ crlfcrlf) := by
  rw [append_assoc]
  exact (proxyConnectSucceeded_line before _).trans (proxyConnectSucceeded_line before _).symm

/-- What has come without a head is shorter than the head. -/
theorem length_lt_of_none {buf rest before after : Bytes}
    (hnone : Text.splitOnce crlfcrlf buf = none)
    (hcut : Text.splitOnce crlfcrlf (buf ++ rest) = some (before, after)) :
    buf.length < (before ++ crlfcrlf).length := by
  by_contra hle
  have hwhole := Text.eq_of_splitOnce hcut
  obtain ⟨tail, rfl⟩ : before ++ crlfcrlf <+: buf :=
    prefix_of_prefix_length_le ⟨after, hwhole.symm⟩ ( prefix_append buf rest) (by omega)
  have hsome := Text.isSome_splitOnce crlfcrlf before tail
  rw [← append_assoc, hnone] at hsome
  cases hsome

/-- What `open_through_gateway` makes of a head it has read. -/
def answered (authority : Text) (port : Nat) (h leftover : Bytes) : Except GatewayError Bytes :=
  match proxyConnectSucceeded h with
  | none => .error .malformed
  | some true => .ok leftover
  | some false =>
    .error (.refused authority port (Text.trim (Text.firstLine (Utf8.decodeLossy h))))

/-- A complete head is answered, unless it is too long. -/
theorem readAnswer_eq (closes : Bool) (authority : Text) (port : Nat) {buf before after : Bytes}
    {answers : List Bytes} (hnone : Text.splitOnce crlfcrlf buf = none)
    (hcut : Text.splitOnce crlfcrlf (buf ++ answers.flatten) = some (before, after)) :
    (gatewayHeadLimit < (before ++ crlfcrlf).length ∧
      readAnswer closes authority port buf answers = .error .oversized) ∨
    ∃ done more leftover, answers = done ++ more ∧
      readAnswer closes authority port buf answers =
        answered authority port (before ++ crlfcrlf) leftover ∧
      before ++ crlfcrlf ++ leftover = buf ++ done.flatten := by
  induction answers generalizing buf with
  | nil =>
    rw [flatten_nil, append_nil, hnone] at hcut
    cases hcut
  | cons chunk answers ih =>
    rw [flatten_cons, ← append_assoc] at hcut
    unfold readAnswer findHeadEnd
    cases hfound : Text.splitOnce crlfcrlf (buf ++ chunk) with
    | some parts =>
      obtain ⟨first, leftover⟩ := parts
      have hwhole := Text.eq_of_splitOnce hfound
      rw [Text.splitOnce_append hfound] at hcut
      cases hcut
      refine .inr ⟨[chunk], answers, leftover, rfl, ?_, by rw [flatten_singleton, hwhole]⟩
      have hend : before.length + 4 = (before ++ crlfcrlf).length := by
        rw [length_append]
        rfl
      simp only [hfound, Option.map_some, hend]
      rw [hwhole, proxyConnectSucceeded_head, drop_left, take_left]
      unfold answered
      rcases proxyConnectSucceeded (before ++ crlfcrlf) with _ | _ | _ <;> rfl
    | none =>
      have hshort := length_lt_of_none hfound hcut
      simp only [hfound, Option.map_none]
      split
      · exact .inl ⟨by omega, rfl⟩
      · obtain hlong | ⟨done, more, leftover, rfl, hread, hbytes⟩ := ih hfound hcut
        · exact .inl hlong
        · refine .inr ⟨chunk :: done, more, leftover, rfl, hread, ?_⟩
          rw [hbytes, flatten_cons, append_assoc]

/-- What a connection attempt makes of a status. -/
def Outcome (ok : Bool) (result : Except GatewayError Bytes) : Prop :=
  result = .error .oversized ∨
    if ok then ∃ leftover, result = .ok leftover
    else ∃ authority port status, result = .error (.refused authority port status)

theorem openThroughGateway_status {env : GatewayEnv} {ok : Bool} (h : env.status = some ok)
    (authority : Text) (port : Nat) : Outcome ok (openThroughGateway env authority port) := by
  unfold GatewayEnv.status at h
  split at h
  · next hcomplete =>
      obtain ⟨hopen, hsent, hend⟩ := hcomplete
      rw [findHeadEnd, Option.isSome_map] at hend
      obtain ⟨⟨before, after⟩, hcut⟩ := Option.isSome_iff_exists.mp hend
      rw [Text.eq_of_splitOnce hcut, proxyConnectSucceeded_head] at h
      unfold openThroughGateway
      simp only [hopen, hsent, if_true]
      obtain ⟨-, hread⟩ | ⟨done, more, leftover, -, hread, -⟩ :=
        readAnswer_eq env.closes authority port (rfl : Text.splitOnce crlfcrlf [] = none) hcut
      · exact .inl hread
      · rw [hread, answered, h]
        cases ok with
        | true => exact .inr ⟨_, rfl⟩
        | false => exact .inr ⟨_, _, _, rfl⟩
  · cases h

/-! ### Openings -/

/-- The gateway is asked for this port. -/
def Process.asks (p : Process) (port : Nat) : Prop :=
  shouldUseGateway port = true ∧ p.gatewayProxy.isSome

section

variable {env : OpenEnv} {target : Target} {port : Nat} {p : Process}

/-- The straight way leaves the gateway alone and only notes itself. -/
theorem openStraight_state (env : OpenEnv) (target : Target) (port : Nat) (p : Process) :
    ∃ more, (openStraight env target port p).2 = { p with trace := p.trace ++ more } ∧
      ∀ o ∈ more, o = .straight target port := by
  unfold openStraight
  cases resolve env.dns target with
  | none => exact ⟨[], by rw [append_nil], nofun⟩
  | some ip => exact ⟨[.straight target port], rfl, fun _ => mem_singleton.mp⟩

theorem openTunneled_notAsked (h : ¬ p.asks port) :
    openTunneled env target port p = openStraight env target port p := by
  unfold openTunneled
  split
  · next addr hvia =>
      exfalso
      apply h
      split at hvia
      · next hport => exact ⟨hport, by rw [hvia]; rfl⟩
      · cases hvia
  · rfl

theorem openTunneled_asked (env : OpenEnv) (target : Target) (h : p.asks port) :
    (openTunneled env target port p).2 =
      match openThroughGateway env.gateway target.toText port with
      | .ok _ => p.note (.asked target port)
      | .error _ =>
        (openStraight env target port (p.note (.asked target port)).retireGateway).2 := by
  obtain ⟨hport, hsome⟩ := h
  obtain ⟨addr, hproxy⟩ := Option.isSome_iff_exists.mp hsome
  unfold openTunneled
  simp only [hport, if_true, hproxy]
  cases openThroughGateway env.gateway target.toText port <;> rfl

/-- Asking without success retires the gateway. -/
theorem openTunneled_error (h : p.asks port) {err : GatewayError}
    (herr : openThroughGateway env.gateway target.toText port = .error err) :
    (openTunneled env target port p).2.healthy = false := by
  obtain ⟨more, hstate, -⟩ := openStraight_state env target port
    (p.note (.asked target port)).retireGateway
  rw [openTunneled_asked env target h, herr]
  exact congrArg Process.healthy hstate

end

/-! ### Requests -/

section

variable (hostname : Bytes → Option Text) (lower : Text → Text) (set : RuleSet)

/-- The route of the request is the tunnel. -/
def Proxied : Request → Prop
  | .connect env target port e =>
    ∃ sniffed e', sniff hostname set env target e = .ok (sniffed, e') ∧
      decideRoute lower set target sniffed.named port = .proxy
  | .http _ _ _ => True

/-- What a request adds to the trace. -/
def opened (p : Process) (r : Request) : List Opening :=
  (serve hostname lower set p r).trace.drop p.trace.length

/-- The gateway was asked for the request. -/
def Asked (p : Process) (r : Request) : Prop :=
  .asked r.target r.port ∈ opened hostname lower set p r

/-- The gateway answered the request, and not with a success. -/
def Refused (p : Process) (r : Request) : Prop :=
  Asked hostname lower set p r ∧ r.opening.gateway.status = some false

/-- A refusal stands: the target is not opened straight, and the gateway stays in use. -/
def RefusalStands (p : Process) (r : Request) : Prop :=
  Refused hostname lower set p r → .straight r.target r.port ∉ opened hostname lower set p r ∧
    (serve hostname lower set p r).healthy = true

variable {hostname lower set} {p : Process} {r : Request}

/-- A request of the tunnel opens one. -/
theorem serve_of_proxied (p : Process) (h : Proxied hostname lower set r) :
    serve hostname lower set p r = (openTunneled r.opening r.target r.port p).2 := by
  cases r with
  | http env target port => rfl
  | connect env target port e =>
    obtain ⟨sniffed, e', hsniff, hroute⟩ := h
    show (handleConnect hostname lower set env target port p e).1 =
      (openTunneled env.opening target port p).2
    unfold handleConnect
    simp only [hsniff, hroute]
    cases openTunneled env.opening target port p with
    | mk conn p' => cases conn <;> rfl

/-- Any other leaves everything as it was. -/
theorem serve_of_not_proxied (p : Process) (h : ¬ Proxied hostname lower set r) :
    serve hostname lower set p r = p := by
  cases r with
  | http env target port => exact absurd trivial h
  | connect env target port e =>
    show (handleConnect hostname lower set env target port p e).1 = p
    unfold handleConnect
    cases hsniff : sniff hostname set env target e with
    | error e' => rfl
    | ok r =>
      cases hroute : decideRoute lower set target r.1.named port with
      | block => simp only [hroute]
      | direct => simp only [hroute]
      | proxy => exact absurd ⟨r.1, r.2, hsniff, hroute⟩ h

/-- The gateway is asked by requests of the tunnel only, and only if it is there. -/
theorem asks_of_asked (h : Asked hostname lower set p r) :
    Proxied hostname lower set r ∧ p.asks r.port := by
  unfold Asked opened at h
  by_cases hproxied : Proxied hostname lower set r
  · refine ⟨hproxied, ?_⟩
    by_contra hnot
    obtain ⟨more, hstate, hmore⟩ := openStraight_state r.opening r.target r.port p
    rw [serve_of_proxied p hproxied, openTunneled_notAsked hnot, hstate, drop_left] at h
    cases hmore _ h
  · rw [serve_of_not_proxied p hproxied, drop_length] at h
    cases h

theorem asked_of_asks (hproxied : Proxied hostname lower set r) (hasks : p.asks r.port) :
    Asked hostname lower set p r := by
  unfold Asked opened
  rw [serve_of_proxied p hproxied, openTunneled_asked r.opening r.target hasks]
  split
  · simp [Process.note]
  · obtain ⟨more, hstate, -⟩ := openStraight_state r.opening r.target r.port
      (p.note (.asked r.target r.port)).retireGateway
    rw [hstate]
    simp [Process.note, Process.retireGateway]

/-- A refusal never stands. -/
theorem healthy_of_refused (h : Refused hostname lower set p r) :
    (serve hostname lower set p r).healthy = false := by
  obtain ⟨hasked, hstatus⟩ := h
  obtain ⟨hproxied, hasks⟩ := asks_of_asked hasked
  rw [serve_of_proxied p hproxied]
  obtain hresult | ⟨authority, port, status, hresult⟩ :=
    openThroughGateway_status hstatus r.target.toText r.port
  · exact openTunneled_error hasks hresult
  · exact openTunneled_error hasks hresult

/-- The gateway is in use, and the one of the start. -/
structure Stays (p₀ p : Process) : Prop where
  healthy : p.healthy = true
  proxy : p.proxy = p₀.proxy

/-- A request of the tunnel asks the gateway while it is in use, and a success keeps it so. -/
theorem serve_stays {p₀ : Process} (h : Stays p₀ p) (hproxy : p₀.proxy.isSome)
    (hport : shouldUseGateway r.port = true) (hwell : r.opening.gateway.status ≠ none)
    (hsize : openThroughGateway r.opening.gateway r.target.toText r.port ≠ .error .oversized)
    (hkept : ¬ Refused hostname lower set p r) :
    Stays p₀ (serve hostname lower set p r) ∧
      (Proxied hostname lower set r → Asked hostname lower set p r) := by
  by_cases hproxied : Proxied hostname lower set r
  · have hasks : p.asks r.port := by
      refine ⟨hport, ?_⟩
      rw [Process.gatewayProxy, if_pos h.healthy, h.proxy]
      exact hproxy
    -- what the answer could be but a success is ruled out
    have hok : ∃ leftover, openThroughGateway r.opening.gateway r.target.toText r.port =
        .ok leftover := by
      obtain ⟨ok, hstatus⟩ := Option.ne_none_iff_exists'.mp hwell
      obtain hresult | hresult := openThroughGateway_status hstatus r.target.toText r.port
      · exact absurd hresult hsize
      · cases ok with
        | true => exact hresult
        | false => exact absurd ⟨asked_of_asks hproxied hasks, hstatus⟩ hkept
    obtain ⟨leftover, hok⟩ := hok
    refine ⟨?_, fun _ => asked_of_asks hproxied hasks⟩
    rw [serve_of_proxied p hproxied, openTunneled_asked r.opening r.target hasks, hok]
    exact ⟨h.healthy, h.proxy⟩
  · rw [serve_of_not_proxied p hproxied]
    exact ⟨h, fun h => absurd h hproxied⟩

/-- Before every request of the run, `P` holds of the state and the request. -/
def Along (hostname : Bytes → Option Text) (lower : Text → Text) (set : RuleSet) (p₀ : Process)
    (requests : List Request) (P : Process → Request → Prop) : Prop :=
  ∀ before r after, requests = before ++ r :: after → P (serveAll hostname lower set p₀ before) r

/-- A gateway that every request leaves in use is in use before each of them. -/
theorem serveAll_stays {p₀ : Process} {requests : List Request} (hhealthy : p₀.healthy = true)
    (hnext : Along hostname lower set p₀ requests fun p r =>
      Stays p₀ p → Stays p₀ (serve hostname lower set p r)) :
    Along hostname lower set p₀ requests fun p _ => Stays p₀ p := by
  intro before
  induction before using List.reverseRecOn with
  | nil => exact fun _ _ _ => ⟨hhealthy, rfl⟩
  | append_singleton before r ih =>
    intro next after hsplit
    rw [append_assoc, singleton_append] at hsplit
    rw [serveAll, foldl_append]
    exact hnext before r (next :: after) hsplit (ih r (next :: after) hsplit)

/-- **When the policy of the gateway is kept.**  In a run of requests to the web ports whose
answers are well formed, refusals stand exactly if there are none.  In such a run, as long as
no head is too long, the gateway stays in use and every request of the tunnel passes it. -/
theorem gateway_policy_iff {p₀ : Process} {requests : List Request} (hproxy : p₀.proxy.isSome)
    (hhealthy : p₀.healthy = true) (hports : ∀ r ∈ requests, shouldUseGateway r.port = true)
    (hwell : ∀ r ∈ requests, r.opening.gateway.status ≠ none) :
    (Along hostname lower set p₀ requests (RefusalStands hostname lower set) ↔
      Along hostname lower set p₀ requests fun p r => ¬ Refused hostname lower set p r) ∧
    ((Along hostname lower set p₀ requests fun p r => ¬ Refused hostname lower set p r) →
      (∀ r ∈ requests,
        openThroughGateway r.opening.gateway r.target.toText r.port ≠ .error .oversized) →
      Along hostname lower set p₀ requests fun p r =>
        p.healthy = true ∧ (Proxied hostname lower set r → Asked hostname lower set p r)) := by
  refine ⟨?_, fun hkept hsize => ?_⟩
  · constructor
    · intro h before r after hsplit hrefused
      obtain ⟨-, hstill⟩ := h before r after hsplit hrefused
      rw [healthy_of_refused hrefused] at hstill
      cases hstill
    · intro h before r after hsplit hrefused
      exact absurd hrefused (h before r after hsplit)
  · have hone : Along hostname lower set p₀ requests fun p r => Stays p₀ p →
        Stays p₀ (serve hostname lower set p r) ∧
          (Proxied hostname lower set r → Asked hostname lower set p r) := by
      intro before r after hsplit h
      have hmem : r ∈ requests := by
        rw [hsplit]
        simp
      exact serve_stays h hproxy (hports r hmem) (hwell r hmem) (hsize r hmem)
        (hkept before r after hsplit)
    intro before r after hsplit
    have hstill := serveAll_stays hhealthy
      (fun before r after hsplit h => (hone before r after hsplit h).1) before r after hsplit
    exact ⟨hstill.healthy, (hone before r after hsplit hstill).2⟩

end

/-! ### Two answers -/

/-- A gateway that is in use. -/
def inUse : Process where
  proxy := some { ip := .v4 0x0a000001, port := 8080 }
  healthy := true
  trace := []

/-- A request for a page, with what the gateway answers. -/
def pageRequest (answer : Text) : Request :=
  .http { gateway := { opening := .connected, sent := true, answers := [Utf8.encode answer]
                       closes := false }
          dns := some (.v4 0x01020304), opens := true }
    (.domain "a.b".toList) 443

/-- Two pages that the gateway accepts: no refusal falls, the gateway is in use before either
page, and it is asked for both. -/
theorem gateway_policy_iff_accepted :
    let requests := replicate 2 (pageRequest "HTTP/1.1 200 OK\r\n\r\n".toList)
    Along (fun _ => none) id ⟨[], []⟩ inUse requests (RefusalStands (fun _ => none) id ⟨[], []⟩) ∧
      Along (fun _ => none) id ⟨[], []⟩ inUse requests fun p r =>
        p.healthy = true ∧ (Proxied (fun _ => none) id ⟨[], []⟩ r →
          Asked (fun _ => none) id ⟨[], []⟩ p r) := by
  intro requests
  have hpage : ∀ r ∈ requests, r = pageRequest "HTTP/1.1 200 OK\r\n\r\n".toList :=
    fun r hr => (mem_replicate.mp hr).2
  have hstatus : ∀ r ∈ requests, r.opening.gateway.status = some true := by
    intro r hr
    rw [hpage r hr]
    decide
  have hkept : Along (fun _ => none) id ⟨[], []⟩ inUse requests fun p r =>
      ¬ Refused (fun _ => none) id ⟨[], []⟩ p r := by
    intro before r after hsplit hrefused
    have haccepted := hstatus r (by simp [hsplit])
    rw [hrefused.2] at haccepted
    cases haccepted
  have hports : ∀ r ∈ requests, shouldUseGateway r.port = true := by
    intro r hr
    rw [hpage r hr]
    rfl
  have hwell : ∀ r ∈ requests, r.opening.gateway.status ≠ none := by
    intro r hr
    simp [hstatus r hr]
  have hsize : ∀ r ∈ requests,
      openThroughGateway r.opening.gateway r.target.toText r.port ≠ .error .oversized := by
    intro r hr
    rw [hpage r hr]
    decide
  exact ⟨(gateway_policy_iff rfl rfl hports hwell).1.mpr hkept,
    (gateway_policy_iff rfl rfl hports hwell).2 hkept hsize⟩

/-- The gateway forbids it: the page is opened straight and the gateway retired. -/
theorem refusal_bypassed :
    Refused (fun _ => none) id ⟨[], []⟩ inUse
        (pageRequest "HTTP/1.1 403 Forbidden\r\n\r\n".toList) ∧
      opened (fun _ => none) id ⟨[], []⟩ inUse
          (pageRequest "HTTP/1.1 403 Forbidden\r\n\r\n".toList) =
        [.asked (.domain "a.b".toList) 443, .straight (.domain "a.b".toList) 443] ∧
      (serve (fun _ => none) id ⟨[], []⟩ inUse
        (pageRequest "HTTP/1.1 403 Forbidden\r\n\r\n".toList)).healthy = false ∧
      ¬ RefusalStands (fun _ => none) id ⟨[], []⟩ inUse
        (pageRequest "HTTP/1.1 403 Forbidden\r\n\r\n".toList) := by
  have hrefused : Refused (fun _ => none) id ⟨[], []⟩ inUse
      (pageRequest "HTTP/1.1 403 Forbidden\r\n\r\n".toList) := by
    unfold Refused Asked
    decide
  have hhealthy := healthy_of_refused hrefused
  refine ⟨hrefused, by decide, hhealthy, fun hstands => ?_⟩
  have hstill := (hstands hrefused).2
  rw [hhealthy] at hstill
  cases hstill

end Aether.Socks
