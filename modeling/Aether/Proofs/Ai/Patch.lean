/-
What the changes of a language model can reach.

A change that is applied writes the field it names and no other (`write_frame`), and a change that
is refused leaves everything as it was, so the changes that were applied lead to the same profile
without the others (`patch_confined`).
-/
import Aether.Ai.Patch

namespace Aether.AiPatch

open Profile
open Vpn (TransportBackend)

/-! ### Fields -/

/-- The fields of a profile. -/
inductive Field
  | backend | exitRegion | protocol | scanMode | ipVersion | quickReconnect | masqueHttp2
  | lanShare | noize | endpointMode | manualPeer | manualRange | keepalive | fragment | ech
  | mtu | proxyMode | splitMode | splitApps | dnsServers | team | teamAuth | accessClientId
  | accessClientSecret | accessEmail | accessToken | gateway | routeBlock | routeDirect
  | killSwitch | strictKillSwitch | ipv6LeakProtection | smartReconnect | reconnectRetryLimit
  | fragmentSize | fragmentDelay | noDataCheck | tlsGroups | validateSecs | reconnectSecs
  | noProfileRetry | coreLogLevel | blockedApps | upstreamProxy | routeSniff | routeSniffMs
  | autoReprovision | fastEndpointOnly | torBridges | torBridgeLines | torCountry
  | torDirectSecs | torCheck | chainedStage
deriving DecidableEq, Repr

namespace Field

/-- What a field holds. -/
def Value : Field → Type
  | .backend => TransportBackend
  | .exitRegion | .manualPeer | .manualRange | .dnsServers | .team | .accessClientId
  | .accessClientSecret | .accessEmail | .accessToken | .routeBlock | .routeDirect
  | .fragmentSize | .fragmentDelay | .tlsGroups | .upstreamProxy | .torBridgeLines | .torCountry
  | .torCheck => Text
  | .protocol => Protocol
  | .scanMode => ScanMode
  | .ipVersion => IpVersion
  | .quickReconnect | .masqueHttp2 | .lanShare | .fragment | .ech | .proxyMode | .gateway
  | .killSwitch | .strictKillSwitch | .ipv6LeakProtection | .smartReconnect | .noDataCheck
  | .noProfileRetry | .routeSniff | .autoReprovision | .fastEndpointOnly | .chainedStage => Bool
  | .noize => Noize
  | .endpointMode => EndpointMode
  | .keepalive | .mtu | .reconnectRetryLimit | .validateSecs | .reconnectSecs | .routeSniffMs
  | .torDirectSecs => Int32
  | .splitMode => SplitMode
  | .splitApps | .blockedApps => List Text
  | .teamAuth => TeamAuth
  | .coreLogLevel => CoreLogLevel
  | .torBridges => TorBridges

def get : (f : Field) → ConnectionProfile → f.Value
  | .backend => ConnectionProfile.backend
  | .exitRegion => ConnectionProfile.exitRegion
  | .protocol => ConnectionProfile.protocol
  | .scanMode => ConnectionProfile.scanMode
  | .ipVersion => ConnectionProfile.ipVersion
  | .quickReconnect => ConnectionProfile.quickReconnect
  | .masqueHttp2 => ConnectionProfile.masqueHttp2
  | .lanShare => ConnectionProfile.lanShare
  | .noize => ConnectionProfile.noize
  | .endpointMode => ConnectionProfile.endpointMode
  | .manualPeer => ConnectionProfile.manualPeer
  | .manualRange => ConnectionProfile.manualRange
  | .keepalive => ConnectionProfile.keepalive
  | .fragment => ConnectionProfile.fragment
  | .ech => ConnectionProfile.ech
  | .mtu => ConnectionProfile.mtu
  | .proxyMode => ConnectionProfile.proxyMode
  | .splitMode => ConnectionProfile.splitMode
  | .splitApps => ConnectionProfile.splitApps
  | .dnsServers => ConnectionProfile.dnsServers
  | .team => ConnectionProfile.team
  | .teamAuth => ConnectionProfile.teamAuth
  | .accessClientId => ConnectionProfile.accessClientId
  | .accessClientSecret => ConnectionProfile.accessClientSecret
  | .accessEmail => ConnectionProfile.accessEmail
  | .accessToken => ConnectionProfile.accessToken
  | .gateway => ConnectionProfile.gateway
  | .routeBlock => ConnectionProfile.routeBlock
  | .routeDirect => ConnectionProfile.routeDirect
  | .killSwitch => ConnectionProfile.killSwitch
  | .strictKillSwitch => ConnectionProfile.strictKillSwitch
  | .ipv6LeakProtection => ConnectionProfile.ipv6LeakProtection
  | .smartReconnect => ConnectionProfile.smartReconnect
  | .reconnectRetryLimit => ConnectionProfile.reconnectRetryLimit
  | .fragmentSize => ConnectionProfile.fragmentSize
  | .fragmentDelay => ConnectionProfile.fragmentDelay
  | .noDataCheck => ConnectionProfile.noDataCheck
  | .tlsGroups => ConnectionProfile.tlsGroups
  | .validateSecs => ConnectionProfile.validateSecs
  | .reconnectSecs => ConnectionProfile.reconnectSecs
  | .noProfileRetry => ConnectionProfile.noProfileRetry
  | .coreLogLevel => ConnectionProfile.coreLogLevel
  | .blockedApps => ConnectionProfile.blockedApps
  | .upstreamProxy => ConnectionProfile.upstreamProxy
  | .routeSniff => ConnectionProfile.routeSniff
  | .routeSniffMs => ConnectionProfile.routeSniffMs
  | .autoReprovision => ConnectionProfile.autoReprovision
  | .fastEndpointOnly => ConnectionProfile.fastEndpointOnly
  | .torBridges => ConnectionProfile.torBridges
  | .torBridgeLines => ConnectionProfile.torBridgeLines
  | .torCountry => ConnectionProfile.torCountry
  | .torDirectSecs => ConnectionProfile.torDirectSecs
  | .torCheck => ConnectionProfile.torCheck
  | .chainedStage => ConnectionProfile.chainedStage

end Field

/-- The field of a setting. -/
def Key.field : Key → Field
  | .protocol => .protocol
  | .scanMode => .scanMode
  | .ipVersion => .ipVersion
  | .noize => .noize
  | .mtu => .mtu
  | .keepalive => .keepalive
  | .fragment => .fragment
  | .fragmentSize => .fragmentSize
  | .fragmentDelay => .fragmentDelay
  | .ech => .ech
  | .masqueHttp2 => .masqueHttp2
  | .quickReconnect => .quickReconnect
  | .fastEndpointOnly => .fastEndpointOnly
  | .endpointMode => .endpointMode
  | .exitRegion => .exitRegion
  | .dnsServers => .dnsServers
  | .routeSniff => .routeSniff
  | .routeSniffMs => .routeSniffMs
  | .tlsGroups => .tlsGroups
  | .validateSecs => .validateSecs
  | .reconnectSecs => .reconnectSecs
  | .noDataCheck => .noDataCheck
  | .noProfileRetry => .noProfileRetry
  | .smartReconnect => .smartReconnect
  | .reconnectRetryLimit => .reconnectRetryLimit
  | .ipv6LeakProtection => .ipv6LeakProtection
  | .killSwitch => .killSwitch
  | .autoReprovision => .autoReprovision
  | .coreLogLevel => .coreLogLevel

/-- The fields that no suggestion may reach: where traffic goes, who is protected, the
organisation and Tor. -/
def protectedFields : List Field :=
  [.backend, .upstreamProxy, .routeBlock, .routeDirect, .manualPeer, .manualRange, .proxyMode,
    .splitMode, .splitApps, .blockedApps, .strictKillSwitch, .lanShare, .team, .teamAuth,
    .accessClientId, .accessClientSecret, .accessEmail, .accessToken, .gateway, .torBridges,
    .torBridgeLines, .torCountry, .torDirectSecs, .torCheck]

/-- The field that a change names. -/
def AiChange.field (change : AiChange) : Option Field :=
  (keyWords.lookup (String.ofList (LanGuard.trim change.key))).map Key.field

/-! ### One change -/

variable {equalsIgnoreCase : Text → Text → Bool} {P : Platform} {p q : ConnectionProfile}
  {key raw : Text}

/-- Writing a setting changes its field only. -/
theorem write_frame {k : Key} (hk : keyWords.lookup (String.ofList key) = some k)
    (h : write equalsIgnoreCase P p key raw = some q) {f : Field} (hf : f ≠ k.field) :
    f.get q = f.get p := by
  unfold write at h
  rw [hk] at h
  cases k <;> (
    obtain ⟨v, -, rfl⟩ := Option.map_eq_some_iff.mp h
    cases f <;> first | rfl | exact absurd rfl hf)

/-- The mode of the endpoint can be set back to scanning, and nothing else. -/
theorem write_endpointMode (h : write equalsIgnoreCase P p key raw = some q) :
    q.endpointMode = p.endpointMode ∨ q.endpointMode = .auto := by
  cases hk : keyWords.lookup (String.ofList key) with
  | none =>
    unfold write at h
    rw [hk] at h
    exact nomatch h
  | some k =>
    by_cases hmode : k = .endpointMode
    · subst hmode
      unfold write at h
      rw [hk] at h
      obtain ⟨v, -, rfl⟩ := Option.map_eq_some_iff.mp h
      exact .inr rfl
    · have hfield : Field.endpointMode ≠ k.field := by
        cases k <;> first | exact absurd rfl hmode | exact Field.noConfusion
      exact .inl (write_frame hk h hfield)

theorem protected_ne_field (k : Key) : k.field ∉ protectedFields := by
  cases k <;> decide

/-- What one change does: it is refused, or it is applied and changes the profile. -/
theorem applyOne_cases (equalsIgnoreCase : Text → Text → Bool) (P : Platform) (r : AiPatchResult)
    (change : AiChange) :
    (∃ reason, ∀ s : AiPatchResult, s.profile = r.profile →
      applyOne equalsIgnoreCase P s change = s.reject change reason) ∨
    ∃ k q, keyWords.lookup (String.ofList (LanGuard.trim change.key)) = some k ∧
      write equalsIgnoreCase P r.profile (LanGuard.trim change.key) (LanGuard.trim change.value) =
        some q ∧
      ∀ s : AiPatchResult, s.profile = r.profile →
        applyOne equalsIgnoreCase P s change =
          { s with profile := q, applied := s.applied ++ [change] } := by
  unfold applyOne
  by_cases hkey : (!writable.contains (String.ofList (LanGuard.trim change.key))) = true
  · exact .inl ⟨_, fun s _ => if_pos hkey⟩
  · simp only [hkey, Bool.false_eq_true, if_false]
    cases hwrite : write equalsIgnoreCase P r.profile (LanGuard.trim change.key)
        (LanGuard.trim change.value) with
    | none =>
      refine .inl ⟨"value \"".toList ++ LanGuard.trim change.value ++
        "\" is not valid for ".toList ++ LanGuard.trim change.key, fun s hs => ?_⟩
      rw [hs, hwrite]
    | some q =>
      by_cases hsame : q = r.profile
      · refine .inl ⟨"already set to that value".toList, fun s hs => ?_⟩
        rw [hs, hwrite]
        exact if_pos hsame
      · cases hk : keyWords.lookup (String.ofList (LanGuard.trim change.key)) with
        | none =>
          unfold write at hwrite
          rw [hk] at hwrite
          exact nomatch hwrite
        | some k =>
          refine .inr ⟨k, q, rfl, rfl, fun s hs => ?_⟩
          rw [hs, hwrite]
          exact if_neg hsame

/-! ### All changes -/

/-- A list is put together from two others that keep their order. -/
inductive Splits {α : Type} : List α → List α → List α → Prop
  | nil : Splits [] [] []
  | left {l a b : List α} (x : α) (h : Splits l a b) : Splits (x :: l) (x :: a) b
  | right {l a b : List α} (x : α) (h : Splits l a b) : Splits (x :: l) a (x :: b)

namespace Splits

variable {α : Type} {l a b : List α}

theorem snoc_left (h : Splits l a b) (x : α) : Splits (l ++ [x]) (a ++ [x]) b := by
  induction h with
  | nil => exact .left x .nil
  | left y _ ih => exact .left y ih
  | right y _ ih => exact .right y ih

theorem snoc_right (h : Splits l a b) (x : α) : Splits (l ++ [x]) a (b ++ [x]) := by
  induction h with
  | nil => exact .right x .nil
  | left y _ ih => exact .left y ih
  | right y _ ih => exact .right y ih

end Splits

/-- What is known of the outcome of a list of changes. -/
structure Confined (equalsIgnoreCase : Text → Text → Bool) (P : Platform) (p : ConnectionProfile)
    (changes : List AiChange) (r : AiPatchResult) : Prop where
  /-- A field that no applied change names is left alone. -/
  frame : ∀ f : Field, (∀ change ∈ r.applied, change.field ≠ some f) → f.get r.profile = f.get p
  /-- The protected fields are left alone. -/
  kept : ∀ f ∈ protectedFields, f.get r.profile = f.get p
  endpointMode : r.profile.endpointMode = p.endpointMode ∨ r.profile.endpointMode = .auto
  /-- Every change is applied or rejected, in order. -/
  splits : Splits changes r.applied (r.rejected.map Prod.fst)
  /-- The changes that were applied can be applied again without the others. -/
  again : apply equalsIgnoreCase P p r.applied = ⟨r.profile, r.applied, []⟩

/-- **Suggestions stay within what they may change.** -/
theorem patch_confined (equalsIgnoreCase : Text → Text → Bool) (P : Platform)
    (p : ConnectionProfile) (changes : List AiChange) :
    Confined equalsIgnoreCase P p changes (apply equalsIgnoreCase P p changes) := by
  induction changes using List.reverseRecOn with
  | nil => exact ⟨fun _ _ => rfl, fun _ _ => rfl, .inl rfl, .nil, rfl⟩
  | append_singleton changes change ih =>
    have hstep : ∀ l : List AiChange, apply equalsIgnoreCase P p (l ++ [change]) =
        applyOne equalsIgnoreCase P (apply equalsIgnoreCase P p l) change := fun l => by
      rw [apply, List.foldl_append]
      rfl
    generalize hr : apply equalsIgnoreCase P p changes = r at ih
    rw [hstep, hr]
    obtain ⟨reason, hone⟩ | ⟨k, q, hk, hwrite, hone⟩ :=
      applyOne_cases equalsIgnoreCase P r change
    · rw [hone r rfl]
      refine ⟨ih.frame, ih.kept, ih.endpointMode, ?_, ih.again⟩
      rw [AiPatchResult.reject, List.map_append]
      exact ih.splits.snoc_right change
    · have hfield : change.field = some k.field := by rw [AiChange.field, hk]; rfl
      rw [hone r rfl]
      refine ⟨fun f hf => ?_, fun f hf => ?_, ?_, ih.splits.snoc_left change, ?_⟩
      · rw [List.forall_mem_append] at hf
        have hne : f ≠ k.field := fun heq =>
          hf.2 change List.mem_cons_self (hfield.trans (congrArg some heq.symm))
        exact (write_frame hk hwrite hne).trans (ih.frame f hf.1)
      · have hne : f ≠ k.field := fun heq => protected_ne_field k (heq ▸ hf)
        exact (write_frame hk hwrite hne).trans (ih.kept f hf)
      · obtain hmode | hmode := write_endpointMode hwrite
        · show q.endpointMode = _ ∨ q.endpointMode = _
          rw [hmode]
          exact ih.endpointMode
        · exact .inr hmode
      · rw [hstep, ih.again]
        exact hone ⟨r.profile, r.applied, []⟩ rfl

end Aether.AiPatch
