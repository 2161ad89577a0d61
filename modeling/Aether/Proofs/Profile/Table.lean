/-
The codec as a table of settings.

`settings` and `profileOf` are two lists of keys.  Both are one table, `table`, read in two ways,
and every fact about the codec is then one about all rows of the table.
-/
import Aether.Profile.Codec

namespace Aether.Profile

open KeyedLines
open Vpn (TransportBackend)

/-! ### Settings -/

/-- A setting that travels: its key, its place in a profile, and how it is written and read. -/
structure Setting where
  key : String
  Value : Type
  get : ConnectionProfile → Value
  set : Value → ConnectionProfile → ConnectionProfile
  write : Value → Text
  read : Option Text → Value

namespace Setting

/-- What the default profile has for a field. -/
def default {V : Type} (get : ConnectionProfile → V) : V := get {}

def text (key : String) (get : ConnectionProfile → Text)
    (set : Text → ConnectionProfile → ConnectionProfile) : Setting :=
  ⟨key, Text, get, set, id, fun o => o.getD (default get)⟩

def bool (key : String) (get : ConnectionProfile → Bool)
    (set : Bool → ConnectionProfile → ConnectionProfile) : Setting :=
  ⟨key, Bool, get, set, boolText, fun o => (o.bind toBooleanStrictOrNull).getD (default get)⟩

def int (P : Platform) (key : String) (get : ConnectionProfile → Int32)
    (set : Int32 → ConnectionProfile → ConnectionProfile) : Setting :=
  ⟨key, Int32, get, set, fun n => AiRedaction.intText n.toInt,
    fun o => (o.bind (toIntOrNull P)).getD (default get)⟩

def enum {E : Type} [KotlinEnum E] (key : String) (get : ConnectionProfile → E)
    (set : E → ConnectionProfile → ConnectionProfile) : Setting :=
  ⟨key, E, get, set, KotlinEnum.name, fun o => (o.bind enumOr).getD (default get)⟩

def apps (key : String) (get : ConnectionProfile → List Text)
    (set : List Text → ConnectionProfile → ConnectionProfile) : Setting :=
  ⟨key, List Text, get, set, joinApps, fun o => (o.map splitApps).getD (default get)⟩

def backend (P : Platform) : Setting :=
  ⟨"backend", TransportBackend, (·.backend), fun v p => { p with backend := v }, KotlinEnum.name,
    fun o => (o.bind (fromStoredName P)).getD (default (·.backend))⟩

end Setting

def table (P : Platform) : List Setting :=
  [.backend P,
    .text "exitRegion" (·.exitRegion) fun v p => { p with exitRegion := v },
    .enum "protocol" (·.protocol) fun v p => { p with protocol := v },
    .enum "scan" (·.scanMode) fun v p => { p with scanMode := v },
    .enum "ip" (·.ipVersion) fun v p => { p with ipVersion := v },
    .bool "quick" (·.quickReconnect) fun v p => { p with quickReconnect := v },
    .bool "h2" (·.masqueHttp2) fun v p => { p with masqueHttp2 := v },
    .bool "share" (·.lanShare) fun v p => { p with lanShare := v },
    .enum "noize" (·.noize) fun v p => { p with noize := v },
    .enum "endpoint" (·.endpointMode) fun v p => { p with endpointMode := v },
    .text "peer" (·.manualPeer) fun v p => { p with manualPeer := v },
    .text "range" (·.manualRange) fun v p => { p with manualRange := v },
    .int P "keepalive" (·.keepalive) fun v p => { p with keepalive := v },
    .bool "fragment" (·.fragment) fun v p => { p with fragment := v },
    .bool "ech" (·.ech) fun v p => { p with ech := v },
    .int P "mtu" (·.mtu) fun v p => { p with mtu := v },
    .bool "proxy" (·.proxyMode) fun v p => { p with proxyMode := v },
    .enum "split" (·.splitMode) fun v p => { p with splitMode := v },
    .apps "splitApps" (·.splitApps) fun v p => { p with splitApps := v },
    .bool "kill" (·.killSwitch) fun v p => { p with killSwitch := v },
    .bool "strictKill" (·.strictKillSwitch) fun v p => { p with strictKillSwitch := v },
    .bool "v6leak" (·.ipv6LeakProtection) fun v p => { p with ipv6LeakProtection := v },
    .bool "smartRe" (·.smartReconnect) fun v p => { p with smartReconnect := v },
    .int P "reLimit" (·.reconnectRetryLimit) fun v p => { p with reconnectRetryLimit := v },
    .text "fSize" (·.fragmentSize) fun v p => { p with fragmentSize := v },
    .text "fDelay" (·.fragmentDelay) fun v p => { p with fragmentDelay := v },
    .bool "noDataCheck" (·.noDataCheck) fun v p => { p with noDataCheck := v },
    .text "tlsGroups" (·.tlsGroups) fun v p => { p with tlsGroups := v },
    .int P "valSecs" (·.validateSecs) fun v p => { p with validateSecs := v },
    .int P "recSecs" (·.reconnectSecs) fun v p => { p with reconnectSecs := v },
    .bool "noProfRetry" (·.noProfileRetry) fun v p => { p with noProfileRetry := v },
    .enum "coreLog" (·.coreLogLevel) fun v p => { p with coreLogLevel := v },
    .apps "blockedApps" (·.blockedApps) fun v p => { p with blockedApps := v },
    .text "dns" (·.dnsServers) fun v p => { p with dnsServers := v },
    .text "routeBlock" (·.routeBlock) fun v p => { p with routeBlock := v },
    .text "routeDirect" (·.routeDirect) fun v p => { p with routeDirect := v },
    .bool "sniff" (·.routeSniff) fun v p => { p with routeSniff := v },
    .int P "sniffMs" (·.routeSniffMs) fun v p => { p with routeSniffMs := v },
    .text "upstream" (·.upstreamProxy) fun v p => { p with upstreamProxy := v },
    .bool "reprovision" (·.autoReprovision) fun v p => { p with autoReprovision := v },
    .bool "fastEndpoint" (·.fastEndpointOnly) fun v p => { p with fastEndpointOnly := v },
    .enum "teamAuth" (·.teamAuth) fun v p => { p with teamAuth := v },
    .text "team" (·.team) fun v p => { p with team := v },
    .text "accessId" (·.accessClientId) fun v p => { p with accessClientId := v },
    .text "accessEmail" (·.accessEmail) fun v p => { p with accessEmail := v },
    .bool "gateway" (·.gateway) fun v p => { p with gateway := v }]

theorem settings_eq (P : Platform) (p : ConnectionProfile) :
    settings p = (table P).map fun s => (s.key.toList, s.write (s.get p)) := rfl

theorem profileOf_eq (P : Platform) (map : String → Option Text) :
    profileOf P map = (table P).foldl (fun p s => s.set (s.read (map s.key)) p) {} := rfl

theorem foldl_set_congr {ss : List Setting} {v w : (s : Setting) → s.Value}
    (h : ∀ s ∈ ss, v s = w s) (p : ConnectionProfile) :
    ss.foldl (fun q s => s.set (v s) q) p = ss.foldl (fun q s => s.set (w s) q) p := by
  induction ss generalizing p with
  | nil => rfl
  | cons s ss ih =>
    rw [List.foldl_cons, List.foldl_cons, h s List.mem_cons_self]
    exact ih (fun t ht => h t (List.mem_cons_of_mem s ht)) _

/-! ### Keys -/

def keys : List Text := (settings {}).map (·.1)

theorem map_fst_settings (p : ConnectionProfile) : (settings p).map (·.1) = keys := rfl

theorem nodup_keys : keys.Nodup := by decide +kernel

theorem isKey_of_mem_settings {p : ConnectionProfile} {a : Text × Text} (ha : a ∈ settings p) :
    IsKey a.1 := by
  have hkeys :
      keys.all (fun k => !k.isEmpty && k.all (fun c => !isBreak c && c != '=')) = true := by
    decide +kernel
  have hmem : a.1 ∈ keys := map_fst_settings p ▸ List.mem_map_of_mem ha
  have hkey := List.all_eq_true.mp hkeys a.1 hmem
  simp only [Bool.and_eq_true, List.all_eq_true, Bool.not_eq_true', bne_iff_ne] at hkey
  exact ⟨by simpa using hkey.1, fun c hc => (hkey.2 c hc).1, fun hmem => (hkey.2 '=' hmem).2 rfl⟩

theorem assignments_encode (p : ConnectionProfile) :
    assignments (encode p) = (settings p).flatMap fun a => (a.1, first a.2) :: further a.2 :=
  assignments_joinLines fun _ => isKey_of_mem_settings

/-- What the service reads is made of the assignments. -/
theorem decode_encode (P : Platform) (p : ConnectionProfile) :
    decode P (some (encode p)) =
      profileOf P fun key => lookup key.toList (assignments (encode p)) := by
  have hblank : Text.isBlank (encode p) = false := rfl
  have hequals : (encode p).contains '=' = true := rfl
  rw [decode, hblank, hequals]
  rfl

/-! ### Values -/

theorem enumOr_name {E : Type} [KotlinEnum E] (e : E) : enumOr (KotlinEnum.name e) = some e := by
  unfold enumOr
  cases hfind : (KotlinEnum.entries (E := E)).find?
      fun x => KotlinEnum.name x == KotlinEnum.name e with
  | none =>
    have hnot := List.find?_eq_none.mp hfind e (KotlinEnum.mem_entries e)
    exact absurd (beq_self_eq_true _) hnot
  | some x =>
    have hx : KotlinEnum.name x = KotlinEnum.name e := by simpa using List.find?_some hfind
    rw [KotlinEnum.name_injective hx]

theorem noBreak_of_all {t : Text} {q : Char → Bool} (ht : t.all q = true)
    (hq : q '\n' = false ∧ q '\r' = false) : NoBreak t := by
  intro c hc
  have hqc := List.all_eq_true.mp ht c hc
  simp only [isBreak, Bool.or_eq_false_iff, beq_eq_false_iff_ne]
  constructor
  · rintro rfl
    rw [hq.1] at hqc
    exact absurd hqc (by decide)
  · rintro rfl
    rw [hq.2] at hqc
    exact absurd hqc (by decide)

theorem noBreak_name {E : Type} [KotlinEnum E] (e : E) : NoBreak (KotlinEnum.name e) :=
  noBreak_of_all (KotlinEnum.name_identifier e) (by decide)

theorem fromStoredName_name (P : Platform) (b : TransportBackend) :
    fromStoredName P (KotlinEnum.name b) = some b := by
  have hupper : P.uppercase (LanGuard.trim (KotlinEnum.name b)) = KotlinEnum.name b := by
    have htrim : LanGuard.trim (KotlinEnum.name b) = KotlinEnum.name b := by cases b <;> decide
    have hascii : (KotlinEnum.name b).all (fun c => c.toNat < 128) = true := by cases b <;> decide
    rw [htrim, P.uppercase_ascii _ fun c hc => by simpa using List.all_eq_true.mp hascii c hc]
    cases b <;> decide
  have hold : KotlinEnum.name b ≠ "PSIPHON".toList := by cases b <;> decide
  unfold fromStoredName
  simp only [hupper, if_neg hold, enumOr_name]

theorem noBreak_intText (n : Int) : NoBreak (AiRedaction.intText n) := by
  have hdigits : ∀ n : Nat, (Nat.toDigits 10 n).all (fun c => c.isDigit || c == '-') = true := by
    intro n
    refine List.all_eq_true.mpr fun c hc => ?_
    have hdigit : c.isDigit = true := Nat.isDigit_of_mem_toDigits (by decide) (by decide) hc
    rw [hdigit]
    rfl
  refine noBreak_of_all (q := fun c => c.isDigit || c == '-') ?_ (by decide)
  cases n with
  | ofNat n => exact hdigits n
  | negSucc n =>
    rw [AiRedaction.intText, List.all_cons, hdigits]
    decide

section Digits

variable {t : Text} {F : AiRedaction.Flavour}

theorem toNat_lt_of_isDigit {c : Char} (hc : c.isDigit = true) : c.toNat < 128 := by
  simp only [Char.isDigit, Bool.and_eq_true, decide_eq_true_eq] at hc
  have hle : c.toNat ≤ 57 := UInt32.le_iff_toNat_le.mp hc.2
  omega

theorem mapM_digitOf (ht : ∀ c ∈ t, c.isDigit = true) :
    t.mapM F.digitOf = some (t.map fun c => c.toNat - 48) := by
  induction t with
  | nil => rfl
  | cons c t ih =>
    have hc := ht c List.mem_cons_self
    have hdigit : F.digitOf c = some (c.toNat - 48) := by
      rw [F.digitOf_ascii c (toNat_lt_of_isDigit hc), if_pos hc]
      rfl
    rw [List.mapM_cons, hdigit, ih fun d hd => ht d (List.mem_cons_of_mem c hd)]
    rfl

theorem splitSign_digits (ht : ∀ c ∈ t, c.isDigit = true) : Share.splitSign t = (false, t) := by
  unfold Share.splitSign
  split
  · exact absurd (ht '-' List.mem_cons_self) (by decide)
  · exact absurd (ht '+' List.mem_cons_self) (by decide)
  · rfl

theorem foldl_digits (t : Text) (n : Nat) :
    (t.map fun c => c.toNat - 48).foldl (fun n v => n * 10 + v) n = Nat.ofDigitChars 10 t n := by
  induction t generalizing n with
  | nil => rfl
  | cons c t ih =>
    rw [List.map_cons, List.foldl_cons, ih, Nat.mul_comm]
    rfl

/-- The value of the digits of a number. -/
theorem foldl_toDigits (n : Nat) :
    ((Nat.toDigits 10 n).map fun c => c.toNat - 48).foldl (fun n v => n * 10 + v) 0 = n := by
  rw [foldl_digits]
  exact Nat.ofDigitChars_toDigits (by decide) (by decide)

end Digits

theorem toIntOrNull_intText (P : Platform) (n : Int32) :
    toIntOrNull P (AiRedaction.intText n.toInt) = some n := by
  have hlo : -2147483648 ≤ n.toInt := n.le_toInt
  have hhi : n.toInt ≤ 2147483647 := Int.le_of_lt_add_one n.toInt_lt
  have hdigits : ∀ m : Nat, ∀ c ∈ Nat.toDigits 10 m, c.isDigit = true := fun m c hc =>
    Nat.isDigit_of_mem_toDigits (by decide) (by decide) hc
  have hread : AiRedaction.toIntOrNull P.flavour (AiRedaction.intText n.toInt) = some n.toInt := by
    generalize n.toInt = i at hlo hhi ⊢
    cases i with
    | ofNat m =>
      have hrange : -2147483648 ≤ (m : Int) ∧ (m : Int) ≤ 2147483647 := ⟨hlo, hhi⟩
      unfold AiRedaction.toIntOrNull AiRedaction.intText
      rw [splitSign_digits (hdigits m)]
      dsimp only
      rw [if_neg Nat.toDigits_ne_nil, mapM_digitOf (hdigits m), Option.bind_eq_bind,
        Option.bind_some, foldl_toDigits, if_neg Bool.false_ne_true, if_pos hrange]
      rfl
    | negSucc m =>
      have hrange : -2147483648 ≤ -((m + 1 : Nat) : Int) ∧ -((m + 1 : Nat) : Int) ≤ 2147483647 :=
        ⟨hlo, hhi⟩
      unfold AiRedaction.toIntOrNull AiRedaction.intText
      rw [Share.splitSign]
      dsimp only
      rw [if_neg Nat.toDigits_ne_nil, mapM_digitOf (hdigits (m + 1)),
        Option.bind_eq_bind, Option.bind_some, foldl_toDigits, if_pos rfl, if_pos hrange]
      rfl
  rw [toIntOrNull, hread, Option.map_some, Int32.ofInt_toInt]

end Aether.Profile
