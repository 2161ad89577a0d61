/-
What the engine finds in its environment once a profile has been launched.

Every block of `toArgs` is read to its end and changes the variables of its own options only, so
whatever the profile holds, the command line is accepted (`launch_ok`), and a variable is what the
last block that names it made of it.
-/
import Aether.Profile.Launch
import Aether.Proofs.Engine.Cli

namespace Aether.Profile

open Engine

variable {P : Platform} {p : ConnectionProfile}

namespace ConnectionProfile

/-! ### The blocks -/

variable {key flag : String} {keys : List String} {values values' : List (String × Text)}

theorem spares_flagIf {other value : String} (h : operationOf flag = some (.set [(other, value)]))
    (hkey : key ∉ [other]) (condition : Bool) : Gives key id (flagIf condition flag) :=
  (Gives.set_other h hkey).ite (condition = true)

theorem spares_listArg (h : operationOf flag = some (.setNext keys)) (hkey : key ∉ keys)
    (entries : List Text) : Gives key id (listArg flag entries) := by
  unfold listArg
  split
  · exact .nil key
  · exact .setNext_other h hkey _

theorem spares_optionArg (h : operationOf flag = some (.setNext keys)) (hkey : key ∉ keys)
    (value : Option Text) : Gives key id (optionArg flag value) := by
  cases value with
  | none => exact .nil key
  | some value => exact .setNext_other h hkey value

theorem spares_torModeArgs (p : ConnectionProfile) (hmode : key ∉ ["AETHER_TOR"])
    (hkey : key ∉ ["AETHER_TOR_BIND"]) : Gives key id p.torModeArgs := by
  have hbind : Gives key id torBind := .setNext_other rfl hkey _
  have hchain : Gives key id ["--tor".toList] := .set_other rfl hmode
  have hreverse : Gives key id ["--tor-reverse".toList] := .set_other rfl hmode
  unfold torModeArgs
  split
  · exact .nil key
  · exact hchain.keep hbind
  · exact .set_other rfl hmode
  · exact hreverse.keep hbind

theorem spares_bridgeArgs (P : Platform) (p : ConnectionProfile)
    (hkey : key ∉ ["AETHER_TOR_BRIDGES"]) : Gives key id (p.bridgeArgs P) := by
  unfold bridgeArgs
  refine Gives.ite (Gives.keep ?_ (.appendNext_other rfl hkey _)) _
  split
  · exact .nil key
  · exact .set_other rfl hkey
  · exact .set_other rfl hkey

theorem spares_protocolArgs (p : ConnectionProfile) (hkey : key ∉ ["AETHER_PROTOCOL"]) :
    Gives key id p.protocolArgs := by
  unfold protocolArgs
  split
  · exact .nil key
  all_goals exact .set_other rfl hkey

theorem spares_scanArgs (p : ConnectionProfile) (hkey : key ∉ ["AETHER_SCAN"]) :
    Gives key id p.scanArgs := by
  unfold scanArgs
  split
  · exact .nil key
  · split
    all_goals exact .set_other rfl hkey

theorem spares_ipArgs (p : ConnectionProfile) (hkey : key ∉ ["AETHER_IP"]) :
    Gives key id p.ipArgs := by
  unfold ipArgs
  split
  all_goals exact .set_other rfl hkey

theorem spares_quickReconnect (p : ConnectionProfile) (hkey : key ∉ ["AETHER_QUICK_RECONNECT"]) :
    Gives key id
      [(if p.quickReconnect then "--quick-reconnect" else "--no-quick-reconnect").toList] := by
  split
  · exact .set_other rfl hkey
  · exact .set_other rfl hkey

/-- The variables that the options of a tunnel set, but for that of `--dns`. -/
def tunnelKeys : List String :=
  ["AETHER_PROTOCOL", "AETHER_SCAN", "AETHER_IP", "AETHER_QUICK_RECONNECT", "AETHER_NOIZE",
    "AETHER_PEER", "AETHER_MASQUE_H2_FRAGMENT", "AETHER_ECH", "AETHER_WG_KEEPALIVE",
    "AETHER_TEAM", "AETHER_GATEWAY", "AETHER_ROUTE_BLOCK", "AETHER_ROUTE_DIRECT",
    "AETHER_MASQUE_H2_FRAGMENT_SIZE", "AETHER_MASQUE_H2_FRAGMENT_DELAY", "AETHER_TLS_GROUPS",
    "AETHER_MASQUE_VALIDATE_SECS", "AETHER_WG_VALIDATE_SECS", "AETHER_MASQUE_RECONNECT_SECS",
    "AETHER_WG_RECONNECT_SECS", "AETHER_WG_NO_PROFILE_RETRY"]

/-- What `--dns` does to a variable in `tunnelArgs` is all that happens to it there. -/
theorem gives_tunnelArgs {key : String} {f : Option Text → Option Text} (hkey : key ∉ tunnelKeys)
    (hdns : Gives key f (listArg "--dns" (p.sanitizedDns P))) : Gives key f (p.tunnelArgs P) := by
  have hout : ∀ {keys : List String}, (∀ k ∈ keys, k ∈ tunnelKeys) → key ∉ keys :=
    fun hsub hmem => hkey (hsub key hmem)
  have hteam : Gives key id (if p.hasTeam then
      ["--team".toList, LanGuard.trim p.team] ++ flagIf p.gateway "--gateway" else []) :=
    .ite (.keep (.setNext_other rfl (hout (by decide)) _)
      (spares_flagIf rfl (hout (by decide)) _)) _
  -- the blocks before `--dns`, then those behind it
  refine .keep (.keep (.keep (.keep (.keep (.keep (.keep (.keep (.append (f := id) ?_ hdns)
    hteam)
    (spares_listArg rfl (hout (by decide)) _))
    (spares_listArg rfl (hout (by decide)) _))
    (.ite (.keep (spares_optionArg rfl (hout (by decide)) _)
      (spares_optionArg rfl (hout (by decide)) _)) _))
    (spares_optionArg rfl (hout (by decide)) _))
    (.ite (.setNext_other rfl (hout (by decide)) _) _))
    (.ite (.setNext_other rfl (hout (by decide)) _) _))
    (spares_flagIf rfl (hout (by decide)) _)
  exact .keep (.keep (.keep (.keep (.keep (.keep (.keep (.keep
    (spares_protocolArgs p (hout (by decide)))
    (spares_scanArgs p (hout (by decide))))
    (spares_ipArgs p (hout (by decide))))
    (spares_quickReconnect p (hout (by decide))))
    (.ite (.setNext_other rfl (hout (by decide)) _) _))
    (.ite (.setNext_other rfl (hout (by decide)) _) _))
    (spares_flagIf rfl (hout (by decide)) _))
    (.ite (.setNext_other rfl (hout (by decide)) _) _))
    (.ite (.setNext_other rfl (hout (by decide)) _) _)

/-- What the bridges and the resolvers do to a variable is all that happens to it. -/
theorem gives_toArgs {key : String} {f g : Option Text → Option Text} (hkey : key ∉ tunnelKeys)
    (hmode : key ∉ ["AETHER_TOR"]) (hbind : key ∉ ["AETHER_TOR_BIND"])
    (hbridges : Gives key f (p.bridgeArgs P))
    (hdns : Gives key g (listArg "--dns" (p.sanitizedDns P))) :
    Gives key (fun old => g (f old)) (p.toArgs P) := by
  have htail : Gives key g (if p.backend.usesWarp then p.tunnelArgs P
      else listArg "--dns" (p.sanitizedDns P)) := by
    split
    · exact gives_tunnelArgs hkey hdns
    · exact hdns
  exact ((spares_torModeArgs p hmode hbind).append hbridges).append htail

/-! ### The variables of the process -/

/-- Only these variables are put. -/
def Puts (keys : List String) (values : List (String × Text)) : Prop :=
  ∀ pair ∈ values, pair.1 ∈ keys

theorem Puts.append (h : Puts keys values) (h' : Puts keys values') :
    Puts keys (values ++ values') :=
  List.forall_mem_append.mpr ⟨h, h'⟩

theorem Puts.ite (c : Prop) [Decidable c] (h : Puts keys values) (h' : Puts keys values') :
    Puts keys (if c then values else values') := by
  split
  · exact h
  · exact h'

theorem puts_nil (keys : List String) : Puts keys [] := fun _ h => absurd h List.not_mem_nil

theorem puts_cons {value : Text} (h : key ∈ keys) (hvalues : Puts keys values) :
    Puts keys ((key, value) :: values) :=
  List.forall_mem_cons.mpr ⟨h, hvalues⟩

theorem puts_one {value : Text} (h : key ∈ keys) : Puts keys [(key, value)] :=
  puts_cons h (puts_nil keys)

theorem puts_optionEnv (h : key ∈ keys) (value : Option Text) :
    Puts keys (optionEnv key value) := by
  cases value with
  | none => exact puts_nil keys
  | some value => exact puts_one h

/-- The variables of `toEnv`, but for the upstream. -/
def envKeys : List String :=
  ["AETHER_MASQUE_HTTP2", "AETHER_SCAN_CIDRS", "AETHER_MASQUE_CIDRS", "AETHER_WG_CIDRS",
    "AETHER_ACCESS_CLIENT_ID", "AETHER_ACCESS_CLIENT_SECRET", "AETHER_ACCESS_EMAIL",
    "AETHER_ACCESS_TOKEN", "AETHER_MASQUE_NO_DATA_CHECK", "AETHER_WG_NO_DATA_CHECK",
    "AETHER_MASQUE_VALIDATE_SECS", "AETHER_MASQUE_RECONNECT_SECS", "AETHER_WG_RECONNECT_SECS",
    "AETHER_WG_NO_PROFILE_RETRY", "AETHER_TLS_GROUPS", "AETHER_LOG_LEVEL", "AETHER_TOR_CHECK",
    "AETHER_TOR_COUNTRY", "AETHER_TOR_DIRECT_SECS", "AETHER_TOR_LOG", "AETHER_ROUTE_SNIFF",
    "AETHER_ROUTE_SNIFF_MS", "AETHER_REPROVISION", "AETHER_QUICK_RECONNECT_MAX_RTT_MS",
    "AETHER_QUICK_RECONNECT_MAX_HANDSHAKE_MS", "AETHER_SCAN_GOOD_RTT_MS"]

theorem puts_cidrEnv (p : ConnectionProfile) : Puts envKeys p.cidrEnv :=
  Puts.ite _ (puts_cons (by decide) (puts_cons (by decide) (puts_one (by decide)))) (puts_nil _)

theorem puts_teamEnv (p : ConnectionProfile) : Puts envKeys p.teamEnv := by
  unfold teamEnv
  refine Puts.ite _ ?_ (puts_nil _)
  split
  · exact (puts_optionEnv (by decide) _).append (puts_optionEnv (by decide) _)
  · exact puts_optionEnv (by decide) _
  · exact puts_optionEnv (by decide) _
  · exact puts_nil _

theorem puts_tuningEnv (p : ConnectionProfile) : Puts envKeys p.tuningEnv :=
  (((((Puts.ite _ (puts_cons (by decide) (puts_one (by decide))) (puts_nil _)).append
    (Puts.ite _ (puts_one (by decide)) (puts_nil _))).append
    (Puts.ite _ (puts_cons (by decide) (puts_one (by decide))) (puts_nil _))).append
    (Puts.ite _ (puts_one (by decide)) (puts_nil _))).append
    (puts_optionEnv (by decide) _)).append
    (Puts.ite _ (puts_one (by decide)) (puts_nil _))

theorem puts_torEnv (P : Platform) (p : ConnectionProfile) : Puts envKeys (p.torEnv P) :=
  Puts.ite _
    (((puts_optionEnv (by decide) _).append
      (Puts.ite _
        ((puts_optionEnv (by decide) _).append (Puts.ite _ (puts_one (by decide)) (puts_nil _)))
        (puts_nil _))).append
      (Puts.ite _ (puts_one (by decide)) (puts_nil _)))
    (puts_nil _)

theorem puts_endpointEnv (p : ConnectionProfile) : Puts envKeys p.endpointEnv :=
  Puts.ite _ (puts_cons (by decide) (puts_cons (by decide) (puts_one (by decide)))) (puts_nil _)

/-- The upstream comes last. -/
theorem toEnv_eq (P : Platform) (p : ConnectionProfile) :
    ∃ others, Puts envKeys others ∧
      p.toEnv P = others ++ optionEnv "AETHER_UPSTREAM" (p.sanitizedUpstream P) := by
  refine ⟨_, ?_, rfl⟩
  exact ((((((((puts_one (by decide)).append (puts_cidrEnv p)).append (puts_teamEnv p)).append
    (puts_tuningEnv p)).append (puts_torEnv P p)).append
    (Puts.ite _ (puts_nil _) (puts_one (by decide)))).append
    (Puts.ite _ (puts_one (by decide)) (puts_nil _))).append
    (Puts.ite _ (puts_nil _) (puts_one (by decide)))).append (puts_endpointEnv p)

end ConnectionProfile

theorem putAll_append (env : Environment) (values values' : List (String × Text)) :
    putAll env (values ++ values') = putAll (putAll env values) values' :=
  List.foldl_append

theorem putAll_other {env : Environment} {keys : List String} {values : List (String × Text)}
    {key : String} (h : ConnectionProfile.Puts keys values) (hkey : key ∉ keys) :
    putAll env values key = env key := by
  induction values generalizing env with
  | nil => rfl
  | cons pair values ih =>
    obtain ⟨hpair, hvalues⟩ := List.forall_mem_cons.mp h
    have hne : key ≠ pair.1 := fun heq => hkey (heq ▸ hpair)
    show putAll (env.set pair.1 pair.2) values key = env key
    rw [ih hvalues, Environment.set_other hne]

/-! ### A launched engine -/

/-- The variables that `AetherProcess` puts itself. -/
def processKeys : List String :=
  ["HOME", "TMPDIR", "AETHER_TOR_DIR", "AETHER_TOR_PT_DIR", "AETHER_TOR_PT"]

open ConnectionProfile in
theorem puts_processEnv (D : Device) (p : ConnectionProfile) :
    Puts processKeys (D.processEnv p) :=
  (puts_cons (by decide) (puts_one (by decide))).append
    (Puts.ite _
      ((puts_cons (by decide) (puts_one (by decide))).append
        (Puts.ite _ (puts_one (by decide)) (puts_nil _)))
      (puts_nil _))

namespace Device

variable {D : Device} {key : String}

open ConnectionProfile in
/-- What the profile does not put, the engine inherits. -/
theorem environment_other (henv : key ∉ envKeys) (hupstream : key ≠ "AETHER_UPSTREAM")
    (hprocess : key ∉ processKeys) : D.environment p key = D.inherited key := by
  obtain ⟨others, hothers, heq⟩ := toEnv_eq D.platform p
  have hlast : Puts ["AETHER_UPSTREAM"]
      (optionEnv "AETHER_UPSTREAM" (p.sanitizedUpstream D.platform)) :=
    puts_optionEnv (by decide) _
  rw [environment, putAll_other (puts_processEnv D p) hprocess, heq, putAll_append,
    putAll_other hlast (by simpa using hupstream), putAll_other hothers henv]

/-- A launched engine runs, and finds in a variable what the arguments made of it. -/
theorem launch_ok {f : Option Text → Option Text} (h : Gives key f (p.toArgs D.platform)) :
    ∃ env, D.launch p = .ok (.run, env) ∧ env key = f (D.environment p key) :=
  h (D.environment p)

open ConnectionProfile in
/-- Whatever a profile holds, the engine accepts its command line. -/
theorem launches (D : Device) (p : ConnectionProfile) : ∃ env, D.launch p = .ok (.run, env) := by
  have hbridges : Gives "HOME" id (p.bridgeArgs D.platform) :=
    spares_bridgeArgs D.platform p (by decide)
  have hdns : Gives "HOME" id (listArg "--dns" (p.sanitizedDns D.platform)) :=
    spares_listArg rfl (by decide) _
  obtain ⟨env, hlaunch, -⟩ :=
    launch_ok (gives_toArgs (by decide) (by decide) (by decide) hbridges hdns)
  exact ⟨env, hlaunch⟩

end Device

/-- An app that inherits nothing. -/
def bareDevice : Device where
  platform := .ascii
  inherited _ := none
  workingDir := "/data".toList
  nativeLibDir := "/lib".toList
  lyrebird := true

end Aether.Profile
