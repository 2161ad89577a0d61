/-
Whom the bridge dials for.

A connection is taken up only from a local address.  A handler dials for a client that is not on
this device only behind a check, and what it checks against are the values it read from the
flows: a user and a password that were each in force at some time between its first read and
the check.
-/
import Aether.Share.Access

namespace Aether.Share

open List

open LanGuard (unwrapMapped)

/-! ### Addresses -/

variable {ip : IpAddr} {n len : Nat} {c : Client} {password : Text} {sha256 : Bytes → Bytes}

/-- The first bits of the local nets. -/
theorem localNets_v4 {ip : Ipv4Addr} : (∃ net ∈ localNets, net.contains (.v4 ip) = true) ↔
    ip.toNat / 2 ^ 24 = 0x7f ∨ ip.toNat / 2 ^ 16 = 0xa9fe ∨ ip.toNat / 2 ^ 24 = 0x0a ∨
      ip.toNat / 2 ^ 20 = 0xac1 ∨ ip.toNat / 2 ^ 16 = 0xc0a8 := by
  simp [localNets, IpNet.contains]
  omega

theorem localNets_v6 {ip : Ipv6Addr} : (∃ net ∈ localNets, net.contains (.v6 ip) = true) ↔
    ip.toNat = 1 ∨ ip.toNat / 2 ^ 118 = 0x3fa ∨ ip.toNat / 2 ^ 121 = 0x7e ∨
      ip.toNat / 2 ^ 118 = 0x3fb := by
  simp [localNets, IpNet.contains]
  omega

/-- The first bits of a number, told from a mask. -/
theorem div_of_and_mask {value w k : Nat} (hn : n < 2 ^ w) (hk : k ≤ w)
    (h : n &&& (2 ^ w - 2 ^ k) = value) : n / 2 ^ k = value / 2 ^ k := by
  have hpow : 2 ^ w = 2 ^ (w - k) * 2 ^ k := by
    rw [← Nat.pow_add, Nat.sub_add_cancel hk]
  have hmask : (2 ^ w - 2 ^ k) / 2 ^ k = 2 ^ (w - k) - 1 := by
    have hfactor : 2 ^ w - 2 ^ k = (2 ^ (w - k) - 1) * 2 ^ k := by
      rw [Nat.sub_mul, Nat.one_mul, ← hpow]
    rw [hfactor]
    exact Nat.mul_div_cancel _ (Nat.two_pow_pos k)
  have hlt : n / 2 ^ k < 2 ^ (w - k) := by
    rw [Nat.div_lt_iff_lt_mul (Nat.two_pow_pos k), ← hpow]
    exact hn
  rw [← h, ← Nat.shiftRight_eq_div_pow (_ &&& _), Nat.shiftRight_and_distrib,
    Nat.shiftRight_eq_div_pow, Nat.shiftRight_eq_div_pow, hmask, Nat.and_two_pow_sub_one_eq_mod,
    Nat.mod_eq_of_lt hlt]

theorem loopbackNets_of_isLoopback (h : ip.isLoopback = true) :
    ∃ net ∈ loopbackNets, net.contains ip = true := by
  cases ip with
  | v4 ip =>
    simp only [IpAddr.isLoopback, Ipv4Addr.octet, beq_iff_eq] at h
    simp [loopbackNets, IpNet.contains]
    omega
  | v6 ip =>
    simp only [IpAddr.isLoopback, beq_iff_eq] at h
    simp [loopbackNets, IpNet.contains, h]

/-- **What passes for local is in one of the local nets.** -/
theorem localNets_of_isLocal (h : LanGuard.isLocalNetworkAddress (some ip) = true) :
    ∃ net ∈ localNets, net.contains (unwrapMapped ip) = true := by
  unfold LanGuard.isLocalNetworkAddress at h
  dsimp only at h
  generalize unwrapMapped ip = addr at h ⊢
  cases addr with
  | v4 ip =>
    have hmask : ip.octet 1 &&& 0xf0 = 16 → ip.octet 1 / 2 ^ 4 = 1 :=
      div_of_and_mask (w := 8) (k := 4) (Nat.mod_lt _ (by decide)) (by decide)
    simp [IpAddr.isLoopback, LanGuard.isLinkLocalAddress, LanGuard.isSiteLocalAddress] at h
    simp only [Ipv4Addr.octet] at h hmask
    rw [localNets_v4]
    omega
  | v6 ip =>
    have hlink : ip.segment 0 &&& 0xffc0 = 0xfe80 → ip.segment 0 / 2 ^ 6 = 0x3fa :=
      div_of_and_mask (w := 16) (k := 6) (Nat.mod_lt _ (by decide)) (by decide)
    have hsite : ip.segment 0 &&& 0xffc0 = 0xfec0 → ip.segment 0 / 2 ^ 6 = 0x3fb :=
      div_of_and_mask (w := 16) (k := 6) (Nat.mod_lt _ (by decide)) (by decide)
    have hunique : ip.segment 0 / 256 &&& 0xfe = 0xfc → ip.segment 0 / 256 / 2 ^ 1 = 0x7e :=
      div_of_and_mask (w := 8) (k := 1) (by unfold Ipv6Addr.segment; omega) (by decide)
    simp [IpAddr.isLoopback, LanGuard.isLinkLocalAddress, LanGuard.isSiteLocalAddress] at h
    simp only [Ipv6Addr.segment] at h hlink hsite hunique
    rw [localNets_v6]
    omega

/-- No local net has an address that carriers share. -/
theorem sharedNet_of_localNets (h : ∃ net ∈ localNets, net.contains ip = true) :
    sharedNet.contains ip = false := by
  cases ip with
  | v6 ip => rfl
  | v4 ip =>
    rw [localNets_v4] at h
    simp [sharedNet, IpNet.contains]
    omega

/-! ### What a client has sent -/

theorem readExact_eq {input a b : Bytes} (h : readExact n input = some (a, b)) :
    input = a ++ b ∧ a.length = n := by
  unfold readExact at h
  split at h
  · cases h
  · next hlen =>
      cases h
      exact ⟨(take_append_drop n input).symm, length_take_of_le (Nat.le_of_not_lt hlen)⟩

/-- The octet of a length is the one that was read. -/
theorem ofNat_length {n : UInt8} {bytes : Bytes} (h : bytes.length = n.toNat) :
    UInt8.ofNat bytes.length = n ∧ bytes.length < 256 := by
  rw [h]
  exact ⟨UInt8.ofNat_toNat, n.toNat_lt⟩

/-- What is offered by RFC 1929 stands in the input. -/
theorem sent_of_offeredSocks (hsocks : c.listener = .socks) {replies rest : Bytes} {user : Text}
    (h : offeredSocks c.input = (replies, some (user, password, rest))) : c.Sent user password := by
  revert h
  fun_cases offeredSocks c.input <;> intro h
  case case4 version methodCount input₁ hgreeting hversion methods input₂ hmethods hmethod =>
    have hoffer := (Prod.mk.inj h).2
    simp only [Option.bind_eq_bind, Option.bind_eq_some_iff] at hoffer
    obtain ⟨⟨header, input₃⟩, hheader, hoffer⟩ := hoffer
    dsimp only at hoffer
    split at hoffer
    · cases hoffer
    next hone =>
    obtain ⟨⟨userBytes, input₄⟩, huser, hoffer⟩ := Option.bind_eq_some_iff.mp hoffer
    obtain ⟨⟨passLen, input₅⟩, hlen, hoffer⟩ := Option.bind_eq_some_iff.mp hoffer
    obtain ⟨⟨passwordBytes, input₆⟩, hpassword, hoffer⟩ := Option.bind_eq_some_iff.mp hoffer
    cases hoffer
    obtain ⟨hin, -⟩ := readExact_eq hgreeting
    obtain ⟨hin₁, hmethodsLen⟩ := readExact_eq hmethods
    obtain ⟨hin₂, hheaderLen⟩ := readExact_eq hheader
    obtain ⟨hin₃, huserLen⟩ := readExact_eq huser
    obtain ⟨hin₄, hpassLen⟩ := readExact_eq hlen
    obtain ⟨hin₅, hpasswordLen⟩ := readExact_eq hpassword
    obtain ⟨first, second, rfl⟩ := length_eq_two.mp hheaderLen
    obtain ⟨count, rfl⟩ := length_eq_one_iff.mp hpassLen
    have hfirst : first = 1 := by simpa using hone
    have hfive : version = 5 := by
      by_contra hne
      exact hversion (.inl hne)
    obtain ⟨hmethodsOctet, hmethodsLt⟩ := ofNat_length hmethodsLen
    obtain ⟨huserOctet, huserLt⟩ := ofNat_length huserLen
    obtain ⟨hpasswordOctet, hpasswordLt⟩ := ofNat_length hpasswordLen
    unfold Client.Sent
    rw [hsocks]
    refine ⟨methods, userBytes, passwordBytes, input₆, ?_, hmethodsLt, huserLt, hpasswordLt,
      not_not.mp hmethod, rfl, rfl⟩
    rw [hmethodsOctet, huserOctet, hpasswordOctet, hin, hin₁, hin₂, hin₃,
      show input₄ = [count] ++ input₅ from hin₄,
      show input₅ = passwordBytes ++ input₆ from hin₅, hfirst, hfive]
    simp
  all_goals cases h

theorem eq_singleton_of_octet {bytes : Bytes} (h : 1 = UInt8.ofNat bytes.length)
    (hlt : bytes.length < 256) : ∃ b, bytes = [b] := by
  have hlen := congrArg UInt8.toNat h
  rw [UInt8.toNat_ofNat_of_lt' hlt] at hlen
  exact length_eq_one_iff.mp hlen.symm

theorem encode_injective {a b : Text} (h : Utf8.encode a = Utf8.encode b) : a = b := by
  have hdecoded := congrArg Utf8.decodeLossy h
  rwa [Utf8.decodeLossy_encode, Utf8.decodeLossy_encode] at hdecoded

theorem eq_of_secretEquals {expected offered : Text}
    (h : LanGuard.secretEquals sha256 expected offered = true)
    (hsep : Separates sha256 expected offered) : offered = expected := by
  unfold LanGuard.secretEquals at h
  split at h
  · cases h
  · exact (encode_injective (hsep (beq_iff_eq.mp h))).symm

/-- The check that a credential was passed, for the values that were read. -/
def Passed (sha256 : Bytes → Bytes) (c : Client) (user password : Text) : Prop :=
  Text.isBlank password = false ∧ ∃ user' password', c.Sent user' password' ∧
    LanGuard.secretEquals sha256 user user' = true ∧
    LanGuard.secretEquals sha256 password password' = true

theorem passed_of_socks (hsocks : c.listener = .socks) {user : Text}
    (hremote : LanGuard.isLoopback c.inetAddress = false)
    (h : (c.serve sha256 user password).dialled ≠ none) : Passed sha256 c user password := by
  unfold Client.serve at h
  rw [hsocks] at h
  dsimp only at h
  unfold serveSocksClient at h
  rw [hremote, if_neg (by decide)] at h
  split at h
  · exact absurd rfl h
  next replies rest hauth =>
    revert hauth
    fun_cases authenticateSocks <;> intro hauth <;> cases hauth
    next hblank replies' user' password' hsecret hoffered =>
      rw [Bool.and_eq_true] at hsecret
      exact ⟨by simpa using hblank, user', password', sent_of_offeredSocks hsocks hoffered, hsecret⟩

theorem passed_of_http (hhttp : c.listener = .http) {user : Text}
    (hremote : LanGuard.isLoopback c.inetAddress = false)
    (h : (c.serve sha256 user password).dialled ≠ none) : Passed sha256 c user password := by
  unfold Client.serve at h
  rw [hhttp] at h
  dsimp only at h
  unfold serveHttpClient at h
  split at h
  · exact absurd rfl h
  next header rest hheader =>
    unfold serveHead at h
    split at h
    · split at h
      · exact absurd rfl h
      next hallowed =>
        rw [hremote, Bool.not_false, Bool.true_and, Bool.not_eq_true', Bool.not_eq_false]
          at hallowed
        revert hallowed
        fun_cases httpAuthorized <;> intro hallowed
        case case4 hblank line hline user' password' hparse =>
          have hfound := List.find?_some hline
          rw [Bool.and_eq_true] at hfound hallowed
          refine ⟨by simpa using hblank, user', password', ?_, hallowed⟩
          unfold Client.Sent
          rw [hhttp]
          exact ⟨header, rest, line, hheader, mem_of_find?_eq_some hline, hfound.2, hparse⟩
        all_goals cases hallowed
    · exact absurd rfl h

/-- **A handler dials for a client of another device only behind the check.** -/
theorem passed_of_dialled {user : Text} (hremote : LanGuard.isLoopback c.inetAddress = false)
    (h : (c.serve sha256 user password).dialled ≠ none) : Passed sha256 c user password := by
  cases hlistener : c.listener with
  | socks => exact passed_of_socks hlistener hremote h
  | http => exact passed_of_http hlistener hremote h

/-! ### What every step keeps -/

/-- The part of a pair that a handler reads first. -/
def firstOf : Listener → Text × Text → Text
  | .socks => Prod.fst
  | .http => Prod.snd

/-- What was read for a connection was in force since its first read. -/
def Sound (held : List (Text × Text)) (c : Client) : Progress → Prop
  | .accepted => True
  | .half first since =>
    since < held.length ∧ first ∈ (held.drop since).map (firstOf c.listener)
  | .read user password since =>
    user ∈ (held.drop since).map Prod.fst ∧ password ∈ (held.drop since).map Prod.snd
  | .served exchange during _ => exchange.dialled ≠ none → Entitled c during

structure Access.Kept (a : Access) : Prop where
  current : a.held.getLast? = some (a.proxyUser, a.proxyPassword)
  users : ∀ pair ∈ a.held, Text.isBlank pair.1 = false
  clients : ∀ id, ∀ x ∈ a.clients id,
    LanGuard.isLocalNetworkAddress x.1.inetAddress = true ∧ Sound a.held x.1 x.2

theorem mem_map_drop_append {α β : Type} {l : List α} {f : α → β} {y : β}
    (h : y ∈ (l.drop n).map f) (m : List α) : y ∈ ((l ++ m).drop n).map f := by
  rw [drop_append, map_append]
  exact mem_append_left _ h

/-- Later pairs leave what is known of a connection. -/
theorem Sound.append {held : List (Text × Text)} {p : Progress} (h : Sound held c p)
    (more : List (Text × Text)) : Sound (held ++ more) c p := by
  cases p with
  | accepted => exact h
  | half first since =>
    refine ⟨?_, mem_map_drop_append h.2 more⟩
    rw [length_append]
    exact Nat.lt_add_right _ h.1
  | read user password since =>
    exact ⟨mem_map_drop_append h.1 more, mem_map_drop_append h.2 more⟩
  | served exchange during closed => exact h

namespace Access.Kept

variable {a : Access}

theorem initial : Access.initial.Kept where
  current := rfl
  users := by
    intro pair hpair
    obtain rfl := mem_singleton.mp hpair
    decide
  clients := by
    intro id x h
    cases h

theorem user (h : a.Kept) : Text.isBlank a.proxyUser = false :=
  h.users _ (mem_of_getLast? h.current)

theorem write (h : a.Kept) {user : Text} (huser : Text.isBlank user = false) (password : Text) :
    (a.write user password).Kept where
  current := List.getLast?_concat
  users := by
    intro pair hpair
    obtain hpair | hpair := mem_append.mp hpair
    · exact h.users pair hpair
    · rw [mem_singleton.mp hpair]
      exact huser
  clients := fun id x hclient => (h.clients id x hclient).imp_right (·.append _)

theorem writeUser (h : a.Kept) (user : Text) : (a.writeUser user).Kept := by
  unfold Access.writeUser
  split
  · exact h
  · next hblank => exact h.write (by simpa using hblank) _

theorem writePassword (h : a.Kept) (password : Text) : (a.writePassword password).Kept := by
  unfold Access.writePassword
  split
  · exact h
  · exact h.write h.user _

theorem setProgress (h : a.Kept) (id : Nat) {c : Client} {p : Progress}
    (hlocal : LanGuard.isLocalNetworkAddress c.inetAddress = true) (hsound : Sound a.held c p) :
    (a.setProgress id c p).Kept where
  current := h.current
  users := h.users
  clients := by
    refine (Function.forall_update_iff a.clients fun _ y => ∀ x ∈ y,
      LanGuard.isLocalNetworkAddress x.1.inetAddress = true ∧ Sound a.held x.1 x.2).mpr
      ⟨fun x hx => ?_, fun id' _ => h.clients id'⟩
    cases hx
    exact ⟨hlocal, hsound⟩

/-- The current pair is among those since an earlier one. -/
theorem current_mem (h : a.Kept) {since : Nat} (hsince : since < a.held.length) :
    (a.proxyUser, a.proxyPassword) ∈ a.held.drop since := by
  refine mem_of_getLast? ?_
  rw [List.getLast?_drop, if_neg (by omega)]
  exact h.current

theorem readFirst (h : a.Kept) (c : Client) :
    Sound a.held c (.half (a.firstFlow c.listener) (a.held.length - 1)) := by
  have hne : a.held.length ≠ 0 := by
    intro hzero
    have hcurrent := h.current
    rw [length_eq_zero_iff.mp hzero] at hcurrent
    cases hcurrent
  have hlt : a.held.length - 1 < a.held.length := by omega
  refine ⟨hlt, mem_map.mpr ⟨_, h.current_mem hlt, ?_⟩⟩
  cases c.listener with
  | socks => rfl
  | http => rfl

theorem readSecond (h : a.Kept) {c : Client} {first : Text} {since : Nat}
    (hhalf : Sound a.held c (.half first since)) :
    Sound a.held c (.read (a.pairWith first c.listener).1 (a.pairWith first c.listener).2
      since) := by
  obtain ⟨hsince, hfirst⟩ := hhalf
  have hcurrent := h.current_mem hsince
  cases hlistener : c.listener with
  | socks =>
    rw [hlistener] at hfirst
    exact ⟨hfirst, mem_map.mpr ⟨_, hcurrent, rfl⟩⟩
  | http =>
    rw [hlistener] at hfirst
    exact ⟨mem_map.mpr ⟨_, hcurrent, rfl⟩, hfirst⟩

end Access.Kept

theorem onLocalNet_of_isLocal (h : LanGuard.isLocalNetworkAddress c.inetAddress = true) :
    ∃ ip, c.inetAddress = some ip ∧
      (∃ net ∈ localNets, net.contains (unwrapMapped ip) = true) ∧
      sharedNet.contains (unwrapMapped ip) = false := by
  cases haddress : c.inetAddress with
  | none =>
    rw [haddress] at h
    cases h
  | some ip =>
    rw [haddress] at h
    have hnets := localNets_of_isLocal h
    exact ⟨ip, rfl, hnets, sharedNet_of_localNets hnets⟩

theorem entitled_of_isLoopback (hlocal : LanGuard.isLocalNetworkAddress c.inetAddress = true)
    (hloop : LanGuard.isLoopback c.inetAddress = true) (during : List (Text × Text)) :
    Entitled c during := by
  refine ⟨onLocalNet_of_isLocal hlocal, .inl ?_⟩
  cases haddress : c.inetAddress with
  | none =>
    rw [haddress] at hloop
    cases hloop
  | some ip =>
    rw [haddress] at hloop
    exact ⟨ip, rfl, loopbackNets_of_isLoopback hloop⟩

/-- What was in force when it was read, and passed the check, entitles. -/
theorem Access.Kept.entitled {a : Access} (h : a.Kept) {id : Nat} {user : Text} {since : Nat}
    (hnone : NoCollision sha256 a (.serve id))
    (hclient : a.clients id = some (c, .read user password since))
    (hdialled : (c.serve sha256 user password).dialled ≠ none) :
    Entitled c (a.held.drop since) := by
  obtain ⟨hlocal, huserMem, hpasswordMem⟩ := h.clients id _ hclient
  by_cases hloop : LanGuard.isLoopback c.inetAddress = true
  · exact entitled_of_isLoopback hlocal hloop _
  · obtain ⟨hblank, user', password', hsent, huser, hpassword⟩ :=
      passed_of_dialled (Bool.eq_false_iff.mpr hloop) hdialled
    obtain ⟨hsepUser, hsepPassword⟩ := hnone c user password since hclient user' password' hsent
    obtain rfl := eq_of_secretEquals huser hsepUser
    obtain rfl := eq_of_secretEquals hpassword hsepPassword
    refine ⟨onLocalNet_of_isLocal hlocal, .inr ⟨user', password', hsent, huserMem, ?_,
      hpasswordMem, hblank⟩⟩
    obtain ⟨pair, hpair, rfl⟩ := mem_map.mp huserMem
    exact h.users pair (mem_of_mem_drop hpair)

/-- **Every step keeps it.** -/
theorem Access.Kept.step {a a' : Access} {l : AccessLabel} (h : a.Kept)
    (hnone : NoCollision sha256 a l) (hstep : accessStep sha256 a l = .ok a') : a'.Kept := by
  revert hstep
  fun_cases accessStep sha256 a l <;> intro hstep <;> cases hstep
  · -- `setCredentials`
    exact { h with }
  next user _ _ =>
    exact { h.writeUser user with }
  next password _ =>
    exact { h.writePassword password with }
  · -- `startSync`
    exact { h with }
  next password _ =>
    exact { h.write h.user password with }
  next id client _ hadmits =>
    unfold Access.admits at hadmits
    rw [Bool.and_eq_true] at hadmits
    exact { h.setProgress id (p := .accepted) hadmits.1 trivial with }
  · exact h
  next id c hclient _ =>
    exact h.setProgress id (h.clients id _ hclient).1 (h.readFirst c)
  next id c first since hclient user password hpair =>
    obtain ⟨hlocal, hhalf⟩ := h.clients id _ hclient
    have hread := h.readSecond hhalf
    rw [hpair] at hread
    exact h.setProgress id hlocal hread
  next id c hclient hloop =>
    have hlocal := (h.clients id _ hclient).1
    exact h.setProgress id hlocal fun _ => entitled_of_isLoopback hlocal hloop []
  next id c user password since hclient =>
    exact h.setProgress id (h.clients id _ hclient).1 (h.entitled hnone hclient)
  next id c exchange during hclient =>
    obtain ⟨hlocal, hsound⟩ := h.clients id _ hclient
    exact { h.setProgress id (p := .served exchange during true) hlocal hsound with }

/-- **In every interleaving the bridge dials only for a client on a local net that is on this
device, or has sent a user and a password that were each in force while they were checked.** -/
theorem dials_only_entitled {sha256 : Bytes → Bytes} {ls : List AccessLabel} {a : Access}
    (hrun : Machine.Run (accessStep sha256) (NoCollision sha256) Access.initial ls a) {id : Nat}
    {c : Client} {exchange : Exchange} {during : List (Text × Text)} {closed : Bool}
    (hserved : a.clients id = some (c, .served exchange during closed))
    (hdialled : exchange.dialled ≠ none) : Entitled c during := by
  have hkept : a.Kept := hrun.invariant .initial fun _ _ _ h hnone hstep => h.step hnone hstep
  exact (hkept.clients id _ hserved).2 hdialled

/-- A client of the LAN that authenticates at the SOCKS share with one-letter texts. -/
def lanClient (user password : UInt8) : Client where
  listener := .socks
  inetAddress := some (.v4 0xc0a80105)
  input := [5, 1, 2, 1, 1, user, 1, password]
  answers := some [5, 0]
  relayed := 0

theorem noCollision_id (a : Access) (l : AccessLabel) : NoCollision id a l := by
  cases l with
  | serve call => exact fun _ _ _ _ _ _ _ _ => ⟨fun h => h, fun h => h⟩
  | _ => trivial

/-- Under that hash every run goes without a collision. -/
theorem run_of_perform {ls : List AccessLabel} {a : Access}
    (h : Machine.perform (accessStep id) (fun _ _ => True) Access.initial ls = some a) :
    Machine.Run (accessStep id) (NoCollision id) Access.initial ls a :=
  (Machine.Run.of_perform .nil h).weaken fun a l _ => noCollision_id a l

theorem dials_only_entitled_installed : Entitled (lanClient 117 112) [(['u'], ['p'])] := by
  obtain ⟨a, hrun, hserved⟩ : ∃ a, Machine.Run (accessStep id) (NoCollision id) Access.initial
      [.setCredentials 0 ['u'] ['p'], .writeUser 0, .writePassword 0,
        .accept 0 (lanClient 117 112), .readFirst 0, .readSecond 0, .serve 0] a ∧
      a.clients 0 = some (lanClient 117 112,
        .served ((lanClient 117 112).serve id ['u'] ['p']) [(['u'], ['p'])] false) :=
    ⟨_, run_of_perform rfl, rfl⟩
  exact dials_only_entitled hrun hserved (by decide)

/-- A call of `setCredentials` falls between the two reads of a check: the client gets through
with the old user and the new password, which were never in force together. -/
theorem torn_credential :
    ∃ a exchange during,
      Machine.Run (accessStep id) (NoCollision id) Access.initial
        [.setCredentials 0 ['u'] ['p'], .writeUser 0, .writePassword 0,
          .accept 0 (lanClient 117 113), .readFirst 0,
          .setCredentials 1 ['v'] ['q'], .writeUser 1, .writePassword 1,
          .readSecond 0, .serve 0] a ∧
      a.clients 0 = some (lanClient 117 113, .served exchange during false) ∧
      exchange.dialled = some .raw ∧
      LanGuard.isLoopback (lanClient 117 113).inetAddress = false ∧
      ¬ (lanClient 117 113).SentHeld during := by
  refine ⟨_, (lanClient 117 113).serve id ['u'] ['q'],
    [(['u'], ['p']), (['v'], ['p']), (['v'], ['q'])], run_of_perform rfl, rfl, by decide,
    by decide, ?_⟩
  rintro ⟨pair, hpair, -, hsent⟩
  obtain ⟨methods, user, password, rest, hinput, hmethods, huser, hpassword, -, hfirst, hsecond⟩ :=
    hsent
  simp only [lanClient, append_assoc, cons_append, nil_append, cons.injEq, true_and] at hinput
  obtain ⟨method, rfl⟩ := eq_singleton_of_octet hinput.1 hmethods
  simp only [cons_append, nil_append, cons.injEq, true_and] at hinput
  obtain ⟨first, rfl⟩ := eq_singleton_of_octet hinput.2.2.1 huser
  simp only [cons_append, nil_append, cons.injEq] at hinput
  obtain ⟨second, rfl⟩ := eq_singleton_of_octet hinput.2.2.2.2.1 hpassword
  simp only [cons_append, nil_append, cons.injEq] at hinput
  obtain ⟨-, -, -, rfl, -, rfl, -⟩ := hinput
  have heq : pair = (['u'], ['q']) :=
    Prod.ext (hfirst.trans (by decide)) (hsecond.trans (by decide))
  rw [heq] at hpair
  exact absurd hpair (by decide)

end Aether.Share
