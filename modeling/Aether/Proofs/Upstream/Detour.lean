/-
A detour holds as long as its pump runs.

While a guard is held the map has its detour, unless the detour's own task has taken it out,
and the task does that only after its pump has stopped.  So in every run in which no pump stops
under a held guard, whatever `flush` sends from the socket goes to the shim.  When the pump does
stop, the entry is gone while the guard is still held, and the next datagram goes to the peer.
-/
import Aether.Upstream.Detour

namespace Aether.Upstream

open Machine

open List Function

variable {w w' : World}

/-- The map and the task of a guard that is held. -/
structure Guarded (w : World) (g : Guard) : Prop where
  entry : w.detours g.client = some g.detour
  known : g.detour.id < w.nextId
  alive : ∀ client, w.tasks g.detour.id ≠ some (.ended client)
  apart : g.detour.shim ≠ g.detour.peer

/-- The map and the tasks agree with the guards that are held. -/
structure Sound (w : World) : Prop where
  guarded : ∀ g ∈ w.held, Guarded w g
  one : ∀ g ∈ w.held, ∀ g' ∈ w.held, g.client = g'.client → g = g'
  noLeak : w.NoLeak

theorem sound_start : Sound .start := by
  constructor <;> simp [World.start, World.NoLeak]

/-- The shim is on the loopback, so it is not a peer that is reached through the proxy. -/
theorem shim_ne_peer {ip : IpAddr} {port : Nat} {peer : SocketAddr}
    (hpeer : isPrivate peer.ip = false) :
    ({ ip := loopbackOf ip, port } : SocketAddr) ≠ peer := by
  intro heq
  have hloop : isPrivate (loopbackOf ip) = true := by
    cases ip <;> rfl
  rw [← heq, hloop] at hpeer
  cases hpeer

/-! ### Taking an entry out -/

theorem World.forgetDetour_frame (w : World) (client : SocketAddr) (id : Nat) :
    (w.forgetDetour client id).nextId = w.nextId ∧ (w.forgetDetour client id).tasks = w.tasks ∧
      (w.forgetDetour client id).held = w.held ∧ (w.forgetDetour client id).sent = w.sent := by
  unfold forgetDetour
  split
  · split <;> exact ⟨rfl, rfl, rfl, rfl⟩
  · exact ⟨rfl, rfl, rfl, rfl⟩

/-- Only the entry of that very detour is taken out. -/
theorem World.forgetDetour_keeps {client c : SocketAddr} {id : Nat} {d : Detour}
    (h : w.detours c = some d) (hother : c = client → d.id ≠ id) :
    (w.forgetDetour client id).detours c = some d := by
  unfold forgetDetour
  split
  · rename_i detour hdetour
    split
    · rename_i hid
      have hne : c ≠ client := by
        intro hc
        rw [hc, hdetour] at h
        cases h
        exact hother hc hid
      show update w.detours client none c = some d
      rw [update_of_ne hne, h]
    · exact h
  · exact h

theorem Sound.forget {client : SocketAddr} {id : Nat} (h : Sound w)
    (hother : ∀ g ∈ w.held, g.client = client → g.detour.id ≠ id) :
    Sound (w.forgetDetour client id) := by
  obtain ⟨hnext, htasks, hheld, hsent⟩ := w.forgetDetour_frame client id
  constructor
  · rw [hheld]
    intro g hg
    obtain ⟨hentry, hknown, halive, hapart⟩ := h.guarded g hg
    exact ⟨World.forgetDetour_keeps hentry (hother g hg), hnext ▸ hknown, htasks ▸ halive, hapart⟩
  · rw [hheld]
    exact h.one
  · rw [World.NoLeak, hsent]
    exact h.noLeak

/-! ### Steps -/

/-- A task may change as it likes as long as no held detour's pump stops. -/
theorem Sound.setTask {id : Nat} {task : Option Task} {pumped : List Pumped} (h : Sound w)
    (hend : ∀ client, task = some (.ended client) → ∀ g ∈ w.held, g.detour.id ≠ id) :
    Sound { w with tasks := update w.tasks id task, pumped } := by
  refine ⟨fun g hg => { h.guarded g hg with alive := fun client => ?_ }, h.one, h.noLeak⟩
  show update w.tasks id task g.detour.id ≠ some (.ended client)
  by_cases hid : g.detour.id = id
  · rw [hid, update_self]
    intro hended
    exact hend client hended g hg hid
  · rw [update_of_ne hid]
    exact (h.guarded g hg).alive client

theorem Sound.attach {client peer : SocketAddr} {answer : Option Nat} (h : Sound w)
    (hfree : ∀ g ∈ w.held, g.client ≠ client) : Sound (w.attachDetourVia client peer answer) := by
  unfold World.attachDetourVia
  split
  · exact h
  · rename_i hpeer
    cases answer with
    | none => exact h
    | some port =>
      refine ⟨fun g hg => ?_, ?_, h.noLeak⟩
      · rcases mem_append.mp hg with hg | hg
        · obtain ⟨hentry, hknown, halive, hapart⟩ := h.guarded g hg
          refine ⟨?_, Nat.lt_succ_of_lt hknown, fun c => ?_, hapart⟩
          · show update w.detours client _ g.client = some g.detour
            rw [update_of_ne (hfree g hg)]
            exact hentry
          · show update w.tasks w.nextId _ g.detour.id ≠ _
            rw [update_of_ne (Nat.ne_of_lt hknown)]
            exact halive c
        · obtain rfl := mem_singleton.mp hg
          refine ⟨update_self .., Nat.lt_succ_self _, fun c => ?_,
            shim_ne_peer (by simpa using hpeer)⟩
          show update w.tasks w.nextId _ w.nextId ≠ _
          rw [update_self]
          intro hended
          cases hended
      · intro g hg g' hg' hclient
        rcases mem_append.mp hg with hg | hg <;> rcases mem_append.mp hg' with hg' | hg'
        · exact h.one g hg g' hg' hclient
        · obtain rfl := mem_singleton.mp hg'
          exact absurd hclient (hfree g hg)
        · obtain rfl := mem_singleton.mp hg
          exact absurd hclient.symm (hfree g' hg')
        · rw [mem_singleton.mp hg, mem_singleton.mp hg']

theorem Sound.drop {guard : Guard} (h : Sound w) (hguard : guard ∈ w.held) :
    Sound ({ w with held := w.held.filter (· ≠ guard) }.forgetDetour guard.client
      guard.detour.id) := by
  have hsub : ∀ g ∈ w.held.filter (· ≠ guard), g ∈ w.held ∧ g ≠ guard := by
    intro g hg
    simpa using mem_filter.mp hg
  have hfewer : Sound { w with held := w.held.filter (· ≠ guard) } :=
    ⟨fun g hg => { h.guarded g (hsub g hg).1 with },
      fun g hg g' hg' => h.one g (hsub g hg).1 g' (hsub g' hg').1, h.noLeak⟩
  refine hfewer.forget ?_
  intro g hg hclient
  exact absurd (h.one g (hsub g hg).1 guard hguard hclient) (hsub g hg).2

theorem Sound.flush {socket dst : SocketAddr} {payload : Bytes} (h : Sound w) :
    Sound { w with
      sent := w.sent ++
        [{ socket, target := w.relayTarget socket dst, payload, held := w.held }] } := by
  refine ⟨fun g hg => { h.guarded g hg with }, h.one, ?_⟩
  intro s hs
  rcases mem_append.mp hs with hs | hs
  · exact h.noLeak s hs
  · obtain rfl := mem_singleton.mp hs
    intro g hg hclient
    have hentry : w.detours socket = some g.detour := by
      rw [← show g.client = socket from hclient, (h.guarded g hg).entry]
    have htarget : w.relayTarget socket dst = g.detour.shim := by
      rw [World.relayTarget, hentry]
    refine ⟨htarget, ?_⟩
    show w.relayTarget socket dst ≠ g.detour.peer
    rw [htarget]
    exact (h.guarded g hg).apart

theorem Sound.step {l : Step} (h : Sound w) (hsteady : w.Steady l) (hstep : step w l = .ok w') :
    Sound w' := by
  revert hstep
  fun_cases Upstream.step w l <;> intro hstep <;> cases hstep
  · exact h.attach hsteady
  next id event p hp p' out _ =>
    exact h.setTask fun client hended => by cases hended
  next id event p hp hstop =>
    exact h.setTask fun _ _ => hsteady p hp hstop
  next id client htask =>
    refine Sound.forget (h.setTask fun client hended => by cases hended) ?_
    intro g hg _ hid
    exact (h.guarded g hg).alive client (hid ▸ htask)
  · -- `abort`
    exact h.setTask fun client hended => by cases hended
  next guard hheld => exact h.drop hheld
  · exact h.flush
  · exact h
  · exact h

/-- **While pumps run under held guards, nothing goes to a peer directly.**  In every run in
which no pump stops while its guard is held and no socket is attached twice, every datagram
sent from a socket under a held guard goes to the guard's shim. -/
theorem detour_never_bypassed (ls : List Step) (w : World)
    (hrun : Run step World.Steady .start ls w) : w.NoLeak :=
  (hrun.invariant sound_start fun _ _ _ h hsteady hstep => h.step hsteady hstep).noLeak

/-! ### One socket -/

/-- A QUIC socket bound to every interface. -/
def OneSocket.client : SocketAddr := { ip := .v4 0, port := 5000 }

/-- An edge address. -/
def OneSocket.peer : SocketAddr := { ip := .v4 0xa29fc601, port := 443 }

def OneSocket.shim : SocketAddr := { ip := .v4 Ipv4Addr.localhost, port := 40000 }

/-- The socket as the shim sees it. -/
def OneSocket.origin : SocketAddr := { ip := .v4 Ipv4Addr.localhost, port := 5000 }

open OneSocket

/-- Attached, one datagram pumped, one datagram sent. -/
theorem detour_never_bypassed_once :
    ∃ w, Run step World.Steady .start
        [.attach client peer (some 40000), .pump 1 (.fromClient [1] origin true),
          .flush [client] client peer [1] true] w ∧
      w.sent.map Sent.target = [shim] ∧ w.NoLeak := by
  refine Run.exists_and (.snoc (.snoc (.snoc .nil (by simp [World.Steady, World.start]) rfl)
    (by intro p hp hstop; cases hp; cases hstop) rfl) trivial rfl) fun hrun => ?_
  exact ⟨rfl, detour_never_bypassed _ _ hrun⟩

/-- The relay fails, the task takes the entry out, and the next datagram goes to the peer
while the guard is held. -/
theorem detour_bypassed :
    ∃ w s g, Run step (fun _ _ => True) .start
        [.attach client peer (some 40000), .pump 1 .relayFailed, .forget 1,
          .flush [client] client peer [1] true] w ∧
      s ∈ w.sent ∧ g ∈ s.held ∧ g.client = s.socket ∧ isPrivate g.detour.peer.ip = false ∧
        s.target = g.detour.peer := by
  refine ⟨_,
    { socket := client, target := peer, payload := [1], held := [⟨client, 1, shim, peer⟩] },
    ⟨client, 1, shim, peer⟩,
    .of_perform .nil rfl, ?_, ?_, rfl, by decide, rfl⟩
  · exact mem_singleton_self _
  · exact mem_singleton_self _

end Aether.Upstream
