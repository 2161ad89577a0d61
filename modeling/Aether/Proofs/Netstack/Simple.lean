/-
The small TCP keeps smoltcp's laws, and one flow's steps are the stack's.
-/
import Aether.Netstack.Simple
import Aether.Proofs.Netstack.Cases

namespace Aether

open List Machine

namespace Simple

/-! ### The laws -/

theorem sendQueue : tcp.SendQueue where
  le := by
    intro k data n k' h
    simp only [tcp] at h
    split at h
    · cases h
      exact Nat.min_le_left _ _
    · cases h
  connect := by
    intro ifc rxBuf txBuf ka timeout remote port k h
    cases h
    rfl
  taken := by
    intro k data n k' h
    simp only [tcp] at h
    split at h
    · cases h
      rfl
    · cases h
  refused := by
    intro k data k' h
    simp only [tcp] at h
    split at h
    · cases h
    · cases h
      rfl
  close _ := rfl
  recv _ := rfl
  polled _ _ h := h.2.1

theorem states : tcp.States where
  connect _ _ _ _ _ _ _ k h := by
    cases h
    rfl
  sendSlice k data := by
    simp only [tcp]
    split <;> rfl
  recv _ := rfl
  close _ := rfl
  abort _ := rfl
  canSend k h := by
    simp only [tcp, Socket.open, Bool.and_eq_true, Bool.or_eq_true, beq_iff_eq] at h
    exact h.1
  closeAgain k h := by
    have hs : k.state.afterClose = k.state := h
    change { k with state := k.state.afterClose } = k
    rw [hs]
  polled _ _ h := h.2.2

theorem recvQueue : tcp.RecvQueue where
  connect := by
    intro ifc rxBuf txBuf ka timeout remote port k h
    cases h
    rfl
  canRecv k := by simp [tcp]
  recv k h := ⟨k.rx, rfl, h, by simp [tcp]⟩
  sendSlice k data := by
    simp only [tcp]
    split <;> rfl
  close _ := rfl
  abort _ := rfl
  polled _ _ h := h.1

end Simple

theorem AppRunsWith.step {σ υ : Type} {m : Smoltcp σ υ} {tun : Tuning} {W : WriterCond}
    {w₀ w w' : AppWorld σ υ} {steps : List (AppStep σ υ)} (h : AppRunsWith m tun W w₀ steps w)
    (l : AppStep σ υ) (hv : l.Valid m w) (hW : l.Writes W) (hstep : appStep m tun w l = .ok w') :
    AppRunsWith m tun W w₀ (steps ++ [l]) w' :=
  h.snoc ⟨hv, hW⟩ hstep

/-! ### Steps with one flow -/

namespace Solo

variable {tun : Tuning} {c c' : Solo}

theorem tcpConns_one (c : Solo) : c.stack.tcpConns 1 = some c.st := rfl

theorem tcpSocket_handle (c : Solo) (hh : c.st.handle = 0) :
    c.stack.tcpSocket c.st.handle = .ok (Simple.remote, 49152, c.sock) := by
  rw [hh]
  rfl

theorem keys (c : Solo) : Keys c.world.stack.tcpConns [1] := by
  refine ⟨by simp, fun id => ?_⟩
  by_cases hid : id = 1
  · simp [hid, world, stack]
  · simp [hid, world, stack, Function.update_of_ne]

/-! ### The steps -/

theorem step_serve (now : Nat) (env : Nat → FlowEnv) (hh : c.st.handle = 0)
    (h : c.serve tun now (env 1) = some c') :
    step Simple.tcp tun c.world (.serviceTcp [1] now env) = .ok c'.world := by
  obtain ⟨⟨st', sock'⟩, hnext, rfl⟩ := Option.map_eq_some_iff.mp h
  simp only [step, world, serviceTcp, foldlM_cons, foldlM_nil, serviceOne,
    tcpConns_one, tcpSocket_handle c hh]
  have hlimits : c.stack.tcpLimits = Simple.limits := rfl
  simp only [bind, Except.bind, pure, Except.pure, hlimits, hnext]
  simp [NetStack.log, NetStack.setTcp, NetStack.setSocket, stack, hh]

variable {now : Nat} {env : Nat → FlowEnv} {sock : Simple.Socket} {T : TurnCond Simple.Socket}

theorem step_serve_gone {log : List FlowEvent} (hh : c.st.handle = 0)
    (h : (serviceFlow Simple.tcp tun Simple.limits now (env 1) c.st c.sock).next = none)
    (hlog : (serviceFlow Simple.tcp tun Simple.limits now (env 1) c.st c.sock).log = log) :
    step Simple.tcp tun c.world (.serviceTcp [1] now env) = .ok (c.gone log) := by
  simp only [step, world, serviceTcp, foldlM_cons, foldlM_nil, serviceOne,
    tcpConns_one, tcpSocket_handle c hh]
  have hlimits : c.stack.tcpLimits = Simple.limits := rfl
  simp only [bind, Except.bind, pure, Except.pure, hlimits, h, hlog]
  simp [gone, world, hh]

theorem serve_of_next {tun : Tuning} {now : Nat} {env : FlowEnv} {r : TcpState × Simple.Socket}
    {log : List FlowEvent}
    (hnext : (serviceFlow Simple.tcp tun Simple.limits now env c.st c.sock).next = some r)
    (hlog : (serviceFlow Simple.tcp tun Simple.limits now env c.st c.sock).log = log) :
    c.serve tun now env = some ⟨r.1, r.2, c.trace ++ log.map (.flow 1)⟩ := by
  simp only [serve, hnext, hlog, Option.map_some]

/-- The turn after an orphan's reset. -/
theorem step_remove (haborted : c.st.aborted = true) (hh : c.st.handle = 0) :
    step Simple.tcp tun c.world (.serviceTcp [1] now env) = .ok (c.gone [.removed]) := by
  refine step_serve_gone hh ?_ ?_ <;> simp only [serviceFlow, haborted, if_true] <;> rfl

theorem serves (c : Solo) (tun : Tuning) (now : Nat) (env : Nat → FlowEnv)
    (hh : c.st.handle = 0) :
    ∃ w, step Simple.tcp tun c.world (.serviceTcp [1] now env) = .ok w := by
  cases hnext : (serviceFlow Simple.tcp tun Simple.limits now (env 1) c.st c.sock).next with
  | none => exact ⟨_, step_serve_gone hh hnext rfl⟩
  | some r => exact ⟨_, step_serve _ _ hh (Option.map_eq_some_iff.mpr ⟨r, hnext, rfl⟩)⟩

theorem conn_eq (c : Solo) (hh : c.st.handle = 0) (id : Nat) :
    c.stack.conn id = if id = 1 then some (c.st, c.sock) else none := by
  by_cases hid : id = 1
  · simp [NetStack.conn, stack, hid, hh]
  · simp [NetStack.conn, stack, hid]

/-- The stack as a poll leaves it, apart from the history. -/
theorem poll_eq (c : Solo) (sock : Simple.Socket) :
    c.stack.poll (fun _ _ => sock) (fun _ u => u) (.new 1280) false =
      { c with sock := sock }.stack := by
  have hsockets : (fun h => (c.stack.sockets h).map (Slot.poll (fun _ => sock) fun u => u)) =
      { c with sock := sock }.stack.sockets := by
    funext h
    by_cases hh : h = 0
    · subst hh
      rfl
    · simp [stack, Function.update_of_ne hh]
  simp only [NetStack.poll, hsockets]
  rfl

theorem step_poll (sock : Simple.Socket) (hh : c.st.handle = 0) :
    step Simple.tcp tun c.world (pollStep sock) = .ok (c.polled sock).world := by
  have hevent : pollEvent Simple.tcp c.stack { c with sock := sock }.stack =
      .polled (fun id => if id = 1 then sock.rx.drop c.sock.rx.length else [])
        (fun id => if id = 1 then some sock.state else none) := by
    simp only [pollEvent, Event.polled.injEq]
    refine ⟨?_, ?_⟩
    · funext id
      by_cases hid : id = 1
      · simp [NetStack.flowSocket, conn_eq, hh, hid, Simple.tcp]
      · simp [NetStack.flowSocket, conn_eq, hh, hid]
    · funext id
      by_cases hid : id = 1
      · simp [NetStack.flowSocket, conn_eq, hh, hid, Simple.tcp]
      · simp [NetStack.flowSocket, conn_eq, hh, hid]
  simp only [step, pollStep, pollStack, world, poll_eq, hevent]
  rfl

theorem step_wrote {data : Bytes} (h : c.st.pending.length + data.length ≤ tun.maxTcpPending)
    (hopen : c.st.pending.length < tun.maxTcpPending) :
    step Simple.tcp tun c.world (.ingest (.tcp 1 data)) = .ok (c.wrote data).world := by
  have hconn : (c.stack.log [.ingested (.tcp 1 data)]).tcpConns 1 = some c.st := rfl
  have hroom : ¬ tun.maxTcpPending ≤ c.st.pending.length := by omega
  have hfit : data.length ≤ tun.maxTcpPending - c.st.pending.length := by omega
  simp only [step, ingest, world, Backlog.holds, Backlog.empty, tryHandleData, hconn]
  simp only [hroom, hfit, if_true, if_false, Finset.notMem_empty, decide_false]
  simp [bind, Except.bind, pure, Except.pure, NetStack.log, NetStack.setTcp, stack, wrote]

theorem step_halfClosed :
    step Simple.tcp tun c.world (.ingest (.tcpClose 1)) = .ok c.halfClosed.world := by
  have hconn : (c.stack.log [.ingested (.tcpClose 1)]).tcpConns 1 = some c.st := rfl
  simp only [step, ingest, world, Backlog.holds, Backlog.empty, tryHandleData, hconn]
  simp [bind, Except.bind, pure, Except.pure, NetStack.log, NetStack.setTcp, stack, halfClosed]

/-! ### What is reachable with one flow -/

theorem reachable_opened (tun : Tuning) : Reachable Simple.tcp tun (opened tun).world :=
  Reachable.step (l := .cmd (.openTcp Simple.remote) Simple.openEnv)
    ⟨[], 1280, Simple.limits, [], Run.nil⟩ rfl rfl

theorem poll_valid (h : Simple.tcp.polled c.sock sock) :
    Step.Valid Simple.tcp c.world (pollStep sock) := by
  intro handle remote port sock' hslot
  by_cases hh : handle = 0
  · subst hh
    cases hslot
    exact h
  · simp [world, stack, Function.update_of_ne hh] at hslot

theorem reachable_poll (h : Reachable Simple.tcp tun c.world) (hh : c.st.handle = 0)
    (hp : Simple.tcp.polled c.sock sock) : Reachable Simple.tcp tun (c.polled sock).world :=
  h.step (poll_valid hp) (step_poll sock hh)

theorem reachable_wrote {data : Bytes} (h : Reachable Simple.tcp tun c.world)
    (hfit : c.st.pending.length + data.length ≤ tun.maxTcpPending)
    (hroom : c.st.pending.length < tun.maxTcpPending) :
    Reachable Simple.tcp tun (c.wrote data).world :=
  h.step (l := .ingest (.tcp 1 data)) trivial (step_wrote hfit hroom)

theorem reachable_up : Reachable Simple.tcp Simple.tuning up.world := by
  have hpoll : Reachable Simple.tcp Simple.tuning
      ((opened Simple.tuning).polled (Simple.idle .established)).world :=
    reachable_poll (reachable_opened Simple.tuning) rfl ⟨by decide, by decide, by decide⟩
  exact hpoll.step (l := .serviceTcp [1] 0 fun _ => Simple.calm) (keys _) (step_serve 0 _ rfl rfl)

/-! ### Runs with a writer -/

/-- The flow comes up, and a `send` for which there is room puts three bytes in the channel. -/
theorem app_sent {W : WriterCond} (hchunk : W.chunk [1, 2, 3])
    (hW : ∀ r, r ≠ .sawClosed → r ≠ .timedOut → W.reserve r) :
    ∃ steps, AppRunsWith Simple.tcp Simple.tuning W (.start [] 1280 Simple.limits) steps
      ((up.counting 3).app [.tcp 1 [1, 2, 3]] .idle) := by
  have hopened : AppRunsWith Simple.tcp Simple.tuning W (.start [] 1280 Simple.limits)
      [.stack (.cmd (.openTcp Simple.remote) Simple.openEnv)]
      { world := (opened Simple.tuning).world, channel := [], writer := fun _ => .idle } :=
    .snoc .nil ⟨⟨by simp, rfl⟩, trivial⟩ rfl
  have hpolled := hopened.step (.stack (pollStep (Simple.idle .established)))
    ⟨by simp [pollStep], poll_valid ⟨by decide, by decide, by decide⟩⟩ trivial
    (bind_eq_ok.mpr ⟨_, step_poll (c := opened Simple.tuning) _ rfl, rfl⟩)
  have hup := hpolled.step (.stack (.serviceTcp [1] 0 fun _ => Simple.calm))
    ⟨by simp, keys _⟩ trivial (bind_eq_ok.mpr ⟨up.world, step_serve 0 _ rfl rfl, rfl⟩)
  have hcalled := hup.step (.send 1 [1, 2, 3]) ⟨rfl, by simp [AppWorld.stack, world, stack, up]⟩
    hchunk rfl
  have hunclosed := hcalled.step (.reserve 1 .sawOpen) (by intro credit hc; cases hc; rfl)
    (hW _ (by simp) (by simp)) rfl
  have hcounted := hunclosed.step (.reserve 1 (.count 0)) (by intro credit hc; cases hc; rfl)
    (hW _ (by simp) (by simp)) rfl
  have hadmitted := hcounted.step (.reserve 1 .room) (by intro credit hc; cases hc; rfl)
    (hW _ (by simp) (by simp)) rfl
  have hheld := hadmitted.step (.reserve 1 .add) trivial (hW _ (by simp) (by simp)) rfl
  refine ⟨_, hheld.step (.push 1) ⟨_, rfl⟩ trivial ?_⟩
  simp [appStep, AppWorld.setWriter, AppWorld.addSent, AppWorld.stack, ReserveStep.next, app, world,
    stack, counting, NetStack.setTcp]

/-! ### Runs of the loop -/

theorem step_reap (c : Solo) (stallAt : Nat → Nat) (h : drainStalled c.stack stallAt 1 = false) :
    step Simple.tcp tun c.world (.reapWedged [1] [] stallAt fun _ => 0) = .ok c.world := by
  simp only [step, reapWedged, world, filter_cons, filter_nil, h]
  rfl

theorem fits_polled {p : Pass} (h : c.fits p = true) :
    c.st.handle = 0 ∧ Simple.tcp.polled c.sock p.sock ∧
      ∀ c', c.pass p = some c' → c'.st.pending.length < Simple.tuning.maxTcpPending := by
  simp only [fits, Bool.and_eq_true, beq_iff_eq, isPrefixOf_iff_prefix, decide_eq_true_eq]
    at h
  obtain ⟨⟨⟨⟨hh, hrx⟩, hqueue⟩, hstate⟩, hroom⟩ := h
  refine ⟨hh, ⟨hrx, hqueue, hstate⟩, fun c' hc' => ?_⟩
  rw [hc'] at hroom
  simpa using hroom

theorem turns (hh : c.st.handle = 0) (hT : T Simple.limits now (env 1) c.st c.sock) :
    Step.Turns T c.world (.serviceTcp [1] now env) := by
  intro id st sock hconn
  have hsolo : (if id = 1 then some (c.st, c.sock) else none) = some (st, sock) := by
    rw [← conn_eq c hh id]
    exact hconn
  split at hsolo
  · rename_i hid
    cases hsolo
    rw [hid]
    exact hT
  · cases hsolo

/-- A poll and the turn after it. -/
theorem run_turn {env : FlowEnv} {w : World Simple.Socket Unit}
    (hstep : step Simple.tcp Simple.tuning (c.polled sock).world
      (.serviceTcp [1] now fun _ => env) = .ok w)
    (hh : c.st.handle = 0) (hp : Simple.tcp.polled c.sock sock)
    (hT : T Simple.limits now env c.st sock) :
    RunsWith Simple.tcp Simple.tuning T c.world
      [pollStep sock, .serviceTcp [1] now fun _ => env] w := by
  have hpoll : RunsWith Simple.tcp Simple.tuning T c.world [pollStep sock] (c.polled sock).world :=
    Run.nil.snoc ⟨poll_valid hp, trivial⟩ (step_poll sock hh)
  exact hpoll.step (.serviceTcp [1] now fun _ => env) (c.polled sock).keys
    (turns (c := c.polled sock) hh hT) hstep

/-- An orphan that was reset goes at its next turn. -/
theorem run_remove (now : Nat) (env : FlowEnv) (haborted : c.st.aborted = true)
    (hh : c.st.handle = 0) (hT : T Simple.limits now env c.st c.sock) :
    RunsWith Simple.tcp Simple.tuning T c.world
      [pollStep c.sock, .serviceTcp [1] now fun _ => env] ((c.polled c.sock).gone [.removed]) := by
  refine run_turn (step_remove (c := c.polled c.sock) haborted hh) hh ?_ hT
  exact ⟨prefix_rfl, le_rfl, by cases c.sock.state <;> rfl⟩

/-- The four calls between a turn and the queues, while the flow does not stall. -/
theorem run_idle {w₀ : World Simple.Socket Unit} {steps : List (Step Simple.Socket Unit)}
    (h : RunsWith Simple.tcp Simple.tuning T w₀ steps c.world) :
    RunsWith Simple.tcp Simple.tuning T w₀ (steps ++ [.serviceUdp [] fun _ _ => .permit] ++
      [.flushTx fun _ => .ok] ++ [.drainBacklog] ++
      [.reapWedged [1] [] (fun _ => 0) fun _ => 0]) c.world := by
  have hcalm : drainStalled c.stack (fun _ => 0) 1 = false := by
    simp [drainStalled, tcpConns_one, tcpDrainStallTimeout, secs]
  have hkeysUdp : Keys c.world.stack.udpConns [] := ⟨nodup_nil, fun id => by simp [world, stack]⟩
  have hudp := h.stay (.serviceUdp [] fun _ _ => .permit) hkeysUdp trivial rfl
  have hflush := hudp.stay (.flushTx fun _ => .ok) trivial trivial rfl
  have hdrain := hflush.stay .drainBacklog trivial trivial rfl
  exact hdrain.step (.reapWedged [1] [] (fun _ => 0) fun _ => 0)
    ⟨c.keys, by simp [world, Backlog.empty]⟩ trivial (step_reap c _ hcalm)

theorem run_pass {p : Pass} (hfits : c.fits p = true)
    (hT : T Simple.limits p.now (Simple.calmAt p.now) c.st p.sock) (hs : c.pass p = some c') :
    RunsWith Simple.tcp Simple.tuning T c.world p.loop.steps c'.world := by
  obtain ⟨hh, hp, hroom⟩ := fits_polled hfits
  have hfit := hroom c' hs
  obtain ⟨d, hserve, rfl⟩ := Option.map_eq_some_iff.mp hs
  have hlen : d.st.pending.length + p.data.length < Simple.tuning.maxTcpPending := by
    simpa [wrote] using hfit
  have hserved := run_turn (step_serve (c := c.polled p.sock) _ _ hh hserve) hh hp hT
  exact (run_idle hserved).step (.ingest (.tcp 1 p.data)) trivial trivial
    (step_wrote (le_of_lt hlen) (lt_of_le_of_lt (Nat.le_add_right _ _) hlen))

theorem run_passes : ∀ {ps : List Pass} {c c' : Solo}, c.passes ps = some c' →
    Runs Simple.tcp Simple.tuning c.world ((ps.map Pass.loop).flatMap LoopPass.steps) c'.world := by
  intro ps
  induction ps with
  | nil =>
    intro c c' h
    cases h
    exact Run.nil
  | cons p rest ih =>
    intro c c' h
    simp only [passes] at h
    split at h
    · rename_i hfits
      obtain ⟨d, hd, hrest⟩ := Option.bind_eq_some_iff.mp h
      rw [map_cons, flatMap_cons]
      exact (run_pass (T := anyTurn) hfits trivial hd).runs.append (ih hrest)
    · cases h

theorem run_open (T : TurnCond Simple.Socket) :
    RunsWith Simple.tcp Simple.tuning T (.spawn [] 1280 Simple.limits) openPass.steps
      first.world := by
  let w : World Simple.Socket Unit :=
    { stack := { NetStack.spawn [] 1280 Simple.limits with
        trace := [.polled (fun _ => []) (fun _ => none)] }
      backlog := .empty }
  have htcp : Keys w.stack.tcpConns [] := ⟨nodup_nil, fun id => by simp [w, NetStack.spawn]⟩
  have hudp : Keys w.stack.udpConns [] := ⟨nodup_nil, fun id => by simp [w, NetStack.spawn]⟩
  have h₁ : RunsWith Simple.tcp Simple.tuning T (.spawn [] 1280 Simple.limits)
      [pollStep (Simple.idle .closed)] w :=
    Run.nil.snoc ⟨(by intro h remote port sock hslot; cases hslot), trivial⟩ rfl
  have h₂ := h₁.stay (.serviceTcp [] 0 fun _ => Simple.calmAt 0) htcp
    (by intro id st sock hconn; cases hconn) rfl
  have h₃ := h₂.stay (.serviceUdp [] fun _ _ => .permit) hudp trivial rfl
  have h₄ := h₃.stay (.flushTx fun _ => .ok) trivial trivial rfl
  have h₅ := h₄.stay .drainBacklog trivial trivial rfl
  have h₆ := h₅.stay (.reapWedged [] [] (fun _ => 0) fun _ => 0)
    ⟨htcp, by simp [w, Backlog.empty]⟩ trivial rfl
  exact h₆.step (.cmd (.openTcp Simple.remote) Simple.openEnv) rfl trivial rfl

end Solo

end Aether
