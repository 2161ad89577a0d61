/-
Every step of the stack is a sequence of `FlowStep`s for every flow.

The other flows stay out of a flow's way because no two flows hold the same socket
(`Tables`), and the shared backlog does because it is in order for each flow: a flow
has a message in it exactly when it is blocked, so a message that is handled at once
overtakes none of its own.  With `flow_invariant` at the end of the file, a property
of one flow is proved by going through the constructors of `FlowStep`.
-/
import Aether.Proofs.Netstack.Tables

namespace Aether

open KeyedQueue

open Machine

open List Function

variable {σ υ : Type}

/-! ### A flow's entry and socket under the small writes -/

namespace NetStack

variable {s s' : NetStack σ υ} {id : Nat}

theorem conn_of_slot {st : TcpState} {remote : SocketAddr} {port : Nat} {sock : σ}
    (hst : s.tcpConns id = some st) (hslot : s.sockets st.handle = some (.tcp remote port sock)) :
    s.conn id = some (st, sock) := by
  simp [conn, hst, hslot]

theorem conn_none (hst : s.tcpConns id = none) : s.conn id = none := by
  simp [conn, hst]

theorem slot_of_conn {st : TcpState} {sock : σ} (h : s.conn id = some (st, sock)) :
    s.tcpConns id = some st ∧
      ∃ remote port, s.sockets st.handle = some (.tcp remote port sock) := by
  unfold conn at h
  split at h
  · cases h
  · rename_i st₁ hst
    split at h
    · rename_i remote port sock₁ hslot
      cases h
      exact ⟨hst, remote, port, hslot⟩
    · cases h

@[simp] theorem conn_log (s : NetStack σ υ) (es : List Event) :
    (s.log es).conn id = s.conn id := rfl

theorem conn_poll (s : NetStack σ υ) (tcp : Nat → σ → σ) (udp : Nat → υ → υ)
    (device : StackDevice) (panicked : Bool) (id : Nat) :
    (s.poll tcp udp device panicked).conn id =
      (s.conn id).map fun c => (c.1, tcp c.1.handle c.2) := by
  simp only [conn, poll]
  cases s.tcpConns id with
  | none => rfl
  | some st =>
    simp only
    cases s.sockets st.handle with
    | none => rfl
    | some slot => cases slot <;> rfl

theorem conn_frame (htcp : s'.tcpConns id = s.tcpConns id)
    (hsock : ∀ st, s.tcpConns id = some st → s'.sockets st.handle = s.sockets st.handle) :
    s'.conn id = s.conn id := by
  unfold conn
  rw [htcp]
  cases hst : s.tcpConns id with
  | none => rfl
  | some st => simp only [hsock st hst]

end NetStack

namespace Tables

variable {s : NetStack σ υ} {id id' : Nat} {st st' : TcpState}

theorem conn (ht : Tables s) (h : s.tcpConns id = some st) :
    ∃ sock, s.conn id = some (st, sock) := by
  obtain ⟨remote, port, sock, hslot⟩ := ht.tcpSlot h
  exact ⟨sock, NetStack.conn_of_slot h hslot⟩

theorem conn_none_iff (ht : Tables s) : s.conn id = none ↔ s.tcpConns id = none := by
  refine ⟨fun h => Option.eq_none_iff_forall_ne_some.mpr fun st hst => ?_, NetStack.conn_none⟩
  obtain ⟨sock, hconn⟩ := ht.conn hst
  simp [h] at hconn

/-- A slot that was free is no flow's. -/
theorem update_free {h : Nat} {v : Option (Slot σ υ)} (ht : Tables s) (hfree : s.sockets h = none)
    (hst : s.tcpConns id = some st) :
    update s.sockets h v st.handle = s.sockets st.handle := by
  refine update_of_ne ?_ _ _
  rintro rfl
  obtain ⟨remote, port, sock, hslot⟩ := ht.tcpSlot hst
  simp [hfree] at hslot

theorem handle_ne (ht : Tables s) (h : s.tcpConns id = some st) (h' : s.tcpConns id' = some st')
    (hne : id ≠ id') : st.handle ≠ st'.handle := by
  intro hh
  have := ht.owned.once (NetStack.owner_tcp h) (hh ▸ NetStack.owner_tcp h')
  exact hne (by injection this)

variable {u : UdpState} {slot : Slot σ υ}

theorem handle_ne_udp (ht : Tables s) (h : s.tcpConns id = some st) (h' : s.udpConns id' = some u) :
    st.handle ≠ u.handle := by
  intro hh
  have := ht.owned.once (NetStack.owner_tcp h) (hh ▸ NetStack.owner_udp h')
  cases this

theorem conn_setTcp_other (s : NetStack σ υ) (hne : id ≠ id') :
    (s.setTcp id' st').conn id = s.conn id :=
  NetStack.conn_frame (update_of_ne hne _ _) fun _ _ => rfl

theorem conn_setTcp {sock : σ} (hconn : s.conn id = some (st, sock))
    (hh : st'.handle = st.handle) : (s.setTcp id st').conn id = some (st', sock) := by
  obtain ⟨-, remote, port, hslot⟩ := NetStack.slot_of_conn hconn
  simp [NetStack.conn, NetStack.setTcp, hh, hslot]

/-- Writing a flow's entry and socket back leaves the other flows alone. -/
theorem conn_setFlow_other (ht : Tables s) (hst : s.tcpConns id' = some st) (hne : id ≠ id') :
    ((s.setTcp id' st').setSocket st.handle slot).conn id = s.conn id := by
  refine NetStack.conn_frame (update_of_ne hne _ _) fun st₁ hst₁ => ?_
  exact update_of_ne (ht.handle_ne hst₁ hst hne) _ _

theorem conn_setFlow (hh : st'.handle = st.handle) {remote : SocketAddr} {port : Nat} {sock : σ} :
    ((s.setTcp id st').setSocket st.handle (.tcp remote port sock)).conn id = some (st', sock) := by
  simp [NetStack.conn, NetStack.setTcp, NetStack.setSocket, hh]

theorem conn_dropTcp_other (ht : Tables s) (hst : s.tcpConns id' = some st) (hne : id ≠ id') :
    (s.dropTcp id' st.handle).conn id = s.conn id := by
  refine NetStack.conn_frame (update_of_ne hne _ _) fun st₁ hst₁ => ?_
  exact update_of_ne (ht.handle_ne hst₁ hst hne) _ _

theorem conn_setSocket_udp (ht : Tables s) (hu : s.udpConns id' = some u) :
    (s.setSocket u.handle slot).conn id = s.conn id :=
  NetStack.conn_frame rfl fun _ hst => update_of_ne (ht.handle_ne_udp hst hu) _ _

theorem conn_dropUdp (ht : Tables s) (hu : s.udpConns id' = some u) :
    (s.dropUdp id' u.handle).conn id = s.conn id :=
  NetStack.conn_frame rfl fun _ hst => update_of_ne (ht.handle_ne_udp hst hu) _ _

end Tables

/-! ### The small calls, from one flow's side -/

variable {m : Smoltcp σ υ} {tun : Tuning} {T : TurnCond σ} {id : Nat} {s s' : NetStack σ υ}
  {d : DataIn} {o : Option DataIn} {c : Option (TcpState × σ)} {st : TcpState} {sock : σ}
  {i now mtu : Nat} {env : Nat → FlowEnv} {q : List DataIn} {es : List Event} {ids : List Nat}
  {w w' : World σ υ} {r : NetStack σ υ × Backlog} {iface : List IpCidr} {limits : TcpLimits}
  {steps : List (Step σ υ)} {P : FlowView σ → Prop}

/-- Handling a message writes nothing but entries and sockets. -/
theorem Handled.frame (h : Handled m tun s d s' o) : s'.trace = s.trace ∧ s'.nextId = s.nextId := by
  cases h <;> exact ⟨rfl, rfl⟩

theorem Handled.other (ht : Tables s) (h : Handled m tun s d s' o) (hne : d.id ≠ id) :
    s'.conn id = s.conn id := by
  cases h with
  | noTcp _ _ => rfl
  | noUdp _ _ => rfl
  | full _ _ => rfl
  | taken _ _ | split _ _ _ | halfClosed _ => exact Tables.conn_setTcp_other s (Ne.symm hne)
  | udpSent hst _ => exact ht.conn_setSocket_udp hst
  | udpClosed hst _ => exact ht.conn_dropUdp hst

theorem Handled.self (ht : Tables s) (h : Handled m tun s d s' o) :
    FlowHandled tun (s.conn d.id) d (s'.conn d.id) o := by
  cases h with
  | noTcp hd hst =>
    rcases hd with ⟨data, rfl⟩ | rfl
    · rw [DataIn.id_tcp, NetStack.conn_none hst]
      exact .gone
    · rw [DataIn.id_tcpClose, NetStack.conn_none hst]
      exact .gone
  | noUdp hd _ =>
    refine .foreign ?_
    rcases hd with ⟨dst, data, rfl⟩ | rfl
    · exact Or.inl ⟨_, dst, data, rfl⟩
    · exact Or.inr ⟨_, rfl⟩
  | full hst hfull =>
    obtain ⟨sock, hconn⟩ := ht.conn hst
    rw [DataIn.id_tcp, hconn]
    exact .full hfull
  | taken hst hroom =>
    obtain ⟨sock, hconn⟩ := ht.conn hst
    rw [DataIn.id_tcp, hconn, Tables.conn_setTcp hconn]
    · exact .taken hroom
    · rfl
  | split hst hn hmore =>
    obtain ⟨sock, hconn⟩ := ht.conn hst
    rw [DataIn.id_tcp, hconn, Tables.conn_setTcp hconn]
    · exact .split hn hmore
    · rfl
  | halfClosed hst =>
    obtain ⟨sock, hconn⟩ := ht.conn hst
    rw [DataIn.id_tcpClose, hconn, Tables.conn_setTcp hconn]
    · exact .halfClosed
    · rfl
  | udpSent hst _ =>
    rw [ht.conn_setSocket_udp hst]
    exact .foreign (Or.inl ⟨_, _, _, rfl⟩)
  | udpClosed hst _ =>
    rw [ht.conn_dropUdp hst]
    exact .foreign (Or.inr ⟨_, rfl⟩)

/-- Handling writes nothing of a flow but `pending` and `half_closed`. -/
theorem FlowHandled.frame {st' : TcpState} {back : Option DataIn}
    (h : FlowHandled tun c d (some (st', sock)) back) :
    ∃ st, c = some (st, sock) ∧
      st' = { st with pending := st'.pending, halfClosed := st'.halfClosed } := by
  cases h with
  | foreign _ | full _ => exact ⟨st', rfl, rfl⟩
  | taken _ => exact ⟨_, rfl, rfl⟩
  | split _ _ => exact ⟨_, rfl, rfl⟩
  | halfClosed => exact ⟨_, rfl, rfl⟩

/-- What the message brings is pending or comes back. -/
theorem FlowHandled.bytes {st st' : TcpState} {sock' : σ} {back : Option DataIn}
    (h : FlowHandled tun (some (st, sock)) d (some (st', sock')) back) (q : List DataIn) :
    st'.pending ++ stream (back.toList ++ q) = st.pending ++ stream (d :: q) := by
  cases h with
  | foreign hd => rcases hd with ⟨i, dst, data, rfl⟩ | ⟨i, rfl⟩ <;> rfl
  | split _ _ => simp [stream, DataIn.payload, ← append_assoc (take _ _)]
  | _ => simp [stream, DataIn.payload]

/-- A message that is given back belongs to a flow that is there. -/
theorem Handled.back_live {b : DataIn} (h : Handled m tun s d s' (some b)) :
    b.id = d.id ∧ (s.tcpConns d.id).isSome = true := by
  cases h with
  | full hst _ | split hst _ _ => exact ⟨rfl, by rw [DataIn.id_tcp, hst]; rfl⟩

/-! ### What the stack keeps besides its tables -/

/-- The history only names flows whose id has been given out. -/
structure StackSound (s : NetStack σ υ) : Prop extends Tables s where
  opened : ∀ {id}, Event.openedTcp id ∈ s.trace → id < s.nextId
  flows : ∀ {id e}, Event.flow id e ∈ s.trace → id < s.nextId

structure Sound (w : World σ υ) : Prop where
  stack : StackSound w.stack
  /-- A flow is blocked exactly when it has something in the backlog. -/
  blocked : ∀ id, id ∈ w.backlog.blocked ↔ ∃ d ∈ w.backlog.queue, d.id = id
  waiting : ∀ d ∈ w.backlog.queue, d.id < w.stack.nextId

/-- Events that name no flow which has not been given out. -/
theorem StackSound.log (hs : StackSound s) (ht : Tables s') (es : List Event)
    (htrace : s'.trace = s.trace ++ es) (hnext : s.nextId ≤ s'.nextId)
    (hopened : ∀ id, Event.openedTcp id ∈ es → id < s'.nextId)
    (hflows : ∀ id e, Event.flow id e ∈ es → id < s'.nextId) : StackSound s' := by
  refine ⟨ht, fun {id} h => ?_, fun {id e} h => ?_⟩
  · rw [htrace, mem_append] at h
    exact h.elim (fun h => lt_of_lt_of_le (hs.opened h) hnext) (hopened id)
  · rw [htrace, mem_append] at h
    exact h.elim (fun h => lt_of_lt_of_le (hs.flows h) hnext) (hflows id e)

theorem StackSound.same (hs : StackSound s) (ht : Tables s') (htrace : s'.trace = s.trace)
    (hnext : s'.nextId = s.nextId) : StackSound s' :=
  hs.log ht [] (by rw [htrace, append_nil]) (le_of_eq hnext.symm) (by simp) (by simp)

theorem Tables.id_lt (ht : Tables s) (h : s.tcpConns id = some st) : id < s.nextId :=
  ht.below (f := .tcp id) (NetStack.owner_tcp h)

theorem StackSound.handled (hs : StackSound s) (h : Handled m tun s d s' o) : StackSound s' :=
  hs.same (hs.toTables.handled h) h.frame.1 h.frame.2

theorem StackSound.served (hs : StackSound s) (h : Served m tun now env s i s') :
    StackSound s' := by
  have ht := hs.toTables.served h
  have hflows : ∀ {st : TcpState} {log : List FlowEvent}, s.tcpConns i = some st →
      ∀ id e, Event.flow id e ∈ log.map (.flow i) → id < s.nextId := by
    intro st log hst id e he
    obtain ⟨e', -, heq⟩ := mem_map.mp he
    cases heq
    exact hs.toTables.id_lt hst
  cases h with
  | gone _ => exact hs
  | removed hst _ _ | kept hst _ _ => exact hs.log ht _ rfl le_rfl (by simp) (hflows hst)

theorem StackSound.servedUdp (hs : StackSound s) (h : ServedUdp s i s') : StackSound s' := by
  have ht := hs.toTables.servedUdp h
  cases h <;> exact hs.same ht rfl rfl

theorem StackSound.reset (hs : StackSound s) (h : Reset m s i s') : StackSound s' := by
  have ht := hs.toTables.reset h
  cases h with
  | gone _ => exact hs
  | aborted hst _ =>
    refine hs.log ht _ rfl le_rfl (by simp) ?_
    rintro id e he
    cases mem_singleton.mp he
    exact hs.toTables.id_lt hst

theorem StackSound.commanded {env : OpenEnv} {c : Cmd} (hs : StackSound s)
    (hfree : s.sockets env.handle = none) (h : Commanded m tun env s c s') : StackSound s' := by
  have ht := hs.toTables.commanded hfree h
  cases h with
  | tcpFailed =>
    exact hs.log ht _ (append_assoc _ _ _) le_rfl (by simp) (by simp)
  | tcpOpened _ =>
    refine hs.log ht _ (append_assoc _ _ _) (Nat.le_succ _) ?_ (by simp)
    intro id hid
    have : id = s.takePort.nextId := by simpa using hid
    rw [this]
    exact Nat.lt_succ_self _
  | udpFailed =>
    exact hs.log ht _ (append_assoc _ _ _) le_rfl (by simp) (by simp)
  | udpOpened _ =>
    exact hs.log ht _ (append_assoc _ _ _) (Nat.le_succ _) (by simp) (by simp)
  | addrsSet => exact hs.same ht rfl rfl

/-! ### The backlog -/

namespace Sound

variable {w : World σ υ} {s' : NetStack σ υ}

/-- A new stack under the same backlog. -/
theorem setStack (hw : Sound w) (hs : StackSound s') (hnext : w.stack.nextId ≤ s'.nextId) :
    Sound { w with stack := s' } where
  stack := hs
  blocked := hw.blocked
  waiting d hd := lt_of_lt_of_le (hw.waiting d hd) hnext

theorem push (hw : Sound w) {t : Target} {d : DataIn} (hd : d.id < w.stack.nextId) :
    Sound { w with backlog := w.backlog.push t d } where
  stack := hw.stack
  blocked id := by
    simp only [Backlog.push, Finset.mem_insert, hw.blocked id, mem_append,
      mem_singleton]
    constructor
    · rintro (rfl | ⟨d', hd', hid⟩)
      · exact ⟨d, Or.inr rfl, rfl⟩
      · exact ⟨d', Or.inl hd', hid⟩
    · rintro ⟨d', hd' | rfl, hid⟩
      · exact Or.inr ⟨d', hd', hid⟩
      · exact Or.inl hid.symm
  waiting d' hd' := by
    rcases mem_append.mp hd' with h | h
    · exact hw.waiting d' h
    · rw [mem_singleton.mp h]
      exact hd

theorem purge (hw : Sound w) (i : Nat) : Sound { w with backlog := w.backlog.purge i } where
  stack := hw.stack
  blocked id := by
    simp only [Backlog.purge, Finset.mem_erase, hw.blocked id, mem_filter, decide_eq_true_eq]
    constructor
    · rintro ⟨hne, d, hd, rfl⟩
      exact ⟨d, ⟨hd, hne⟩, rfl⟩
    · rintro ⟨d, ⟨hd, hne⟩, rfl⟩
      exact ⟨hne, d, hd, rfl⟩
  waiting d hd := hw.waiting d (mem_filter.mp hd).1

/-- A flow without backlog has nothing waiting. -/
theorem ofKey_nil (hw : Sound w) (hid : id ∉ w.backlog.blocked) :
    ofKey DataIn.id id w.backlog.queue = [] := by
  rw [ofKey_eq_nil]
  intro d hd hc
  exact hid ((hw.blocked id).mpr ⟨d, hd, hc⟩)

theorem ofKey_new (hw : Sound w) (hid : w.stack.nextId ≤ id) :
    ofKey DataIn.id id w.backlog.queue = [] := by
  rw [ofKey_eq_nil]
  intro d hd hc
  have := hw.waiting d hd
  omega

end Sound

theorem ofKey_purge (b : Backlog) (i : Nat) :
    ofKey DataIn.id id (b.purge i).queue =
      if i = id then [] else ofKey DataIn.id id b.queue := by
  simp only [ofKey, Backlog.purge, filter_filter]
  split
  · rename_i hid
    subst hid
    rw [filter_eq_nil_iff]
    intro d _
    simp
  · rename_i hid
    refine filter_congr fun d _ => ?_
    by_cases hd : d.id = id
    · simp [hd, Ne.symm hid]
    · simp [hd]

/-! ### Each call as flow steps -/

theorem view_eq {t : List Event} (hconn : s.conn id = c) (htrace : s.trace = t) :
    s.view q id = { conn := c, waiting := q, trace := t } := by
  rw [NetStack.view, hconn, htrace]

theorem view_other (es : List Event) (hconn : s'.conn id = s.conn id)
    (htrace : s'.trace = s.trace ++ es) (hes : ∀ e ∈ es, e.about id = false) :
    FlowSteps m tun T id (s.view q id) (s'.view q id) := by
  rw [view_eq (s := s') hconn htrace]
  exact .single (.other (v := s.view q id) hes)

theorem view_same (hconn : s'.conn id = s.conn id) (htrace : s'.trace = s.trace) :
    FlowSteps m tun T id (s.view q id) (s'.view q id) := by
  rw [view_eq (s := s') hconn htrace]
  exact .refl

theorem about_flow (hne : i ≠ id) (es : List FlowEvent) :
    ∀ e ∈ es.map (Event.flow i), e.about id = false := by
  intro e he
  obtain ⟨e', -, rfl⟩ := mem_map.mp he
  simpa [Event.about] using hne

theorem flow_notMem_of_other {e : FlowEvent} (hes : ∀ e ∈ es, e.about id = false) :
    Event.flow id e ∉ es := by
  intro hc
  simpa [Event.about] using hes _ hc

theorem about_ingested (hes : ∀ e ∈ es, e.about id = false) (h : Event.ingested d ∈ es) :
    d.id ≠ id := by
  have := hes _ h
  simpa [Event.about] using this

/-- What a call leaves alone for flow `id`: its entry and socket, the lifetimes, and the
history apart from events that are not about it. -/
structure Aside (id : Nat) (s s' : NetStack σ υ) (es : List Event) : Prop where
  conn : s'.conn id = s.conn id
  limits : s'.tcpLimits = s.tcpLimits
  trace : s'.trace = s.trace ++ es
  notAbout : ∀ e ∈ es, e.about id = false

theorem Aside.refl : Aside id s s [] := ⟨rfl, rfl, by simp, by simp⟩

theorem Aside.trans {s'' : NetStack σ υ} {es' : List Event} (h : Aside id s s' es)
    (h' : Aside id s' s'' es') : Aside id s s'' (es ++ es') where
  conn := h'.conn.trans h.conn
  limits := h'.limits.trans h.limits
  trace := by rw [h'.trace, h.trace, append_assoc]
  notAbout e he := (mem_append.mp he).elim (h.notAbout e) (h'.notAbout e)

/-- The turn of another flow. -/
theorem Served.other (ht : Tables s) (h : Served m tun now env s i s') (hne : i ≠ id) :
    ∃ es, Aside id s s' es := by
  cases h with
  | gone _ => exact ⟨[], .refl⟩
  | removed hst _ _ =>
    exact ⟨_, (ht.log _).conn_dropTcp_other hst (Ne.symm hne), rfl, rfl, about_flow hne _⟩
  | kept hst _ _ =>
    exact ⟨_, (ht.log _).conn_setFlow_other hst (Ne.symm hne), rfl, rfl, about_flow hne _⟩

theorem Served.nextId (h : Served m tun now env s i s') : s'.nextId = s.nextId := by
  cases h <;> rfl

/-- The flow's own turn. -/
theorem Served.self (h : Served m tun now env s id s') (hconn : s.conn id = some (st, sock)) :
    s'.conn id = (serviceFlow m tun s.tcpLimits now (env id) st sock).next ∧
    s'.trace = s.trace ++
      (serviceFlow m tun s.tcpLimits now (env id) st sock).log.map (.flow id) := by
  cases h with
  | gone hst => rw [NetStack.conn_none hst] at hconn; cases hconn
  | removed hst hslot hnext =>
    rw [NetStack.conn_of_slot hst hslot] at hconn
    cases hconn
    exact ⟨(NetStack.conn_none (update_self _ _ _)).trans hnext.symm, rfl⟩
  | kept hst hslot hnext =>
    rw [NetStack.conn_of_slot hst hslot] at hconn
    cases hconn
    exact ⟨(Tables.conn_setFlow (serviceFlow_sameFlow hnext).handle).trans hnext.symm, rfl⟩

/-- A pass over other flows. -/
theorem serviceTcp_other {a a' : NetStack σ υ × Bool} (hs : StackSound a.1) (hid : id ∉ ids)
    (h : ids.foldlM (serviceOne m tun now env) a = .ok a') : ∃ es, Aside id a.1 a'.1 es := by
  refine (foldlM_keeps (P := fun t => StackSound t.1 ∧ ∃ es, Aside id a.1 t.1 es) h
    ⟨hs, [], .refl⟩ ?_).2
  rintro i hi t t' ⟨ht, es, hes⟩ hone
  have hserved := served_of_ok hone
  obtain ⟨es', hes'⟩ := hserved.other ht.toTables (ne_of_mem_of_not_mem hi hid)
  exact ⟨ht.served hserved, _, hes.trans hes'⟩

/-- A pass of `service_tcp` is one turn of every flow. -/
theorem serviceTcp_turn :
    ∀ {ids : List Nat} {a a' : NetStack σ υ × Bool}, ids.Nodup → StackSound a.1 →
      id ∈ ids → a.1.conn id = some (st, sock) →
      ids.foldlM (serviceOne m tun now env) a = .ok a' →
      a'.1.conn id = (serviceFlow m tun a.1.tcpLimits now (env id) st sock).next ∧
      ∃ es es', a'.1.trace = a.1.trace ++ es ++
          (serviceFlow m tun a.1.tcpLimits now (env id) st sock).log.map (.flow id) ++ es' ∧
        (∀ e ∈ es, e.about id = false) ∧ ∀ e ∈ es', e.about id = false := by
  intro ids
  induction ids with
  | nil =>
    intro a a' _ _ hid
    simp at hid
  | cons i rest ih =>
    intro a a' hnodup hs hid hconn h
    rw [foldlM_cons, bind_eq_ok] at h
    obtain ⟨mid, hone, hrest⟩ := h
    have hserved := served_of_ok hone
    have hmid := hs.served hserved
    obtain ⟨hi, hnodup⟩ := nodup_cons.mp hnodup
    by_cases hne : i = id
    · -- The flow's turn comes now, and never again in this pass.
      subst hne
      obtain ⟨hconn', htrace⟩ := hserved.self hconn
      obtain ⟨es', hes'⟩ := serviceTcp_other hmid hi hrest
      refine ⟨hes'.conn.trans hconn', [], es', ?_, by simp, hes'.notAbout⟩
      rw [hes'.trace, htrace, append_nil]
    · obtain ⟨es, hes⟩ := hserved.other hs.toTables hne
      have hid' : id ∈ rest := by
        rcases mem_cons.mp hid with hc | hc
        · exact absurd hc.symm hne
        · exact hc
      obtain ⟨hconn', es₁, es₂, htrace, h₁, h₂⟩ :=
        ih hnodup hmid hid' (hes.conn.trans hconn) hrest
      rw [hes.limits] at hconn' htrace
      refine ⟨hconn', es ++ es₁, es₂, ?_, ?_, h₂⟩
      · rw [htrace, hes.trace]
        simp only [append_assoc]
      · intro e he
        rcases mem_append.mp he with he | he
        · exact hes.notAbout e he
        · exact h₁ e he

/-- What a pass of `service_tcp` is for a flow: nothing, or its turn. -/
theorem serviceTcp_cases (id : Nat) {a a' : NetStack σ υ × Bool} (hk : Keys a.1.tcpConns ids)
    (hs : StackSound a.1) (h : ids.foldlM (serviceOne m tun now env) a = .ok a') :
    (a.1.conn id = none ∧ ∃ es, Aside id a.1 a'.1 es) ∨
    ∃ st sock, a.1.conn id = some (st, sock) ∧
      a'.1.conn id = (serviceFlow m tun a.1.tcpLimits now (env id) st sock).next ∧
      ∃ es es', a'.1.trace = a.1.trace ++ es ++
          (serviceFlow m tun a.1.tcpLimits now (env id) st sock).log.map (.flow id) ++ es' ∧
        (∀ e ∈ es, e.about id = false) ∧ ∀ e ∈ es', e.about id = false := by
  cases hconn : a.1.conn id with
  | none =>
    refine .inl ⟨rfl, serviceTcp_other hs ?_ h⟩
    rw [hk.2, hs.toTables.conn_none_iff.mp hconn]
    simp
  | some c =>
    refine .inr ⟨c.1, c.2, rfl, serviceTcp_turn hk.1 hs ?_ hconn h⟩
    rw [hk.2, (NetStack.slot_of_conn hconn).1]
    rfl

theorem serviceTcp_flowSteps {a a' : NetStack σ υ × Bool} (hk : Keys a.1.tcpConns ids)
    (hs : StackSound a.1)
    (hT : ∀ st sock, a.1.conn id = some (st, sock) → T a.1.tcpLimits now (env id) st sock)
    (h : ids.foldlM (serviceOne m tun now env) a = .ok a') :
    FlowSteps m tun T id (a.1.view q id) (a'.1.view q id) := by
  obtain ⟨-, es, hes⟩ | ⟨st, sock, hconn, hconn', es, es', htrace, hes, hes'⟩ :=
    serviceTcp_cases id hk hs h
  · exact view_other _ hes.conn hes.trace hes.notAbout
  · rw [view_eq hconn' htrace, view_eq hconn rfl]
    exact .tail (.tail (.single (.other hes)) (.turn rfl (hT _ _ hconn))) (.other hes')

theorem ServedUdp.frame (ht : Tables s) (h : ServedUdp s i s') (id : Nat) :
    s'.conn id = s.conn id ∧ s'.trace = s.trace ∧ s'.nextId = s.nextId := by
  cases h with
  | gone => exact ⟨rfl, rfl, rfl⟩
  | removed hst _ => exact ⟨ht.conn_dropUdp hst, rfl, rfl⟩
  | kept hst _ => exact ⟨ht.conn_setSocket_udp hst, rfl, rfl⟩

theorem Reset.nextId (h : Reset m s i s') : s'.nextId = s.nextId := by
  cases h <;> rfl

/-- One reset, with the purge that goes with it. -/
theorem Reset.flowSteps {b : Backlog} (ht : Tables s) (h : Reset m s i s') :
    FlowSteps m tun T id (s.view (ofKey DataIn.id id b.queue) id)
      (s'.view (ofKey DataIn.id id (b.purge i).queue) id) := by
  rw [ofKey_purge]
  by_cases hid : i = id
  · subst hid
    rw [if_pos rfl]
    cases h with
    | gone hst => exact .single (.purged (NetStack.conn_none hst))
    | @aborted port st remote sock hst hslot =>
      have hconn := NetStack.conn_of_slot hst hslot
      refine .single ?_
      have hstep : FlowStep m tun T i (s.view (ofKey DataIn.id i b.queue) i) _ :=
        .reset hconn
      have hafter : ((s.setTcp i { st with pending := [], credit := st.credit.close }).setSocket
          st.handle (.tcp remote port (m.abort sock))).conn i =
            some ({ st with pending := [], credit := st.credit.close }, m.abort sock) :=
        Tables.conn_setFlow rfl
      rw [view_eq (s := NetStack.log _ _) ((NetStack.conn_log _ _).trans hafter) rfl]
      exact hstep
  · rw [if_neg hid]
    cases h with
    | gone _ => exact .refl
    | aborted hst _ =>
      exact view_other _ (ht.conn_setFlow_other hst (Ne.symm hid)) rfl (about_flow hid [.abort])

theorem poll_flowSteps {tcp : Nat → σ → σ} {udp : Nat → υ → υ} {device : StackDevice}
    {panicked : Bool}
    (hpolled : ∀ h remote port sock, s.sockets h = some (.tcp remote port sock) →
      m.polled sock (tcp h sock)) :
    FlowSteps m tun T id (s.view q id) ((pollStack m tcp udp device panicked s).view q id) := by
  refine .single ?_
  have hafter := s.conn_poll tcp udp device panicked id
  cases hconn : s.conn id with
  | none =>
    rw [hconn, Option.map_none] at hafter
    rw [view_eq hconn rfl, view_eq (s := pollStack _ _ _ _ _ _) hafter rfl]
    refine .polledGone rfl ?_ ?_
    · simp only [NetStack.flowSocket, hconn, Option.map_none]
    · rw [NetStack.flowSocket, hafter]
      rfl
  | some c =>
    obtain ⟨st, sock⟩ := c
    rw [hconn, Option.map_some] at hafter
    obtain ⟨-, remote, port, hslot⟩ := NetStack.slot_of_conn hconn
    rw [view_eq hconn rfl, view_eq (s := pollStack _ _ _ _ _ _) hafter rfl]
    refine .polled (show _ = some (st, sock) from rfl) (hpolled _ _ _ _ hslot) ?_ ?_
    · simp only [NetStack.flowSocket, hconn, hafter, Option.map_some]
    · rw [NetStack.flowSocket, hafter]
      rfl

theorem Commanded.flowSteps {env : OpenEnv} {c : Cmd} (hw : Sound w)
    (hfree : w.stack.sockets env.handle = none) (h : Commanded m tun env w.stack c s') :
    FlowSteps m tun T id (w.view id) (World.view { w with stack := s' } id) := by
  cases h with
  | tcpFailed =>
    exact view_other _ rfl (append_assoc _ _ _) (by simp [Event.about])
  | @tcpOpened dst sock hconnect =>
    by_cases hid : w.stack.nextId = id
    · subst hid
      have hnew : w.stack.tcpConns w.stack.nextId = none :=
        Option.eq_none_iff_forall_ne_some.mpr fun st hst =>
          lt_irrefl _ (hw.stack.toTables.id_lt hst)
      have hport : FlowSteps m tun T w.stack.nextId (w.view w.stack.nextId)
          (World.view { w with stack := w.stack.takePort } w.stack.nextId) :=
        view_other _ rfl rfl (by simp [Event.about])
      refine hport.tail ?_
      have hafter : (w.stack.takePort.addTcp env dst w.stack.nextPort sock).conn w.stack.nextId =
          some (.opening env w.stack.tcpLimits, sock) := by
        simp [NetStack.conn, NetStack.addTcp, NetStack.log, NetStack.takePort, TcpState.opening]
      rw [World.view, World.view, view_eq (s := NetStack.addTcp _ _ _ _ _) hafter rfl]
      refine .opened (NetStack.conn_none hnew) (hw.ofKey_new le_rfl) ?_ ?_ hconnect
      · intro hc
        have hold : Event.openedTcp w.stack.nextId ∈ w.stack.trace := by
          simpa [NetStack.view, NetStack.takePort, NetStack.log] using hc
        exact absurd (hw.stack.opened hold) (by omega)
      · intro e hc
        have hold : Event.flow w.stack.nextId e ∈ w.stack.trace := by
          simpa [NetStack.view, NetStack.takePort, NetStack.log] using hc
        exact absurd (hw.stack.flows hold) (by omega)
    · refine view_other _ ?_ (append_assoc _ _ _) ?_
      · exact NetStack.conn_frame (update_of_ne (Ne.symm hid) _ _) fun st hst =>
          hw.stack.toTables.update_free hfree hst
      · intro e he
        rcases mem_pair.mp he with rfl | rfl
        · rfl
        · exact beq_eq_false_iff_ne.mpr hid
  | udpFailed =>
    exact view_other _ rfl (append_assoc _ _ _) (by simp [Event.about])
  | udpOpened _ =>
    refine view_other _ ?_ (append_assoc _ _ _) (by simp [Event.about])
    exact NetStack.conn_frame rfl fun st hst => hw.stack.toTables.update_free hfree hst
  | addrsSet => exact view_same rfl rfl

/-- Handling messages is flow steps, for the flow they belong to and the others. -/
theorem handle_tracks (v₀ : FlowView σ) :
    Tracks DataIn.id (tryHandleData m tun) id
      (fun s q => StackSound s ∧ FlowSteps m tun T id v₀ (s.view q id)) where
  other := by
    rintro s d s' o q hne h ⟨hs, hv⟩
    have hd := handled_of_ok h
    refine ⟨hs.handled hd, ?_⟩
    rw [view_eq (hd.other hs.toTables hne) hd.frame.1]
    exact hv
  taken := by
    rintro s d s' q rfl h ⟨hs, hv⟩
    have hd := handled_of_ok h
    refine ⟨hs.handled hd, hv.tail ?_⟩
    rw [view_eq (s := s') rfl hd.frame.1]
    exact .handled (v := s.view (d :: q) d.id) rfl (hd.self hs.toTables)
  deferred := by
    rintro s d s' b q rfl h ⟨hs, hv⟩
    have hd := handled_of_ok h
    refine ⟨hs.handled hd, hv.tail ?_⟩
    rw [view_eq (s := s') rfl hd.frame.1]
    exact .handled (v := s.view (d :: q) d.id) rfl (hd.self hs.toTables)

/-! ### Steps of the stack -/

theorem drainBacklog_sound (hw : Sound w) (h : drainBacklog m tun w.stack w.backlog = .ok r) :
    Sound { stack := r.1, backlog := r.2 } := by
  rcases drainBacklog_cases h with ⟨-, rfl⟩ | ⟨hpass, -⟩
  · exact hw
  · have hkey := tryHandleData_keepsKey m tun
    obtain ⟨hs, hnext⟩ := pass_keeps
      (P := fun s => StackSound s ∧ s.nextId = w.stack.nextId)
      (fun s d s' o hP hd => ⟨hP.1.handled (handled_of_ok hd),
        (handled_of_ok hd).frame.2.trans hP.2⟩) hpass ⟨hw.stack, rfl⟩
    refine ⟨hs, fun id => ?_, fun d hd => ?_⟩
    · rw [mem_blocked_iff hkey hpass]
      simp
    · obtain ⟨d', hd', hid⟩ := key_of_kept hkey hpass d hd
      rw [hnext, ← hid]
      exact hw.waiting d' hd'

theorem ingest_flow (id : Nat) (hw : Sound w) (h : ingest m tun w.stack w.backlog d = .ok r) :
    Sound { stack := r.1, backlog := r.2 } ∧
      FlowSteps m tun T id (w.view id) (World.view { stack := r.1, backlog := r.2 } id) := by
  have hlog : StackSound (w.stack.log [.ingested d]) :=
    hw.stack.log (hw.stack.toTables.log _) _ rfl le_rfl (by simp) (by simp)
  have hwlog : Sound { w with stack := w.stack.log [.ingested d] } := hw.setStack hlog le_rfl
  -- The message arrives at the back of its flow's queue.
  have harrive : FlowSteps m tun T id (w.view id)
      ((w.stack.log [.ingested d]).view
        (ofKey DataIn.id id (w.backlog.queue ++ [d])) id) := by
    rw [ofKey_append]
    by_cases hid : d.id = id
    · rw [ofKey_cons_self hid]
      exact .single (.arrived hid)
    · rw [ofKey_cons_other hid, ofKey_nil, append_nil]
      exact view_other _ rfl rfl (by simpa [Event.about] using hid)
  rcases ingest_cases h with ⟨hb, rfl⟩ | ⟨hb, o, hd, hback⟩
  · refine ⟨hwlog.push ?_, harrive⟩
    obtain ⟨d', hd', hid⟩ := (hw.blocked d.id).mp hb
    rw [← hid]
    exact hw.waiting d' hd'
  · -- Its flow has nothing waiting, so it is at the front as well.
    have hs := hlog.handled hd
    have hnext : r.1.nextId = w.stack.nextId := hd.frame.2
    have hsound : Sound { w with stack := r.1 } := hw.setStack hs (le_of_eq hnext.symm)
    have hnil := hw.ofKey_nil hb
    have hstep : FlowSteps m tun T id
        ((w.stack.log [.ingested d]).view
          (ofKey DataIn.id id (w.backlog.queue ++ [d])) id)
        (r.1.view (ofKey DataIn.id id (w.backlog.queue ++ o.toList)) id) := by
      have hkey : ∀ b ∈ o, b.id = d.id := by
        rintro b rfl
        exact hd.back_live.1
      by_cases hid : d.id = id
      · subst hid
        have hq : ofKey DataIn.id d.id (w.backlog.queue ++ o.toList) =
            o.toList ++ [] := by
          cases o with
          | none => simpa using hnil
          | some b => simp [hnil, ofKey_cons_self (hkey b rfl)]
        rw [hq, ofKey_append, hnil, ofKey_cons_self rfl,
          view_eq (s := r.1) rfl hd.frame.1]
        exact .single (.handled rfl (hd.self hlog.toTables))
      · have hq : ofKey DataIn.id id (w.backlog.queue ++ o.toList) =
            ofKey DataIn.id id (w.backlog.queue ++ [d]) := by
          cases o with
          | none => simp [ofKey_cons_other hid]
          | some b =>
            have hb' : b.id ≠ id := by rw [hkey b rfl]; exact hid
            simp [ofKey_cons_other hid, ofKey_cons_other hb']
        rw [hq]
        exact view_same (hd.other hlog.toTables hid) hd.frame.1
    cases o with
    | none =>
      rw [hback]
      rw [Option.toList_none, append_nil] at hstep
      exact ⟨hsound, harrive.trans hstep⟩
    | some b =>
      rw [hback]
      obtain ⟨hid, hlive⟩ := hd.back_live
      obtain ⟨st, hst⟩ := Option.isSome_iff_exists.mp hlive
      refine ⟨hsound.push (d := b) ?_, harrive.trans hstep⟩
      rw [hid]
      exact lt_of_lt_of_le (hlog.toTables.id_lt hst) (le_of_eq hnext.symm)

/-- **A step of the stack is flow steps for every flow.** -/
theorem step_flow {l : Step σ υ} (hw : Sound w) (hv : l.Valid m w) (hT : l.Turns T w)
    (h : step m tun w l = .ok w') :
    Sound w' ∧ ∀ id, FlowSteps m tun T id (w.view id) (w'.view id) := by
  cases l with
  | poll tcp udp device panicked =>
    have ht := step_tables hw.stack.toTables hv h
    cases h
    have hs := hw.stack.log ht [pollEvent m w.stack _] rfl le_rfl
      (by simp [pollEvent]) (by simp [pollEvent])
    exact ⟨hw.setStack hs le_rfl, fun id => poll_flowSteps hv⟩
  | serviceTcp ids now env =>
    obtain ⟨r, hr, heq⟩ := bind_eq_ok.mp h
    cases heq
    obtain ⟨hs, hnext⟩ := foldlM_keeps
      (P := fun acc : NetStack σ υ × Bool => StackSound acc.1 ∧ acc.1.nextId = w.stack.nextId)
      hr ⟨hw.stack, rfl⟩ (fun id _ t t' ht hone => by
        have hserved := served_of_ok hone
        exact ⟨ht.1.served hserved, hserved.nextId.trans ht.2⟩)
    exact ⟨hw.setStack hs (le_of_eq hnext.symm), fun id =>
      serviceTcp_flowSteps (a := (w.stack, false)) hv hw.stack (hT id) hr⟩
  | serviceUdp ids answers =>
    obtain ⟨r, hr, heq⟩ := bind_eq_ok.mp h
    cases heq
    obtain ⟨hs, hframe⟩ := foldlM_keeps
      (P := fun acc : NetStack σ υ × Bool => StackSound acc.1 ∧
        ((∀ id, acc.1.conn id = w.stack.conn id) ∧ acc.1.trace = w.stack.trace ∧
          acc.1.nextId = w.stack.nextId))
      hr ⟨hw.stack, fun _ => rfl, rfl, rfl⟩ (fun i _ t t' ht hone => by
        have hserved := servedUdp_of_ok hone
        refine ⟨ht.1.servedUdp hserved, fun id => ?_, ?_, ?_⟩
        · exact (hserved.frame ht.1.toTables id).1.trans (ht.2.1 id)
        · exact (hserved.frame ht.1.toTables 0).2.1.trans ht.2.2.1
        · exact (hserved.frame ht.1.toTables 0).2.2.trans ht.2.2.2)
    refine ⟨hw.setStack hs (le_of_eq hframe.2.2.symm), fun id => ?_⟩
    exact view_same (hframe.1 id) hframe.2.1
  | flushTx answers =>
    have ht := step_tables hw.stack.toTables hv h
    cases h
    exact ⟨hw.setStack (hw.stack.same ht rfl rfl) le_rfl, fun id => .refl⟩
  | drainBacklog =>
    obtain ⟨r, hr, heq⟩ := bind_eq_ok.mp h
    cases heq
    refine ⟨drainBacklog_sound hw hr, fun id => ?_⟩
    rcases drainBacklog_cases hr with ⟨-, rfl⟩ | ⟨hpass, -⟩
    · exact .refl
    · exact (pass_tracks (tryHandleData_keepsKey m tun) (handle_tracks (w.view id))
        (by simp) hpass ⟨hw.stack, .refl⟩).2
  | reapWedged ids blockedIds stallAt wedgeAt =>
    obtain ⟨r, hr, heq⟩ := bind_eq_ok.mp h
    cases heq
    obtain ⟨reset, hreset⟩ := reapWedged_ok hr
    exact foldlM_keeps
      (P := fun acc : NetStack σ υ × Backlog =>
        Sound { stack := acc.1, backlog := acc.2 } ∧ ∀ id, FlowSteps m tun T id (w.view id)
          (World.view { stack := acc.1, backlog := acc.2 } id))
      hreset ⟨hw, fun _ => .refl⟩ (fun i _ t t' ht hone => by
        obtain ⟨hr, hpurge⟩ := reapOne_ok hone
        rw [hpurge]
        refine ⟨(ht.1.setStack (ht.1.stack.reset hr) (le_of_eq hr.nextId.symm)).purge i,
          fun id => ?_⟩
        exact (ht.2 id).trans (hr.flowSteps ht.1.stack.toTables))
  | inbound pkt =>
    have ht := step_tables hw.stack.toTables hv h
    cases h
    exact ⟨hw.setStack (hw.stack.same ht rfl rfl) le_rfl, fun id => .refl⟩
  | ingest d =>
    obtain ⟨r, hr, heq⟩ := bind_eq_ok.mp h
    cases heq
    exact ⟨(ingest_flow (T := T) 0 hw hr).1, fun id => (ingest_flow id hw hr).2⟩
  | cmd c env =>
    obtain ⟨s, hs, heq⟩ := bind_eq_ok.mp h
    cases heq
    have hc := commanded_of_ok hs
    have hnext : w.stack.nextId ≤ s.nextId := by
      cases hc <;> first | exact le_rfl | exact Nat.le_succ _
    exact ⟨hw.setStack (hw.stack.commanded hv hc) hnext, fun id => hc.flowSteps hw hv⟩

/-- What a pass of `service_tcp` did for a flow is the log of its turn. -/
theorem serviceTcp_newEvents (id : Nat) (hw : Sound w)
    (hv : Step.Valid m w (.serviceTcp ids now env))
    (hstep : step m tun w (.serviceTcp ids now env) = .ok w') :
    w'.stack.trace = w.stack.trace ++ newEvents w w' ∧
    ∀ e, Event.flow id e ∈ newEvents w w' ↔ ∃ st sock, w.stack.conn id = some (st, sock) ∧
      e ∈ (serviceFlow m tun w.stack.tcpLimits now (env id) st sock).log := by
  obtain ⟨r, hr, heq⟩ := bind_eq_ok.mp hstep
  cases heq
  have hnew : ∃ es, r.1.trace = w.stack.trace ++ es ∧
      ∀ e, Event.flow id e ∈ es ↔ ∃ st sock, w.stack.conn id = some (st, sock) ∧
        e ∈ (serviceFlow m tun w.stack.tcpLimits now (env id) st sock).log := by
    obtain ⟨hconn, es, hes⟩ | ⟨st, sock, hconn, -, es, es', htrace, hes, hes'⟩ :=
      serviceTcp_cases (a := (w.stack, false)) id hv hw.stack hr
    · have hconn : w.stack.conn id = none := hconn
      exact ⟨es, hes.trace, fun e => by simp [flow_notMem_of_other hes.notAbout, hconn]⟩
    · have hconn : w.stack.conn id = some (st, sock) := hconn
      refine ⟨_, by rw [htrace, append_assoc, append_assoc], fun e => ?_⟩
      simp [flow_notMem_of_other hes, flow_notMem_of_other hes', hconn]
  obtain ⟨es, htrace, hes⟩ := hnew
  have hdrop : newEvents w { w with stack := r.1 } = es := by
    rw [newEvents, htrace, drop_left]
  rw [hdrop]
  exact ⟨htrace, hes⟩

/-! ### Runs -/

theorem Sound.spawn (iface : List IpCidr) (mtu : Nat) (limits : TcpLimits) :
    Sound (World.spawn iface mtu limits : World σ υ) where
  stack :=
    { toTables := Tables.spawn iface mtu limits
      opened := fun h => absurd h (by simp [World.spawn, NetStack.spawn])
      flows := fun h => absurd h (by simp [World.spawn, NetStack.spawn]) }
  blocked _ := by simp [World.spawn, Backlog.empty]
  waiting _ h := absurd h (by simp [World.spawn, Backlog.empty])

theorem RunsWith.sound (h : RunsWith m tun T (.spawn iface mtu limits) steps w) : Sound w :=
  h.invariant (Sound.spawn iface mtu limits)
    (fun _ _ _ hw hok hstep => (step_flow hw hok.1 hok.2 hstep).1)

/-- **What holds of a flow that is not there yet and survives its steps, holds in every
run.** -/
theorem flow_invariant (id : Nat) (hrun : RunsWith m tun T (.spawn iface mtu limits) steps w)
    (hinit : P { conn := none, waiting := [], trace := [] })
    (hkeep : ∀ v v', FlowStep m tun T id v v' → P v → P v') : P (w.view id) := by
  have hsteps : ∀ {v v'}, FlowSteps m tun T id v v' → P v → P v' := by
    intro v v' hvv hP
    induction hvv with
    | refl => exact hP
    | tail _ hlast ih => exact hkeep _ _ hlast ih
  have hboth : Sound w ∧ P (w.view id) :=
    Run.invariant (P := fun w => Sound w ∧ P (w.view id)) hrun
      ⟨Sound.spawn iface mtu limits, hinit⟩ (fun t l t' ht hok hstep => by
        obtain ⟨hs, hf⟩ := step_flow ht.1 hok.1 hok.2 hstep
        exact ⟨hs, hsteps (hf id) ht.2⟩)
  exact hboth.2

/-! ### Flows that are there -/

/-- Nothing was polled for the flow. -/
def Unpolled (id : Nat) (t : List Event) : Prop :=
  ∀ arrived state, Event.polled arrived state ∈ t → arrived id = [] ∧ state id = none

/-- A flow that is there was opened, with nothing polled for it before, and has `P` unless
its history excuses it. -/
structure FlowView.Live (id : Nat) (R : List Event → Prop)
    (P : TcpState → σ → List DataIn → List Event → Prop) (v : FlowView σ) : Prop where
  fresh : Event.openedTcp id ∉ v.trace → Unpolled id v.trace
  live : ∀ st sock, v.conn = some (st, sock) →
    Event.openedTcp id ∈ v.trace ∧ (¬ R v.trace → P st sock v.waiting v.trace)

theorem FlowView.Live.init (id : Nat) (R : List Event → Prop)
    (P : TcpState → σ → List DataIn → List Event → Prop) :
    FlowView.Live id R P { conn := none, waiting := [], trace := [] } where
  fresh _ _ _ hmem := by cases hmem
  live _ _ hconn := by cases hconn

/-- `P` survives what happens to a flow that is there. -/
structure LiveRule (m : Smoltcp σ υ) (tun : Tuning) (T : TurnCond σ) (id : Nat)
    (R : List Event → Prop) (P : TcpState → σ → List DataIn → List Event → Prop) : Prop where
  excused {t : List Event} (es : List Event) : R t → R (t ++ es)
  other {st sock q t} {es : List Event} (hopen : Event.openedTcp id ∈ t)
    (hes : ∀ e ∈ es, e.about id = false) : P st sock q t → P st sock q (t ++ es)
  opened {t env limits iface dst port sock} (hnew : Event.openedTcp id ∉ t)
    (hfresh : ∀ e, Event.flow id e ∉ t) (hunpolled : Unpolled id t) (hconnect : m.connect iface
      (m.tcpNew tun.tcpRxBuf tun.tcpTxBuf limits.keepalive limits.deadPeer) dst port = .ok sock) :
    P (.opening env limits) sock [] (t ++ [.openedTcp id])
  turn {st sock st' sock' q t limits now env} (hopen : Event.openedTcp id ∈ t)
    (hT : T limits now env st sock)
    (hnext : (serviceFlow m tun limits now env st sock).next = some (st', sock'))
    (hR : ¬ R (t ++ (serviceFlow m tun limits now env st sock).log.map (.flow id))) :
    P st sock q t →
      P st' sock' q (t ++ (serviceFlow m tun limits now env st sock).log.map (.flow id))
  polled {st sock sock' q t arrived state} (hopen : Event.openedTcp id ∈ t)
    (hpolled : m.polled sock sock') (harrived : arrived id = (m.rx sock').drop (m.rx sock).length)
    (hstate : state id = some (m.state sock')) :
    P st sock q t → P st sock' q (t ++ [.polled arrived state])
  arrived {st sock q t} {d : DataIn} (hopen : Event.openedTcp id ∈ t) (hd : d.id = id) :
    P st sock q t → P st sock (q ++ [d]) (t ++ [.ingested d])
  handled {st sock st' sock' d q t back}
    (hd : FlowHandled tun (some (st, sock)) d (some (st', sock')) back) :
    P st sock (d :: q) t → P st' sock' (back.toList ++ q) t
  reset {st sock q t} (hopen : Event.openedTcp id ∈ t) (hR : ¬ R (t ++ [.flow id .abort])) :
    P st sock q t → P { st with pending := [], credit := st.credit.close } (m.abort sock) []
      (t ++ [.flow id .abort])

theorem FlowStep.unpolled {v v' : FlowView σ} (hstep : FlowStep m tun T id v v')
    (hopen : ∀ c, v.conn = some c → Event.openedTcp id ∈ v.trace)
    (h : Event.openedTcp id ∉ v.trace → Unpolled id v.trace)
    (hnew : Event.openedTcp id ∉ v'.trace) : Unpolled id v'.trace := by
  have hmore : ∀ es, Event.openedTcp id ∉ v.trace ++ es → Unpolled id es →
      Unpolled id (v.trace ++ es) := by
    intro es hnew hes arrived state hmem
    rcases mem_append.mp hmem with hmem | hmem
    · exact h (fun hc => hnew (mem_append_left _ hc)) arrived state hmem
    · exact hes arrived state hmem
  cases hstep with
  | other hes => exact hmore _ hnew fun arrived state hmem => by cases hes _ hmem
  | opened _ _ _ _ _ => exact absurd (by simp) hnew
  | turn hconn _ | polled hconn _ _ _ => exact absurd (mem_append_left _ (hopen _ hconn)) hnew
  | polledGone _ harrived hstate =>
    refine hmore _ hnew fun arrived' state' hmem => ?_
    cases mem_singleton.mp hmem
    exact ⟨harrived, hstate⟩
  | arrived _ => exact hmore _ hnew fun arrived state hmem => by simp at hmem
  | handled _ _ => exact h hnew
  | reset hconn => exact absurd (mem_append_left _ (hopen _ hconn)) hnew
  | purged _ => exact h hnew

/-- **A step keeps what every flow that is there has.** -/
theorem LiveRule.step {R : List Event → Prop} {P : TcpState → σ → List DataIn → List Event → Prop}
    {v v' : FlowView σ} (r : LiveRule m tun T id R P) (hstep : FlowStep m tun T id v v')
    (h : v.Live id R P) : v'.Live id R P := by
  have hold : ∀ {st sock} (es : List Event), v.conn = some (st, sock) →
      Event.openedTcp id ∈ v.trace ∧ Event.openedTcp id ∈ v.trace ++ es ∧
        (¬ R (v.trace ++ es) → P st sock v.waiting v.trace) := by
    intro st sock es hconn
    obtain ⟨hopen, hP⟩ := h.live st sock hconn
    exact ⟨hopen, mem_append_left _ hopen, fun hR => hP fun hc => hR (r.excused es hc)⟩
  refine ⟨hstep.unpolled (fun c hc => (h.live _ _ hc).1) h.fresh, fun st' sock' hst => ?_⟩
  cases hstep with
  | other hes =>
    obtain ⟨hopen, hopen', hP⟩ := hold _ hst
    exact ⟨hopen', fun hR => r.other hopen hes (hP hR)⟩
  | opened hconn hwait hnew hfresh hconnect =>
    cases hst
    refine ⟨by simp, fun _ => ?_⟩
    rw [hwait]
    exact r.opened hnew hfresh (h.fresh hnew) hconnect
  | turn hconn hT =>
    obtain ⟨hopen, hopen', hP⟩ := hold _ hconn
    exact ⟨hopen', fun hR => r.turn hopen hT hst hR (hP hR)⟩
  | polled hconn hpolled harrived hstate =>
    cases hst
    obtain ⟨hopen, hopen', hP⟩ := hold _ hconn
    exact ⟨hopen', fun hR => r.polled hopen hpolled harrived hstate (hP hR)⟩
  | polledGone hconn _ _ => cases hconn.symm.trans hst
  | arrived hd =>
    obtain ⟨hopen, hopen', hP⟩ := hold _ hst
    exact ⟨hopen', fun hR => r.arrived hopen hd (hP hR)⟩
  | handled hwait hd =>
    simp only at hst
    rw [hst] at hd
    obtain ⟨st, hconn, -⟩ := hd.frame
    obtain ⟨hopen, hP⟩ := h.live st sock' hconn
    rw [hwait] at hP
    rw [hconn] at hd
    exact ⟨hopen, fun hR => r.handled hd (hP hR)⟩
  | reset hconn =>
    cases hst
    obtain ⟨hopen, hopen', hP⟩ := hold _ hconn
    exact ⟨hopen', fun hR => r.reset hopen hR (hP hR)⟩
  | purged hconn => cases hconn.symm.trans hst

theorem LiveRule.flowSteps {R : List Event → Prop}
    {P : TcpState → σ → List DataIn → List Event → Prop} {v v' : FlowView σ}
    (r : LiveRule m tun T id R P) (h : FlowSteps m tun T id v v')
    (hv : v.Live id R P) : v'.Live id R P := by
  induction h with
  | refl => exact hv
  | tail _ hstep ih => exact r.step hstep ih

theorem Step.turns_any (l : Step σ υ) (w : World σ υ) : l.Turns anyTurn w := by
  cases l <;> simp [Step.Turns, anyTurn]

theorem Reachable.runsWith (h : Reachable m tun w) :
    ∃ iface mtu limits steps, RunsWith m tun anyTurn (.spawn iface mtu limits) steps w := by
  obtain ⟨iface, mtu, limits, steps, hrun⟩ := h
  exact ⟨iface, mtu, limits, steps, hrun.weaken fun t l hv => ⟨hv, l.turns_any t⟩⟩

theorem Reachable.sound (h : Reachable m tun w) : Sound w := by
  obtain ⟨iface, mtu, limits, steps, hrun⟩ := h.runsWith
  exact hrun.sound

theorem Reachable.flow_invariant (id : Nat) (h : Reachable m tun w)
    (hinit : P { conn := none, waiting := [], trace := [] })
    (hkeep : ∀ v v', FlowStep m tun anyTurn id v v' → P v → P v') : P (w.view id) := by
  obtain ⟨iface, mtu, limits, steps, hrun⟩ := h.runsWith
  exact Aether.flow_invariant id hrun hinit hkeep

end Aether
