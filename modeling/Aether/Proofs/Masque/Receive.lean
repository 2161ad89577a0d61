/-
What the receive loops make of a stream of capsules.

As long as no push has cleared the buffer, a receiver is somewhere in its stream: it has
returned what the first capsules stand for, and its buffer is what arrived behind them.
Pushing and draining keep that, whatever the loop does with a result and wherever it stops,
so it holds along every run of either loop.  Once the buffer has been cleared in the middle
of a capsule, the bytes that follow are read as a header.
-/
import Aether.Masque.Receive
import Aether.Proofs.Masque.Capsule
import Mathlib.Data.List.TakeWhile

namespace Aether

open List

open Framing (Behind)

variable {τ : Type} {t : Target} {cs : List WireCapsule} {es : List Bytes}

/-! ### One result of `next` -/

theorem Receiver.outcome_map (x : Except AetherError Capsule) :
    outcome (some <$> x) = some x := by
  cases x <;> rfl

variable {p : CapsuleParser} {c : WireCapsule} {rest buf : Bytes} {r : Receiver τ}
  {reqStream : Nat} {addrTx : Bool}

theorem CapsuleParser.next_of_none (h : takeCapsule t p.buf = none) : p.next t = (.ok none, p) := by
  rw [next_eq, h]

/-- A receiver that has returned one more capsule. -/
def Receiver.took (r : Receiver τ) (c : WireCapsule) (rest : Bytes) (sinks : τ) : Receiver τ :=
  { r with parser := { buf := rest }, sinks, returned := r.returned ++ [c.meaning] }

/-! ### The drain loop -/

variable {handle : Except AetherError Capsule → τ → τ × Bool}

theorem Receiver.drainLoop_of_none (fuel : Nat) (h : takeCapsule t r.parser.buf = none) :
    drainLoop t handle fuel r = r := by
  cases fuel with
  | zero => rfl
  | succ fuel => simp [drainLoop, CapsuleParser.next_of_none h, outcome]

theorem Receiver.drainLoop_of_some (fuel : Nat) (h : takeCapsule t r.parser.buf = some (c, rest)) :
    drainLoop t handle (fuel + 1) r =
      if (handle c.meaning r.sinks).2 then
        drainLoop t handle fuel (r.took c rest (handle c.meaning r.sinks).1)
      else r.took c rest (handle c.meaning r.sinks).1 := by
  simp [drainLoop, CapsuleParser.next_eq, h, outcome_map, took]

/-- What one result keeps, the loop keeps. -/
theorem Receiver.drainLoop_keeps {P : Receiver τ → Prop}
    (htake : ∀ r c rest sinks, takeCapsule t r.parser.buf = some (c, rest) → P r →
      P (r.took c rest sinks)) :
    ∀ (fuel : Nat) {r : Receiver τ}, P r → P (drainLoop t handle fuel r) := by
  intro fuel
  induction fuel with
  | zero => intro r hr; exact hr
  | succ fuel ih =>
    intro r hr
    cases hbuf : takeCapsule t r.parser.buf with
    | none =>
      rw [drainLoop_of_none _ hbuf]
      exact hr
    | some x =>
      obtain ⟨c, rest⟩ := x
      rw [drainLoop_of_some fuel hbuf]
      split
      · exact ih (htake r c rest _ hbuf hr)
      · exact htake r c rest _ hbuf hr

/-- A loop that no result ends goes on until there is no whole capsule left. -/
theorem Receiver.drainLoop_empties (hgo : ∀ result sinks, (handle result sinks).2 = true) :
    ∀ {fuel : Nat} {r : Receiver τ}, r.parser.buf.length < fuel →
      takeCapsule t (drainLoop t handle fuel r).parser.buf = none := by
  intro fuel
  induction fuel with
  | zero =>
    intro r h
    omega
  | succ fuel ih =>
    intro r h
    cases hbuf : takeCapsule t r.parser.buf with
    | none =>
      rw [drainLoop_of_none _ hbuf]
      exact hbuf
    | some x =>
      obtain ⟨c, rest⟩ := x
      have hshort := takeCapsule_shorter hbuf
      rw [drainLoop_of_some fuel hbuf, if_pos (hgo _ _)]
      apply ih
      show rest.length < fuel
      omega

/-! ### Where a receiver is in its stream -/

/-- The first `n` capsules have been returned, and the buffer is what arrived behind them. -/
structure Receiver.At (cs : List WireCapsule) (es : List Bytes) (n : Nat) (r : Receiver τ) :
    Prop where
  behind : Behind es n r.parser.buf r.received
  returned : r.returned = (cs.take n).map WireCapsule.meaning

/-- While the buffer was never cleared, a receiver is somewhere in the stream that what it
received is the beginning of. -/
def Receiver.Tracks (cs : List WireCapsule) (es : List Bytes) (r : Receiver τ) : Prop :=
  r.cleared = 0 → r.received <+: es.flatten → ∃ n, r.At cs es n

theorem Receiver.tracks_start (sinks : τ) : (start sinks).Tracks cs es := by
  intro _ _
  exact ⟨0, Behind.start, rfl⟩

theorem Receiver.Tracks.push (h : r.Tracks cs es) (data : Bytes) :
    (r.push t data).Tracks cs es := by
  intro hclear hseen
  by_cases hover : r.parser.overflows t data
  · simp [Receiver.push, hover] at hclear
  · simp only [Receiver.push, hover, Bool.false_eq_true, if_false] at hclear
    obtain ⟨n, hn⟩ := h hclear ((prefix_append _ _).trans hseen)
    refine ⟨n, ?_, hn.returned⟩
    have hbuf : (r.push t data).parser.buf = r.parser.buf ++ data := by
      simp [Receiver.push, CapsuleParser.push, hover]
    rw [hbuf]
    exact hn.behind.push data

/-- What follows the first `n` capsules is not whole yet, or is the next one. -/
theorem Receiver.At.take_cases {n : Nat} (henc : List.Forall₂ (WireCapsule.Fits t) cs es)
    (h : r.At cs es n) (hseen : r.received <+: es.flatten) :
    (takeCapsule t r.parser.buf = none ∧
        (n = es.length ∨ r.received.length < (es.take (n + 1)).flatten.length)) ∨
      ∃ c rest, takeCapsule t r.parser.buf = some (c, rest) ∧
        ∀ sinks, (r.took c rest sinks).At cs es (n + 1) := by
  rcases (decodes_takeCapsule t).take_cases henc h.behind hseen with
    hnone | ⟨c, rest, hc, htake, hb⟩
  · exact Or.inl hnone
  · refine Or.inr ⟨c, rest, htake, fun sinks => ⟨hb, ?_⟩⟩
    show r.returned ++ [c.meaning] = (cs.take (n + 1)).map WireCapsule.meaning
    rw [h.returned, take_add_one, hc]
    simp

theorem Receiver.Tracks.drain (henc : List.Forall₂ (WireCapsule.Fits t) cs es)
    (h : r.Tracks cs es) : (r.drain t handle).Tracks cs es := by
  refine drainLoop_keeps ?_ _ h
  intro r c rest sinks htake hr hclear hseen
  obtain ⟨n, hn⟩ := hr hclear hseen
  rcases hn.take_cases henc hseen with ⟨hnone, -⟩ | ⟨c', rest', htake', hnext⟩
  · rw [hnone] at htake
    cases htake
  · rw [htake'] at htake
    cases htake
    exact ⟨n + 1, hnext sinks⟩

/-- Where a receiver is does not depend on what the loop has sent on. -/
theorem Receiver.Tracks.setSinks (h : r.Tracks cs es) (sinks : τ) :
    ({ r with sinks } : Receiver τ).Tracks cs es := by
  intro hclear hseen
  obtain ⟨n, hn⟩ := h hclear hseen
  exact ⟨n, hn.behind, hn.returned⟩

/-! ### Chunk by chunk -/

theorem Receiver.drain_received (r : Receiver τ) : (r.drain t handle).received = r.received :=
  drainLoop_keeps (P := fun r' => r'.received = r.received) (fun _ _ _ _ _ h => h) _ rfl

theorem Receiver.feedAll_append (chunks : List Bytes) (chunk : Bytes) :
    feedAll t (chunks ++ [chunk]) = (feedAll t chunks).feed t chunk := by
  simp [feedAll]

theorem Receiver.feedAll_received (chunks : List Bytes) :
    (feedAll t chunks).received = chunks.flatten := by
  induction chunks using List.reverseRecOn with
  | nil => rfl
  | append_singleton chunks chunk ih =>
    rw [feedAll_append, feed, drain_received, flatten_append]
    simp [push, ih]

theorem Receiver.feedAll_tracks (henc : List.Forall₂ (WireCapsule.Fits t) cs es)
    (chunks : List Bytes) : (feedAll t chunks).Tracks cs es := by
  induction chunks using List.reverseRecOn with
  | nil => exact tracks_start ()
  | append_singleton chunks chunk ih =>
    rw [feedAll_append]
    exact (ih.push chunk).drain henc

theorem Receiver.feedAll_empties (chunks : List Bytes) :
    takeCapsule t (feedAll t chunks).parser.buf = none := by
  induction chunks using List.reverseRecOn with
  | nil => exact (decodes_takeCapsule t).empty
  | append_singleton chunks chunk ih =>
    rw [feedAll_append]
    exact drainLoop_empties (fun _ _ => rfl) (Nat.lt_succ_self _)

/-- **A stream of capsules survives any cutting into chunks.**  Every list of capsules whose kinds
are below `2 ^ 62`, and whose lengths a varint and a `usize` can hold, is written.  After any first
chunks of what was written, none of which cleared the buffer, `next` has nothing more to return,
and what it has returned is what the capsules stand for whose last byte has arrived, in order. -/
theorem capsule_stream_roundtrip (t : Target) (cs : List WireCapsule)
    (hkind : ∀ c ∈ cs, c.kind < 2 ^ 62)
    (hlen : ∀ c ∈ cs, c.value.length < 2 ^ min 62 t.usizeBits) :
    ∃ encs, List.Forall₂ (fun c e => encodeCapsule c.kind c.value = some e) cs encs ∧
      ∀ chunks later : List Bytes, (chunks ++ later).flatten = encs.flatten →
        (Receiver.feedAll t chunks).cleared = 0 →
        ((Receiver.feedAll t chunks).parser.next t).1 = .ok none ∧
        (∃ n ≤ cs.length,
          (Receiver.feedAll t chunks).returned = (cs.take n).map WireCapsule.meaning ∧
          (encs.take n).flatten.length ≤ chunks.flatten.length ∧
          (n = cs.length ∨ chunks.flatten.length < (encs.take (n + 1)).flatten.length)) ∧
        (later.flatten = [] →
          (Receiver.feedAll t chunks).returned = cs.map WireCapsule.meaning) := by
  obtain ⟨encs, hencs, henc⟩ := exists_encodings hkind hlen
  refine ⟨encs, hencs, fun chunks later hcut hroom => ?_⟩
  have hrec := Receiver.feedAll_received (t := t) chunks
  have hseen : (Receiver.feedAll t chunks).received <+: encs.flatten := by
    rw [hrec, ← hcut, flatten_append]
    exact prefix_append _ _
  have hempty := Receiver.feedAll_empties (t := t) chunks
  obtain ⟨n, hn⟩ := Receiver.feedAll_tracks henc chunks hroom hseen
  have hlong := hn.behind.length_seen
  have hle := hn.behind.le
  rw [hrec] at hlong
  -- the drain stopped because nothing whole is left, so `n` is as far as the bytes go
  rcases hn.take_cases henc hseen with ⟨-, hlast⟩ | ⟨c, rest, htake, -⟩
  · rw [hrec, ← henc.length_eq] at hlast
    rw [← henc.length_eq] at hle
    refine ⟨by rw [CapsuleParser.next_of_none hempty],
      ⟨n, hle, hn.returned, by omega, hlast⟩, ?_⟩
    intro hall
    have hwhole : chunks.flatten = encs.flatten := by
      rw [← hcut, flatten_append, hall, append_nil]
    have hn' : n = cs.length := by
      rcases hlast with hlast | hlt
      · exact hlast
      · have hsplit :
            encs.flatten = (encs.take (n + 1)).flatten ++ (encs.drop (n + 1)).flatten := by
          rw [← flatten_append, take_append_drop]
        rw [hwhole, hsplit, length_append] at hlt
        omega
    rw [hn.returned, hn', take_length]
  · rw [hempty] at htake
    cases htake

/-- A capsule cut inside its header, one whose body is malformed and one with a kind of two
bytes, in four chunks. -/
theorem capsule_stream_roundtrip_cut :
    encodeCapsule 0 [0x45] = some [0, 1, 0x45] ∧ encodeCapsule 1 [0xff] = some [1, 1, 0xff] ∧
    encodeCapsule 64 [] = some [0x40, 64, 0] ∧
    (Receiver.feedAll .armeabiV7a [[0], [1, 0x45, 1], [1, 0xff, 0x40], [64, 0]]).returned =
      [.ok (.datagram [0x45]), .error (.capsule "BufferTooShortError"), .ok (.unknown 64 [])] := by
  obtain ⟨encs, hencs, hcut⟩ := capsule_stream_roundtrip .armeabiV7a
    [⟨0, [0x45]⟩, ⟨1, [0xff]⟩, ⟨64, []⟩] (by decide) (by decide)
  have h₀ : encodeCapsule 0 [0x45] = some [0, 1, 0x45] := by decide
  have h₁ : encodeCapsule 1 [0xff] = some [1, 1, 0xff] := by decide
  have h₂ : encodeCapsule 64 [] = some [0x40, 64, 0] := by decide
  obtain _ | ⟨he₀, _ | ⟨he₁, _ | ⟨he₂, _ | _⟩⟩⟩ := hencs
  obtain rfl := Option.some.inj (h₀.symm.trans he₀)
  obtain rfl := Option.some.inj (h₁.symm.trans he₁)
  obtain rfl := Option.some.inj (h₂.symm.trans he₂)
  refine ⟨h₀, h₁, h₂, ?_⟩
  exact (hcut [[0], [1, 0x45, 1], [1, 0xff, 0x40], [64, 0]] [] rfl (by decide)).2.2 rfl

/-! ### The receive loops -/

theorem RunH2.tracks {ls : List (Bytes × (Nat → TrySend))} {r : Receiver Sinks}
    (henc : List.Forall₂ (WireCapsule.Fits t) cs es) (h : RunH2 t addrTx ls r) :
    r.Tracks cs es := by
  refine h.invariant (Receiver.tracks_start Sinks.empty) ?_
  intro r l r' hr _ hstep
  cases hstep
  exact ((hr.push l.1).setSinks _).drain henc

theorem pushBlocks_tracks {blocks : List Bytes} {r : Receiver Sinks} (h : r.Tracks cs es) :
    (pushBlocks t blocks r).Tracks cs es := by
  unfold pushBlocks
  generalize blocks.takeWhile (fun block => !block.isEmpty) = read
  induction read generalizing r with
  | nil => exact h
  | cons block rest ih => exact ih (h.push block)

/-- An iteration of `poll_h3` that goes on feeds the parser, or leaves it alone. -/
theorem pollH3_cases {l : H3Poll} {r r' : Receiver Sinks}
    (h : pollH3 t addrTx reqStream r l = .ok r') :
    r' = r ∨ ∃ blocks, r' = drainCapsulesH3 t addrTx (pushBlocks t blocks r) := by
  unfold pollH3 at h
  split at h
  case h_2 streamId blocks =>
    split at h
    · cases h
      exact Or.inl rfl
    · cases h
      exact Or.inr ⟨blocks, rfl⟩
  all_goals
    left
    grind

theorem RunH3.tracks {ls : List H3Poll} {r : Receiver Sinks}
    (henc : List.Forall₂ (WireCapsule.Fits t) cs es) (h : RunH3 t addrTx reqStream ls r) :
    r.Tracks cs es := by
  refine h.invariant (Receiver.tracks_start Sinks.empty) ?_
  intro r l r' hr _ hstep
  cases pollH3_cases hstep with
  | inl hsame =>
    rw [hsame]
    exact hr
  | inr hdata =>
    obtain ⟨blocks, rfl⟩ := hdata
    exact (pushBlocks_tracks hr).drain henc

theorem Receiver.Tracks.isPrefix (h : r.Tracks cs es) (hclear : r.cleared = 0)
    (hseen : r.received <+: es.flatten) : r.returned <+: cs.map WireCapsule.meaning := by
  obtain ⟨n, hn⟩ := h hclear hseen
  rw [hn.returned, map_take]
  exact take_prefix _ _

/-- **While no push clears the buffer, both loops return the capsules of the stream.**  The
stream is any encodings of capsules whose lengths a `usize` can hold; what has arrived of it
came in any pieces. -/
theorem returned_in_stream_order (t : Target) (cs : List WireCapsule) (es : List Bytes)
    (henc : List.Forall₂ WireCapsule.IsEncoding cs es)
    (hlen : ∀ c ∈ cs, c.value.length < 2 ^ t.usizeBits) :
    (∀ addrTx ls (r : Receiver Sinks), RunH2 t addrTx ls r → r.cleared = 0 →
      r.received <+: es.flatten → r.returned <+: cs.map WireCapsule.meaning) ∧
    (∀ addrTx reqStream ls (r : Receiver Sinks), RunH3 t addrTx reqStream ls r → r.cleared = 0 →
      r.received <+: es.flatten → r.returned <+: cs.map WireCapsule.meaning) := by
  have hfits := forall₂_fits henc hlen
  constructor
  · intro addrTx ls r hrun
    exact (RunH2.tracks hfits hrun).isPrefix
  · intro addrTx reqStream ls r hrun
    exact (RunH3.tracks hfits hrun).isPrefix

/-- A datagram, an address request with a long varint and the beginning of a third capsule, in two
frames over HTTP/2 and in three blocks over HTTP/3. -/
theorem returned_in_stream_order_small :
    (∃ r, RunH2 .arm64V8a true [([0, 1, 0x45, 2], fun _ => .ok), ([0x40, 0, 5], fun _ => .ok)] r ∧
      r.returned.length = 2 ∧
      r.returned <+: [.ok (.datagram [0x45]), .ok .addressRequest, .ok (.unknown 5 [7])]) ∧
    (∃ r, RunH3 .arm64V8a true 4 [.data 4 [[0], [1, 0x45, 2]], .done, .data 4 [[0x40, 0, 5]]] r ∧
      r.returned.length = 2 ∧
      r.returned <+: [.ok (.datagram [0x45]), .ok .addressRequest, .ok (.unknown 5 [7])]) := by
  have henc : List.Forall₂ WireCapsule.IsEncoding [⟨0, [0x45]⟩, ⟨2, []⟩, ⟨5, [7]⟩]
      [[0, 1, 0x45], [2, 0x40, 0], [5, 1, 7]] :=
    .cons ⟨[0], [1], ⟨0, by decide⟩, ⟨0, by decide⟩, rfl⟩
      (.cons ⟨[2], [0x40, 0], ⟨0, by decide⟩, ⟨1, by decide⟩, rfl⟩
        (.cons ⟨[5], [1], ⟨0, by decide⟩, ⟨0, by decide⟩, rfl⟩ .nil))
  have hrun₂ : RunH2 .arm64V8a true
      [([0, 1, 0x45, 2], fun _ => .ok), ([0x40, 0, 5], fun _ => .ok)] _ :=
    .snoc (.snoc .nil trivial rfl) trivial rfl
  have hrun₃ : RunH3 .arm64V8a true 4
      [.data 4 [[0], [1, 0x45, 2]], .done, .data 4 [[0x40, 0, 5]]] _ :=
    .snoc (.snoc (.snoc .nil trivial rfl) trivial rfl) trivial rfl
  have horder := returned_in_stream_order .arm64V8a _ _ henc (by decide)
  exact ⟨⟨_, hrun₂, rfl, horder.1 _ _ _ hrun₂ rfl (by decide)⟩,
    ⟨_, hrun₃, rfl, horder.2 _ _ _ _ hrun₃ rfl (by decide)⟩⟩

/-! ### A malformed capsule -/

/-- The buffer begins with a whole capsule. -/
def StartsWhole (buf : Bytes) : Prop := ∃ c e rest, WireCapsule.IsEncoding c e ∧ buf = e ++ rest

/-- What `next` does not take does not begin with a whole capsule, whatever the width. -/
theorem not_startsWhole (h : takeCapsule t buf = none) : ¬ StartsWhole buf := by
  rintro ⟨c, e, rest, ⟨k, l, hk, hl, rfl⟩, rfl⟩
  have hdecl : Declares (k ++ l ++ c.value ++ rest) c.kind c.value.length (c.value ++ rest) :=
    ⟨k, l, hk, hl, by simp only [append_assoc]⟩
  have hmod := Nat.mod_le c.value.length (2 ^ t.usizeBits)
  rw [hdecl.takeCapsule, if_neg (by rw [length_append]; omega)] at h
  cases h

/-- `rest` is behind the first capsule, as `next` takes them, whose body does not parse. -/
inductive BreaksAt (t : Target) : (buf rest : Bytes) → Prop
  | here {buf rest : Bytes} {c : WireCapsule} (htake : takeCapsule t buf = some (c, rest))
      (hbad : c.meaning.isOk = false) : BreaksAt t buf rest
  | later {buf mid rest : Bytes} {c : WireCapsule} (htake : takeCapsule t buf = some (c, mid))
      (hok : c.meaning.isOk = true) (h : BreaksAt t mid rest) : BreaksAt t buf rest

/-- A loop that errors end stops behind the first malformed capsule, or when there is no whole
capsule left. -/
theorem Receiver.drainLoop_breaks (hgo : ∀ result sinks, (handle result sinks).2 = result.isOk) :
    ∀ {fuel : Nat} {r : Receiver τ}, r.parser.buf.length < fuel →
      BreaksAt t r.parser.buf (drainLoop t handle fuel r).parser.buf ∨
        (∀ rest, ¬ BreaksAt t r.parser.buf rest) ∧
          takeCapsule t (drainLoop t handle fuel r).parser.buf = none := by
  intro fuel
  induction fuel with
  | zero =>
    intro r h
    omega
  | succ fuel ih =>
    intro r h
    cases hbuf : takeCapsule t r.parser.buf with
    | none =>
      rw [drainLoop_of_none _ hbuf]
      refine .inr ⟨fun rest hbreaks => ?_, hbuf⟩
      cases hbreaks with
      | here htake | later htake => exact absurd (hbuf.symm.trans htake) nofun
    | some x =>
      obtain ⟨c, rest⟩ := x
      have hshort := takeCapsule_shorter hbuf
      rw [drainLoop_of_some fuel hbuf, hgo]
      cases hok : c.meaning.isOk with
      | false => exact .inl (.here hbuf hok)
      | true =>
        have hrest : (r.took c rest (handle c.meaning r.sinks).1).parser.buf.length < fuel := by
          show rest.length < fuel
          omega
        obtain hbreaks | ⟨hnone, hempty⟩ := ih hrest
        · exact .inl (.later hbuf hok hbreaks)
        · refine .inr ⟨fun rest' hbreaks => ?_, hempty⟩
          cases hbreaks with
          | here htake hbad =>
            cases hbuf.symm.trans htake
            exact absurd (hok.symm.trans hbad) (by decide)
          | later htake _ h' =>
            cases hbuf.symm.trans htake
            exact hnone _ h'

theorem BreaksAt.unique {rest' : Bytes} (h : BreaksAt t buf rest) (h' : BreaksAt t buf rest') :
    rest = rest' := by
  induction h with
  | here htake hbad =>
    cases h' with
    | here htake' => cases htake.symm.trans htake'; rfl
    | later htake' hok =>
      cases htake.symm.trans htake'
      exact absurd (hbad.symm.trans hok) (by decide)
  | later htake hok _ ih =>
    cases h' with
    | here htake' hbad =>
      cases htake.symm.trans htake'
      exact absurd (hok.symm.trans hbad) (by decide)
    | later htake' _ h'' =>
      cases htake.symm.trans htake'
      exact ih h''

theorem Receiver.drain_leaves_iff (hgo : ∀ result sinks, (handle result sinks).2 = result.isOk)
    (r : Receiver τ) : ¬ StartsWhole (r.drain t handle).parser.buf ↔
      ∀ rest, BreaksAt t r.parser.buf rest → ¬ StartsWhole rest := by
  obtain hbreaks | ⟨hnone, hempty⟩ := drainLoop_breaks (t := t) hgo (Nat.lt_succ_self _)
  · exact ⟨fun h rest hrest => hbreaks.unique hrest ▸ h, fun h => h _ hbreaks⟩
  · exact ⟨fun _ rest hrest => absurd hrest (hnone rest), fun _ => not_startsWhole hempty⟩

/-- **A drain leaves a whole capsule behind exactly when one follows the first malformed one.** -/
theorem drain_leaves_no_whole_iff (t : Target) (addrTx : Bool) (answers : Nat → TrySend)
    (hopen : ∀ n, answers n ≠ .closed) (r : Receiver Sinks) :
    (¬ StartsWhole (drainCapsulesH2 t addrTx answers r).parser.buf ↔
      ∀ rest, BreaksAt t r.parser.buf rest → ¬ StartsWhole rest) ∧
    (¬ StartsWhole (drainCapsulesH3 t addrTx r).parser.buf ↔
      ∀ rest, BreaksAt t r.parser.buf rest → ¬ StartsWhole rest) := by
  have hgo₂ : ∀ result sinks, (handleH2 addrTx answers result sinks).2 = result.isOk := by
    intro result sinks
    unfold handleH2
    split
    · split
      · rfl
      · dsimp only
        split
        · rfl
        · rfl
        case h_3 hclosed => exact absurd hclosed (hopen _)
    all_goals rfl
  have hgo₃ : ∀ result sinks, (handleH3 addrTx result sinks).2 = result.isOk := by
    intro result sinks
    unfold handleH3
    split <;> rfl
  exact ⟨Receiver.drain_leaves_iff hgo₂ _, Receiver.drain_leaves_iff hgo₃ _⟩

/-- A receiver that has these bytes in its buffer. -/
def Receiver.having (buf : Bytes) : Receiver Sinks :=
  { parser := { buf }, sinks := .empty, received := buf, returned := [], cleared := 0 }

/-- An address request, an assignment that does not parse and the first byte of a datagram: the
byte is left. -/
theorem drain_leaves_no_whole_request :
    ¬ StartsWhole (drainCapsulesH2 .arm64V8a true (fun _ => .ok)
      (.having [2, 0, 1, 1, 0xff, 0])).parser.buf ∧
    ¬ StartsWhole
      (drainCapsulesH3 .arm64V8a true (.having [2, 0, 1, 1, 0xff, 0])).parser.buf := by
  have hbreaks : BreaksAt .arm64V8a [2, 0, 1, 1, 0xff, 0] [0] :=
    .later rfl (by decide) (.here rfl (by decide))
  have hnone : ∀ rest, BreaksAt .arm64V8a [2, 0, 1, 1, 0xff, 0] rest → ¬ StartsWhole rest := by
    intro rest h
    rw [← hbreaks.unique h]
    exact not_startsWhole (t := .arm64V8a) rfl
  have hiff := drain_leaves_no_whole_iff .arm64V8a true (fun _ => .ok) (fun _ => nofun)
    (.having [2, 0, 1, 1, 0xff, 0])
  exact ⟨hiff.1.mpr hnone, hiff.2.mpr hnone⟩

/-- A datagram capsule with the header of an IP packet. -/
def datagramCapsule : Bytes := [0, 20] ++ 0x45 :: List.replicate 19 0

/-- Behind an address assignment of one byte, which does not parse, the datagram stays. -/
theorem datagram_held_back :
    (drainCapsulesH2 .arm64V8a true (fun _ => .ok)
      (.having ([1, 1, 0xff] ++ datagramCapsule))).parser.buf = datagramCapsule ∧
    (drainCapsulesH2 .arm64V8a true (fun _ => .ok)
      (.having ([1, 1, 0xff] ++ datagramCapsule))).sinks.inbound = [] ∧
    (drainCapsulesH3 .arm64V8a true
      (.having ([1, 1, 0xff] ++ datagramCapsule))).parser.buf = datagramCapsule ∧
    StartsWhole datagramCapsule := by
  refine ⟨by decide, by decide, by decide, ⟨0, 0x45 :: List.replicate 19 0⟩, datagramCapsule, [],
    ⟨[0], [20], ⟨0, by decide⟩, ⟨0, by decide⟩, rfl⟩, (append_nil _).symm⟩

/-! ### A capsule larger than the buffer -/

theorem CapsuleParser.overflows_eq (t : Target) (data : Bytes) (p : CapsuleParser) :
    p.overflows t data = decide (maxCapsuleBuf < p.buf.length + data.length) := by
  have hwide : maxCapsuleBuf < t.usizeMax := by cases t <;> decide
  unfold overflows Target.saturatingAdd
  apply decide_eq_decide.mpr
  omega

namespace Oversized

/-- A capsule of an unknown kind that is just too large for the buffer. -/
def capsule : WireCapsule := { kind := 5, value := List.replicate 262142 0 }

def header : Bytes := [5, 0x80, 0x03, 0xff, 0xfe]

def encoding : Bytes := header ++ capsule.value

theorem length_value : capsule.value.length = 262142 := length_replicate

theorem isEncoding : capsule.IsEncoding encoding := by
  have hheader : header = [5] ++ [0x80, 0x03, 0xff, 0xfe] := rfl
  refine ⟨[5], [0x80, 0x03, 0xff, 0xfe], ⟨0, by decide⟩, ?_, by rw [encoding, hheader]⟩
  rw [length_value]
  exact ⟨2, by decide⟩

theorem fits (t : Target) : capsule.Fits t encoding := by
  refine ⟨isEncoding, ?_⟩
  rw [length_value]
  cases t <;> decide

/-- What has arrived with the header and `k` bytes more. -/
def arrived (k : Nat) : Bytes := header ++ List.replicate k 0

theorem length_arrived (k : Nat) : (arrived k).length = 5 + k := by
  rw [arrived, length_append, length_replicate]
  rfl

theorem arrived_append (k m : Nat) : arrived k ++ List.replicate m 0 = arrived (k + m) := by
  rw [arrived, append_assoc, ← replicate_add, arrived]

/-- The receiver whose buffer the fifth piece has cleared. -/
def lost : Receiver Sinks :=
  { Receiver.having (arrived 262140) with parser := .new, cleared := 1 }

variable {t : Target} {k : Nat} {buf data : Bytes}

theorem having_push (t : Target) (buf data : Bytes) :
    (Receiver.having buf).push t data =
      if maxCapsuleBuf < buf.length + data.length then
        { Receiver.having (buf ++ data) with parser := .new, cleared := 1 }
      else .having (buf ++ data) := by
  simp only [Receiver.push, CapsuleParser.push, CapsuleParser.overflows_eq, Receiver.having]
  by_cases hover : maxCapsuleBuf < buf.length + data.length
  · simp [hover, CapsuleParser.new]
  · simp [hover]

/-- What fits of the capsule is kept. -/
theorem push_arrived (hk : buf ++ data = arrived k) (h : 5 + k ≤ maxCapsuleBuf) :
    (Receiver.having buf).push t data = .having (arrived k) := by
  have hlen := congrArg length hk
  rw [length_append, length_arrived] at hlen
  rw [having_push, if_neg (by omega), hk]

theorem push_clears (t : Target) :
    (Receiver.having (arrived 262135)).push t (List.replicate 5 0) = lost := by
  rw [having_push, if_pos (by rw [length_arrived, length_replicate]; decide), arrived_append]
  rfl

/-- The beginning of the capsule is not taken for anything. -/
theorem drain_arrived (handle : Except AetherError Capsule → Sinks → Sinks × Bool)
    (h : 5 + k ≤ maxCapsuleBuf) :
    (Receiver.having (arrived k)).drain t handle = .having (arrived k) := by
  have hk : k < 262142 := by
    unfold maxCapsuleBuf at h
    omega
  refine Receiver.drainLoop_of_none _ (takeCapsule_cut (fits t) ?_ ?_)
  · refine ⟨List.replicate (262142 - k) 0, ?_⟩
    show arrived k ++ _ = encoding
    rw [arrived_append, ← show arrived 262142 = encoding from rfl, Nat.add_sub_cancel' hk.le]
  · intro heq
    have hlen := congrArg List.length (show arrived k = arrived 262142 from heq)
    rw [length_arrived, length_arrived] at hlen
    omega

/-- What both loops end in. -/
def fooled : Receiver Sinks :=
  { parser := .new, sinks := .empty, received := arrived 262142,
    returned := [.ok (.datagram [])], cleared := 1 }

/-- The last two bytes of the capsule, read as an empty datagram. -/
theorem lost_invents {handle : Except AetherError Capsule → Sinks → Sinks × Bool}
    (hgo : ∀ s, handle (.ok (.datagram [])) s = (s, true)) :
    (lost.push t [0, 0]).drain t handle = fooled := by
  have hroom : lost.parser.overflows t [0, 0] = false := by
    rw [CapsuleParser.overflows_eq]
    rfl
  have hpush : lost.push t [0, 0] =
      { lost with parser := { buf := [0, 0] }, received := arrived 262142 } := by
    simp only [Receiver.push, CapsuleParser.push, hroom]
    rw [← arrived_append 262140 2]
    rfl
  have htake : takeCapsule t [0, 0] = some (⟨0, []⟩, []) := by cases t <;> rfl
  rw [hpush, Receiver.drain, Receiver.drainLoop_of_some _ htake]
  simp only [WireCapsule.meaning, hgo, if_true]
  exact Receiver.drainLoop_of_none _ (decodes_takeCapsule t).empty

/-- The pieces it arrives in, none larger than a frame or a read. -/
def pieces : List Bytes :=
  [arrived 65530, List.replicate 65535 0, List.replicate 65535 0, List.replicate 65535 0,
    List.replicate 5 0, [0, 0]]

theorem flatten_pieces : pieces.flatten = [encoding].flatten := by
  simp only [pieces, flatten_cons, flatten_nil, append_nil, ← append_assoc,
    arrived_append]
  exact arrived_append 262140 2

theorem recvH2_arrived (answers : Nat → TrySend) (hk : buf ++ data = arrived k)
    (h : 5 + k ≤ maxCapsuleBuf) :
    recvH2 t true (.having buf) (data, answers) = .ok (.having (arrived k)) := by
  rw [recvH2, push_arrived hk h]
  exact congrArg Except.ok (drain_arrived _ h)

theorem runH2_fooled (t : Target) :
    RunH2 t true (pieces.map fun piece => (piece, fun _ => TrySend.ok)) fooled := by
  have h₁ : RunH2 t true [(arrived 65530, fun _ => .ok)] (.having (arrived 65530)) :=
    .snoc .nil trivial (recvH2_arrived _ (nil_append _) (by decide))
  have h₂ := h₁.snoc trivial (recvH2_arrived (fun _ => .ok) (arrived_append _ 65535) (by decide))
  have h₃ := h₂.snoc trivial (recvH2_arrived (fun _ => .ok) (arrived_append _ 65535) (by decide))
  have h₄ := h₃.snoc trivial (recvH2_arrived (fun _ => .ok) (arrived_append _ 65535) (by decide))
  have hclear : recvH2 t true (.having (arrived 262135)) (List.replicate 5 0, fun _ => .ok) =
      .ok lost := by
    rw [recvH2, push_clears]
    exact congrArg Except.ok (Receiver.drainLoop_of_none _ (decodes_takeCapsule t).empty)
  have hlast : recvH2 t true lost ([0, 0], fun _ => .ok) = .ok fooled :=
    congrArg Except.ok (lost_invents fun _ => rfl)
  exact (h₄.snoc trivial hclear).snoc trivial hlast

theorem runH3_fooled (t : Target) : RunH3 t true 4 [.data 4 pieces] fooled := by
  have hread : pieces.takeWhile (fun block => !block.isEmpty) = pieces := by
    simp [pieces, arrived, header, -reduceReplicate]
  have hpushed : pushBlocks t pieces (.start .empty) = lost.push t [0, 0] := by
    rw [pushBlocks, hread, pieces]
    simp only [foldl_cons, foldl_nil]
    rw [show Receiver.start Sinks.empty = .having [] from rfl,
      push_arrived (nil_append _) (by decide), push_arrived (arrived_append _ _) (by decide),
      push_arrived (arrived_append _ _) (by decide), push_arrived (arrived_append _ _) (by decide),
      push_clears]
  have hstep : pollH3 t true 4 (.start .empty) (.data 4 pieces) = .ok fooled := by
    rw [pollH3, if_neg (by simp), hpushed]
    exact congrArg Except.ok (lost_invents fun _ => rfl)
  exact .snoc .nil trivial hstep

end Oversized

/-- **A capsule that does not fit the buffer makes both loops invent a datagram.**  The fifth
piece clears the buffer, and the sixth is read as a header. -/
theorem capsule_invented :
    List.Forall₂ WireCapsule.IsEncoding [Oversized.capsule] [Oversized.encoding] ∧
    Oversized.pieces.flatten = [Oversized.encoding].flatten ∧
    (∃ r, RunH2 .arm64V8a true (Oversized.pieces.map fun piece => (piece, fun _ => .ok)) r ∧
      .ok (.datagram []) ∈ r.returned) ∧
    (∃ r, RunH3 .arm64V8a true 4 [.data 4 Oversized.pieces] r ∧
      .ok (.datagram []) ∈ r.returned) ∧
    .ok (.datagram []) ∉ [Oversized.capsule].map WireCapsule.meaning := by
  refine ⟨.cons Oversized.isEncoding .nil, Oversized.flatten_pieces,
    ⟨_, Oversized.runH2_fooled _, ?_⟩, ⟨_, Oversized.runH3_fooled _, ?_⟩, ?_⟩
  · exact mem_singleton_self _
  · exact mem_singleton_self _
  · intro hmem
    cases mem_singleton.mp hmem

end Aether
