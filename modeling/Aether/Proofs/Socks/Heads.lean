/-
Heads, however the bytes that bring them are cut.

Both readers keep what has come and look for the first CRLFCRLF.  While there is none, less has
come than the head is long, so that a head within the limit is found before a reader gives up.
`read_head` does not look at the bytes it has seen before but for the last three, and a CRLFCRLF
that ends in the new ones starts no earlier.
-/
import Aether.Proofs.Socks.Gateway

namespace Aether.Socks

open List

/-- The shortest beginning of a stream that ends in CRLFCRLF. -/
structure IsHead (h stream : Bytes) : Prop where
  start : ∃ rest, stream = h ++ rest
  ended : ∃ before, h = before ++ crlfcrlf
  shortest : ∀ before rest, stream = before ++ crlfcrlf ++ rest →
    h.length ≤ (before ++ crlfcrlf).length

variable {buf h before after rest stream : Bytes}

theorem IsHead.cut (hh : IsHead h stream) :
    ∃ before after, h = before ++ crlfcrlf ∧
      Text.splitOnce crlfcrlf stream = some (before, after) := by
  obtain ⟨after, rfl⟩ := hh.start
  obtain ⟨before, rfl⟩ := hh.ended
  refine ⟨before, after, rfl, ?_⟩
  rw [append_assoc]
  refine Text.splitOnce_eq fun b a heq => ?_
  have hle := hh.shortest b a (by simpa using heq)
  simpa using hle

theorem isHead_of_cut (hcut : Text.splitOnce crlfcrlf stream = some (before, after)) :
    IsHead (before ++ crlfcrlf) stream where
  start := ⟨after, Text.eq_of_splitOnce hcut⟩
  ended := ⟨before, rfl⟩
  shortest b a heq := by
    rw [append_assoc] at heq
    simpa using Text.length_le_of_splitOnce hcut heq

/-- **Looking from three bytes before the new ones finds what looking from the front would.** -/
theorem splitOnce_drop (hnone : Text.splitOnce crlfcrlf buf = none) (chunk : Bytes) :
    Text.splitOnce crlfcrlf (buf ++ chunk) =
      (Text.splitOnce crlfcrlf ((buf ++ chunk).drop (buf.length - 3))).map
        fun (before, after) => ((buf ++ chunk).take (buf.length - 3) ++ before, after) := by
  have hwhole := take_append_drop (buf.length - 3) (buf ++ chunk)
  have hlen : ((buf ++ chunk).take (buf.length - 3)).length = buf.length - 3 := by
    rw [length_take, length_append]
    omega
  generalize (buf ++ chunk).take (buf.length - 3) = seen at hwhole hlen
  generalize (buf ++ chunk).drop (buf.length - 3) = window at hwhole
  rw [← hwhole]
  cases hcut : Text.splitOnce crlfcrlf (seen ++ window) with
  | some parts =>
    obtain ⟨before, after⟩ := parts
    have hlt := length_lt_of_none hnone (hwhole ▸ hcut)
    have heq := Text.eq_of_splitOnce hcut
    have hfour : crlfcrlf.length = 4 := rfl
    rw [length_append, hfour] at hlt
    rw [append_assoc] at heq
    obtain ⟨first, rfl⟩ : seen <+: before :=
      prefix_of_prefix_length_le ⟨window, heq⟩ ( prefix_append before _) (by omega)
    obtain rfl := append_cancel_left (heq.trans (append_assoc _ _ _))
    rw [Text.splitOnce_eq fun b a hb => ?_, Option.map_some]
    have hle := Text.length_le_of_splitOnce hcut (b := seen ++ b) (a := a) (by
      rw [hb, append_assoc])
    simpa using hle
  | none =>
    cases hfound : Text.splitOnce crlfcrlf window with
    | none => rfl
    | some parts =>
      have hsome := Text.isSome_splitOnce crlfcrlf (seen ++ parts.1) parts.2
      rw [append_assoc, ← append_assoc parts.1, ← Text.eq_of_splitOnce hfound, hcut] at hsome
      cases hsome

/-! ### `read_head` -/

/-- A read, once the whole buffer is looked at. -/
theorem readHead_cons (hnone : Text.splitOnce crlfcrlf buf = none) {chunk : Bytes}
    (hchunk : chunk ≠ []) (reads : List (Option Bytes)) :
    readHead buf (some chunk :: reads) =
      match Text.splitOnce crlfcrlf (buf ++ chunk) with
      | some (before, early) => .ok (before ++ crlfcrlf, early, reads)
      | none =>
        if httpHeadLimit < (buf ++ chunk).length then .error .tooLarge
        else readHead (buf ++ chunk) reads := by
  rw [readHead, if_neg hchunk, splitOnce_drop hnone chunk]
  dsimp only
  cases Text.splitOnce crlfcrlf ((buf ++ chunk).drop (buf.length - 3)) <;> rfl

theorem readHead_chunks {chunks : List Bytes} (hchunks : ∀ c ∈ chunks, c ≠ [])
    (reads : List (Option Bytes)) (hnone : Text.splitOnce crlfcrlf buf = none)
    (hcut : Text.splitOnce crlfcrlf (buf ++ chunks.flatten) = some (before, after)) :
    (∃ done more early, chunks = done ++ more ∧
      readHead buf (chunks.map some ++ reads) =
        .ok (before ++ crlfcrlf, early, more.map some ++ reads) ∧
      before ++ crlfcrlf ++ early = buf ++ done.flatten) ∨
    httpHeadLimit < (before ++ crlfcrlf).length ∧
      readHead buf (chunks.map some ++ reads) = .error .tooLarge := by
  induction chunks generalizing buf with
  | nil =>
    rw [flatten_nil, append_nil, hnone] at hcut
    cases hcut
  | cons chunk chunks ih =>
    have hread := readHead_cons hnone (hchunks chunk mem_cons_self) (chunks.map some ++ reads)
    rw [flatten_cons, ← append_assoc] at hcut
    rw [map_cons, cons_append, hread]
    cases hfound : Text.splitOnce crlfcrlf (buf ++ chunk) with
    | some parts =>
      obtain ⟨first, early⟩ := parts
      rw [Text.splitOnce_append hfound] at hcut
      cases hcut
      refine .inl ⟨[chunk], chunks, early, rfl, rfl, ?_⟩
      rw [flatten_singleton, Text.eq_of_splitOnce hfound]
    | none =>
      have hshort := length_lt_of_none hfound hcut
      by_cases hlimit : httpHeadLimit < (buf ++ chunk).length
      · exact .inr ⟨hlimit.trans hshort, if_pos hlimit⟩
      rw [if_neg hlimit]
      refine (ih (fun c hc => hchunks c (mem_cons_of_mem _ hc)) hfound hcut).imp_left ?_
      rintro ⟨done, more, early, rfl, hok, hbytes⟩
      refine ⟨chunk :: done, more, early, rfl, hok, ?_⟩
      rw [hbytes, flatten_cons, append_assoc]

/-! ### The gateway's answer -/

/-- The first line of a head, with its end. -/
def statusLine (h : Bytes) : Bytes :=
  match Text.splitOnce [cr, lf] h with
  | some (line, _) => line ++ [cr, lf]
  | none => h

theorem proxyConnectSucceeded_statusLine (h : Bytes) :
    proxyConnectSucceeded h = proxyConnectSucceeded (statusLine h) := by
  unfold statusLine
  split
  · next line rest hcut =>
      rw [Text.eq_of_splitOnce hcut, append_assoc]
      exact proxyConnectSucceeded_line line rest
  · rfl

theorem exists_answered (authority : Text) (port : Nat) (h leftover : Bytes) :
    (∃ rest, answered authority port h leftover = .ok rest) ↔
      proxyConnectSucceeded (statusLine h) = some true := by
  rw [← proxyConnectSucceeded_statusLine]
  unfold answered
  split
  · next hnone => simp [hnone]
  · next htrue => simp [htrue]
  · next hfalse => simp [hfalse]

/-- **Heads do not depend on how the bytes are cut.**  A head within the limit of `read_head` is
returned with what came behind it in the reads it took; and with one within the limit of the
gateway, the status line decides, and what is returned with the answers to come is what follows
the head. -/
theorem heads_ignore_chunks :
    (∀ (chunks : List Bytes) (reads : List (Option Bytes)) (h : Bytes), (∀ c ∈ chunks, c ≠ []) →
      IsHead h chunks.flatten → h.length ≤ httpHeadLimit →
      ∃ done more early, chunks = done ++ more ∧
        readHead [] (chunks.map some ++ reads) = .ok (h, early, more.map some ++ reads) ∧
        h ++ early = done.flatten) ∧
    (∀ (answers : List Bytes) (closes : Bool) (authority : Text) (port : Nat) (h : Bytes),
      IsHead h answers.flatten → h.length ≤ gatewayHeadLimit →
      ((∃ leftover, openThroughGateway ⟨.connected, true, answers, closes⟩ authority port
          = .ok leftover) ↔ proxyConnectSucceeded (statusLine h) = some true) ∧
      ∀ leftover, openThroughGateway ⟨.connected, true, answers, closes⟩ authority port
          = .ok leftover →
        ∃ done more, answers = done ++ more ∧ h ++ leftover = done.flatten ∧
          leftover ++ more.flatten = answers.flatten.drop h.length) := by
  constructor
  · intro chunks reads h hchunks hh hlimit
    obtain ⟨before, after, rfl, hcut⟩ := hh.cut
    exact (readHead_chunks hchunks reads rfl hcut).resolve_right fun hlong => by omega
  · intro answers closes authority port h hh hlimit
    obtain ⟨before, after, rfl, hcut⟩ := hh.cut
    obtain ⟨hlong, -⟩ | ⟨done, more, leftover, rfl, hread, hbytes⟩ :=
      readAnswer_eq closes authority port (rfl : Text.splitOnce crlfcrlf [] = none) hcut
    · omega
    have hopen : openThroughGateway ⟨.connected, true, done ++ more, closes⟩ authority port
        = answered authority port (before ++ crlfcrlf) leftover := hread
    rw [hopen]
    refine ⟨exists_answered _ _ _ _, fun leftover' hok => ⟨done, more, rfl, ?_⟩⟩
    obtain rfl : leftover = leftover' := by
      unfold answered at hok
      split at hok <;> cases hok
      rfl
    rw [nil_append] at hbytes
    refine ⟨hbytes, ?_⟩
    rw [flatten_append, ← hbytes, append_assoc, drop_left]

/-- The answer of a gateway, with the first octet of the stream behind it. -/
def acceptance : List Bytes :=
  [Utf8.encode "HTTP/1.1 200 OK\r\nVia: a\r".toList, Utf8.encode "\n\r\nA".toList]

/-- A head in two reads is returned whole, and as an answer it opens the stream. -/
theorem heads_ignore_chunks_split :
    (∃ done more early, acceptance = done ++ more ∧
      readHead [] (acceptance.map some ++ []) =
        .ok (Utf8.encode "HTTP/1.1 200 OK\r\nVia: a\r\n\r\n".toList, early,
          more.map some ++ []) ∧
      Utf8.encode "HTTP/1.1 200 OK\r\nVia: a\r\n\r\n".toList ++ early = done.flatten) ∧
    ∃ leftover, openThroughGateway ⟨.connected, true, acceptance, false⟩ "a.b".toList 443
      = .ok leftover := by
  have hhead : IsHead (Utf8.encode "HTTP/1.1 200 OK\r\nVia: a\r\n\r\n".toList)
      acceptance.flatten :=
    isHead_of_cut (show Text.splitOnce crlfcrlf acceptance.flatten =
      some (Utf8.encode "HTTP/1.1 200 OK\r\nVia: a".toList, [65]) by decide +kernel)
  refine ⟨heads_ignore_chunks.1 _ _ _ (by decide +kernel) hhead (by decide +kernel), ?_⟩
  exact (heads_ignore_chunks.2 _ _ _ _ _ hhead (by decide +kernel)).1.mpr (by decide +kernel)

end Aether.Socks
