/-
What the HTTP forwarders send on.

All three send the rewritten line, what they take to follow the first line of the head, and
the client's later bytes.  The head has been decoded and is encoded again, and its first line
is looked for by CRLF although it was parsed up to LF, so the bytes behind the first line come
out unchanged exactly when that line ends in CRLF and what follows it is UTF-8.
-/
import Aether.Socks.Forward

namespace Aether.Socks

open List

open Routing

/-! ### Heads -/

/-- All that the client sent. -/
def sent (reads : List (Option Bytes)) : Bytes := (chunks reads).flatten

/-- The head and what came with it are the first bytes of the client, and the head is ended. -/
theorem readHead_ok {reads later : List (Option Bytes)} {buf head early : Bytes}
    (h : readHead buf reads = .ok (head, early, later)) :
    buf ++ sent reads = head ++ (early ++ sent later) ∧ crlfcrlf <:+ head := by
  induction reads generalizing buf with
  | nil => cases h
  | cons read reads ih =>
    cases read with
    | none => cases h
    | some chunk =>
      unfold readHead at h
      split at h
      · cases h
      · next hne =>
          have hsent : sent (some chunk :: reads) = chunk ++ sent reads := by
            simp [sent, chunks, hne]
          rw [hsent, ← append_assoc]
          simp only at h
          split at h
          · next before after hcut =>
              obtain ⟨rfl, rfl, rfl⟩ := h
              refine ⟨?_, suffix_append _ _⟩
              have hwhole := take_append_drop (buf.length - 3) (buf ++ chunk)
              rw [Text.eq_of_splitOnce hcut] at hwhole
              conv_lhs => rw [← hwhole]
              simp
          · split at h
            · cases h
            · exact ih h

/-- The client's bytes after its first line, which ends at a line feed. -/
def afterFirstLine (bytes : Bytes) : Bytes :=
  match Text.splitOnce [lf] bytes with
  | some (_, tail) => tail
  | none => []

theorem afterFirstLine_append {line : Bytes} (h : lf ∉ line) (tail : Bytes) :
    afterFirstLine (line ++ lf :: tail) = tail := by
  unfold afterFirstLine
  rw [Text.splitOnce_char h tail]

/-- A head whose first line ends in CRLF and is followed by UTF-8. -/
def CleanHead (head : Bytes) : Prop :=
  ∃ line rest, head = line ++ cr :: lf :: Utf8.encode rest ∧ lf ∉ line

theorem count_lf_encode (bytes : Bytes) :
    (Utf8.encode (Utf8.decodeLossy bytes)).count lf = bytes.count lf := by
  have hfilter := congrArg (List.count lf) (Utf8.filter_encode_decodeLossy bytes)
  rwa [count_filter (by decide), count_filter (by decide)] at hfilter

theorem lf_notMem_snoc {l : Bytes} (h : lf ∉ l) : lf ∉ l ++ [cr] := by
  have hne : lf ≠ cr := by decide
  simp [h, hne]

theorem crlf_eq : crlf = ['\r'] ++ ['\n'] := rfl

/-- The text of a head, cut at a line end. -/
theorem decodeLossy_crlf (l r : Bytes) :
    Utf8.decodeLossy (l ++ cr :: lf :: r) = Utf8.decodeLossy l ++ (crlf ++ Utf8.decodeLossy r) := by
  have hlf := Utf8.decodeLossy_append (x := lf) (by decide) [] r
  rw [nil_append, Utf8.decodeLossy_nil, nil_append] at hlf
  rw [Utf8.decodeLossy_append (by decide), hlf]
  rfl

/-- A line end in the text of a head is one of the head. -/
theorem eq_of_decodeLossy_crlf {head : Bytes} {s t : Text}
    (h : Utf8.decodeLossy head = s ++ crlf ++ t) :
    ∃ l r, head = l ++ cr :: lf :: r ∧ Utf8.decodeLossy l = s ∧ Utf8.decodeLossy r = t := by
  have hcr : Utf8.decodeLossy head = s ++ Char.ofNat cr.toNat :: ('\n' :: t) := by
    rw [h, crlf_eq]
    simp [cr]
  obtain ⟨l, r, rfl, hl, hr⟩ := Utf8.decodeLossy_eq_append (by decide) hcr
  have hlf : Utf8.decodeLossy r = [] ++ Char.ofNat lf.toNat :: t := hr
  obtain ⟨l', r', rfl, hl', hr'⟩ := Utf8.decodeLossy_eq_append (by decide) hlf
  obtain rfl := Utf8.decodeLossy_eq_nil.mp hl'
  exact ⟨l, r', rfl, hl, hr'⟩

/-- What is sent behind the rewritten line is what followed the first line exactly if the head
is clean. -/
theorem rewrittenHead_iff {line : Text} {first tail : Bytes} (hfirst : lf ∉ first)
    (hend : crlfcrlf <:+ first ++ lf :: tail) :
    rewrittenHead line (first ++ lf :: tail) = Utf8.encode line ++ tail ↔
      CleanHead (first ++ lf :: tail) := by
  constructor
  · intro h
    obtain ⟨pre, hpre⟩ := hend
    have hsome : (Text.splitOnce crlf (Utf8.decodeLossy (first ++ lf :: tail))).isSome := by
      rw [← hpre, show pre ++ crlfcrlf = pre ++ cr :: lf :: [cr, lf] from rfl, decodeLossy_crlf]
      exact Text.isSome_splitOnce crlf _ _
    obtain ⟨⟨a, b⟩, hcut⟩ := Option.isSome_iff_exists.mp hsome
    obtain ⟨l, r, hhead, -, rfl⟩ := eq_of_decodeLossy_crlf (Text.eq_of_splitOnce hcut)
    have htail : Utf8.encode (Utf8.decodeLossy r) = tail := by
      simp only [rewrittenHead, hcut, Utf8.encode_append] at h
      exact append_cancel_left h
    -- as many line feeds follow the cut as follow the first line, so the cut is there
    have hnot : lf ∉ l := by
      have hcount := congrArg (List.count lf) hhead
      have hsame := count_lf_encode r
      rw [htail] at hsame
      rw [count_append, count_append, count_cons_self,
        count_cons_of_ne (by decide), count_cons_self,
        count_eq_zero_of_not_mem hfirst] at hcount
      rw [← count_eq_zero]
      omega
    refine ⟨l, Utf8.decodeLossy r, ?_, hnot⟩
    have hcr := lf_notMem_snoc hnot
    have hsame : first ++ lf :: tail = (l ++ [cr]) ++ lf :: r := by simpa using hhead
    obtain ⟨rfl, -⟩ := Text.cut_unique hfirst hcr hsame
    rw [htail]
    simp
  · intro h
    obtain ⟨l, rest, hhead, hnot⟩ := h
    have hcr := lf_notMem_snoc hnot
    have hsame : first ++ lf :: tail = (l ++ [cr]) ++ lf :: Utf8.encode rest := by
      simpa using hhead
    obtain ⟨-, rfl⟩ := Text.cut_unique hfirst hcr hsame
    have hnewline : '\n' ∉ Utf8.decodeLossy l := by
      intro hmem
      obtain ⟨s, t, heq⟩ := append_of_mem hmem
      obtain ⟨l', r', rfl, -, -⟩ := Utf8.decodeLossy_eq_append (x := lf) (by decide) heq
      exact hnot (by simp)
    have hcut : Text.splitOnce crlf (Utf8.decodeLossy (first ++ lf :: Utf8.encode rest)) =
        some (Utf8.decodeLossy l, rest) := by
      rw [hhead, decodeLossy_crlf, Utf8.decodeLossy_encode, crlf_eq, append_assoc]
      exact Text.splitOnce_of_notMem hnewline (by decide)
    simp only [rewrittenHead, hcut, Utf8.encode_append]

/-! ### Forwarders -/

section

variable {e : Ends} {origin : Origin} {data : Bytes} {next : Ends → Ends}

theorem toRemote_of_room (h : e.remote.room = none) :
    e.toRemote origin data next = next { e with remote := (e.remote.write origin data).2 } := by
  unfold Ends.toRemote
  rw [Sink.write_of_room h]

theorem toClient_of_room (h : e.client.room = none) :
    e.toClient origin data next = next { e with client := (e.client.write origin data).2 } := by
  unfold Ends.toClient
  rw [Sink.write_of_room h]

/-- The client's bytes behind the head. -/
theorem taken_sendEarly (h : e.remote.room = none) (early : Bytes) (later : List (Option Bytes))
    (down : List Bytes) :
    (sendEarly early (relay later down) e).remote.taken =
      e.remote.taken ++ (early ++ sent later) := by
  unfold sendEarly
  split
  · next hnil =>
      show (e.remote.writeEach .relayed (chunks later)).2.taken = _
      rw [Sink.taken_writeEach h, hnil]
      rfl
  · rw [toRemote_of_room h]
    show ((e.remote.write .relayed early).2.writeEach .relayed (chunks later)).2.taken = _
    have hroom : (e.remote.write .relayed early).2.room = none := by
      rw [Sink.write_of_room h, h]
    rw [Sink.taken_writeEach hroom, Sink.taken_write _ h, append_assoc]
    rfl

end

/-- What a forwarder does with a request it passes on: it sends nothing to the remote side, or
the rewritten head and all that came behind it. -/
def Forwarded (line : Text) (head early : Bytes) (later : List (Option Bytes)) (e : Ends) : Prop :=
  e.remote.log = [] ∨ e.remote.taken = rewrittenHead line head ++ (early ++ sent later)

section

variable {line : Text} {head early : Bytes} {later : List (Option Bytes)} {e : Ends}

/-- An answer to the client only. -/
theorem Forwarded.answer (hroom : e.client.room = none) (hlog : e.remote.log = []) (data : Bytes) :
    Forwarded line head early later (e.toClient .own data id) := by
  left
  rw [toClient_of_room hroom]
  exact hlog

/-- The head, and then what came behind it. -/
theorem Forwarded.sendHead (hroom : e.remote.room = none) (hlog : e.remote.log = [])
    (down : List Bytes) :
    Forwarded line head early later
      (e.toRemote .own (rewrittenHead line head) (sendEarly early (relay later down))) := by
  right
  have hempty : e.remote.taken = [] := by
    unfold Sink.taken
    rw [hlog]
    rfl
  rw [toRemote_of_room hroom, taken_sendEarly (by rw [Sink.write_of_room hroom, hroom]),
    Sink.taken_write _ hroom, hempty, nil_append]

variable {env : HttpEnv} {request : HttpRequestLine}

theorem forwarded_direct (hline : request.rewritten = some line) :
    Forwarded line head early later (relayHttpDirect env request head early later .fresh) := by
  unfold relayHttpDirect
  cases env.dial with
  | noPeer => exact .inl rfl
  | denied => exact .answer rfl rfl forbidden
  | failed => exact .answer rfl rfl badGateway
  | connected =>
    simp only [hline]
    exact .sendHead rfl rfl env.down

variable {lower : Text → Text} {set : RuleSet}

theorem forwarded_through (hread : readHead [] env.reads = .ok (head, early, later))
    (hparse : parseRequestLine (Text.firstLine (Utf8.decodeLossy head)) = some request)
    (hline : request.rewritten = some line) :
    Forwarded line head early later (handleHttpThrough lower set env .fresh) := by
  unfold handleHttpThrough
  simp only [hread, hparse, hline]
  cases set.decide lower (hostOf (requestTarget request)) request.port with
  | block => exact .answer rfl rfl forbidden
  | direct => exact forwarded_direct hline
  | proxy =>
    cases env.opened with
    | none => exact .answer rfl rfl badGateway
    | some _ => exact .sendHead rfl rfl env.down

theorem forwarded_client (hread : readHead [] env.reads = .ok (head, early, later))
    (hparse : parseRequestLine (Text.firstLine (Utf8.decodeLossy head)) = some request)
    (hline : request.rewritten = some line) :
    Forwarded line head early later (handleHttpClient lower set env .fresh) := by
  unfold handleHttpClient
  simp only [hread, hparse, hline]
  cases set.decide lower (hostOf (requestTarget request)) request.port with
  | block => exact .answer rfl rfl forbidden
  | direct => exact forwarded_direct hline
  | proxy =>
    cases env.opened with
    | none => exact .answer rfl rfl badGateway
    | some leftover =>
      simp only
      split
      · exact .sendHead rfl rfl env.down
      · rw [toClient_of_room rfl]
        exact .sendHead rfl rfl env.down

/-- **When forwarding is faithful.**  Whichever forwarder passes a request in absolute form on,
the remote side gets the rewritten line and the client's bytes after its first line exactly if
that line ends in CRLF and the rest of the head is UTF-8. -/
theorem http_forwarding_iff (hread : readHead [] env.reads = .ok (head, early, later))
    (hparse : parseRequestLine (Text.firstLine (Utf8.decodeLossy head)) = some request)
    (hline : request.rewritten = some line)
    (he : e = handleHttpClient lower set env .fresh ∨ e = handleHttpThrough lower set env .fresh ∨
      e = relayHttpDirect env request head early later .fresh)
    (hsent : e.remote.log ≠ []) :
    e.remote.taken = Utf8.encode line ++ afterFirstLine (sent env.reads) ↔ CleanHead head := by
  have hforwarded : Forwarded line head early later e := by
    obtain rfl | rfl | rfl := he
    · exact forwarded_client hread hparse hline
    · exact forwarded_through hread hparse hline
    · exact forwarded_direct hline
  obtain hnone | htaken := hforwarded
  · exact absurd hnone hsent
  · obtain ⟨hbytes, hend⟩ := readHead_ok hread
    rw [nil_append] at hbytes
    have hlf : lf ∈ head := hend.subset (by decide)
    obtain ⟨first, tail, rfl, hfirst⟩ := eq_append_cons_of_mem hlf
    rw [htaken, hbytes, append_assoc, cons_append, afterFirstLine_append hfirst,
      ← append_assoc (Utf8.encode line), append_left_inj]
    exact rewrittenHead_iff hfirst hend

end

/-! ### Two requests -/

/-- A request with one header, whose value is given, sent in one piece. -/
def oneHeader (value : Bytes) : HttpEnv where
  reads := [some (Utf8.encode "GET http://a/ HTTP/1.1\r\nx:".toList ++ value ++ crlfcrlf)]
  opened := some []
  dial := .failed
  down := []

def oneHeaderLine : Text := "GET / HTTP/1.1\r\n".toList

def oneHeaderRequest : HttpRequestLine where
  method := "GET".toList
  authority := "a".toList
  port := 80
  rewritten := some oneHeaderLine

/-- The one with a plain header. -/
theorem http_forwarding_iff_plain :
    (handleHttpClient id ⟨[], []⟩ (oneHeader [121]) .fresh).remote.log ≠ [] ∧
      ((handleHttpClient id ⟨[], []⟩ (oneHeader [121]) .fresh).remote.taken =
        Utf8.encode oneHeaderLine ++ afterFirstLine (sent (oneHeader [121]).reads) ↔
      CleanHead (Utf8.encode "GET http://a/ HTTP/1.1\r\nx:y\r\n\r\n".toList)) := by
  have hread : readHead [] (oneHeader [121]).reads =
      .ok (Utf8.encode "GET http://a/ HTTP/1.1\r\nx:y\r\n\r\n".toList, [], []) := by rfl
  have hparse : parseRequestLine (Text.firstLine (Utf8.decodeLossy
      (Utf8.encode "GET http://a/ HTTP/1.1\r\nx:y\r\n\r\n".toList))) = some oneHeaderRequest := by
    decide
  have hlog : (handleHttpClient id ⟨[], []⟩ (oneHeader [121]) .fresh).remote.log ≠ [] := by
    decide
  exact ⟨hlog, http_forwarding_iff hread hparse rfl (.inl rfl) hlog⟩

/-- A header byte that is not UTF-8 arrives as three others. -/
theorem http_header_changed :
    (handleHttpClient id ⟨[], []⟩ (oneHeader [0xff]) .fresh).remote.taken =
        Utf8.encode oneHeaderLine ++ [120, 58, 0xef, 0xbf, 0xbd, 13, 10, 13, 10] ∧
      (handleHttpClient id ⟨[], []⟩ (oneHeader [0xff]) .fresh).remote.taken ≠
        Utf8.encode oneHeaderLine ++ afterFirstLine (sent (oneHeader [0xff]).reads) := by
  decide

end Aether.Socks
