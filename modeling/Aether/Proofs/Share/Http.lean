/-
What the HTTP share passes on of a connection.

The first head is taken apart and built anew without the lines that are for the proxy.  What
comes after it is passed on as it is.
-/
import Aether.Share.Proxy

namespace Aether.Share

open List

open LanGuard (latin1Bytes)

/-! ### Latin-1 -/

theorem latin1_append (a b : Bytes) : latin1 (a ++ b) = latin1 a ++ latin1 b := map_append

theorem latin1Bytes_append (a b : Text) : latin1Bytes (a ++ b) = latin1Bytes a ++ latin1Bytes b :=
  map_append

variable {line t a : Text} {run room : Nat}

/-- A character of a Latin-1 text in one line. -/
def InLine (c : Char) : Prop := c.toNat < 256 ∧ c ≠ '\r' ∧ c ≠ '\n'

theorem inLine_of_all (h : t.all (fun c => c.toNat < 256 && (c != '\r' && c != '\n'))) :
    ∀ c ∈ t, InLine c := by
  intro c hc
  have hall := all_eq_true.mp h c hc
  simpa [InLine] using hall

theorem notMem_of_inLine (h : ∀ c ∈ t, InLine c) : '\n' ∉ t := fun hmem => (h _ hmem).2.2 rfl

theorem latin1_latin1Bytes (h : ∀ c ∈ t, c.toNat < 256) : latin1 (latin1Bytes t) = t := by
  unfold latin1 latin1Bytes
  rw [map_map]
  refine (map_congr_left fun c hc => ?_).trans (map_id t)
  have hlt : c.toNat < 256 := h c hc
  simp [hlt, Nat.mod_eq_of_lt hlt]

/-! ### Lines -/

theorem lines_eq (t : Text) : lines t = (lines t).headD [] :: (lines t).tail := by
  fun_cases lines t <;> rfl

theorem lines_crlf (t : Text) : lines ('\r' :: '\n' :: t) = [] :: lines t := by
  rw [lines]

/-- A character that begins no line break goes to the first line. -/
theorem lines_cons {c : Char} (h : c = '\r' → t.head? ≠ some '\n') :
    lines (c :: t) = (c :: (lines t).headD []) :: (lines t).tail := by
  rw [lines.eq_def]
  split
  · next heq => cases heq
  · next rest heq =>
      obtain ⟨rfl, rfl⟩ := List.cons.inj heq
      exact absurd rfl (h rfl)
  · next c' rest _ heq =>
      obtain ⟨rfl, rfl⟩ := List.cons.inj heq
      rw [lines_eq t]
      rfl

/-- Texts by their line breaks. -/
theorem lines_induction {P : Text → Prop} (nil : P []) (crlf : ∀ t, P t → P ('\r' :: '\n' :: t))
    (cons : ∀ c t, (c = '\r' → t.head? ≠ some '\n') → P t → P (c :: t)) (t : Text) : P t := by
  induction t using lines.induct with
  | case1 => exact nil
  | case2 rest ih => exact crlf rest ih
  | case3 c rest hne _ ih | case4 c rest hne _ _ _ ih =>
    refine cons c rest (fun hc hhead => ?_) ih
    obtain ⟨tail, rfl⟩ := List.head?_eq_some_iff.mp hhead
    exact hne tail hc rfl

/-- A line break parts the lines before it and behind it. -/
theorem lines_append_crlf (a b : Text) : lines (a ++ Socks.crlf ++ b) = lines a ++ lines b := by
  induction a using lines_induction with
  | nil => exact lines_crlf b
  | crlf t ih =>
    show lines ('\r' :: '\n' :: (t ++ Socks.crlf ++ b)) = _
    rw [lines_crlf, lines_crlf, ih]
    rfl
  | cons c t h ih =>
    have hnext : c = '\r' → (t ++ Socks.crlf ++ b).head? ≠ some '\n' := by
      intro hc
      cases t with
      | nil => simp [Socks.crlf]
      | cons d t => simpa using h hc
    show lines (c :: (t ++ Socks.crlf ++ b)) = _
    rw [lines_cons hnext, lines_cons h, ih, lines_eq t]
    rfl

/-- What has no line break goes to the first line of what follows. -/
theorem lines_append {b : Text} (ha : lines a = [a])
    (hb : a.getLast? = some '\r' → b.head? ≠ some '\n') :
    lines (a ++ b) = (a ++ (lines b).headD []) :: (lines b).tail := by
  induction a with
  | nil => exact lines_eq b
  | cons c a ih =>
    have hstart : c = '\r' → a.head? ≠ some '\n' := by
      rintro rfl hhead
      obtain ⟨a', rfl⟩ := List.head?_eq_some_iff.mp hhead
      rw [lines_crlf] at ha
      cases ha
    have ha' : lines a = [a] := by
      rw [lines_cons hstart] at ha
      obtain ⟨hline, hmore⟩ := List.cons.inj ha
      rw [lines_eq a, hmore, (List.cons.inj hline).2]
    have hnext : c = '\r' → (a ++ b).head? ≠ some '\n' := by
      intro hc
      cases a with
      | nil => exact hb (congrArg some hc)
      | cons d a => exact hstart hc
    have hlast : a.getLast? = some '\r' → b.head? ≠ some '\n' := by
      intro hlast
      refine hb ?_
      rw [List.getLast?_cons, hlast]
      rfl
    show lines (c :: (a ++ b)) = _
    rw [lines_cons hnext, ih ha' hlast]
    rfl

theorem lines_of_notMem (ha : '\n' ∉ a) : lines a = [a] := by
  induction a with
  | nil => rfl
  | cons c a ih =>
    have hnext : c = '\r' → a.head? ≠ some '\n' := by
      intro _ hhead
      obtain ⟨a', rfl⟩ := List.head?_eq_some_iff.mp hhead
      exact ha (by simp)
    rw [lines_cons hnext, ih fun hmem => ha (mem_cons_of_mem c hmem)]
    rfl

/-- The lines of a block of lines. -/
theorem lines_flatMap {ls : List Text} (h : ∀ l ∈ ls, '\n' ∉ l) (b : Text) :
    lines (ls.flatMap (· ++ Socks.crlf) ++ b) = ls ++ lines b := by
  induction ls with
  | nil => rfl
  | cons l ls ih =>
    rw [flatMap_cons, append_assoc, lines_append_crlf, lines_of_notMem (h l (by simp)),
      ih fun l' hl' => h l' (by simp [hl'])]
    rfl

/-! ### Header lines for the proxy -/

theorem isAuthLine_iff :
    isAuthLine line = true ↔ proxyAuthHeader <+: lowercase line := isPrefixOf_iff_prefix

theorem isAuthLine_append (h : isAuthLine line = true) (more : Text) :
    isAuthLine (line ++ more) = true := by
  rw [isAuthLine_iff] at h ⊢
  unfold lowercase at h ⊢
  rw [map_append]
  exact h.trans (prefix_append _ _)

/-- A carriage return at the end is not what makes such a line. -/
theorem isAuthLine_of_cr (h : isAuthLine (line ++ ['\r']) = true) : isAuthLine line = true := by
  rw [isAuthLine_iff] at h ⊢
  have hlower : lowercase (line ++ ['\r']) = lowercase line ++ ['\r'] := map_append
  rw [hlower] at h
  obtain h | h := prefix_concat_iff.mp h
  · have hlast := congrArg List.getLast? h
    rw [List.getLast?_concat] at hlast
    exact absurd hlast (by decide)
  · exact h

theorem any_lines (t : Text) :
    (lines t).any isAuthLine = true ↔
      isAuthLine ([] ++ (lines t).headD []) = true ∨ (lines t).tail.any isAuthLine = true := by
  nth_rewrite 1 [lines_eq t]
  rw [any_cons, Bool.or_eq_true]
  rfl

/-- A text has the lines of its beginnings, or longer ones. -/
theorem auth_lines_append (t y : Text) :
    (∀ pre, isAuthLine (pre ++ (lines t).headD []) = true →
      isAuthLine (pre ++ (lines (t ++ y)).headD []) = true) ∧
    ((lines t).tail.any isAuthLine = true → (lines (t ++ y)).tail.any isAuthLine = true) := by
  induction t using lines_induction with
  | nil =>
    refine ⟨fun pre h => ?_, fun h => ?_⟩
    · have hpre : isAuthLine pre = true := by simpa [lines] using h
      exact isAuthLine_append hpre _
    · cases h
  | crlf t ih =>
    show (∀ pre, isAuthLine (pre ++ (lines ('\r' :: '\n' :: t)).headD []) = true →
      isAuthLine (pre ++ (lines ('\r' :: '\n' :: (t ++ y))).headD []) = true) ∧
      ((lines ('\r' :: '\n' :: t)).tail.any isAuthLine = true →
        (lines ('\r' :: '\n' :: (t ++ y))).tail.any isAuthLine = true)
    rw [lines_crlf, lines_crlf]
    refine ⟨fun _ h => h, ?_⟩
    obtain ⟨hhead, htail⟩ := ih
    show (lines t).any isAuthLine = true → (lines (t ++ y)).any isAuthLine = true
    rw [any_lines, any_lines]
    exact Or.imp (hhead []) htail
  | cons c t h ih =>
    obtain ⟨hhead, htail⟩ := ih
    by_cases hcross : c = '\r' ∧ (t ++ y).head? = some '\n'
    · -- the line break is cut by the end
      obtain ⟨rfl, hnext⟩ := hcross
      cases t with
      | cons d t => exact absurd hnext (h rfl)
      | nil =>
        refine ⟨fun pre hpre => ?_, fun hnone => ?_⟩
        · have hline : isAuthLine pre = true := isAuthLine_of_cr hpre
          exact isAuthLine_append hline _
        · cases hnone
    · have hnext : c = '\r' → (t ++ y).head? ≠ some '\n' := fun hc hy => hcross ⟨hc, hy⟩
      rw [cons_append, lines_cons h, lines_cons hnext]
      refine ⟨fun pre hpre => ?_, htail⟩
      have hpre' := hhead (pre ++ [c]) (by simpa using hpre)
      simpa using hpre'

theorem hasAuthLine_append {a : Bytes} (h : hasAuthLine a = true) (b : Bytes) :
    hasAuthLine (a ++ b) = true := by
  unfold hasAuthLine at h ⊢
  rw [latin1_append]
  obtain ⟨hhead, htail⟩ := auth_lines_append (latin1 a) (latin1 b)
  rw [any_lines] at h ⊢
  exact Or.imp (hhead []) htail h

/-! ### Reading a head -/

theorem runAfter_of_ne {b : UInt8} (hcr : b ≠ 13) (hlf : b ≠ 10) : runAfter run b = 0 := by
  unfold runAfter
  rw [if_neg (fun h => hcr h.1), if_neg (fun h => hlf h.1)]

/-- With any other room, the loop ends at the same place or for want of room. -/
theorem headerLoop_of_eq {input head rest : Bytes}
    (h : headerLoop room run input = some (head, rest)) (room' : Nat) :
    headerLoop room' run input = if head.length ≤ room' then some (head, rest) else none := by
  induction room generalizing room' run input head rest with
  | zero => cases h
  | succ room ih =>
    cases input with
    | nil => cases h
    | cons b input =>
      unfold headerLoop at h
      split at h
      · next hrun =>
          cases h
          cases room' with
          | zero => rfl
          | succ room' =>
            unfold headerLoop
            rw [if_pos hrun, if_pos (by simp)]
      · next hrun =>
          obtain ⟨⟨head', rest'⟩, hloop, heq⟩ := Option.map_eq_some_iff.mp h
          cases heq
          cases room' with
          | zero => rfl
          | succ room' =>
            unfold headerLoop
            rw [if_neg hrun, ih hloop, length_cons]
            by_cases hle : head'.length ≤ room'
            · rw [if_pos hle, if_pos (Nat.succ_le_succ hle)]
              rfl
            · rw [if_neg hle, if_neg (by omega)]
              rfl

/-- A line and its line break, when another line is to follow. -/
theorem headerLoop_line (room run : Nat) {line : Bytes} (input : Bytes) (hne : line ≠ [])
    (h : ∀ b ∈ line, b ≠ 13 ∧ b ≠ 10) :
    headerLoop (line.length + 2 + room) run (line ++ [13, 10] ++ input)
      = (headerLoop room 2 input).map fun (head, rest) => (line ++ [13, 10] ++ head, rest) := by
  induction line generalizing run with
  | nil => exact absurd rfl hne
  | cons b line ih =>
    obtain ⟨hcr, hlf⟩ := h b (by simp)
    have hroom : (b :: line).length + 2 + room = line.length + 2 + room + 1 := by
      rw [length_cons]
      omega
    rw [hroom, cons_append, cons_append, headerLoop, runAfter_of_ne hcr hlf,
      if_neg (by decide)]
    by_cases hline : line = []
    · subst hline
      show Option.map _ (headerLoop (0 + 2 + room) 0 (13 :: 10 :: input)) = _
      rw [show 0 + 2 + room = room + 1 + 1 by omega, headerLoop, headerLoop,
        show runAfter 0 13 = 1 from rfl, show runAfter 1 10 = 2 from rfl, if_neg (by decide),
        if_neg (by decide), Option.map_map, Option.map_map]
      rfl
    · rw [ih _ hline fun b' hb' => h b' (by simp [hb']), Option.map_map]
      rfl

/-- A block of lines behind a line break, and the empty line. -/
theorem headerLoop_block (ls : List Bytes) (h : ∀ l ∈ ls, l ≠ [] ∧ ∀ b ∈ l, b ≠ 13 ∧ b ≠ 10)
    (input : Bytes) :
    headerLoop ((ls.flatMap (· ++ [13, 10])).length + 2) 2
        (ls.flatMap (· ++ [13, 10]) ++ [13, 10] ++ input)
      = some (ls.flatMap (· ++ [13, 10]) ++ [13, 10], input) := by
  induction ls with
  | nil => rfl
  | cons l ls ih =>
    obtain ⟨hne, hl⟩ := h l (by simp)
    have hlen : ((l :: ls).flatMap (· ++ [13, 10])).length + 2
        = l.length + 2 + ((ls.flatMap (· ++ [13, 10])).length + 2) := by
      rw [flatMap_cons, length_append, length_append]
      simp only [length_cons, length_nil]
      omega
    rw [hlen, flatMap_cons, append_assoc, append_assoc, headerLoop_line _ _ _ hne hl,
      ← append_assoc, ih fun l' hl' => h l' (by simp [hl'])]
    simp

section Requests

variable {r : Request}

variable {version method path t line : Text} {headerLines : List Text} {env : Env} {rest : Bytes}

/-- The bytes of a line. -/
theorem latin1Bytes_line (h : ∀ c ∈ line, InLine c) : ∀ b ∈ latin1Bytes line, b ≠ 13 ∧ b ≠ 10 := by
  intro b hb
  obtain ⟨c, hc, rfl⟩ := mem_map.mp hb
  obtain ⟨hlt, hcr, hlf⟩ := h c hc
  have hval : ∀ n : Nat, n < 256 → UInt8.ofNat c.toNat = UInt8.ofNat n → c = Char.ofNat n := by
    intro n hn heq
    have hnat := congrArg UInt8.toNat heq
    rw [UInt8.toNat_ofNat_of_lt' hlt, UInt8.toNat_ofNat_of_lt' hn] at hnat
    rw [← hnat]
    exact (Char.ofNat_toNat c).symm
  rw [if_pos hlt]
  exact ⟨fun heq => hcr (hval 13 (by decide) heq), fun heq => hlf (hval 10 (by decide) heq)⟩

theorem Request.WellFormed.inLine_line (h : r.WellFormed) : ∀ c ∈ r.line, InLine c :=
  fun c hc => ⟨h.latin c (by simp [Request.head, hc]), fun heq => h.line.1 (heq ▸ hc),
    fun heq => h.line.2 (heq ▸ hc)⟩

theorem Request.WellFormed.inLine_header (h : r.WellFormed) {header : Text}
    (hheader : header ∈ r.headers) : ∀ c ∈ header, InLine c := by
  intro c hc
  obtain ⟨-, hcr, hlf⟩ := h.headers header hheader
  refine ⟨h.latin c ?_, fun heq => hcr (heq ▸ hc), fun heq => hlf (heq ▸ hc)⟩
  unfold Request.head
  rw [mem_append, mem_append, mem_flatMap]
  exact Or.inl (Or.inr ⟨header, hheader, mem_append_left _ hc⟩)

/-- **A head is read up to its end, if there is room for it.** -/
theorem Request.WellFormed.readHeaderBlock (h : r.WellFormed) (rest : Bytes) :
    readHeaderBlock (latin1Bytes r.head ++ rest)
      = if r.head.length ≤ maxHeaderBytes then some (latin1Bytes r.head, rest) else none := by
  have hbytes : latin1Bytes r.head = latin1Bytes r.line ++ [13, 10] ++
      ((r.headers.map latin1Bytes).flatMap (· ++ [13, 10]) ++ [13, 10]) := by
    unfold Request.head
    rw [latin1Bytes_append, latin1Bytes_append, latin1Bytes_append, append_assoc]
    congr 2
    unfold latin1Bytes
    rw [map_flatMap, flatMap_map]
    congr 1
    funext header
    rw [map_append]
    rfl
  have hblock := headerLoop_block (r.headers.map latin1Bytes) (by
    intro l hl
    obtain ⟨header, hheader, rfl⟩ := mem_map.mp hl
    refine ⟨fun hnil => (h.headers header hheader).1 (map_eq_nil_iff.mp hnil), ?_⟩
    exact latin1Bytes_line (h.inLine_header hheader)) rest
  have hline : latin1Bytes r.line ≠ [] := by
    intro hnil
    have : r.line = [] := map_eq_nil_iff.mp hnil
    simp [Request.line] at this
  have hloop := headerLoop_line
    (((r.headers.map latin1Bytes).flatMap (· ++ [13, 10])).length + 2) 0
    ((r.headers.map latin1Bytes).flatMap (· ++ [13, 10]) ++ [13, 10] ++ rest) hline
    (latin1Bytes_line h.inLine_line)
  rw [hblock, Option.map_some] at hloop
  dsimp only at hloop
  rw [← append_assoc (latin1Bytes r.line ++ [13, 10]), ← hbytes] at hloop
  have hlen : (latin1Bytes r.head).length = r.head.length := length_map _
  unfold Share.readHeaderBlock
  rw [headerLoop_of_eq hloop, hlen]

theorem Request.WellFormed.lines_head (h : r.WellFormed) (rest : Text) :
    lines (r.head ++ rest) = r.line :: r.headers ++ [] :: lines rest := by
  unfold Request.head
  rw [append_assoc, append_assoc, lines_append_crlf, lines_of_notMem h.line.2,
    lines_flatMap fun header hheader => (h.headers header hheader).2.2,
    ← nil_append Socks.crlf, lines_append_crlf]
  rfl

theorem Request.WellFormed.splitOn_line (h : r.WellFormed) :
    r.line.splitOn ' ' = [r.method, "http://".toList ++ r.url, r.version] := by
  have hurl : ' ' ∉ "http://".toList ++ r.url := by
    intro hmem
    obtain hmem | hmem := mem_append.mp hmem
    · exact absurd hmem (by decide)
    · exact h.url hmem
  have hblank : ∀ part ∈ [r.method, "http://".toList ++ r.url, r.version], ' ' ∉ part := by
    intro part hpart
    simp only [mem_cons, not_mem_nil, or_false] at hpart
    obtain rfl | rfl | rfl := hpart
    · exact fun hmem => (h.method ' ' hmem).1 rfl
    · exact hurl
    · exact h.version
  have hparts := splitOn_intercalate ' ' hblank (by simp)
  rw [← hparts]
  congr 1
  simp [Request.line, List.intercalate]

/-! ### What is passed on -/

theorem colon_of_lowercase (h : ':' ∈ lowercase t) : ':' ∈ t := by
  obtain ⟨c, hc, heq⟩ := mem_map.mp h
  have hcolon : c = ':' := by
    split at heq
    · next hlatin =>
        have hnat := congrArg Char.toNat heq
        rw [Utf8.toNat_ofNat (Or.inl (by omega))] at hnat
        have : Char.toNat ':' = 58 := rfl
        omega
    · unfold Char.toLower at heq
      split at heq
      · next hupper =>
          have hval : c.val + 32 = 58 := congrArg Char.val heq
          have hge : 65 ≤ c.val.toNat := hupper.1
          have hle : c.val.toNat ≤ 90 := hupper.2
          have hnat := congrArg UInt32.toNat hval
          rw [UInt32.toNat_add] at hnat
          change (c.val.toNat + 32) % 4294967296 = 58 at hnat
          omega
      · exact heq
  rw [← hcolon]
  exact hc

/-- A request line is no header line. -/
theorem isAuthLine_requestLine (h : ∀ c ∈ method, c ≠ ' ' ∧ c ≠ ':') :
    isAuthLine (method ++ ' ' :: path ++ ' ' :: version) = false := by
  rw [Bool.eq_false_iff]
  intro hauth
  rw [append_assoc, cons_append, isAuthLine_iff] at hauth
  generalize path ++ ' ' :: version = rest at hauth
  have hlower : lowercase (method ++ ' ' :: rest) = lowercase method ++ ' ' :: lowercase rest :=
    map_append
  rw [hlower] at hauth
  by_cases hlen : proxyAuthHeader.length ≤ (lowercase method).length
  · have hpre : proxyAuthHeader <+: lowercase method :=
      prefix_of_prefix_length_le hauth (prefix_append _ _) hlen
    have hcolon : ':' ∈ method := colon_of_lowercase (hpre.subset (by decide))
    exact (h ':' hcolon).2 rfl
  · have hpre : lowercase method ++ [' '] <+: proxyAuthHeader := by
      refine prefix_of_prefix_length_le ?_ hauth ?_
      · exact ⟨lowercase rest, by simp⟩
      · rw [length_append, length_singleton]
        omega
    exact absurd (hpre.subset (by simp)) (by decide : ' ' ∉ proxyAuthHeader)

/-- The lines of a head that was built anew, and of what follows it. -/
theorem lines_rebuilt (hline : '\n' ∉ method ++ ' ' :: path ++ ' ' :: version)
    (hheaders : ∀ line ∈ headerLines, '\n' ∉ line) (rest : Text) :
    lines (rebuilt method path version headerLines ++ rest)
      = (method ++ ' ' :: path ++ ' ' :: version) ::
        (headerLines.filter fun line => line ≠ [] && !isDropped line) ++
        ["Connection: close".toList, []] ++ lines rest := by
  have hshape : rebuilt method path version headerLines ++ rest
      = (method ++ ' ' :: path ++ ' ' :: version) ++ Socks.crlf ++
        ((headerLines.filter fun line => line ≠ [] && !isDropped line).flatMap (· ++ Socks.crlf) ++
          ("Connection: close".toList ++ Socks.crlf ++ ([] ++ Socks.crlf ++ rest))) := by
    simp [rebuilt]
  rw [hshape, lines_append_crlf, lines_of_notMem hline,
    lines_flatMap fun line hmem => hheaders line (mem_filter.mp hmem).1, lines_append_crlf,
    lines_of_notMem (by decide), lines_append_crlf]
  simp [lines]

/-- **Nothing of a head that is for the proxy is passed on.** -/
theorem hasAuthLine_rebuilt (hmethod : ∀ c ∈ method, c ≠ ' ' ∧ c ≠ ':')
    (hline : '\n' ∉ method ++ ' ' :: path ++ ' ' :: version)
    (hheaders : ∀ line ∈ headerLines, '\n' ∉ line) (rest : Text) :
    (lines (rebuilt method path version headerLines ++ rest)).any isAuthLine
      = (lines rest).any isAuthLine := by
  rw [lines_rebuilt hline hheaders, any_append, any_append, any_cons]
  have hfirst : isAuthLine (method ++ ' ' :: path ++ ' ' :: version) = false :=
    isAuthLine_requestLine hmethod
  have hkept : (headerLines.filter fun line => line ≠ [] && !isDropped line).any isAuthLine
      = false := by
    rw [any_eq_false]
    intro line hline' hauth
    have hdropped : isDropped line = true := by
      unfold isDropped
      rw [show proxyAuthHeader.isPrefixOf (lowercase line) = true from hauth]
      simp
    have hfilter := (mem_filter.mp hline').2
    rw [hdropped] at hfilter
    simp at hfilter
  have hclose : ["Connection: close".toList, []].any isAuthLine = false := by decide
  rw [hfirst, hkept, hclose]
  rfl

/-- The bytes in front of the port in what `socksOpen` writes. -/
def opening (host : Text) : Text :=
  latin1 [5, 1, 0, 5, 1, 0, 3] ++ [Char.ofNat (UInt8.ofNat host.length).toNat] ++ host

theorem latin1_handshake {host : Text} (hlatin : ∀ c ∈ host, c.toNat < 256) (port : Int) :
    latin1 (greeting ++ socksRequest host port)
      = opening host ++ [Char.ofNat (UInt8.ofNat ((port / 256) % 256).toNat).toNat,
        Char.ofNat (UInt8.ofNat (port % 256).toNat).toNat] := by
  have hlen : (latin1Bytes host).length = host.length := length_map _
  have hbytes : greeting ++ socksRequest host port
      = [5, 1, 0, 5, 1, 0, 3] ++ ([UInt8.ofNat host.length] ++ (latin1Bytes host ++
        [UInt8.ofNat ((port / 256) % 256).toNat, UInt8.ofNat (port % 256).toNat])) := by
    simp [greeting, socksRequest, hlen]
  rw [hbytes, latin1_append, latin1_append, latin1_append, latin1_latin1Bytes hlatin]
  simp [opening, latin1]

theorem lines_append_one {a b : Text} (ha : lines a = [a]) (hb : lines b = [b])
    (hcross : a.getLast? = some '\r' → b.head? ≠ some '\n') : lines (a ++ b) = [a ++ b] := by
  rw [lines_append ha hcross, hb]
  rfl

theorem lines_opening {host : Text} (hlf : '\n' ∉ host) :
    lines (opening host) = [opening host] := by
  have hone : ∀ c : Char, lines [c] = [[c]] := fun c => lines_cons (by simp)
  refine lines_append_one (lines_append_one (by decide) (hone _) ?_) (lines_of_notMem hlf) ?_
  · intro hlast
    exact absurd hlast (by decide)
  · intro _ hhead
    obtain ⟨host', rfl⟩ := List.head?_eq_some_iff.mp hhead
    exact hlf (by simp)

theorem getLast?_opening {host : Text} (hcr : '\r' ∉ host) :
    (opening host).getLast? ≠ some '\r' := by
  unfold opening
  rw [List.getLast?_append]
  cases hlast : host.getLast? with
  | none =>
    rw [List.getLast?_eq_none_iff.mp hlast]
    decide
  | some c =>
    intro heq
    have hc : c = '\r' := by simpa using heq
    exact hcr (hc ▸ mem_of_getLast? hlast)

/-- What `socksOpen` writes contains no header line, whatever its port reads as. -/
theorem hasAuthLine_handshake {host : Text} (h : ∀ c ∈ host, InLine c) (port : Int) {z : Text}
    (hz : z.head? ≠ some '\n') (hfirst : isAuthLine ((lines z).headD []) = false) :
    (lines (latin1 (greeting ++ socksRequest host port) ++ z)).any isAuthLine
      = (lines z).any isAuthLine := by
  rw [latin1_handshake fun c hc => (h c hc).1, append_assoc,
    lines_append (lines_opening (notMem_of_inLine h)) (fun hlast => absurd hlast
      (getLast?_opening fun hmem => (h _ hmem).2.1 rfl)),
    any_cons, show isAuthLine (opening host ++ _) = false from rfl, Bool.false_or]
  generalize Char.ofNat (UInt8.ofNat ((port / 256) % 256).toNat).toNat = hi
  generalize Char.ofNat (UInt8.ofNat (port % 256).toNat).toNat = lo
  show (lines (hi :: lo :: z)).tail.any isAuthLine = _
  by_cases hbreak : hi = '\r' ∧ lo = '\n'
  · -- the port is 3338
    obtain ⟨rfl, rfl⟩ := hbreak
    rw [lines_crlf]
    rfl
  · have hhi : hi = '\r' → (lo :: z).head? ≠ some '\n' := fun heq hhead =>
      hbreak ⟨heq, Option.some.inj hhead⟩
    rw [lines_cons hhi, lines_cons (fun _ => hz)]
    show (lines z).tail.any isAuthLine = _
    nth_rewrite 2 [lines_eq z]
    rw [any_cons, hfirst]
    rfl

/-! ### Cuts -/

theorem substringBefore_subset (c : Char) (t : Text) : substringBefore c t ⊆ t := by
  unfold substringBefore
  cases hsplit : Text.splitOnce [c] t with
  | none => exact List.Subset.refl t
  | some parts =>
    rw [Text.eq_of_splitOnce hsplit]
    intro x hx
    have hx' : x ∈ parts.1 := hx
    simp [hx']

theorem substringAfter_subset (c : Char) (t : Text) : substringAfter c [] t ⊆ t := by
  unfold substringAfter
  cases hsplit : Text.splitOnce [c] t with
  | none => exact nil_subset t
  | some parts =>
    rw [Text.eq_of_splitOnce hsplit]
    intro x hx
    have hx' : x ∈ parts.2 := hx
    simp [hx']

theorem urlHost_subset (url : Text) : urlHost url ⊆ url :=
  List.Subset.trans (substringBefore_subset ':' _) (substringBefore_subset '/' url)

/-! ### One connection -/

/-- What is done with a head whose client may go on. -/
theorem serveHead_of_split {client : Option IpAddr} {more : List Text} {target : Text}
    (hsplit : (headerLines.headD []).splitOn ' ' = method :: target :: version :: more)
    (hauth : LanGuard.isLoopback client = true ∨ httpAuthorized env headerLines = true) :
    serveHead env client headerLines rest
      = if Text.eqIgnoreAsciiCase method "CONNECT".toList then serveConnect env target rest
        else serveAbsolute env method target version headerLines.tail rest := by
  unfold serveHead
  rw [hsplit]
  refine if_neg ?_
  obtain hloop | hauth := hauth
  · rw [hloop, Bool.not_true, Bool.false_and]
    exact Bool.false_ne_true
  · rw [hauth, Bool.not_true, Bool.and_false]
    exact Bool.false_ne_true

theorem Request.WellFormed.serve (h : r.WellFormed) (env : Env) (client : Option IpAddr)
    (hauth : httpAuthorized env (lines r.head) = true) (hroom : r.head.length ≤ maxHeaderBytes)
    (rest : Bytes) :
    serveHttpClient env client (latin1Bytes r.head ++ rest)
      = serveAbsolute env r.method ("http://".toList ++ r.url) r.version (r.headers ++ [[], []])
        rest := by
  have hlines : lines r.head = r.line :: (r.headers ++ [[], []]) := by
    have hempty := h.lines_head []
    rw [append_nil] at hempty
    exact hempty
  have hsplit : ((lines r.head).headD []).splitOn ' '
      = r.method :: ("http://".toList ++ r.url) :: r.version :: [] := by
    rw [hlines]
    exact h.splitOn_line
  unfold serveHttpClient
  rw [h.readHeaderBlock, if_pos hroom]
  show serveHead env client (lines (latin1 (latin1Bytes r.head))) rest = _
  rw [latin1_latin1Bytes h.latin, serveHead_of_split hsplit (.inr hauth), h.notConnect, hlines]
  rfl

/-! ### What is sent of the first request -/

theorem Request.WellFormed.inLine_url (h : r.WellFormed) {c : Char} (hc : c ∈ r.url) : InLine c :=
  h.inLine_line c (by simp [Request.line, hc])

theorem Request.WellFormed.inLine_host (h : r.WellFormed) : ∀ c ∈ urlHost r.url, InLine c :=
  fun _ hc => h.inLine_url (urlHost_subset r.url hc)

theorem Request.WellFormed.inLine_headers (h : r.WellFormed)
    (hline : line ∈ r.headers ++ [[], []]) :
    ∀ c ∈ line, InLine c := by
  intro c hc
  obtain hline | hline := mem_append.mp hline
  · exact h.inLine_header hline c hc
  · have hnil : line = [] := by simpa using hline
    rw [hnil] at hc
    cases hc

/-- The request line that is passed on. -/
theorem Request.WellFormed.inLine_sent (h : r.WellFormed) :
    ∀ c ∈ r.method ++ ' ' :: urlPath r.url ++ ' ' :: r.version, InLine c := by
  have hchars : ∀ c ∈ [' ', '/'], InLine c := inLine_of_all (by decide)
  intro c hc
  simp only [mem_append, mem_cons, urlPath] at hc
  obtain (hc | rfl | rfl | hc) | rfl | hc := hc
  · exact h.inLine_line c (by simp [Request.line, hc])
  · exact hchars ' ' (by simp)
  · exact hchars '/' (by simp)
  · exact h.inLine_url (substringAfter_subset '/' r.url hc)
  · exact hchars ' ' (by simp)
  · exact h.inLine_line c (by simp [Request.line, hc])

/-- A head that was built anew is Latin-1. -/
theorem latin_rebuilt (hline : ∀ c ∈ method ++ ' ' :: path ++ ' ' :: version, InLine c)
    (hheaders : ∀ line ∈ headerLines, ∀ c ∈ line, InLine c) :
    ∀ c ∈ rebuilt method path version headerLines, c.toNat < 256 := by
  have hcrlf : ∀ c ∈ Socks.crlf, c.toNat < 256 := by
    intro c hc
    have hcases : c = '\r' ∨ c = '\n' := by simpa [Socks.crlf] using hc
    obtain rfl | rfl := hcases <;> decide
  have hclose : ∀ c ∈ "Connection: close".toList, InLine c := inLine_of_all (by decide)
  intro c hc
  unfold rebuilt at hc
  rw [mem_append, mem_append, mem_append, mem_append, mem_append,
    mem_flatMap] at hc
  obtain ((((hc | hc) | ⟨line, hmem, hc⟩) | hc) | hc) | hc := hc
  · exact (hline c hc).1
  · exact hcrlf c hc
  · obtain hc | hc := mem_append.mp hc
    · exact (hheaders line (mem_filter.mp hmem).1 c hc).1
    · exact hcrlf c hc
  · exact (hclose c hc).1
  · exact hcrlf c hc
  · exact hcrlf c hc

theorem hasAuthLine_handshake_only (h : r.WellFormed) :
    hasAuthLine (greeting ++ socksRequest (urlHost r.url) (urlPort r.url)) = false := by
  have hnone := hasAuthLine_handshake h.inLine_host (urlPort r.url) (z := []) (by simp) rfl
  rw [append_nil] at hnone
  exact hnone

/-- **Of the first request, nothing for the proxy is passed on; of what follows it, all is.** -/
theorem Request.WellFormed.hasAuthLine_sent (h : r.WellFormed) (rest : Bytes) :
    hasAuthLine (greeting ++ socksRequest (urlHost r.url) (urlPort r.url) ++
        latin1Bytes (rebuilt r.method (urlPath r.url) r.version (r.headers ++ [[], []])) ++ rest)
      = hasAuthLine rest := by
  have hline := h.inLine_sent
  have hlf := notMem_of_inLine hline
  have hheaders : ∀ line ∈ r.headers ++ [[], []], '\n' ∉ line := fun line hmem =>
    notMem_of_inLine (h.inLine_headers hmem)
  have hlines := lines_rebuilt hlf hheaders (latin1 rest)
  unfold hasAuthLine
  rw [latin1_append _ rest, latin1_append (greeting ++ _), append_assoc,
    latin1_latin1Bytes (latin_rebuilt hline fun line hmem => h.inLine_headers hmem),
    hasAuthLine_handshake h.inLine_host (urlPort r.url) ?_ ?_,
    hasAuthLine_rebuilt h.method hlf hheaders]
  · cases hmethod : r.method with
    | nil => simp [rebuilt]
    | cons c method =>
      have hc : c ≠ '\n' := (hline c (by simp [hmethod])).2.2
      simpa [rebuilt] using hc
  · rw [hlines]
    exact isAuthLine_requestLine h.method

/-- An upstream that lets a connection through. -/
def welcoming : Bytes := [5, 0, 5, 0, 0, 1, 0, 0, 0, 0, 0, 0]

/-- What `socksOpen` can have written. -/
theorem socksOpen_cases (host : Text) (port : Int) (answers : Option Bytes) :
    socksOpen host port answers = ([], false) ∨ socksOpen host port answers = (greeting, false) ∨
      ∃ ok, socksOpen host port answers = (greeting ++ socksRequest host port, ok) := by
  cases answers with
  | none => exact .inl rfl
  | some answers =>
    simp only [socksOpen]
    split
    · exact .inr (.inl rfl)
    · exact .inr (.inr ⟨_, rfl⟩)

/-- What reaches the upstream has a header line for the proxy only if what is relayed has one. -/
theorem Request.WellFormed.hasAuthLine_upstream (h : r.WellFormed)
    (hauth : hasAuthLine (serveAbsolute env r.method ("http://".toList ++ r.url) r.version
      (r.headers ++ [[], []]) rest).upstream = true) :
    hasAuthLine (rest.take env.relayed) = true := by
  have hgreeting : hasAuthLine greeting = false := by decide
  unfold serveAbsolute at hauth
  rw [Text.strip_append] at hauth
  dsimp only at hauth
  obtain hopen | hopen | ⟨ok, hopen⟩ := socksOpen_cases (urlHost r.url) (urlPort r.url) env.answers
  · rw [hopen] at hauth
    cases hauth
  · rw [hopen] at hauth
    cases hauth
  · rw [hopen] at hauth
    cases ok with
    | false =>
      rw [hasAuthLine_handshake_only h] at hauth
      cases hauth
    | true =>
      rw [h.hasAuthLine_sent] at hauth
      exact hauth

theorem Request.WellFormed.upstream_welcoming (h : r.WellFormed)
    (hanswers : env.answers = some welcoming) (hrelayed : rest.length ≤ env.relayed) :
    hasAuthLine (serveAbsolute env r.method ("http://".toList ++ r.url) r.version
      (r.headers ++ [[], []]) rest).upstream = hasAuthLine rest := by
  unfold serveAbsolute
  rw [Text.strip_append, hanswers]
  show hasAuthLine (greeting ++ socksRequest (urlHost r.url) (urlPort r.url) ++
    latin1Bytes (rebuilt r.method (urlPath r.url) r.version (r.headers ++ [[], []])) ++
    rest.take env.relayed) = _
  rw [h.hasAuthLine_sent, take_of_length_le hrelayed]

/-- The head of a further request has its header line. -/
theorem Request.WellFormed.hasAuthLine_bytes (h : r.WellFormed) (before after : Bytes) :
    hasAuthLine (before ++ (latin1Bytes r.head ++ after)) = true := by
  obtain ⟨header, hheader, hauth⟩ := h.carries
  unfold hasAuthLine
  rw [latin1_append, latin1_append, latin1_latin1Bytes h.latin]
  unfold Request.head
  rw [append_assoc, append_assoc, append_assoc, ← append_assoc (latin1 before),
    ← append_assoc (latin1 before ++ r.line), lines_append_crlf,
    lines_flatMap fun line hline => (h.headers line hline).2.2, any_append, any_append,
    any_eq_true.mpr ⟨header, hheader, hauth⟩]
  simp

end Requests

/-! ### Sequences of requests -/

/-- **The share password stays out of the tunnel exactly if the connection carries one request
and its body does not look like a header line for the proxy**, or if the first head is not taken
at all: whatever the upstream answers and however far the relay gets, no Proxy-Authorization
header line is among what is written to the upstream socket. -/
theorem password_stays_out_iff {env : Env} {client : Option IpAddr} {first : Request}
    {more : List Request} (hfirst : first.WellFormed) (hmore : ∀ r ∈ more, r.WellFormed)
    (hauth : httpAuthorized env (lines first.head) = true) :
    (∀ answers relayed,
        hasAuthLine (serveHttpClient { env with answers, relayed } client
          ((first :: more).flatMap Request.bytes)).upstream = false) ↔
      maxHeaderBytes < first.head.length ∨ (more = [] ∧ hasAuthLine first.body = false) := by
  have hinput : (first :: more).flatMap Request.bytes
      = latin1Bytes first.head ++ (first.body ++ more.flatMap Request.bytes) := by
    simp [Request.bytes]
  rw [hinput]
  by_cases hroom : first.head.length ≤ maxHeaderBytes
  · have hserve := fun answers relayed =>
      hfirst.serve { env with answers, relayed } client hauth hroom
    constructor
    · intro hstays
      right
      have hall := hstays (some welcoming) (first.body ++ more.flatMap Request.bytes).length
      rw [hserve, hfirst.upstream_welcoming rfl (Nat.le_refl _)] at hall
      cases more with
      | nil => exact ⟨rfl, by simpa using hall⟩
      | cons second more =>
        exfalso
        rw [flatMap_cons, Request.bytes, append_assoc,
          (hmore second (by simp)).hasAuthLine_bytes] at hall
        cases hall
    · rintro (hlong | ⟨rfl, hbody⟩) answers relayed
      · omega
      · rw [hserve, Bool.eq_false_iff]
        intro hsent
        have htake := hfirst.hasAuthLine_upstream hsent
        have hwhole := hasAuthLine_append htake (first.body.drop relayed)
        rw [flatMap_nil, append_nil, take_append_drop, hbody] at hwhole
        cases hwhole
  · refine iff_of_true ?_ (.inl (by omega))
    intro answers relayed
    unfold serveHttpClient
    rw [hfirst.readHeaderBlock, if_neg hroom]
    rfl

/-- The request of a browser, with the credential `u:p`. -/
def browserRequest : Request where
  method := "GET".toList
  url := "h/".toList
  version := "HTTP/1.1".toList
  headers := ["Proxy-Authorization: Basic dTpw".toList]
  body := []

theorem browserRequest_wellFormed : browserRequest.WellFormed where
  latin := by
    intro c hc
    have hall : browserRequest.head.all (fun c => c.toNat < 256) = true := by decide
    simpa using all_eq_true.mp hall c hc
  method := by
    intro c hc
    have hall : browserRequest.method.all (fun c => c != ' ' && c != ':') = true := by decide
    simpa using all_eq_true.mp hall c hc
  notConnect := by decide
  url := by decide
  version := by decide
  line := by decide
  headers := by
    intro h hh
    obtain rfl := mem_singleton.mp hh
    decide
  carries := ⟨_, mem_singleton_self _, by decide⟩

/-- A bridge with that credential, whose upstream lets everything through. -/
def browserEnv : Env where
  sha256 := id
  user := ['u']
  password := ['p']
  answers := some welcoming
  relayed := 1000

theorem password_stays_out_one :
    hasAuthLine (serveHttpClient browserEnv (some (.v4 0xc0a80105)) browserRequest.bytes).upstream
      = false := by
  have hauth : httpAuthorized browserEnv (lines browserRequest.head) = true := by decide
  have hinput : [browserRequest].flatMap Request.bytes = browserRequest.bytes := by simp
  rw [← hinput]
  exact (password_stays_out_iff browserRequest_wellFormed (by simp) hauth).mpr
    (.inr ⟨rfl, by decide⟩) (some welcoming) 1000

/-- Two requests on one connection: the second one enters the tunnel with its password. -/
theorem password_enters_tunnel :
    browserRequest.WellFormed ∧
      httpAuthorized browserEnv (lines browserRequest.head) = true ∧
      hasAuthLine (serveHttpClient browserEnv (some (.v4 0xc0a80105))
        ([browserRequest, browserRequest].flatMap Request.bytes)).upstream = true :=
  ⟨browserRequest_wellFormed, by decide, by decide +kernel⟩

end Aether.Share
