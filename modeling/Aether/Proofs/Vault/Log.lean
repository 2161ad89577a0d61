/-
What the log gives back.

The file is the magic, whole records, and possibly a part of one that a crash left.  The reader
takes the records one by one and stops at the part, so a crash costs only what it cut.  But
nothing removes the part: an append behind it is read as its continuation.  `Mended` is the
condition that this does not happen.
-/
import Aether.Proofs.Masque.Octets
import Aether.Vault.Log

namespace Aether.DiagnosticsLog

open List Machine

open Vault (Cipher ivLen maxRecordBytes)

variable {cipher : Cipher}

/-! ### Records -/

/-- The bytes of a record with this text. -/
def IsRecord (cipher : Cipher) (text : Text) (e : Bytes) : Prop :=
  ∃ blob, e = record blob ∧ cipher.openBlob blob = some (Utf8.encode text) ∧
    blob.length ≤ maxRecordBytes

/-- What opens is longer than its vector. -/
theorem length_of_openBlob {blob plain : Bytes} (h : cipher.openBlob blob = some plain) :
    ivLen < blob.length := by
  unfold Cipher.openBlob at h
  split at h
  · cases h
  · next hlen => exact Nat.lt_of_not_le hlen

@[simp] theorem length_lengthPrefix (n : Nat) : (lengthPrefix n).length = 4 :=
  length_beBytes 4 n

/-- The length of a record is read back. -/
theorem bmod_lengthPrefix {n : Nat} (h : n ≤ maxRecordBytes) :
    Int.bmod (beNat (lengthPrefix n)) (2 ^ 32) = n := by
  have hmax : maxRecordBytes < 2 ^ 31 := by decide
  have hmod : beNat (lengthPrefix n) = n := by
    unfold lengthPrefix
    rw [beNat_beBytes]
    exact Nat.mod_eq_of_lt (by omega)
  rw [hmod]
  apply Int.bmod_eq_of_le <;> omega

/-- After a length field: the blob, if all of it is there. -/
theorem readRecord_lengthPrefix {n : Nat} (hpos : 0 < n) (hmax : n ≤ maxRecordBytes)
    (rest : Bytes) :
    readRecord cipher (lengthPrefix n ++ rest) =
      if rest.length < n then none
      else (cipher.openBlob (rest.take n)).map fun plain =>
        (Utf8.decodeLossy plain, rest.drop n) := by
  have hlong : ¬ (lengthPrefix n ++ rest).length < 4 := by
    rw [length_append, length_lengthPrefix]
    omega
  have hhead : (lengthPrefix n ++ rest).take 4 = lengthPrefix n :=
    take_left' (length_lengthPrefix n)
  have hrest : (lengthPrefix n ++ rest).drop 4 = rest :=
    drop_left' (length_lengthPrefix n)
  have hrange : ¬ ((n : Int) ≤ 0 ∨ (maxRecordBytes : Int) < n) := by omega
  unfold readRecord
  rw [if_neg hlong, hhead, hrest, bmod_lengthPrefix hmax]
  simp only [if_neg hrange, Int.toNat_natCast]

/-- **The reader takes whole records and no parts.** -/
theorem decodes_readRecord :
    Framing.Decodes (readRecord cipher) (IsRecord cipher) where
  whole := by
    rintro text e rest ⟨blob, rfl, hopen, hmax⟩
    have hpos := length_of_openBlob hopen
    unfold record
    rw [append_assoc, readRecord_lengthPrefix (by omega) hmax, if_neg (by simp),
      take_left, drop_left, hopen, Option.map_some, Utf8.decodeLossy_encode]
  cut := by
    rintro text e buf ⟨blob, rfl, hopen, hmax⟩ hpre hne
    have hpos := length_of_openBlob hopen
    by_cases hshort : buf.length < 4
    · unfold readRecord
      rw [if_pos hshort]
    · -- the length field is whole, so the blob is not
      unfold record at hpre hne
      have hfield : lengthPrefix blob.length <+: buf :=
        prefix_of_prefix_length_le (prefix_append _ _) hpre (by
          rw [length_lengthPrefix]
          omega)
      obtain ⟨part, rfl⟩ := hfield
      have hpart : part <+: blob := (prefix_append_right_inj _).mp hpre
      have hlt : part.length < blob.length := by
        refine Nat.lt_of_le_of_ne hpart.length_le fun heq => hne ?_
        rw [hpart.eq_of_length heq]
      rw [readRecord_lengthPrefix (by omega) hmax, if_pos hlt]
  empty := by
    unfold readRecord
    rfl

variable {text : Text} {s : State}

/-- What an append writes behind the magic is a record of its text. -/
theorem isRecord_of_appended (hkey : cipher.Available) (htag : Tagged cipher) {iv : Bytes}
    (hiv : iv.length = ivLen) (hlen : (Utf8.encode text).length ≤ 1024 * 1024)
    {file : Option Bytes} {bytes : Bytes} (h : appended cipher iv file text = some bytes) :
    ∃ e, bytes = (if isFresh file then magic else []) ++ e ∧ IsRecord cipher text e := by
  unfold appended at h
  obtain ⟨blob, hseal, rfl⟩ := Option.map_eq_some_iff.mp h
  refine ⟨record blob, rfl, blob, rfl, ?_, ?_⟩
  · obtain ⟨blob', hseal', hopen⟩ := hkey iv (Utf8.encode text) hiv
    rw [hseal] at hseal'
    cases hseal'
    exact hopen
  · unfold Cipher.sealBytes at hseal
    split at hseal
    · obtain ⟨body, hbody, rfl⟩ := Option.map_eq_some_iff.mp hseal
      have hbodylen := htag iv _ body hbody
      have hiv12 : ivLen = 12 := rfl
      have hmax : maxRecordBytes = 4 * 1024 * 1024 := rfl
      rw [length_append, hiv, hbodylen]
      omega
    · cases hseal

/-! ### The file -/

/-- What the file is between two steps. -/
inductive Phase (cipher : Cipher) (s : State) : Prop
  /-- Missing or empty. -/
  | fresh (hfile : isFresh s.file = true) (hnone : s.completed = []) (hwhole : s.torn = false)
  /-- A part of the magic, left by a crash. -/
  | stub (hlive : s.live = false) (file : Bytes) (hfile : s.file = some file)
      (hshort : file.length < magic.length) (hnone : s.completed = []) (hwhole : s.torn = false)
  /-- The magic, the records, and what a crash left of one. -/
  | records (es : List Bytes) (tail : Bytes) (hfile : s.file = some (magic ++ (es.flatten ++ tail)))
      (hes : List.Forall₂ (IsRecord cipher) s.completed es) (htail : readRecord cipher tail = none)
      (hwhole : s.torn = false → tail = [])

theorem looksSealed_short {file : Bytes} (h : file.length < magic.length) :
    looksSealed (some file) = false := by
  unfold looksSealed
  rw [Bool.and_eq_false_iff]
  left
  simpa using h

theorem looksSealed_magic (rest : Bytes) : looksSealed (some (magic ++ rest)) = true := by
  show (decide (magic.length ≤ (magic ++ rest).length) &&
    (magic ++ rest).take magic.length == magic) = true
  rw [take_left]
  simp

theorem isFresh_magic (rest : Bytes) : isFresh (some (magic ++ rest)) = false := rfl

/-- **What is read is what was completed.** -/
theorem Phase.readLines_eq (h : Phase cipher s) :
    readLines cipher s.file = s.completed.flatMap nonEmptyLines := by
  cases h with
  | fresh hfile hnone _ =>
    have hsealed : looksSealed s.file = false := by
      cases hf : s.file with
      | none => rfl
      | some file =>
        apply looksSealed_short
        rw [hf] at hfile
        have hnil : file = [] := List.isEmpty_iff.mp hfile
        rw [hnil]
        decide
    unfold readLines
    rw [hnone, hsealed]
    rfl
  | stub _ file hfile hshort hnone _ =>
    unfold readLines
    rw [hnone, hfile, looksSealed_short hshort]
    rfl
  | records es tail hfile hes htail _ =>
    have hfuel : s.completed.length ≤ (es.flatten ++ tail).length := by
      have hle := decodes_readRecord.length_le hes
      rw [length_append]
      omega
    have hread : readRecords cipher (es.flatten ++ tail) = s.completed :=
      decodes_readRecord.readAll_eq hes htail hfuel
    unfold readLines
    rw [hfile, looksSealed_magic, if_pos rfl, Option.getD_some, drop_left, hread]

/-! ### One step -/

theorem Phase.init (h : Phase cipher s) : Phase cipher (DiagnosticsLog.init s) := by
  unfold DiagnosticsLog.init
  cases h with
  | fresh hfile hnone hwhole =>
    rw [if_pos hfile]
    exact .fresh hfile hnone hwhole
  | stub _ file hfile hshort hnone hwhole =>
    split
    · next hfresh => exact .fresh hfresh hnone hwhole
    · -- a part of the magic is taken for an old log and erased
      rw [hfile, looksSealed_short hshort]
      exact .fresh rfl hnone hwhole
  | records es tail hfile hes htail hwhole =>
    rw [hfile, isFresh_magic, looksSealed_magic]
    exact .records es tail rfl hes htail hwhole

/-- Behind whole records, and the magic if it is still to be written, comes the next record. -/
theorem Phase.ready (h : Phase cipher s) (hlive : s.live = true) (hmended : s.torn = false) :
    ∃ es, List.Forall₂ (IsRecord cipher) s.completed es ∧
      s.file.getD [] ++ (if isFresh s.file then magic else []) = magic ++ es.flatten := by
  cases h with
  | fresh hfile hnone _ =>
    refine ⟨[], ?_, ?_⟩
    · rw [hnone]
      exact .nil
    · have hnil : s.file.getD [] = [] := List.isEmpty_iff.mp hfile
      rw [if_pos hfile, hnil]
      rfl
  | stub hdead =>
    rw [hlive] at hdead
    cases hdead
  | records es tail hfile hes _ hwhole =>
    refine ⟨es, hes, ?_⟩
    rw [hfile, isFresh_magic, hwhole hmended]
    simp

/-- An append that is completed. -/
theorem Phase.append (h : Phase cipher s) (hlive : s.live = true) (hmended : s.torn = false)
    {e : Bytes} (he : IsRecord cipher text e) :
    Phase cipher { s with
      file := some (s.file.getD [] ++ ((if isFresh s.file then magic else []) ++ e))
      completed := s.completed ++ [text] } := by
  obtain ⟨es, hes, hbase⟩ := h.ready hlive hmended
  refine .records (es ++ [e]) [] ?_ (rel_append hes (.cons he .nil)) decodes_readRecord.empty
    (fun _ => rfl)
  show some _ = some _
  rw [← append_assoc, hbase]
  simp

/-- An append that is cut. -/
theorem Phase.cut (h : Phase cipher s) (hlive : s.live = true) (hmended : s.torn = false)
    {e : Bytes} (he : IsRecord cipher text e) {written : Nat}
    (hlt : written < ((if isFresh s.file then magic else []) ++ e).length) :
    Phase cipher { s with
      file := some (s.file.getD [] ++ ((if isFresh s.file then magic else []) ++ e).take written)
      live := false
      torn := s.torn || (if isFresh s.file then magic.length else 0) < written } := by
  obtain ⟨es, hes, hbase⟩ := h.ready hlive hmended
  by_cases hmagic : written < (if isFresh s.file then magic else []).length
  · -- the file was fresh, and a part of the magic is all it has
    have hfresh : isFresh s.file = true := by
      by_contra hnot
      rw [if_neg hnot] at hmagic
      simp at hmagic
    have hnil : s.file.getD [] = [] := List.isEmpty_iff.mp hfresh
    rw [if_pos hfresh] at hmagic hbase ⊢
    have hnone : s.completed = [] := by
      have hflat : es.flatten = [] := by simpa [hnil] using hbase
      have hle := decodes_readRecord.length_le hes
      rw [hflat] at hle
      exact length_eq_zero_iff.mp (Nat.le_zero.mp hle)
    refine .stub rfl _ rfl ?_ hnone ?_
    · rw [hnil, nil_append, length_take]
      omega
    · rw [hmended, Bool.false_or, if_pos hfresh, decide_eq_false_iff_not]
      omega
  · -- the magic is whole
    refine .records es (e.take (written - (if isFresh s.file then magic else []).length)) ?_ hes
      ?_ ?_
    · show some _ = some _
      rw [take_append, take_of_length_le (by omega), ← append_assoc, hbase,
        append_assoc]
    · apply decodes_readRecord.cut he ( take_prefix _ _)
      intro hall
      rw [length_append] at hlt
      have hlen := congrArg List.length hall
      rw [length_take] at hlen
      omega
    · intro hwhole
      have hpre : (if isFresh s.file then magic else []).length
          = if isFresh s.file then magic.length else 0 := by
        split <;> rfl
      have hnot : ¬ (if isFresh s.file then magic.length else 0) < written := by
        simpa [hmended] using hwhole
      rw [show written - (if isFresh s.file then magic else []).length = 0 by omega]
      rfl

/-- What every step of a run meets. -/
def Careful (s : State) (l : Label) : Prop := Valid l ∧ Mended s l

/-- **A step that writes behind no part of a record keeps the records readable.** -/
theorem Phase.step (hkey : cipher.Available) (htag : Tagged cipher) {s' : State}
    (h : Phase cipher s) {l : Label} (hok : Careful s l) (hstep : step cipher s l = .ok s') :
    Phase cipher s' := by
  obtain ⟨hvalid, hmended⟩ := hok
  revert hstep
  fun_cases DiagnosticsLog.step cipher s l <;> intro hstep <;> cases hstep
  · exact h.init
  next iv text bytes hbytes hlive =>
    obtain ⟨e, rfl, he⟩ := isRecord_of_appended hkey htag hvalid.1 hvalid.2 hbytes
    exact h.append hlive hmended he
  · -- a crash
    cases h with
    | fresh hfile hnone hwhole => exact .fresh hfile hnone hwhole
    | stub _ file hfile hshort hnone hwhole => exact .stub rfl file hfile hshort hnone hwhole
    | records es tail hfile hes htail hwhole => exact .records es tail hfile hes htail hwhole
  next iv text written bytes hbytes hlive hlt =>
    obtain ⟨e, rfl, he⟩ := isRecord_of_appended hkey htag hvalid.1 hvalid.2 hbytes
    exact h.cut hlive hmended he hlt

/-! ### Whole runs -/

/-- **Every session's log is readable at the next start**, in a run that never appends behind a
part of a record: in every state, what is read is the lines of all the appends that were
completed. -/
theorem log_readable (hkey : cipher.Available) (htag : Tagged cipher) {ls : List Label}
    {s : State} (hrun : Run (step cipher) Careful .empty ls s) :
    readLines cipher s.file = s.completed.flatMap nonEmptyLines := by
  have hphase : Phase cipher s :=
    hrun.invariant (.fresh rfl rfl rfl) (fun t l t' ht hok hstep => ht.step hkey htag hok hstep)
  exact hphase.readLines_eq

/-- A cipher that leaves the text as it is and puts sixteen zeros behind it. -/
def zeroTag : Cipher where
  hasKey := true
  encrypt := fun _ plain => some (plain ++ List.replicate 16 0)
  decrypt := fun _ body =>
    if body.drop (body.length - 16) = List.replicate 16 0 then some (body.take (body.length - 16))
    else none

theorem zeroTag_available : zeroTag.Available := by
  intro iv plain hiv
  refine ⟨iv ++ (plain ++ List.replicate 16 0), rfl, ?_⟩
  have hlong : ¬ (iv ++ (plain ++ List.replicate 16 (0 : UInt8))).length ≤ ivLen := by
    simp only [length_append, length_replicate]
    omega
  unfold Cipher.openBlob
  rw [if_neg hlong, ← hiv, drop_left]
  simp [zeroTag]

theorem zeroTag_tagged : Tagged zeroTag := by
  intro iv plain body h
  cases h
  simp

theorem zeroTag_onlySealed : OnlySealed zeroTag := by
  intro blob plain h
  have hlong := length_of_openBlob h
  unfold Cipher.openBlob at h
  rw [if_neg (Nat.not_le.mpr hlong), if_pos (show zeroTag.hasKey = true from rfl)] at h
  simp only [zeroTag] at h
  split at h
  · next hzeros =>
      cases h
      refine ⟨blob.take ivLen, length_take_of_le (Nat.le_of_lt hlong), ?_⟩
      show some (blob.take ivLen ++ (_ ++ List.replicate 16 0)) = some blob
      rw [← hzeros, take_append_drop, take_append_drop]
  · cases h

/-- The vector of the runs below. -/
def noIv : Bytes := List.replicate ivLen 0

/-- A session that dies in its second append, and the next start. -/
theorem log_readable_cut :
    ∃ s, Run (step zeroTag) Careful .empty
        [.init, .append noIv ['a'], .crashIn noIv ['b'] 5] s ∧
      readLines zeroTag s.file = [['a']] := by
  refine Run.exists_and
    (.snoc (.snoc (.snoc .nil ⟨trivial, trivial⟩ rfl) ⟨⟨by decide, by decide⟩, by rfl⟩ rfl)
      ⟨⟨by decide, by decide⟩, by rfl⟩ rfl) fun hrun => ?_
  exact log_readable zeroTag_available zeroTag_tagged hrun

/-- The second session writes behind what the first one left: its record is not found. -/
theorem log_lost :
    zeroTag.Available ∧ OnlySealed zeroTag ∧
      ∃ s, Run (step zeroTag) (fun _ => Valid) .empty
          [.init, .crashIn noIv ['a'] 12, .init, .append noIv ['b'], .crash] s ∧
        s.completed.flatMap nonEmptyLines = [['b']] ∧ readLines zeroTag s.file = [] := by
  refine ⟨zeroTag_available, zeroTag_onlySealed, Run.exists_and
    (.snoc (.snoc (.snoc (.snoc (.snoc .nil trivial rfl) ⟨by decide, by decide⟩ rfl) trivial rfl)
      ⟨by decide, by decide⟩ rfl) trivial rfl) fun _ => ⟨?_, ?_⟩⟩
  · decide
  · decide

end Aether.DiagnosticsLog
