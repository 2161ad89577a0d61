/-
What becomes of one identity file.

Its content is in one of two places: in the file, or in a blob that opens to it.  `Phase` says
where it is at each moment between two operations.  There is one moment at which the file is
there and holds something else, after a shred has overwritten it, and there is the write that
restores it; a crash at these leaves a file that the next start takes for the identity, since
the sweep seals whatever it finds and a plaintext file wins over its blob.
-/
import Aether.Vault.Identity

namespace Aether.Vault

open List Machine

variable {cipher : Cipher} {n : Text} {c : Bytes} {s s' : State}

/-! ### Names -/

theorem eq_of_stripEnd {ending t mid : Text} (h : stripEnd ending t = some mid) :
    t = mid ++ ending := by
  unfold stripEnd at h
  obtain ⟨rest, hstrip, rfl⟩ := Option.map_eq_some_iff.mp h
  have hrev := Text.eq_of_strip hstrip
  rw [← reverse_reverse t, hrev]
  simp

variable {m k : Text} {iv b : Bytes} {noise : Nat → UInt8} {a : Action} {files : Files}
  {rest : List Action}

/-- A name of `IDENTITY` ends as `.toml` or `.corrupt` does. -/
theorem getLast_of_isIdentity (h : isIdentity m = true) :
    m.getLast? = some 'l' ∨ m.getLast? = some 't' := by
  unfold isIdentity at h
  split at h
  · cases h
  · next rest hrest =>
      rw [Text.eq_of_strip hrest]
      rw [Bool.or_eq_true, Option.any_eq_true, Option.any_eq_true] at h
      obtain ⟨mid, hmid, -⟩ | ⟨mid, hmid, -⟩ := h
      · left
        rw [eq_of_stripEnd hmid, ← append_assoc, List.getLast?_append]
        rfl
      · right
        rw [eq_of_stripEnd hmid, ← append_assoc, List.getLast?_append]
        rfl

/-- No blob has the name of an identity file. -/
theorem ne_sealedName (h : isIdentity m = true) (k : Text) : m ≠ sealedName k := by
  intro heq
  have hlast := getLast_of_isIdentity h
  have hd : (sealedName k).getLast? = some 'd' := by
    unfold sealedName
    rw [List.getLast?_append]
    rfl
  rw [heq, hd] at hlast
  revert hlast
  decide

theorem sealedName_injective (h : sealedName m = sealedName k) : m = k :=
  append_cancel_right h

/-! ### What an operation does to a file -/

@[simp] theorem Files.set_self (files : Files) (m : Text) (content : Option Bytes) :
    files.set m content m = content := by
  simp [Files.set]

theorem Files.set_other (files : Files) (content : Option Bytes) (h : k ≠ m) :
    files.set k content m = files m := by
  unfold Files.set
  exact if_neg (fun hmk => h hmk.symm)

/-- This touches neither the file nor its blob. -/
structure Apart (n : Text) (a : Action) : Prop where
  plain : a.name ≠ n
  blob : a.name ≠ sealedName n

theorem name_of_mem_shred {content : Bytes} (h : a ∈ shred m content noise) : a.name = m := by
  revert h
  fun_cases shred m content noise <;> intro h
  · simp only [mem_cons, not_mem_nil, or_false] at h
    obtain rfl | rfl := h <;> rfl
  · rw [mem_singleton.mp h]
    rfl

/-- `unsealInto` works on a file and its blob only. -/
theorem name_of_mem_unsealFile (h : a ∈ unsealFile cipher files noise m) :
    a.name = m ∨ a.name = sealedName m := by
  revert h
  fun_cases unsealFile cipher files noise m <;> intro h
  · cases h
  · cases h
  · exact Or.inr (name_of_mem_shred h)
  · rw [mem_singleton.mp h]
    exact Or.inl rfl

/-- So does `sealAndShred`. -/
theorem name_of_mem_sealFile (h : a ∈ sealFile cipher files iv noise m) :
    a.name = m ∨ a.name = sealedName m := by
  revert h
  fun_cases sealFile cipher files iv noise m <;> intro h
  · cases h
  · cases h
  · obtain rfl | hshred := mem_cons.mp h
    · exact Or.inr rfl
    · exact Or.inl (name_of_mem_shred hshred)

/-- A blob without its file is written back. -/
theorem unsealFile_of_blob (noise : Nat → UInt8) (hfile : files n = none)
    (hblob : files (sealedName n) = some b) (hopen : cipher.openBlob b = some c) :
    unsealFile cipher files noise n = [.write n c] := by
  simp [unsealFile, hfile, hblob, hopen]

/-- A file is written to its blob, then shredded. -/
theorem sealFile_of_file (noise : Nat → UInt8) (hfile : files n = some c)
    (hseal : cipher.sealBytes iv c = some b) :
    sealFile cipher files iv noise n = .write (sealedName n) b :: shred n c noise := by
  simp [sealFile, hfile, hseal]

/-- What is done for one identity file leaves the others alone. -/
theorem apart_of_name (hn : isIdentity n = true) (hm : isIdentity m = true) (hne : m ≠ n)
    (h : a.name = m ∨ a.name = sealedName m) : Apart n a := by
  obtain h | h := h
  · exact ⟨h ▸ hne, h ▸ ne_sealedName hm n⟩
  · exact ⟨h ▸ (ne_sealedName hn m).symm, h ▸ fun heq => hne (sealedName_injective heq)⟩

/-! ### Where the content is -/

/-- The blob is there and opens to the content. -/
def Kept (cipher : Cipher) (n : Text) (c : Bytes) (files : Files) : Prop :=
  ∃ blob, files (sealedName n) = some blob ∧ cipher.openBlob blob = some c

theorem Kept.set (h : Kept cipher n c files) (content : Option Bytes) (hm : m ≠ sealedName n) :
    Kept cipher n c (files.set m content) := by
  obtain ⟨blob, hblob, hopen⟩ := h
  refine ⟨blob, ?_, hopen⟩
  rw [Files.set_other files content hm]
  exact hblob

/-- The content is in the file, or there is no file and it is in the blob. -/
def Placed (cipher : Cipher) (n : Text) (c : Bytes) (files : Files) : Prop :=
  files n = some c ∨ files n = none ∧ Kept cipher n c files

theorem Placed.set (h : Placed cipher n c files) (content : Option Bytes) (hfile : m ≠ n)
    (hblob : m ≠ sealedName n) : Placed cipher n c (files.set m content) := by
  unfold Placed
  rw [Files.set_other files content hfile]
  exact h.imp_right fun ⟨hnone, hkept⟩ => ⟨hnone, hkept.set content hblob⟩

inductive Phase (cipher : Cipher) (n : Text) (c : Bytes) (s : State) : Prop
  /-- In its place; an `unsealInto` that is going on has not come to a blob without its file. -/
  | placed (hplace : Placed cipher n c s.files) (hpending : ∀ a ∈ s.pending, Apart n a)
      (hqueue : s.mode = .unsealing → s.files n = none → n ∈ s.queue)
  /-- In the blob, about to be written back. -/
  | restoring (hfile : s.files n = none) (hblob : Kept cipher n c s.files)
      (hmode : s.mode = .unsealing) (hpending : s.pending = [.write n c])
  /-- In the file, about to be sealed. -/
  | saving (hfile : s.files n = some c) (hmode : s.mode = .sealing) (b : Bytes)
      (noise : Nat → UInt8) (hopen : cipher.openBlob b = some c)
      (hpending : s.pending = .write (sealedName n) b :: shred n c noise)
  /-- In both, the shred to come. -/
  | saved (hfile : s.files n = some c) (hblob : Kept cipher n c s.files)
      (hmode : s.mode = .sealing) (noise : Nat → UInt8) (hpending : s.pending = shred n c noise)
  /-- In the blob, the file full of noise. -/
  | noise (hblob : Kept cipher n c s.files) (hmode : s.mode = .sealing)
      (hover : s.overwritten = some n) (hpending : s.pending = [.delete n])

/-- What holds of a state along a run: the names to come are identity files, and the content is
somewhere. -/
structure Holds (cipher : Cipher) (n : Text) (c : Bytes) (s : State) : Prop where
  listed : ∀ m ∈ s.queue, isIdentity m = true
  phase : Phase cipher n c s

theorem shred_ne_nil (m : Text) (content : Bytes) (noise : Nat → UInt8) :
    shred m content noise ≠ [] := by
  unfold shred
  split <;> simp

/-- With nothing left to do for a file, or between two calls, the content is in its place. -/
theorem Phase.settled (h : Phase cipher n c s) (hrest : s.pending = [] ∨ s.mode = .idle) :
    (∀ a ∈ s.pending, Apart n a) ∧ Placed cipher n c s.files ∧
      (s.mode = .unsealing → s.files n = none → n ∈ s.queue) := by
  cases h with
  | placed hplace hp hqueue => exact ⟨hp, hplace, hqueue⟩
  | restoring _ _ hm hp | saving _ hm _ _ _ hp => simp [hm, hp] at hrest
  | saved _ _ hm noise hp => simp [hm, hp, shred_ne_nil] at hrest
  | noise _ hm _ hp => simp [hm, hp] at hrest

/-! ### One step -/

/-- A call that begins: what is in the blob only is among the names `unsealInto` gets. -/
theorem Holds.start (h : Holds cipher n c s) {mode : Mode} {listing : List Text}
    (hlist : ∀ m ∈ listing, isIdentity m = true)
    (hfound : mode = .unsealing → Kept cipher n c s.files → n ∈ listing)
    (hstep : s.start mode listing = .ok s') : Holds cipher n c s' := by
  unfold State.start at hstep
  split at hstep
  · next hidle =>
      cases hstep
      obtain ⟨hpending, hplace, -⟩ := h.phase.settled (.inr hidle)
      refine ⟨hlist, .placed hplace hpending fun hmode hnone => hfound hmode ?_⟩
      obtain hfile | ⟨-, hblob⟩ := hplace
      · cases hfile.symm.trans hnone
      · exact hblob
  · cases hstep

/-- The next file of an `unsealInto`. -/
theorem Phase.next_unsealing (hn : isIdentity n = true) (h : Phase cipher n c s)
    {queue : List Text} (noise : Nat → UInt8) (hm : isIdentity m = true)
    (hpending : s.pending = []) (hqueue : s.queue = m :: queue) (hmode : s.mode = .unsealing) :
    Phase cipher n c { s with queue, pending := unsealFile cipher s.files noise m } := by
  obtain ⟨-, hplace, hin⟩ := h.settled (.inl hpending)
  by_cases hmn : m = n
  · subst hmn
    obtain hfile | ⟨hfile, b, hb, hopen⟩ := hplace
    · refine .placed (.inl hfile) ?_ fun _ hnone => ?_
      · simp [unsealFile, hfile]
      · cases hfile.symm.trans hnone
    · exact .restoring hfile ⟨b, hb, hopen⟩ hmode (unsealFile_of_blob noise hfile hb hopen)
  · refine .placed hplace
      (fun a ha => apart_of_name hn hm hmn (name_of_mem_unsealFile ha)) fun _ hnone => ?_
    have hmem := hin hmode hnone
    rw [hqueue] at hmem
    exact (mem_cons.mp hmem).resolve_left (Ne.symm hmn)

/-- The next file of a `sealAndShred`. -/
theorem Phase.next_sealing (hkey : cipher.Available) (hn : isIdentity n = true)
    (h : Phase cipher n c s) (queue : List Text) (noise : Nat → UInt8) (hiv : iv.length = ivLen)
    (hm : isIdentity m = true) (hpending : s.pending = []) (hmode : s.mode = .sealing) :
    Phase cipher n c { s with queue, pending := sealFile cipher s.files iv noise m } := by
  -- no `unsealInto` is going on
  have hnot : s.mode ≠ .unsealing := by
    rw [hmode]
    decide
  obtain ⟨-, hplace, -⟩ := h.settled (.inl hpending)
  by_cases hmn : m = n
  · subst hmn
    obtain hfile | hblob := hplace
    · obtain ⟨b, hseal, hopen⟩ := hkey iv c hiv
      exact .saving hfile hmode b noise hopen (sealFile_of_file noise hfile hseal)
    · refine .placed (.inr hblob) ?_ fun hun => absurd hun hnot
      simp [sealFile, hblob.1]
  · exact .placed hplace (fun a ha => apart_of_name hn hm hmn (name_of_mem_sealFile ha))
      fun hun => absurd hun hnot

/-- The last operation of a shred. -/
theorem Phase.deleted (hn : isIdentity n = true) (hblob : Kept cipher n c s.files)
    (hmode : s.mode = .sealing) : Phase cipher n c (s.apply (.delete n) []) := by
  refine .placed (.inr ⟨Files.set_self s.files n none, hblob.set none (ne_sealedName hn n)⟩) ?_ ?_
  · simp [State.apply]
  · intro hun
    exact absurd (hmode.symm.trans hun) (by decide)

/-- One operation on the files. -/
theorem Phase.apply (hn : isIdentity n = true) (h : Phase cipher n c s)
    (hhead : s.pending = a :: rest) : Phase cipher n c (s.apply a rest) := by
  have hsealed : sealedName n ≠ n := (ne_sealedName hn n).symm
  cases h with
  | placed hplace hpending hqueue =>
    rw [hhead] at hpending
    have hapart := hpending a (by simp)
    refine .placed (hplace.set a.data? hapart.plain hapart.blob)
      (fun b hb => hpending b (mem_cons_of_mem a hb)) fun hun hnone => hqueue hun ?_
    exact (Files.set_other s.files a.data? hapart.plain).symm.trans hnone
  | restoring hfile hblob hmode hpending =>
    rw [hhead] at hpending
    cases hpending
    have hback := Files.set_self s.files n (some c)
    refine .placed (.inl hback) ?_ fun _ hnone => ?_
    · simp [State.apply]
    · cases hback.symm.trans hnone
  | saving hfile hmode b noise hopen hpending =>
    rw [hhead] at hpending
    cases hpending
    refine .saved ?_ ⟨b, Files.set_self s.files (sealedName n) (some b), hopen⟩ hmode noise rfl
    exact (Files.set_other s.files (some b) hsealed).trans hfile
  | saved hfile hblob hmode noise hpending =>
    rw [hhead] at hpending
    unfold shred at hpending
    split at hpending
    · -- the overwriting
      cases hpending
      exact .noise (hblob.set _ hsealed.symm) hmode rfl rfl
    · -- a file too long or empty is deleted as it is
      cases hpending
      exact .deleted hn hblob hmode
  | noise hblob hmode hover hpending =>
    rw [hhead] at hpending
    cases hpending
    exact .deleted hn hblob hmode

/-- A restart with the content in its place. -/
theorem Holds.restart (h : Placed cipher n c files) : Holds cipher n c (State.restart files) := by
  refine ⟨by simp [State.restart], .placed h (by simp [State.restart]) ?_⟩
  intro hmode
  cases hmode

/-- A crash between two operations, unless the file is full of noise. -/
theorem Phase.crash (h : Phase cipher n c s) (hover : s.overwritten ≠ some n) :
    Holds cipher n c (State.restart s.files) := by
  cases h with
  | placed hplace _ _ => exact .restart hplace
  | restoring hfile hblob _ _ => exact .restart (Or.inr ⟨hfile, hblob⟩)
  | saving hfile _ _ _ _ _ | saved hfile _ _ _ _ => exact .restart (Or.inl hfile)
  | noise _ _ hnoise _ => exact absurd hnoise hover

/-- A crash in a write, unless it is one to the file of which not all was done. -/
theorem Phase.crash_write (hn : isIdentity n = true) (h : Phase cipher n c s) {data : Bytes}
    {k : Nat} (hhead : s.pending = a :: rest) (hdata : a.data? = some data)
    (hwhole : a.name = n → a.Whole k) :
    Holds cipher n c (State.restart (s.files.set a.name (some (data.take k)))) := by
  have hsealed : sealedName n ≠ n := (ne_sealedName hn n).symm
  cases h with
  | placed hplace hpending _ =>
    have hapart := hpending a (by simp [hhead])
    exact .restart (hplace.set _ hapart.plain hapart.blob)
  | restoring hfile hblob _ hpending =>
    rw [hhead] at hpending
    cases hpending
    cases hdata
    have hlen : c.length ≤ k := hwhole rfl
    refine .restart (Or.inl ?_)
    rw [take_of_length_le hlen]
    exact Files.set_self s.files n (some c)
  | saving hfile _ b _ _ hpending =>
    -- the blob is torn, the file is not touched
    rw [hhead] at hpending
    cases hpending
    exact .restart (Or.inl ((Files.set_other s.files _ hsealed).trans hfile))
  | saved _ _ _ noise hpending =>
    rw [hhead] at hpending
    unfold shred at hpending
    split at hpending
    · cases hpending
      exact absurd (hwhole rfl) id
    · cases hpending
      cases hdata
  | noise _ _ _ hpending =>
    rw [hhead] at hpending
    cases hpending
    cases hdata

/-- What every step of a run meets: the environment is true, the engine does not replace the
file, and no crash tears it. -/
def Careful (n : Text) (s : State) (l : Label) : Prop := Valid s l ∧ Leaves n l ∧ Spared n s l

/-- **A step that tears nothing keeps the content.** -/
theorem Holds.step (hkey : cipher.Available) (hn : isIdentity n = true)
    (h : Holds cipher n c s) {l : Label} (hok : Careful n s l)
    (hstep : step cipher s l = .ok s') : Holds cipher n c s' := by
  obtain ⟨hvalid, hleaves, hspared⟩ := hok
  revert hstep
  fun_cases Vault.step cipher s l <;> intro hstep
  case case1 listing =>
    refine h.start (fun m hm => ((hvalid m).mp hm).1) ?_ hstep
    rintro - ⟨b, hb, -⟩
    exact (hvalid n).mpr ⟨hn, by rw [hb]; rfl⟩
  case case2 listing =>
    exact h.start (fun m hm => ((hvalid m).mp hm).1) (fun hmode => by cases hmode) hstep
  case case4 listing _ =>
    exact h.start (fun m hm => ((hvalid m).mp hm).1) (fun hmode => by cases hmode) hstep
  all_goals cases hstep
  · -- the sweep finds the engine running
    exact h
  next iv noise m queue hmode hqueue hpending =>
    have hlisted := h.listed
    rw [hqueue] at hlisted
    exact ⟨fun k hk => hlisted k (by simp [hk]),
      h.phase.next_unsealing hn noise (hlisted m (by simp)) hpending hqueue hmode⟩
  next iv noise m queue hmode hqueue hpending =>
    have hlisted := h.listed
    rw [hqueue] at hlisted
    exact ⟨fun k hk => hlisted k (by simp [hk]),
      h.phase.next_sealing hkey hn queue noise hvalid (hlisted m (by simp)) hpending hmode⟩
  next a rest hhead => exact ⟨h.listed, h.phase.apply hn hhead⟩
  next hdone =>
    obtain ⟨hnone, hplace, -⟩ := h.phase.settled (.inl hdone.2)
    exact ⟨h.listed, .placed hplace hnone fun hmode => by cases hmode⟩
  · exact h.phase.crash hspared.1
  next k a rest hhead data hdata =>
    exact h.phase.crash_write hn hhead hdata (hspared.2 k rfl a (by simp [hhead]))
  next alive =>
    refine ⟨h.listed, ?_⟩
    cases h.phase with
    | placed hplace hp hq => exact .placed hplace hp hq
    | restoring hfile hb hm hp => exact .restoring hfile hb hm hp
    | saving hfile hm b noise ho hp => exact .saving hfile hm b noise ho hp
    | saved hfile hb hm noise hp => exact .saved hfile hb hm noise hp
    | noise hb hm ho hp => exact .noise hb hm ho hp
  next name content hidle =>
    obtain ⟨hpending, hplace, -⟩ := h.phase.settled (.inr hidle)
    refine ⟨h.listed, .placed (hplace.set content hleaves (hvalid n)) hpending ?_⟩
    intro hun
    exact absurd (hidle.symm.trans hun) (by decide)

/-! ### A session with one file

The runs below are of a directory with one identity file and its blob. -/

def only (n : Text) (file blob : Option Bytes) : Files :=
  Files.set (Files.set (fun _ => none) (sealedName n) blob) n file

/-- There are no other files. -/
def Alone (n : Text) (files : Files) : Prop := ∀ m, m ≠ n → m ≠ sealedName n → files m = none

/-- The listing of `sealAndShred`. -/
theorem Alone.listed_file (h : Alone n files) (hn : isIdentity n = true)
    (hfile : (files n).isSome = true) (m : Text) :
    m ∈ [n] ↔ isIdentity m = true ∧ (files m).isSome = true := by
  rw [mem_singleton]
  constructor
  · rintro rfl
    exact ⟨hn, hfile⟩
  · rintro ⟨hm, hsome⟩
    by_contra hne
    rw [h m hne (ne_sealedName hm n)] at hsome
    cases hsome

/-- The listing of `unsealInto`. -/
theorem Alone.listed_blob (h : Alone n files) (hn : isIdentity n = true)
    (hblob : (files (sealedName n)).isSome = true) (m : Text) :
    m ∈ [n] ↔ isIdentity m = true ∧ (files (sealedName m)).isSome = true := by
  rw [mem_singleton]
  constructor
  · rintro rfl
    exact ⟨hn, hblob⟩
  · rintro ⟨hm, hsome⟩
    by_contra hne
    rw [h _ (ne_sealedName hn m).symm fun heq => hne (sealedName_injective heq)] at hsome
    cases hsome

/-- The vector of the runs below. -/
def zeroIv : Bytes := List.replicate ivLen 0

/-- The sweep of a start up to the first operation. -/
theorem Alone.sweep_begins (h : Alone n files) (cipher : Cipher) (hn : isIdentity n = true)
    (hfile : (files n).isSome = true) :
    Run (step cipher) (Careful n) (State.restart files)
      [.sealIfIdle [n], .next zeroIv fun _ => 7]
      { State.restart files with
        mode := .sealing, pending := sealFile cipher files zeroIv (fun _ => 7) n } :=
  (Run.nil.snoc ⟨h.listed_file hn hfile, trivial, trivial⟩ rfl).snoc ⟨rfl, trivial, trivial⟩ rfl

/-! ### Whole runs -/

/-- **The identity survives every crash that does not tear it.**  A complete content that the
engine does not replace is what the file holds after every `unsealInto` that runs to its end. -/
theorem identity_survives (hkey : cipher.Available) (hn : isIdentity n = true) {s₀ : State}
    (hrest : s₀.AtRest) (hfile : s₀.files n = some c) {ls : List Label}
    (hrun : Run (step cipher) (Careful n) s₀ ls s) (hdone : s.Unsealed) :
    s.files n = some c := by
  obtain ⟨hidle, hqueue, hpending⟩ := hrest
  have hinit : Holds cipher n c s₀ := by
    refine ⟨?_, .placed (.inl hfile) ?_ ?_⟩
    · simp [hqueue]
    · simp [hpending]
    · simp [hidle]
  have hend : Holds cipher n c s :=
    hrun.invariant hinit (fun t l t' ht hok hstep => ht.step hkey hn hok hstep)
  obtain ⟨-, hplace, hin⟩ := hend.phase.settled (.inl hdone.2.2)
  refine hplace.resolve_right fun hblob => ?_
  -- the blob would still be in the listing, of which nothing is left
  have hmem := hin hdone.1 hblob.1
  rw [hdone.2.1] at hmem
  simp at hmem

/-- A cipher that adds one byte, as the tag of a real one does. -/
def openCipher : Cipher where
  hasKey := true
  encrypt := fun _ plain => some (plain ++ [0])
  decrypt := fun _ body => some body.dropLast

theorem openCipher_openBlob (hiv : iv.length = ivLen) (plain : Bytes) :
    openCipher.openBlob (iv ++ (plain ++ [0])) = some plain := by
  have hlong : ¬ (iv ++ (plain ++ [0])).length ≤ ivLen := by
    simp only [length_append, length_singleton]
    omega
  unfold Cipher.openBlob
  rw [if_neg hlong, ← hiv, drop_left]
  simp [openCipher]

theorem openCipher_available : openCipher.Available := by
  intro iv plain hiv
  exact ⟨_, rfl, openCipher_openBlob hiv plain⟩

def identityFile : Text := "aether.toml".toList

/-- A crash in the write of the blob, then a start, a sweep and an `unsealInto`. -/
theorem identity_survives_torn_blob :
    ∃ ls s, Run (step openCipher) (Careful identityFile)
        (State.restart (only identityFile (some [1, 2]) none)) ls s ∧
      Label.crash (some 3) ∈ ls ∧ s.Unsealed ∧ s.files identityFile = some [1, 2] := by
  have hn : isIdentity identityFile = true := by decide
  have hperform : ∀ s, Careful identityFile s .perform := fun _ => ⟨trivial, trivial, trivial⟩
  have hfiles : Alone identityFile (only identityFile (some [1, 2]) none) := fun m hm hb => by
    simp [only, Files.set, hm, hb]
  have hcrash := (hfiles.sweep_begins openCipher hn rfl).snoc
    (show Careful _ _ (.crash (some 3)) from ⟨trivial, trivial, nofun, fun k _ a ha hname => by
      cases ha
      exact absurd hname (by decide)⟩) rfl
  have htorn : Alone identityFile ((only identityFile (some [1, 2]) none).set
      (sealedName identityFile) (some [0, 0, 0])) := fun m hm hb => by
    simp [only, Files.set, hm, hb]
  have hswept := ((((hcrash.append (htorn.sweep_begins openCipher hn rfl)).snoc
    (hperform _) rfl).snoc (hperform _) rfl).snoc (hperform _) rfl).snoc
    (show Careful _ _ .finish from ⟨trivial, trivial, trivial⟩) rfl
  have hrun := ((hswept.snoc (show Careful _ _ (.unsealInto [identityFile]) from
    ⟨Alone.listed_blob (fun m hm hb => by
      simp [State.restart, State.apply, Action.name, only, Files.set, hm, hb]) hn rfl, trivial,
      trivial⟩) rfl).snoc (show Careful _ _ (.next zeroIv fun _ => 7) from
    ⟨rfl, trivial, trivial⟩) rfl).snoc (hperform _) rfl
  exact ⟨_, _, hrun, by simp, ⟨rfl, rfl, rfl⟩,
    identity_survives openCipher_available hn ⟨rfl, rfl, rfl⟩ rfl hrun ⟨rfl, rfl, rfl⟩⟩

/-- The process dies after the shred has overwritten the file.  The sweep of the next start
seals the noise over the good blob, and that is what `unsealInto` gives the engine. -/
theorem identity_lost :
    openCipher.Available ∧ isIdentity identityFile = true ∧
      ∃ ls s, Run (step openCipher) (fun s l => Valid s l ∧ Leaves identityFile l)
          (State.restart (only identityFile (some [1, 2]) none)) ls s ∧
        s.Unsealed ∧ s.files identityFile = some [7, 7] := by
  have hn : isIdentity identityFile = true := by decide
  have hperform : ∀ s, Careful identityFile s .perform := fun _ => ⟨trivial, trivial, trivial⟩
  have hweak : ∀ t l, Careful identityFile t l → Valid t l ∧ Leaves identityFile l :=
    fun t l h => ⟨h.1, h.2.1⟩
  have hfiles : Alone identityFile (only identityFile (some [1, 2]) none) := fun m hm hb => by
    simp [only, Files.set, hm, hb]
  have hover :=
    ((hfiles.sweep_begins openCipher hn rfl).snoc (hperform _) rfl).snoc (hperform _) rfl
  have hcrash := (hover.weaken hweak).snoc
    (show Valid _ (.crash none) ∧ Leaves _ _ from ⟨trivial, trivial⟩) rfl
  have hnoise : Alone identityFile (((only identityFile (some [1, 2]) none).set
      (sealedName identityFile) (some (zeroIv ++ [1, 2, 0]))).set identityFile (some [7, 7])) :=
    fun m hm hb => by simp [only, Files.set, hm, hb]
  have hswept := ((((hnoise.sweep_begins openCipher hn rfl).snoc (hperform _) rfl).snoc
    (hperform _) rfl).snoc (hperform _) rfl).snoc
    (show Careful _ _ .finish from ⟨trivial, trivial, trivial⟩) rfl
  have hrun := ((hswept.snoc (show Careful _ _ (.unsealInto [identityFile]) from
    ⟨Alone.listed_blob (fun m hm hb => by
      simp [State.restart, State.apply, Action.name, only, Files.set, hm, hb]) hn rfl, trivial,
      trivial⟩) rfl).snoc (show Careful _ _ (.next zeroIv fun _ => 7) from
    ⟨rfl, trivial, trivial⟩) rfl).snoc (hperform _) rfl
  exact ⟨openCipher_available, hn, _, _, hcrash.append (hrun.weaken hweak), ⟨rfl, rfl, rfl⟩, rfl⟩

end Aether.Vault
