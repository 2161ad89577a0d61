/-
What the engine leaves for the vault to find.

Every identity is saved under a name of `IDENTITY`, and so is what `load` moves away.  The temporary
file of `write_private` is not: its name begins with a dot.  So a sweep takes the keys out of
everything but the temporary files, and one of these has a key in it exactly if the last attempt
that came to it was stopped between its write and its rename.
-/
import Aether.Vault.Config
import Aether.Proofs.Vault.Identity

namespace Aether.Vault

open List

variable {lower : Text → Text} {keys : Bytes → Prop} {cipher : Cipher}

/-! ### Names -/

theorem stripEnd_append (t ending : Text) : stripEnd ending (t ++ ending) = some t := by
  unfold stripEnd
  rw [reverse_append, Text.strip_append, Option.map_some, reverse_reverse]

variable {n path mid : Text} {op : FileOp} {contents : Bytes} {files : Files}

theorem isIdentity_toml (h : mid.all isNameChar = true) :
    isIdentity ("aether".toList ++ (mid ++ ".toml".toList)) = true := by
  unfold isIdentity
  rw [Text.strip_append]
  dsimp only
  rw [stripEnd_append, Option.any_some, h]
  rfl

theorem isIdentity_corrupt (h : mid.all isNameChar = true) :
    isIdentity ("aether".toList ++ (mid ++ ".toml".toList) ++ ".corrupt".toList) = true := by
  have happend : "aether".toList ++ (mid ++ ".toml".toList) ++ ".corrupt".toList =
      "aether".toList ++ (mid ++ ".toml.corrupt".toList) := by
    rw [append_assoc, append_assoc]
    rfl
  rw [happend]
  unfold isIdentity
  rw [Text.strip_append]
  dsimp only
  rw [stripEnd_append, Option.any_some, h, Bool.or_true]

theorem normalizeTeam_chars {raw team : Text} (h : normalizeTeam lower raw = some team) :
    team.all isNameChar = true := by
  revert h
  fun_cases normalizeTeam lower raw <;> intro h
  · cases h
  · cases h
  · cases h
  next hall =>
    obtain rfl := Option.some.inj h
    rw [Bool.not_eq_true, Bool.not_eq_false', all_eq_true] at hall
    rw [all_eq_true]
    intro c hc
    have hchar := hall c hc
    unfold isNameChar
    rw [Bool.or_eq_true, Bool.or_eq_true] at hchar
    obtain (halnum | hdash) | hunder := hchar
    · rw [halnum]
      rfl
    · rw [hdash, Bool.or_true]
    · rw [hunder, Bool.or_true, Bool.true_or]

theorem isNameChar_ne_slash {c : Char} (h : isNameChar c = true) : c ≠ '/' ∧ c ≠ '\\' := by
  constructor
  · rintro rfl
    exact absurd h (by decide)
  · rintro rfl
    exact absurd h (by decide)

theorem deriveSiblingPath_toml {stem : Text} (h : ∀ c ∈ stem, c ≠ '/' ∧ c ≠ '\\') (suffix : Text) :
    deriveSiblingPath (stem ++ ".toml".toList) suffix =
      stem ++ '-' :: suffix ++ ".toml".toList := by
  have hlast : lastPart (stem ++ ".toml".toList) = stem ++ ".toml".toList := by
    unfold lastPart
    rw [← append_nil (stem ++ ".toml".toList).reverse, takeWhile_append_of_pos,
      takeWhile_nil, append_nil, reverse_reverse]
    intro c hc
    rw [mem_reverse, mem_append] at hc
    obtain hc | hc := hc
    · simp [h c hc]
    · have hall : (".toml".toList.all fun c => c != '/' && c != '\\') = true := by decide
      exact all_eq_true.mp hall c hc
  have hsplit : Text.rsplitOnce '.' (stem ++ ".toml".toList) = some (stem, "toml".toList) :=
    Text.rsplitOnce_of_notMem (by decide)
  unfold deriveSiblingPath
  rw [hlast, hsplit, Nat.sub_self]
  rfl

variable (lower) in
/-- Every identity has a name of `IDENTITY`. -/
theorem path_shape (i : Identity) :
    ∃ mid, mid.all isNameChar = true ∧
      i.path lower = "aether".toList ++ (mid ++ ".toml".toList) := by
  have hsibling : ∀ mid suffix : Text, mid.all isNameChar = true → suffix.all isNameChar = true →
      (mid ++ '-' :: suffix).all isNameChar = true ∧
      deriveSiblingPath ("aether".toList ++ (mid ++ ".toml".toList)) suffix =
        "aether".toList ++ (mid ++ '-' :: suffix ++ ".toml".toList) := by
    intro mid suffix hmid hsuffix
    refine ⟨by simp [all_append, hmid, hsuffix, isNameChar], ?_⟩
    rw [← append_assoc, deriveSiblingPath_toml]
    · simp
    · intro c hc
      obtain hc | hc := mem_append.mp hc
      · have hall : ("aether".toList.all isNameChar) = true := by decide
        exact isNameChar_ne_slash (all_eq_true.mp hall c hc)
      · exact isNameChar_ne_slash (all_eq_true.mp hmid c hc)
  have hteam : ∀ team : Text, normalizeTeam lower i.team = some team →
      ("team-".toList ++ team).all isNameChar = true := by
    intro team h
    rw [all_append, normalizeTeam_chars h]
    decide
  have hprimary : ∃ mid, mid.all isNameChar = true ∧
      (if i.masque then masqueConfigPath lower defaultConfig i.team
        else warpConfigPath lower defaultConfig i.team) =
        "aether".toList ++ (mid ++ ".toml".toList) := by
    unfold masqueConfigPath warpConfigPath
    cases hname : normalizeTeam lower i.team with
    | some team =>
      obtain ⟨hall, heq⟩ := hsibling [] ("team-".toList ++ team) rfl (hteam team hname)
      refine ⟨_, hall, ?_⟩
      rw [ite_self]
      exact heq
    | none =>
      cases i.masque with
      | false => exact ⟨[], rfl, rfl⟩
      | true =>
        obtain ⟨hall, heq⟩ := hsibling [] "masque".toList rfl (by decide)
        exact ⟨_, hall, heq⟩
  obtain ⟨mid, hmid, heq⟩ := hprimary
  unfold Identity.path
  rw [heq]
  split
  · obtain ⟨hall, heq⟩ := hsibling mid "secondary".toList hmid (by decide)
    exact ⟨_, hall, heq⟩
  · exact ⟨mid, hmid, rfl⟩

theorem isIdentity_path (i : Identity) : isIdentity (i.path lower) = true := by
  obtain ⟨mid, hmid, heq⟩ := path_shape lower i
  rw [heq]
  exact isIdentity_toml hmid

theorem isIdentity_quarantinePath (i : Identity) :
    isIdentity (quarantinePath (i.path lower)) = true := by
  obtain ⟨mid, hmid, heq⟩ := path_shape lower i
  rw [heq]
  exact isIdentity_corrupt hmid

/-- A temporary file is no identity file. -/
theorem isIdentity_temporary (path : Text) (pid : Nat) :
    isIdentity (temporary path pid) = false := by
  have hstrip : Text.strip "aether".toList (temporary path pid) = none :=
    Text.strip_eq_none fun rest heq => by cases heq
  unfold isIdentity
  rw [hstrip]

/-- Nor is it the blob of one. -/
theorem temporary_ne_sealedName (path : Text) (pid : Nat) {m : Text} (h : isIdentity m = true) :
    temporary path pid ≠ sealedName m := by
  intro heq
  unfold isIdentity at h
  split at h
  · cases h
  · next rest hrest =>
      rw [Text.eq_of_strip hrest] at heq
      cases heq

/-! ### What an attempt does -/

/-- The names an operation changes. -/
def FileOp.names : FileOp → List Text
  | .create name | .write name _ | .remove name => [name]
  | .sync _ | .setPermissions _ => []
  | .rename source target => [source, target]

theorem apply_other (files : Files) (h : n ∉ op.names) : op.apply files n = files n := by
  cases op with
  | create name | write name data =>
    exact Files.set_other _ _ fun heq => h (by simp [FileOp.names, heq])
  | sync name => rfl
  | setPermissions name => rfl
  | rename source target =>
    have hsource : source ≠ n := fun heq => h (by simp [FileOp.names, heq])
    have htarget : target ≠ n := fun heq => h (by simp [FileOp.names, heq])
    cases hcontent : files source with
    | none => simp only [FileOp.apply, hcontent]
    | some content =>
      simp only [FileOp.apply, hcontent]
      rw [Files.set_other _ _ hsource, Files.set_other _ _ htarget]
  | remove name => exact Files.set_other _ _ fun heq => h (by simp [FileOp.names, heq])

theorem foldl_apply_other {ops : List FileOp} (h : ∀ op ∈ ops, n ∉ op.names) (files : Files) :
    ops.foldl FileOp.apply files n = files n := by
  induction ops generalizing files with
  | nil => rfl
  | cons op ops ih =>
    rw [foldl_cons, ih (fun op' hop => h op' (mem_cons_of_mem op hop)),
      apply_other files (h op mem_cons_self)]

theorem names_writePrivate {pid : Nat} (h : op ∈ writePrivate path pid contents) :
    op.names ⊆ [temporary path pid, path] := by
  simp only [writePrivate, mem_cons, not_mem_nil, or_false] at h
  obtain rfl | rfl | rfl | rfl | rfl := h
  · simp [FileOp.names]
  · simp [FileOp.names]
  · simp [FileOp.names]
  · simp [FileOp.names]
  · simp [FileOp.names]

theorem names_failing {op' : FileOp} {written : Nat} (h : op' ∈ op.failing written) :
    op'.names = op.names := by
  cases op with
  | write name data =>
    obtain rfl := mem_singleton.mp h
    rfl
  | create | sync | setPermissions | rename | remove => cases h

theorem names_attempt {pid : Nat} {fate : Fate} (h : op ∈ attempt path pid contents fate) :
    op.names ⊆ [temporary path pid, path] := by
  cases fate with
  | completed => exact names_writePrivate h
  | killed done => exact names_writePrivate (mem_of_mem_take h)
  | failed done written removed =>
    simp only [attempt, mem_append, mem_flatMap, Option.mem_toList] at h
    obtain (htaken | ⟨op', hop', hfailing⟩) | hremoved := h
    · exact names_writePrivate (mem_of_mem_take htaken)
    · rw [names_failing hfailing]
      exact names_writePrivate (mem_of_getElem? hop')
    · split at hremoved
      · obtain rfl := mem_singleton.mp hremoved
        simp [FileOp.names]
      · cases hremoved

/-- **What an attempt leaves in its temporary file.** -/
theorem attempt_exposes {path : Text} {pid : Nat} (hnil : ¬ Exposes keys []) (files : Files)
    (fate : Fate) :
    (∃ c, (attempt path pid contents fate).foldl FileOp.apply files (temporary path pid) = some c ∧
        Exposes keys c) ↔
      fate.Strands keys contents ∨
        ¬ fate.Touches ∧ ∃ c, files (temporary path pid) = some c ∧ Exposes keys c := by
  -- the operations are run, wherever the attempt ends
  cases fate with
  | completed => simp [attempt, writePrivate, FileOp.apply, Fate.Strands, Fate.Touches]
  | killed done =>
    match done with
    | ⟨0, _⟩ | ⟨1, _⟩ | ⟨2, _⟩ | ⟨3, _⟩ | ⟨4, _⟩ =>
      simp [attempt, writePrivate, FileOp.apply, Fate.Strands, Fate.Touches, hnil]
  | failed done written removed =>
    cases removed with
    | true => simp [attempt, foldl_append, FileOp.apply, Fate.Strands, Fate.Touches]
    | false =>
      match done with
      | ⟨0, _⟩ | ⟨1, _⟩ | ⟨2, _⟩ | ⟨3, _⟩ | ⟨4, _⟩ =>
        simp [-Fin.reduceFinMk, attempt, writePrivate, FileOp.failing, FileOp.apply, Fate.Strands,
          Fate.Touches]

/-! ### Histories -/

/-- What one call leaves in a file that is no identity file. -/
theorem event_exposes (hnil : ¬ Exposes keys []) (files : Files) (e : Event)
    (hn : isIdentity n = false) :
    (∃ c, (e.ops lower).foldl FileOp.apply files n = some c ∧ Exposes keys c) ↔
      e.Strands lower keys n ∨
        ¬ e.Touches lower n ∧ ∃ c, files n = some c ∧ Exposes keys c := by
  have hpath : ∀ {m : Text}, isIdentity m = true → n ≠ m := by
    rintro m hm rfl
    rw [hn] at hm
    cases hm
  cases e with
  | load i damaged moved =>
    have hother :
        ((Event.load i damaged moved).ops lower).foldl FileOp.apply files n = files n := by
      refine foldl_apply_other (fun op hop hmem => ?_) files
      simp only [Event.ops] at hop
      split at hop
      · obtain rfl := mem_singleton.mp hop
        simp only [FileOp.names, mem_cons, not_mem_nil, or_false] at hmem
        exact hmem.elim (hpath (isIdentity_path i)) (hpath (isIdentity_quarantinePath i))
      · cases hop
    rw [hother]
    simp [Event.Strands, Event.Touches]
  | save i pid contents fate =>
    by_cases htemp : temporary (i.path lower) pid = n
    · subst htemp
      refine (attempt_exposes hnil files fate).trans ?_
      simp [Event.Strands, Event.Touches]
    · have hother : ((Event.save i pid contents fate).ops lower).foldl FileOp.apply files n =
          files n := by
        refine foldl_apply_other (fun op hop hmem => ?_) files
        have hnames := names_attempt hop hmem
        simp only [mem_cons, not_mem_nil, or_false] at hnames
        exact hnames.elim (fun heq => htemp heq.symm) (hpath (isIdentity_path i))
      rw [hother]
      simp [Event.Strands, Event.Touches, htemp]

theorem after_concat (files : Files) (history : List Event) (e : Event) :
    after lower files (history ++ [e]) =
      (e.ops lower).foldl FileOp.apply (after lower files history) := by
  unfold after
  rw [flatMap_append, foldl_append, flatMap_singleton]

theorem leftover_concat {history : List Event} {e : Event} :
    Leftover lower keys (history ++ [e]) n ↔
      e.Strands lower keys n ∨ ¬ e.Touches lower n ∧ Leftover lower keys history n := by
  constructor
  · rintro ⟨front, e', rest, heq, hstrands, hlater⟩
    obtain rfl | ⟨rest, last, rfl⟩ := eq_nil_or_concat' rest
    · obtain ⟨-, hlast⟩ := append_inj' heq rfl
      cases hlast
      exact .inl hstrands
    · rw [← cons_append, ← append_assoc] at heq
      obtain ⟨rfl, hlast⟩ := append_inj' heq rfl
      cases hlast
      exact .inr ⟨hlater e (by simp), front, e', rest, rfl, hstrands,
        fun later hmem => hlater later (mem_append_left _ hmem)⟩
  · rintro (hstrands | ⟨htouches, front, e', rest, rfl, hstrands, hlater⟩)
    · exact ⟨history, e, [], rfl, hstrands, by simp⟩
    · refine ⟨front, e', rest ++ [e], by simp, hstrands, fun later hmem => ?_⟩
      obtain hmem | hmem := mem_append.mp hmem
      · exact hlater later hmem
      · rw [mem_singleton.mp hmem]
        exact htouches

/-- **Beside the identity files, a file shows a key exactly if it is left over.** -/
theorem exposes_after_iff (hnil : ¬ Exposes keys []) (htidy : Tidy keys files)
    (history : List Event) (hn : isIdentity n = false) :
    (∃ c, after lower files history n = some c ∧ Exposes keys c) ↔
      Leftover lower keys history n := by
  induction history using List.reverseRecOn with
  | nil =>
    constructor
    · rintro ⟨c, hc, hexposes⟩
      have hidentity := htidy.hidden n c hc hexposes
      rw [hn] at hidentity
      cases hidentity
    · rintro ⟨front, e, rest, heq, -⟩
      exact absurd heq (by simp)
  | append_singleton history e ih =>
    rw [after_concat, event_exposes hnil _ e hn, ih, leftover_concat]

theorem exists_names_after (h : Tidy keys files) (history : List Event) :
    ∃ names : List Text, ∀ m, (after lower files history m).isSome = true → m ∈ names := by
  obtain ⟨names, hnames⟩ := h.finite
  refine ⟨names ++ (history.flatMap (Event.ops lower)).flatMap FileOp.names, fun m hm => ?_⟩
  by_cases hop : m ∈ (history.flatMap (Event.ops lower)).flatMap FileOp.names
  · exact mem_append_right _ hop
  · have hother : after lower files history m = files m :=
      foldl_apply_other (fun op hmem hname => hop (mem_flatMap.mpr ⟨op, hmem, hname⟩)) files
    rw [hother] at hm
    exact mem_append_left _ (hnames m hm)

/-- There is a listing of the identity files. -/
theorem exists_lists {names : List Text} (h : ∀ m, (files m).isSome = true → m ∈ names) :
    ∃ visits, Lists files visits := by
  refine ⟨(names.filter fun m => isIdentity m && (files m).isSome).map
    fun m => ⟨m, List.replicate ivLen 0, fun _ => 0⟩, fun v hv => ?_, fun m => ?_⟩
  · obtain ⟨m, -, rfl⟩ := mem_map.mp hv
    exact length_replicate
  · rw [map_map]
    show m ∈ List.map id _ ↔ _
    rw [map_id, mem_filter, Bool.and_eq_true]
    exact ⟨And.right, fun hm => ⟨h m hm.2, hm⟩⟩

/-! ### The sweep -/

/-- What a shred does to the files. -/
theorem foldl_shred (files : Files) (m : Text) (content : Bytes) (noise : Nat → UInt8) (n : Text) :
    (shred m content noise).foldl Files.perform files n = if n = m then none else files n := by
  unfold shred
  by_cases hn : n = m
  · subst hn
    rw [if_pos rfl]
    split
    · exact Files.set_self ..
    · exact Files.set_self ..
  · rw [if_neg hn]
    have hm : m ≠ n := fun heq => hn heq.symm
    split
    · exact (Files.set_other _ _ hm).trans (Files.set_other _ _ hm)
    · exact Files.set_other _ _ hm

/-- What one file that is taken up makes of a name. -/
theorem foldl_sealFile (hkey : cipher.Available) {v : Visit} (hiv : v.iv.length = ivLen)
    (n : Text) {files' : Files}
    (h : (sealFile cipher files v.iv v.noise v.name).foldl Files.perform files = files') :
    n = v.name ∧ files' n = none ∨ n ≠ v.name ∧ files' n = files n ∨
      n = sealedName v.name ∧
        ∃ plain blob, cipher.sealBytes v.iv plain = some blob ∧ files' n = some blob := by
  subst h
  cases hplain : files v.name with
  | none =>
    have hkept : sealFile cipher files v.iv v.noise v.name = [] := by
      unfold sealFile
      rw [hplain]
    rw [hkept]
    by_cases hn : n = v.name
    · exact .inl ⟨hn, hn ▸ hplain⟩
    · exact .inr (.inl ⟨hn, rfl⟩)
  | some plain =>
    obtain ⟨blob, hblob, -⟩ := hkey v.iv plain hiv
    rw [sealFile_of_file v.noise hplain hblob, foldl_cons, foldl_shred]
    by_cases hn : n = v.name
    · exact .inl ⟨hn, if_pos hn⟩
    rw [if_neg hn]
    by_cases hsealed : n = sealedName v.name
    · exact .inr (.inr ⟨hsealed, plain, blob, hblob, if_pos hsealed⟩)
    · exact .inr (.inl ⟨hn, if_neg hsealed⟩)

section Sweep

variable {files : Files} {visits : List Visit}

theorem sealAndShred_cons (v : Visit) :
    sealAndShred cipher files (v :: visits) =
      sealAndShred cipher
        ((sealFile cipher files v.iv v.noise v.name).foldl Files.perform files) visits := rfl

variable {n : Text}

/-- A name after the sweep: gone if it was taken up, the blob of a file that was, or as before. -/
theorem sealAndShred_cases (hkey : cipher.Available) (hiv : ∀ v ∈ visits, v.iv.length = ivLen)
    (files : Files) (n : Text) :
    n ∈ visits.map Visit.name ∧ sealAndShred cipher files visits n = none ∨
      n ∉ visits.map Visit.name ∧ sealAndShred cipher files visits n = files n ∨
      ∃ v ∈ visits, n = sealedName v.name ∧ ∃ plain blob,
        cipher.sealBytes v.iv plain = some blob ∧
          sealAndShred cipher files visits n = some blob := by
  induction visits generalizing files with
  | nil => exact .inr (.inl ⟨not_mem_nil, rfl⟩)
  | cons v visits ih =>
    rw [sealAndShred_cons, map_cons, mem_cons]
    obtain ⟨hmem, hgone⟩ | ⟨hnot, hkept⟩ | ⟨w, hw, hblob⟩ :=
      ih (fun w hw => hiv w (mem_cons_of_mem v hw))
        ((sealFile cipher files v.iv v.noise v.name).foldl Files.perform files)
    · exact .inl ⟨.inr hmem, hgone⟩
    · rw [hkept]
      obtain ⟨hname, hgone⟩ | ⟨hname, hkept⟩ | ⟨hsealed, hblob⟩ :=
        foldl_sealFile hkey (hiv v mem_cons_self) n rfl
      · exact .inl ⟨.inl hname, hgone⟩
      · exact .inr (.inl ⟨fun h => h.elim hname hnot, hkept⟩)
      · exact .inr (.inr ⟨v, mem_cons_self, hsealed, hblob⟩)
    · exact .inr (.inr ⟨w, mem_cons_of_mem v hw, hblob⟩)

/-- A key that is shown after the sweep was there before it, in a file that was not taken up. -/
theorem sealAndShred_exposes (hkey : cipher.Available) (hhides : cipher.Hides keys)
    (hiv : ∀ v ∈ visits, v.iv.length = ivLen) {c : Bytes} (hexposes : Exposes keys c)
    (h : sealAndShred cipher files visits n = some c) :
    n ∉ visits.map Visit.name ∧ files n = some c := by
  obtain ⟨-, hgone⟩ | ⟨hnot, hkept⟩ | ⟨v, hv, -, plain, blob, hblob, hsealed⟩ :=
    sealAndShred_cases hkey hiv files n
  · cases hgone.symm.trans h
  · exact ⟨hnot, hkept.symm.trans h⟩
  · cases hsealed.symm.trans h
    exact absurd hexposes (hhides v.iv plain c (hiv v hv) hblob)

end Sweep

/-- A cipher that hides keys shows that none of them is empty. -/
theorem not_exposes_nil (hkey : cipher.Available) (hhides : cipher.Hides keys) :
    ¬ Exposes keys [] := by
  rintro ⟨key, hkeys, hinfix⟩
  obtain rfl := infix_nil.mp hinfix
  obtain ⟨blob, hblob, -⟩ := hkey (List.replicate ivLen 0) [] length_replicate
  exact hhides _ _ blob length_replicate hblob ⟨[], hkeys, nil_infix⟩

/-- **No key is readable at rest exactly if no temporary file was left over.** -/
theorem keys_sealed_iff (hkey : cipher.Available) (hhides : cipher.Hides keys) {files : Files}
    (htidy : Tidy keys files) (history : List Event) :
    (∀ visits, Lists (after lower files history) visits → ∀ n c,
        sealAndShred cipher (after lower files history) visits n = some c → ¬ Exposes keys c) ↔
      ∀ n, ¬ Leftover lower keys history n := by
  have hnil := not_exposes_nil hkey hhides
  constructor
  · intro hsealed n hleft
    obtain ⟨names, hnames⟩ := exists_names_after htidy history
    obtain ⟨visits, hvisits⟩ := exists_lists hnames
    obtain ⟨path, pid, rfl⟩ : ∃ path pid, n = temporary path pid := by
      obtain ⟨front, e, rest, -, hstrands, -⟩ := hleft
      cases e with
      | save i pid contents fate => exact ⟨_, _, hstrands.1.symm⟩
      | load i damaged moved => exact hstrands.elim
    have hother := isIdentity_temporary path pid
    obtain ⟨c, hc, hexposes⟩ := (exposes_after_iff hnil htidy history hother).mpr hleft
    refine hsealed visits hvisits (temporary path pid) c ?_ hexposes
    obtain ⟨hmem, -⟩ | ⟨-, hkept⟩ | ⟨v, hv, heq, -⟩ :=
      sealAndShred_cases hkey hvisits.1 _ (temporary path pid)
    · cases hother.symm.trans ((hvisits.2 _).mp hmem).1
    · exact hkept.trans hc
    · have hidentity := ((hvisits.2 v.name).mp (mem_map_of_mem hv)).1
      exact absurd heq (temporary_ne_sealedName path pid hidentity)
  · intro hnone visits hvisits n c hc hexposes
    obtain ⟨hnot, hbefore⟩ := sealAndShred_exposes hkey hhides hvisits.1 hexposes hc
    cases hn : isIdentity n with
    | true => exact absurd ((hvisits.2 n).mpr ⟨hn, by rw [hbefore]; rfl⟩) hnot
    | false => exact hnone n ((exposes_after_iff hnil htidy history hn).mp ⟨c, hbefore, hexposes⟩)

/-! ### A cipher that hides a key -/

/-- Every byte with a zero in front of it. -/
def spread (plain : Bytes) : Bytes := plain.flatMap fun b => [0, b]

def gather : Bytes → Bytes
  | _ :: b :: rest => b :: gather rest
  | _ => []

theorem gather_spread (plain : Bytes) : gather (spread plain) = plain := by
  induction plain with
  | nil => rfl
  | cons b plain ih => exact congrArg (b :: ·) ih

def spreadCipher : Cipher where
  hasKey := true
  encrypt _ plain := some (0 :: spread plain)
  decrypt _ body := some (gather body.tail)

theorem spreadCipher_available : spreadCipher.Available := by
  intro iv plain hiv
  refine ⟨iv ++ 0 :: spread plain, rfl, ?_⟩
  have hlen : ¬ (iv ++ 0 :: spread plain).length ≤ ivLen := by
    rw [length_append, length_cons]
    omega
  have hdrop : (iv ++ 0 :: spread plain).drop ivLen = 0 :: spread plain := by
    rw [← hiv, drop_left]
  unfold Cipher.openBlob
  rw [if_neg hlen, hdrop]
  exact congrArg some (gather_spread plain)

/-- The private key of the examples. -/
def sampleKey : Bytes := List.replicate 32 255

theorem not_infix_spread (plain : Bytes) (b : UInt8) : ¬ [255, 255] <:+: b :: spread plain := by
  induction plain generalizing b with
  | nil =>
    intro h
    exact absurd h.length_le (by simp [spread])
  | cons c plain ih =>
    intro h
    have hspread : b :: spread (c :: plain) = b :: 0 :: c :: spread plain := rfl
    rw [hspread, infix_cons_iff, infix_cons_iff] at h
    obtain h | h | h := h
    · simp [cons_prefix_cons] at h
    · simp [cons_prefix_cons] at h
    · exact ih c h

/-- A key is longer than a vector, so a part of it would be in the body. -/
theorem infix_body {iv body : Bytes} (hiv : iv.length = ivLen) (h : sampleKey <:+: iv ++ body) :
    [255, 255] <:+: body := by
  obtain ⟨s, t, heq⟩ := h
  have hkey : s ++ replicate 12 255 ++ ([255, 255] ++ (replicate 18 255 ++ t)) = iv ++ body := by
    rw [← heq]
    simp [sampleKey]
  have hle : iv.length ≤ (s ++ replicate 12 (255 : UInt8)).length := by
    rw [hiv, length_append, length_replicate]
    exact Nat.le_add_left _ _
  obtain ⟨a, ha⟩ := prefix_of_prefix_length_le ( prefix_append iv body) ⟨_, hkey⟩ hle
  rw [← ha, append_assoc] at hkey
  exact ⟨a, replicate 18 255 ++ t, by rw [append_assoc, append_cancel_left hkey]⟩

theorem spreadCipher_hides : spreadCipher.Hides (· = sampleKey) := by
  rintro iv plain blob hiv hblob ⟨key, rfl, hinfix⟩
  cases hblob
  exact not_infix_spread plain 0 (infix_body hiv hinfix)

theorem tidy_empty : Tidy keys fun _ => none where
  finite := ⟨[], fun m hm => by cases hm⟩
  hidden m c hc := by cases hc

/-- The identity of the examples. -/
def plainIdentity : Identity := ⟨false, [], false⟩

/-- A save that is completed leaves nothing. -/
theorem keys_sealed_completed :
    Tidy (· = sampleKey) (fun _ => none) ∧
    ∀ visits, Lists (after id (fun _ => none) [.save plainIdentity 7 sampleKey .completed]) visits →
      ∀ n c, sealAndShred spreadCipher
        (after id (fun _ => none) [.save plainIdentity 7 sampleKey .completed]) visits n = some c →
        ¬ Exposes (· = sampleKey) c := by
  refine ⟨tidy_empty,
    (keys_sealed_iff spreadCipher_available spreadCipher_hides tidy_empty _).mpr ?_⟩
  rintro n ⟨front, e, rest, heq, hstrands, -⟩
  obtain ⟨-, heq⟩ | ⟨rest', -, heq⟩ := append_eq_cons_iff.mp heq.symm
  · cases heq
    exact hstrands.2
  · exact absurd heq.symm (by simp)

/-- The engine is killed between the write and the rename: the key stays in the temporary file,
which no sweep takes up. -/
theorem key_left_over :
    Lists (after id (fun _ => none) [.save plainIdentity 7 sampleKey (.killed 2)]) [] ∧
    sealAndShred spreadCipher
      (after id (fun _ => none) [.save plainIdentity 7 sampleKey (.killed 2)]) []
      ".aether.toml.7.tmp".toList = some sampleKey ∧
    Exposes (· = sampleKey) sampleKey := by
  refine ⟨⟨fun v hv => (by cases hv), fun m => ⟨fun hm => (by cases hm), ?_⟩⟩, by decide +kernel,
    sampleKey, rfl, infix_rfl⟩
  rintro ⟨hidentity, hsome⟩
  have hother :
      after id (fun _ => none) [.save plainIdentity 7 sampleKey (.killed 2)] m = none := by
    refine foldl_apply_other (fun op hop hmem => ?_) _
    have hop : op ∈ [FileOp.create (temporary (plainIdentity.path id) 7),
        .write (temporary (plainIdentity.path id) 7) sampleKey] := hop
    have hname : m = temporary (plainIdentity.path id) 7 := by
      simp only [mem_cons, not_mem_nil, or_false] at hop
      obtain rfl | rfl := hop
      · exact mem_singleton.mp hmem
      · exact mem_singleton.mp hmem
    rw [hname, isIdentity_temporary] at hidentity
    cases hidentity
  rw [hother] at hsome
  cases hsome

end Aether.Vault
