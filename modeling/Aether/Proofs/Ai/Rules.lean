/-
The six rules of `redactLine`, as far as the proofs need to know them: which characters a match
takes, which it has to reach, and what it looks at.
-/
import Aether.Ai.Redaction

namespace Aether.AiRedaction

open List

open Regex

variable {F : Flavour}

/-! ### Classes -/

variable {c p : Char} {t : Text} {a : Char → Bool} {r : Regex Char}

theorem isLetter_ascii (hc : c.toNat < 128) :
    isLetter F c = "abcdefghijklmnopqrstuvwxyz".toList.any (fun p => p.toLower == c.toLower) := by
  have hascii : "abcdefghijklmnopqrstuvwxyz".toList.all (fun p => p.toNat < 128) = true := by
    decide
  unfold isLetter
  rw [Bool.eq_iff_iff, any_eq_true, any_eq_true]
  refine exists_congr fun p => and_congr_right fun hp => ?_
  have hlt : p.toNat < 128 := by simpa using all_eq_true.mp hascii p hp
  rw [F.same_ascii p c hlt hc]

/-- What a literal of letters reads. -/
theorem isLetter_of_same (hp : p ∈ "abcdefghijklmnopqrstuvwxyz".toList) (h : F.same p c = true) :
    isLetter F c = true :=
  any_eq_true.mpr ⟨p, hp, h⟩

theorem reaches_anyCase (hp : p ∈ "abcdefghijklmnopqrstuvwxyz".toList) :
    Reaches a (isLetter F) (anyCase F (p :: t)) :=
  reaches_all_cons fun _ => isLetter_of_same hp

/-! ### What a match reaches -/

theorem reaches_googleKey : Reaches (fun _ => false) (· == 'A') googleKey.pattern :=
  .inl (.inl fun _ => id)

theorem reaches_uuid : Reaches isHex (· == '-') (uuid F).pattern := by
  simp [uuid, Regex.all, literal, times, Reaches, Within]

theorem reaches_ipv6 : Reaches isHex (· == ':') (ipv6 F).pattern := by
  have hzero : isHex '0' = true := by decide
  simp [hzero, ipv6, Regex.all, Regex.any, literal, times, between, hextet, hextetColon, Reaches,
    Within]

theorem reaches_ipv4 : Reaches (fun _ => false) F.digit (ipv4 F).pattern := by
  simp [ipv4, Regex.all, quadPattern, octetPattern, between, times, Reaches, Within]

theorem reaches_credentialLine :
    Reaches (· == '"') (isLetter F) (credentialLine F).pattern := by
  refine reaches_all_cons (reaches_any ?_)
  simp only [forall_mem_cons, not_mem_nil, false_imp_iff, implies_true, and_true]
  refine ⟨?_, ?_, ?_, ?_, ?_, ?_, ?_, .inl ?_⟩
  all_goals exact reaches_anyCase (by decide)

theorem reaches_deviceField :
    Reaches (· == '"') (isLetter F) (deviceField F).pattern := by
  refine reaches_all_of_within trivial (reaches_all_of_within (fun _ => id)
    (reaches_all_cons (reaches_any ?_)))
  simp only [forall_mem_cons, not_mem_nil, false_imp_iff, implies_true, and_true]
  refine ⟨.inl ?_, .inl ?_, ?_, .inl ?_⟩
  all_goals exact reaches_anyCase (by decide)

/-! ### What a match takes -/

theorem within_literal (h : t.all a = true) : Within a (literal t) := by
  refine within_all fun r hr => ?_
  obtain ⟨p, hp, rfl⟩ := mem_map.mp hr
  intro c hc
  rw [eq_of_beq hc]
  exact all_eq_true.mp h p hp

theorem within_googleKey : Within isKeyChar googleKey.pattern :=
  ⟨within_literal (by decide), within_atLeast (within_one fun _ => id) 10⟩

def isUuidChar (c : Char) : Bool := isHex c || c == '-'

theorem within_uuid : Within isUuidChar (uuid F).pattern := by
  have hhex : Within isUuidChar (.one isHex) := fun c hc => by simp [isUuidChar, hc]
  have hdash : Within isUuidChar (literal ['-']) := within_literal (by decide)
  refine within_all ?_
  simp only [forall_mem_cons, not_mem_nil, false_imp_iff, implies_true, and_true]
  exact ⟨trivial, within_times hhex 8, hdash, within_times hhex 4, hdash, within_times hhex 4,
    hdash, within_times hhex 4, hdash, within_times hhex 12, trivial⟩

/-- The characters of a dotted quad. -/
def isQuadChar (F : Flavour) (c : Char) : Bool := F.digit c || c == '.'

theorem within_quadPattern (ha : ∀ c, isQuadChar F c = true → a c = true) :
    Within a (quadPattern F) := by
  have hoctet : Within a (octetPattern F) :=
    within_between (within_one fun c hc => ha c (by simp [isQuadChar, hc])) 1 2
  have hdot : Within a (literal ['.']) :=
    within_literal (by simpa using ha '.' (by simp [isQuadChar]))
  exact ⟨within_times (r := .seq _ _) ⟨hoctet, hdot⟩ 3, hoctet⟩

theorem within_ipv4 : Within (isQuadChar F) (ipv4 F).pattern :=
  ⟨trivial, within_quadPattern fun _ => id, trivial⟩

/-- The characters of the hextets and of the marks between them. -/
def isHextetChar (c : Char) : Bool := isHex c || c == ':'

theorem within_hextet : Within isHextetChar hextet :=
  within_between (within_one fun c hc => by simp [isHextetChar, hc]) 1 3

theorem within_colon : Within isHextetChar (literal [':']) := within_literal (by decide)

theorem within_mappedMark : Within isHextetChar mappedMark := by
  refine ⟨within_times ?_ 4, within_colon⟩
  intro c hc
  have hc : c = 'F' ∨ c = 'f' := by simpa [oneOf] using hc
  rcases hc with rfl | rfl <;> decide

/-- What stands in front of the quad of a mapped address. -/
def mappedFronts : List (Regex Char) :=
  [Regex.all [literal "::".toList, opt mappedMark],
    Regex.all [between 4 1 (.seq (between 1 3 (literal ['0'])) (literal [':'])), mappedMark]]

/-- The forms of an address without a quad. -/
def generalForms : Regex Char :=
  Regex.any [.seq (times 7 hextetColon) hextet,
    Regex.all [between 1 6 hextetColon, literal [':'], hextets],
    .seq (literal "::".toList) hextets]

theorem within_mappedFronts (hr : r ∈ mappedFronts) : Within isHextetChar r := by
  have hzero : Within isHextetChar (between 1 3 (literal ['0'])) :=
    within_between (within_literal (by decide)) 1 3
  simp only [mappedFronts, mem_cons, not_mem_nil, or_false] at hr
  rcases hr with rfl | rfl
  · exact ⟨within_literal (by decide), within_mappedMark⟩
  · exact ⟨within_between (r := .seq _ _) ⟨hzero, within_colon⟩ 4 1, within_mappedMark⟩

theorem within_generalForms : Within isHextetChar generalForms := by
  have hcolon : Within isHextetChar hextetColon := ⟨within_hextet, within_colon⟩
  have hhextets : Within isHextetChar hextets := ⟨within_hextet, within_colon, within_hextet⟩
  exact ⟨⟨within_times hcolon 7, within_hextet⟩,
    ⟨within_between hcolon 1 6, within_colon, hhextets⟩, within_literal (by decide), hhextets⟩

theorem within_ipv6 : Within (fun c => isHextetChar c || isQuadChar F c) (ipv6 F).pattern := by
  have hquad : Within (fun c => isHextetChar c || isQuadChar F c) (quadPattern F) :=
    within_quadPattern fun c hc => by simp [hc]
  have hmono : ∀ c, isHextetChar c = true → (isHextetChar c || isQuadChar F c) = true :=
    fun c hc => by simp [hc]
  obtain ⟨hcolons, hmark⟩ := (within_mappedFronts (.head _)).mono hmono
  obtain ⟨hzeros, -⟩ := (within_mappedFronts (.tail _ (.head _))).mono hmono
  exact ⟨⟨hcolons, hmark, hquad⟩, ⟨hzeros, hmark, hquad⟩, within_generalForms.mono hmono⟩

end Aether.AiRedaction
