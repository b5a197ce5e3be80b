import Mathlib.Algebra.Divisibility.Basic
import PaddingAudit.Command
import PaddingAudit.Proofs.Action
import PaddingAudit.Proofs.Placement

/-!
# Powers of two

The alignment cap of a check is a power of two, wherever it comes from. One that is asked for, on
the command line or by the environment, is only accepted if it is: taking one away from a number
clears its lowest bit and sets those below it, so the two share no bit exactly if there is no other.
One that is found out from an image is one of three. Under such a cap alignments that are powers of
two stay powers of two, and divide the cap.
-/

namespace PaddingAudit

open PaddingAudit.Action

theorem effectiveAlignment_two_pow (j k : Nat) :
    effectiveAlignment (2 ^ j) (2 ^ k) = 2 ^ min j k := by
  have hone := one_le_two_pow (min j k)
  have hmin : min ((2 : Int) ^ j) (2 ^ k) = 2 ^ min j k := by
    rcases Nat.le_total j k with hle | hle
    · rw [Nat.min_eq_left hle, Int.min_eq_left]
      exact_mod_cast Nat.pow_le_pow_right (by decide) hle
    · rw [Nat.min_eq_right hle, Int.min_eq_right]
      exact_mod_cast Nat.pow_le_pow_right (by decide) hle
  rw [effectiveAlignment, hmin]
  exact Int.max_eq_right hone

namespace Settings

variable {s : Settings} {files : FileTree}

theorem isPowerOfTwo_iff {n : Int} : isPowerOfTwo n ↔ ∃ k : Nat, n = 2 ^ k := by
  rw [isPowerOfTwo, Bool.and_eq_true, decide_eq_true_iff, beq_iff_eq]
  constructor
  · rintro ⟨hpos, hbits⟩
    have hne : n.toNat ≠ 0 := by omega
    obtain ⟨k, hk⟩ := (Nat.and_sub_one_eq_zero_iff_isPowerOfTwo hne).1 hbits
    refine ⟨k, ?_⟩
    rw [← Int.toNat_of_nonneg (by omega : 0 ≤ n), hk]
    push_cast
    rfl
  · rintro ⟨k, rfl⟩
    have hcast : ((2 : Int) ^ k).toNat = 2 ^ k := by
      rw [← Int.toNat_natCast (2 ^ k)]
      push_cast
      rfl
    rw [hcast]
    exact ⟨one_le_two_pow k,
      (Nat.and_sub_one_eq_zero_iff_isPowerOfTwo (Nat.ne_of_gt (Nat.two_pow_pos k))).2 ⟨k, rfl⟩⟩

theorem capProblem?_eq_none_iff {cap : Given Int} :
    capProblem? cap = none ↔ cap = .absent ∨ ∃ k : Nat, cap = .value (2 ^ k) := by
  cases cap with
  | absent => simp [capProblem?]
  | blank => simp [capProblem?]
  | value n =>
    simp only [capProblem?, reduceCtorEq, Given.value.injEq, false_or, ← isPowerOfTwo_iff]
    split <;> simp_all

/-- Settings are valid if each of their parts is. -/
theorem validate_eq_ok_iff :
    s.validate files = .ok () ↔
      s.files ≠ [] ∧ s.files.findSome? (fileProblem? files) = none ∧
        capProblem? s.maxAlign = none ∧ sortProblem? s.sortBy = none ∧
        formatProblem? s.format = none := by
  have hproblem : s.validate files = .ok () ↔ s.problem? files = none := by
    unfold validate
    split <;> simp_all
  rw [hproblem, problem?]
  split
  · simp_all
  · simp_all

/-- The cap matters to the validity of settings through itself alone. -/
theorem validate_withCap_iff
    (h : ({ s with maxAlign := .absent } : Settings).validate files = .ok ()) (cap : Given Int) :
    ({ s with maxAlign := cap } : Settings).validate files = .ok () ↔ capProblem? cap = none := by
  rw [validate_eq_ok_iff] at h ⊢
  tauto

end Settings

namespace Image

theorem effectiveClass_cases (image : Image) :
    image.effectiveClass = 32 ∨ image.effectiveClass = 64 := by
  unfold effectiveClass hasKnownClass
  split
  · simp_all
  · exact .inr rfl

theorem wordSize_platform (image : Image) :
    image.platform.wordSize = 4 ∨ image.platform.wordSize = 8 := by
  unfold platform
  rcases image.effectiveClass_cases with h | h <;> simp [h]

theorem maxAlign_platform (image : Image) : ∃ k : Nat, image.platform.maxAlign = 2 ^ k := by
  unfold platform machineMaxAlign?
  split
  · exact ⟨2, rfl⟩
  · rcases image.effectiveClass_cases with h | h <;> rw [h]
    · exact ⟨3, rfl⟩
    · exact ⟨4, rfl⟩

end Image

/-- What is true of the platform that a check works with, under some settings and for some image. -/
structure Platform.Suits (s : Settings) (image : Image) (p : Platform) : Prop where
  maxAlign_pow : ∃ k : Nat, p.maxAlign = 2 ^ k
  maxAlign_asked : ∀ n, s.maxAlign = .value n → p.maxAlign = n
  maxAlign_found : s.maxAlign = .absent → p.maxAlign = image.platform.maxAlign
  wordSize_cases : p.wordSize = 4 ∨ p.wordSize = 8
  wordSize_eq : p.wordSize = image.platform.wordSize
  effectiveAlignment : ∀ j : Nat, ∃ i : Nat, effectiveAlignment (2 ^ j) p.maxAlign = 2 ^ i ∧
    (2 : Int) ^ i ∣ p.maxAlign

/-- A cap that is accepted replaces that of an image, and leaves the size of a word. -/
theorem Platform.suits_withMaxAlign {s : Settings} (h : Settings.capProblem? s.maxAlign = none)
    (image : Image) : (image.platform.withMaxAlign s.maxAlign.value?).Suits s image := by
  have hpow : ∃ k : Nat, (image.platform.withMaxAlign s.maxAlign.value?).maxAlign = 2 ^ k := by
    rcases Settings.capProblem?_eq_none_iff.1 h with hcap | ⟨k, hcap⟩ <;> rw [hcap]
    · exact image.maxAlign_platform
    · exact ⟨k, rfl⟩
  have hword : (image.platform.withMaxAlign s.maxAlign.value?).wordSize =
      image.platform.wordSize := by
    cases s.maxAlign <;> rfl
  refine ⟨hpow, ?_, ?_, hword ▸ image.wordSize_platform, hword, fun j => ?_⟩
  · intro n hn
    rw [hn]
    rfl
  · intro habsent
    rw [habsent]
    rfl
  · obtain ⟨k, hk⟩ := hpow
    rw [hk, effectiveAlignment_two_pow]
    exact ⟨min j k, rfl, pow_dvd_pow 2 (Nat.min_le_right j k)⟩

namespace Check

variable {σ : Type}

/-- To find out the platform of an image never fails. -/
theorem prepare_eq_ok (c : Check) (image : OpenImage) (sc : Scene σ) :
    ∃ sc', c.prepare image sc =
      .ok { info := image.info, platform := image.image.platform.withMaxAlign c.maxAlign } sc' := by
  apply Ends.exists_ok
  unfold prepare Reader.detectPlatform
  by_cases hclass : image.image.hasKnownClass <;> simp [hclass, -bind_pure_comp]

end Check

/-! ### From settings to platforms -/

namespace Settings

/-- The cap of settings is the one that is chosen, or else that of the environment. -/
theorem maxAlign_ofChoices {c : Choices} {env : Environment} {s : Settings}
    (h : ofChoices c env = .ok s) :
    ∃ cap, maxAlignOf env = .ok cap ∧ s.maxAlign = c.maxAlign.orElse (.ofOption cap) := by
  unfold ofChoices ofEnvironment at h
  cases hcap : maxAlignOf env with
  | error e =>
    rw [hcap] at h
    cases h
  | ok cap =>
    rw [hcap] at h
    cases h
    exact ⟨cap, rfl, rfl⟩

/-- Only powers of two get to be the cap of a check. Settings that are valid without a cap are valid
with a given one exactly if it is a power of two. With valid settings a check finds a platform for
every image: its cap is a power of two, the one of the settings if they have one, and its words have
four or eight bytes whatever the cap. An alignment that is a power of two stays one under this cap
and divides it. The settings have the cap that is chosen explicitly, or else that of the
environment. -/
theorem two_pow_of_validate (files : FileTree) :
    (∀ (s : Settings) (n : Int),
      ({ s with maxAlign := .absent } : Settings).validate files = .ok () →
      (({ s with maxAlign := .value n } : Settings).validate files = .ok () ↔
        ∃ k : Nat, n = 2 ^ k)) ∧
    (∀ s : Settings, s.validate files = .ok () →
      ∀ (p : Path) (image : OpenImage) (sc : Scene Reader),
        ∃ opened sc', (Command.checkOf s p).prepare image sc = .ok opened sc' ∧
          opened.platform.Suits s image.image) ∧
    ∀ (c : Choices) (env : Environment) (s : Settings), ofChoices c env = .ok s →
      (∀ n, c.maxAlign = .value n → s.maxAlign = .value n) ∧
      (c.maxAlign = .absent →
        ∃ cap, maxAlignOf env = .ok cap ∧ s.maxAlign = .ofOption cap) := by
  refine ⟨fun s n hothers => ?_, fun s hvalid p image sc => ?_, fun c env s hs => ?_⟩
  · rw [validate_withCap_iff hothers, capProblem?_eq_none_iff]
    simp
  · obtain ⟨sc', hprepare⟩ := (Command.checkOf s p).prepare_eq_ok image sc
    have hcap := (validate_eq_ok_iff.1 hvalid).2.2.1
    exact ⟨_, sc', hprepare, Platform.suits_withMaxAlign hcap image.image⟩
  · obtain ⟨cap, henv, hcap⟩ := maxAlign_ofChoices hs
    constructor
    · intro n hn
      rw [hcap, hn, Given.value_orElse]
    · intro habsent
      exact ⟨cap, henv, by rw [hcap, habsent, Given.absent_orElse]⟩

def singleFile : FileTree where
  nodes := [(["a"], .file (.text ""))]

/-- The settings for this file with a cap of sixteen. -/
def sixteenCap : Settings where
  files := [{ parts := ["a"] }]
  maxAlign := .value 16

/-- An image for a machine that has a cap of four by itself, and words of four bytes. -/
def smallImage : OpenImage where
  image := { elfClass := 32, machine := .named "EM_386" }
  info := {}

/-- Sixteen is accepted and replaces the cap of the image; twenty-four is not accepted. -/
theorem two_pow_sixteenCap :
    sixteenCap.validate singleFile = .ok () ∧
      ({ sixteenCap with maxAlign := .value 24 } : Settings).validate singleFile ≠ .ok () ∧
      ∃ opened sc',
        (Command.checkOf sixteenCap { parts := ["a"] }).prepare smallImage
          ({ state := none } : Scene Reader) = .ok opened sc' ∧
        opened.platform = { wordSize := 4, maxAlign := 16 } := by
  obtain ⟨haccept, hplatform, -⟩ := two_pow_of_validate singleFile
  have hvalid : sixteenCap.validate singleFile = .ok () := by decide +kernel
  obtain ⟨opened, sc', hprepare, hsuits⟩ :=
    hplatform sixteenCap hvalid { parts := ["a"] } smallImage { state := none }
  refine ⟨hvalid, ?_, opened, sc', hprepare, ?_⟩
  · rw [Ne, haccept sixteenCap 24 (by decide +kernel), ← isPowerOfTwo_iff]
    decide
  · have hcap := hsuits.maxAlign_asked 16 rfl
    have hword : opened.platform.wordSize = 4 := hsuits.wordSize_eq
    cases hp : opened.platform
    simp_all

end Settings

end PaddingAudit
