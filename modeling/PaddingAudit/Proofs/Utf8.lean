import Mathlib.Data.List.Basic
import Mathlib.Tactic.Common
import PaddingAudit.Text.Utf8

/-!
# What bytes decode to

Where bytes are the encoding of a character, they decode to this character. Where no character can
be read, the bytes that begin one are lost, as many as there are, or else a single byte; one
replacement character stands for all of them. This is said here in terms of the encoding of
characters alone, and `decodeChars` does just that.
-/

namespace PaddingAudit.Text.Utf8

open String (utf8EncodeChar)

/-- Bytes that begin a character without completing it. -/
def Begins (bytes : List UInt8) : Prop :=
  ∃ c more, more ≠ [] ∧ utf8EncodeChar c = bytes ++ more

/-- The bytes that are lost in front of `rest`, as no character can be read. -/
structure Lost (part rest : List UInt8) : Prop where
  ne_nil : part ≠ []
  begins : part.length = 1 ∨ Begins part
  longest : ∀ more, more ≠ [] → more <+: rest → ¬ Begins (part ++ more)
  no_char : ∀ c, ¬ utf8EncodeChar c <+: part ++ rest

/-- The characters that bytes decode to. -/
inductive Decodes : List UInt8 → List Char → Prop
  | nil : Decodes [] []
  | char {c : Char} {rest : List UInt8} {cs : List Char} (h : Decodes rest cs) :
      Decodes (utf8EncodeChar c ++ rest) (c :: cs)
  | lost {part rest : List UInt8} {cs : List Char} (hpart : Lost part rest)
      (h : Decodes rest cs) : Decodes (part ++ rest) ('\uFFFD' :: cs)

/-- Bytes that may stand after the first one, the first of them between `low` and `high`. There are
at most `count` of them. -/
def Fits : (count : Nat) → (low high : UInt8) → List UInt8 → Prop
  | _, _, _, [] => True
  | 0, _, _, _ :: _ => False
  | count + 1, low, high, b :: bs => low ≤ b ∧ b ≤ high ∧ Fits count 0x80 0xBF bs

/-- The code of a character with the bits of continuation bytes. -/
def codeOf (code : Nat) (bs : List UInt8) : Nat :=
  bs.foldl (fun code b => code * 64 + b.toNat % 64) code

variable {b x y z low high : UInt8} {bs more rest part part' rest' bytes : List UInt8} {c c' : Char}
  {count code : Nat} {cs : List Char}

theorem lead?_eq (b : UInt8) : lead? b =
    if b.toNat < 0x80 then some (0, 0x80, 0xBF, b.toNat)
    else if b.toNat < 0xC2 then none
    else if b.toNat < 0xE0 then some (1, 0x80, 0xBF, b.toNat % 32)
    else if b.toNat < 0xF0 then
      some (2, if b.toNat = 0xE0 then 0xA0 else 0x80, if b.toNat = 0xED then 0x9F else 0xBF,
        b.toNat % 16)
    else if b.toNat < 0xF5 then
      some (3, if b.toNat = 0xF0 then 0x90 else 0x80, if b.toNat = 0xF4 then 0x8F else 0xBF,
        b.toNat % 8)
    else none := by
  have hall : ∀ n < 256, lead? (UInt8.ofNat n) =
      if n < 0x80 then some (0, 0x80, 0xBF, n)
      else if n < 0xC2 then none
      else if n < 0xE0 then some (1, 0x80, 0xBF, n % 32)
      else if n < 0xF0 then
        some (2, if n = 0xE0 then 0xA0 else 0x80, if n = 0xED then 0x9F else 0xBF, n % 16)
      else if n < 0xF5 then
        some (3, if n = 0xF0 then 0x90 else 0x80, if n = 0xF4 then 0x8F else 0xBF, n % 8)
      else none := by decide +kernel
  have h := hall b.toNat b.toNat_lt
  rwa [UInt8.ofNat_toNat] at h

theorem toNat_val_ofNat {n : Nat} (h : n.isValidChar) : (Char.ofNat n).val.toNat = n := by
  rw [Char.ofNat, dif_pos h]
  rfl

theorem utf8EncodeChar_eq {n : Nat} (hn : c.val.toNat = n) : utf8EncodeChar c =
    if n ≤ 0x7F then [.ofNat n]
    else if n ≤ 0x7FF then [.ofNat (n / 64 % 32 + 0xC0), .ofNat (n % 64 + 0x80)]
    else if n ≤ 0xFFFF then
      [.ofNat (n / 4096 % 16 + 0xE0), .ofNat (n / 64 % 64 + 0x80), .ofNat (n % 64 + 0x80)]
    else
      [.ofNat (n / 262144 % 8 + 0xF0), .ofNat (n / 4096 % 64 + 0x80), .ofNat (n / 64 % 64 + 0x80),
        .ofNat (n % 64 + 0x80)] := by
  subst hn
  rfl

theorem utf8EncodeChar_one (hb : b.toNat < 0x80) : utf8EncodeChar (Char.ofNat b.toNat) = [b] := by
  rw [utf8EncodeChar_eq (toNat_val_ofNat (by omega)), if_pos (by omega), UInt8.ofNat_toNat]

theorem utf8EncodeChar_two (hb : 0xC2 ≤ b.toNat ∧ b.toNat < 0xE0)
    (hx : 0x80 ≤ x.toNat ∧ x.toNat ≤ 0xBF) :
    utf8EncodeChar (Char.ofNat (b.toNat % 32 * 64 + x.toNat % 64)) = [b, x] := by
  rw [utf8EncodeChar_eq (toNat_val_ofNat (by omega)), if_neg (by omega), if_pos (by omega)]
  simp only [List.cons.injEq, ← UInt8.toNat_inj, UInt8.toNat_ofNat', and_true]
  omega

theorem utf8EncodeChar_three (hb : 0xE0 ≤ b.toNat ∧ b.toNat < 0xF0)
    (hx : 0x80 ≤ x.toNat ∧ x.toNat ≤ 0xBF ∧ (b.toNat = 0xE0 → 0xA0 ≤ x.toNat) ∧
      (b.toNat = 0xED → x.toNat ≤ 0x9F)) (hy : 0x80 ≤ y.toNat ∧ y.toNat ≤ 0xBF) :
    utf8EncodeChar (Char.ofNat ((b.toNat % 16 * 64 + x.toNat % 64) * 64 + y.toNat % 64)) =
      [b, x, y] := by
  rw [utf8EncodeChar_eq (toNat_val_ofNat (by omega)), if_neg (by omega), if_neg (by omega),
    if_pos (by omega)]
  simp only [List.cons.injEq, ← UInt8.toNat_inj, UInt8.toNat_ofNat', and_true]
  omega

theorem utf8EncodeChar_four (hb : 0xF0 ≤ b.toNat ∧ b.toNat < 0xF5)
    (hx : 0x80 ≤ x.toNat ∧ x.toNat ≤ 0xBF ∧ (b.toNat = 0xF0 → 0x90 ≤ x.toNat) ∧
      (b.toNat = 0xF4 → x.toNat ≤ 0x8F)) (hy : 0x80 ≤ y.toNat ∧ y.toNat ≤ 0xBF)
    (hz : 0x80 ≤ z.toNat ∧ z.toNat ≤ 0xBF) :
    utf8EncodeChar (Char.ofNat
      (((b.toNat % 8 * 64 + x.toNat % 64) * 64 + y.toNat % 64) * 64 + z.toNat % 64)) =
        [b, x, y, z] := by
  rw [utf8EncodeChar_eq (toNat_val_ofNat (by omega)), if_neg (by omega), if_neg (by omega),
    if_neg (by omega)]
  simp only [List.cons.injEq, ← UInt8.toNat_inj, UInt8.toNat_ofNat', and_true]
  omega

/-- A first byte with all the bytes that it announces is the encoding of a character. -/
theorem utf8EncodeChar_codeOf (hlead : lead? b = some (count, low, high, code))
    (hfits : Fits count low high bs) (hlength : bs.length = count) :
    utf8EncodeChar (Char.ofNat (codeOf code bs)) = b :: bs := by
  rw [lead?_eq] at hlead
  split at hlead
  · cases hlead
    obtain rfl := List.eq_nil_of_length_eq_zero hlength
    exact utf8EncodeChar_one (by omega)
  split at hlead
  · cases hlead
  split at hlead
  · cases hlead
    obtain ⟨x, rfl⟩ := List.length_eq_one_iff.1 hlength
    simp only [Fits, UInt8.le_iff_toNat_le, UInt8.reduceToNat] at hfits
    exact utf8EncodeChar_two (by omega) (by omega)
  split at hlead
  · cases hlead
    obtain ⟨x, y, rfl⟩ := List.length_eq_two.1 hlength
    simp only [Fits, UInt8.le_iff_toNat_le, apply_ite UInt8.toNat, UInt8.reduceToNat] at hfits
    refine utf8EncodeChar_three (by omega) ?_ (by omega)
    split_ifs at hfits <;> omega
  split at hlead
  · cases hlead
    obtain ⟨x, y, z, rfl⟩ := List.length_eq_three.1 hlength
    simp only [Fits, UInt8.le_iff_toNat_le, apply_ite UInt8.toNat, UInt8.reduceToNat] at hfits
    refine utf8EncodeChar_four (by omega) ?_ (by omega) (by omega)
    split_ifs at hfits <;> omega
  · cases hlead

/-- The encoding of a character is a first byte with the bytes that it announces. -/
theorem exists_lead?_of_utf8EncodeChar (h : utf8EncodeChar c = b :: bs) :
    ∃ count low high code, lead? b = some (count, low, high, code) ∧ Fits count low high bs ∧
      bs.length = count := by
  have hvalid : c.val.toNat.isValidChar := c.valid
  generalize hn : c.val.toNat = n at hvalid
  rw [utf8EncodeChar_eq hn] at h
  have hmod (m : Nat) (hm : m < 256) : (UInt8.ofNat m).toNat = m := by
    rw [UInt8.toNat_ofNat', Nat.mod_eq_of_lt hm]
  have hlead := lead?_eq b
  split at h
  · cases h
    rw [hmod _ (by omega), if_pos (by omega)] at hlead
    exact ⟨_, _, _, _, hlead, by simp only [Fits], rfl⟩
  split at h
  · cases h
    rw [hmod _ (by omega), if_neg (by omega), if_neg (by omega), if_pos (by omega)] at hlead
    refine ⟨_, _, _, _, hlead, ?_, rfl⟩
    simp only [Fits, UInt8.le_iff_toNat_le, UInt8.reduceToNat, and_true]
    rw [hmod _ (by omega)]
    omega
  split at h
  · cases h
    rw [hmod _ (by omega), if_neg (by omega), if_neg (by omega), if_neg (by omega),
      if_pos (by omega)] at hlead
    refine ⟨_, _, _, _, hlead, ?_, rfl⟩
    simp only [Fits, UInt8.le_iff_toNat_le, apply_ite UInt8.toNat, UInt8.reduceToNat, and_true]
    rw [hmod _ (by omega), hmod _ (by omega)]
    split_ifs <;> omega
  · cases h
    rw [hmod _ (by omega), if_neg (by omega), if_neg (by omega), if_neg (by omega),
      if_neg (by omega), if_pos (by omega)] at hlead
    refine ⟨_, _, _, _, hlead, ?_, rfl⟩
    simp only [Fits, UInt8.le_iff_toNat_le, apply_ite UInt8.toNat, UInt8.reduceToNat, and_true]
    rw [hmod _ (by omega), hmod _ (by omega), hmod _ (by omega)]
    split_ifs <;> omega

theorem utf8EncodeChar_ne_nil (c : Char) : utf8EncodeChar c ≠ [] := by
  rw [utf8EncodeChar_eq rfl]
  split_ifs <;> simp

/-- Of two characters that can be read at one place there is only one. -/
theorem utf8EncodeChar_append_inj (h : utf8EncodeChar c ++ rest = utf8EncodeChar c' ++ rest') :
    c = c' ∧ rest = rest' := by
  have hread (c : Char) (rest : List UInt8) :
      ((utf8EncodeChar c ++ rest).toByteArray).utf8DecodeChar? 0 = some c := by
    rw [List.toByteArray_append]
    exact ByteArray.utf8DecodeChar?_utf8EncodeChar_append
  have hsame := hread c rest
  rw [h, hread c' rest'] at hsame
  cases hsame
  exact ⟨rfl, List.append_cancel_left h⟩

theorem Fits.length_le (h : Fits count low high bs) : bs.length ≤ count := by
  induction bs generalizing count low high with
  | nil => exact Nat.zero_le _
  | cons b bs ih =>
    cases count with
    | zero => exact h.elim
    | succ count => exact Nat.succ_le_succ (ih h.2.2)

theorem Fits.of_append (h : Fits count low high (bs ++ more)) : Fits count low high bs := by
  induction bs generalizing count low high with
  | nil => simp only [Fits]
  | cons b bs ih =>
    cases count with
    | zero => exact h.elim
    | succ count => exact ⟨h.1, h.2.1, ih h.2.2⟩

/-- What fits can be completed. -/
theorem Fits.complete (h : Fits count low high bs) (hle : low ≤ high) :
    ∃ more, Fits count low high (bs ++ more) ∧ (bs ++ more).length = count := by
  induction count generalizing low high bs with
  | zero =>
    obtain rfl := List.eq_nil_of_length_eq_zero (Nat.le_zero.1 h.length_le)
    exact ⟨[], by simp only [List.nil_append, Fits], rfl⟩
  | succ count ih =>
    have htail : (0x80 : UInt8) ≤ 0xBF := by decide
    cases bs with
    | nil =>
      have hnil : Fits count 0x80 0xBF [] := by simp only [Fits]
      obtain ⟨more, hmore, hlength⟩ := ih hnil htail
      exact ⟨low :: more, ⟨UInt8.le_refl low, hle, hmore⟩, congrArg (· + 1) hlength⟩
    | cons b bs =>
      obtain ⟨more, hmore, hlength⟩ := ih h.2.2 htail
      exact ⟨more, ⟨h.1, h.2.1, hmore⟩, congrArg (· + 1) hlength⟩

theorem low_le_high (h : lead? b = some (count, low, high, code)) : low ≤ high := by
  rw [lead?_eq] at h
  split_ifs at h <;> cases h <;> first | decide | omega

theorem begins_cons_iff : Begins (b :: bs) ↔
    ∃ count low high code, lead? b = some (count, low, high, code) ∧ Fits count low high bs ∧
      bs.length < count := by
  constructor
  · rintro ⟨c, more, hmore, hc⟩
    rw [List.cons_append] at hc
    obtain ⟨count, low, high, code, hlead, hfits, hlength⟩ := exists_lead?_of_utf8EncodeChar hc
    refine ⟨count, low, high, code, hlead, hfits.of_append, ?_⟩
    have hpos := List.length_pos_iff.2 hmore
    rw [List.length_append] at hlength
    omega
  · rintro ⟨count, low, high, code, hlead, hfits, hlength⟩
    obtain ⟨more, hmore, hall⟩ := hfits.complete (low_le_high hlead)
    refine ⟨_, more, ?_, utf8EncodeChar_codeOf hlead hmore hall⟩
    rintro rfl
    rw [List.append_nil] at hall
    omega

/-! ### Reading -/

/-- Continuation bytes are read as long as they fit, and no further. -/
theorem continued_cases (count : Nat) (low high : UInt8) (code : Nat) (bytes : List UInt8) :
    ∃ bs, bytes = bs ++ (continued count low high code bytes).2 ∧ Fits count low high bs ∧
      (bs.length = count ∧
          (continued count low high code bytes).1 = Char.ofNat (codeOf code bs) ∨
        bs.length < count ∧ (continued count low high code bytes).1 = replacement ∧
          ∀ x rest, (continued count low high code bytes).2 = x :: rest →
            ¬ Fits count low high (bs ++ [x])) := by
  induction count generalizing low high code bytes with
  | zero => exact ⟨[], rfl, by simp only [Fits], .inl ⟨rfl, rfl⟩⟩
  | succ count ih =>
    cases bytes with
    | nil =>
      refine ⟨[], rfl, by simp only [Fits], .inr ⟨Nat.succ_pos _, rfl, ?_⟩⟩
      intro x rest h
      cases h
    | cons b bytes =>
      rw [continued]
      split
      · rename_i hb
        rw [Bool.and_eq_true, decide_eq_true_eq, decide_eq_true_eq] at hb
        obtain ⟨bs, hbytes, hfits, hend⟩ := ih 0x80 0xBF (code * 64 + b.toNat % 64) bytes
        refine ⟨b :: bs, congrArg (b :: ·) hbytes, ⟨hb.1, hb.2, hfits⟩, ?_⟩
        rcases hend with ⟨hlength, hchar⟩ | ⟨hlength, hchar, hstop⟩
        · exact .inl ⟨congrArg (· + 1) hlength, hchar⟩
        · exact .inr ⟨Nat.succ_lt_succ hlength, hchar, fun x rest hrest h =>
            hstop x rest hrest h.2.2⟩
      · rename_i hb
        refine ⟨[], rfl, by simp only [Fits], .inr ⟨Nat.succ_pos _, rfl, ?_⟩⟩
        rintro x rest ⟨⟩ ⟨hlow, hhigh, -⟩
        simp [hlow, hhigh] at hb

/-- A byte that begins no character is lost alone. -/
theorem lost_of_lead?_eq_none (hlead : lead? b = none) : Lost [b] rest where
  ne_nil := by simp
  begins := .inl rfl
  longest more _ _ hbegins := by
    obtain ⟨_, _, _, _, hsome, -⟩ := begins_cons_iff.1 hbegins
    rw [hlead] at hsome
    cases hsome
  no_char c hc := by
    obtain ⟨more, hmore⟩ := hc
    cases hencode : utf8EncodeChar c with
    | nil => exact utf8EncodeChar_ne_nil c hencode
    | cons x bs =>
      rw [hencode] at hmore
      cases hmore
      obtain ⟨_, _, _, _, hsome, -⟩ := exists_lead?_of_utf8EncodeChar hencode
      rw [hlead] at hsome
      cases hsome

/-- Bytes that begin a character are lost with each other, if the next byte does not fit. -/
theorem lost_of_fits (hlead : lead? b = some (count, low, high, code))
    (hfits : Fits count low high bs) (hlength : bs.length < count)
    (hstop : ∀ x more, rest = x :: more → ¬ Fits count low high (bs ++ [x])) :
    Lost (b :: bs) rest where
  ne_nil := by simp
  begins := .inr (begins_cons_iff.2 ⟨_, _, _, _, hlead, hfits, hlength⟩)
  longest more hne hprefix hbegins := by
    obtain ⟨x, more, rfl⟩ := List.exists_cons_of_ne_nil hne
    obtain ⟨rest, rfl⟩ := hprefix
    rw [List.cons_append, begins_cons_iff] at hbegins
    obtain ⟨_, _, _, _, hsame, hlonger, -⟩ := hbegins
    rw [hlead] at hsame
    cases hsame
    rw [List.append_cons] at hlonger
    exact hstop x (more ++ rest) rfl hlonger.of_append
  no_char c hc := by
    obtain ⟨after, hafter⟩ := hc
    cases hencode : utf8EncodeChar c with
    | nil => exact utf8EncodeChar_ne_nil c hencode
    | cons x whole =>
      rw [hencode, List.cons_append, List.cons_append, List.cons.injEq] at hafter
      obtain ⟨rfl, hwhole⟩ := hafter
      obtain ⟨_, _, _, _, hsame, hall, hcount⟩ := exists_lead?_of_utf8EncodeChar hencode
      rw [hlead] at hsame
      cases hsame
      -- The whole character is longer than `bs`, and so the byte after `bs` would fit.
      obtain ⟨more, rfl⟩ : bs <+: whole :=
        List.prefix_of_prefix_length_le (List.prefix_append bs rest)
          ⟨after, hwhole⟩ (by omega)
      cases more with
      | nil =>
        rw [List.append_nil] at hcount
        omega
      | cons y more =>
        rw [List.append_assoc, List.append_cancel_left_eq, List.cons_append] at hwhole
        rw [List.append_cons] at hall
        exact hstop y (more ++ after) hwhole.symm hall.of_append

/-- At each place either a character is read, or bytes are lost. -/
theorem next_cases (b : UInt8) (rest : List UInt8) :
    b :: rest = utf8EncodeChar (next b rest).1 ++ (next b rest).2 ∨
      ∃ part, b :: rest = part ++ (next b rest).2 ∧ (next b rest).1 = replacement ∧
        Lost part (next b rest).2 := by
  cases hlead : lead? b with
  | none =>
    have hnext : next b rest = (replacement, rest) := by rw [next, hlead]
    rw [hnext]
    exact .inr ⟨[b], rfl, rfl, lost_of_lead?_eq_none hlead⟩
  | some announced =>
    obtain ⟨count, low, high, code⟩ := announced
    have hnext : next b rest = continued count low high code rest := by rw [next, hlead]
    obtain ⟨bs, hbytes, hfits, hend⟩ := continued_cases count low high code rest
    rw [← hnext] at hbytes hend
    rcases hend with ⟨hlength, hchar⟩ | ⟨hlength, hchar, hstop⟩
    · left
      rw [hchar, utf8EncodeChar_codeOf hlead hfits hlength, List.cons_append, ← hbytes]
    · exact .inr ⟨b :: bs, congrArg (b :: ·) hbytes, hchar,
        lost_of_fits hlead hfits hlength hstop⟩

theorem decodes_decodeChars (bytes : List UInt8) : Decodes bytes (decodeChars bytes) := by
  fun_induction decodeChars bytes with
  | case1 => exact .nil
  | case2 b rest ih =>
    rcases next_cases b rest with hchar | ⟨part, hpart, hreplaced, hlost⟩
    · rw [hchar]
      exact .char ih
    · rw [hpart, hreplaced]
      exact .lost hlost ih

theorem Lost.length_le (h : Lost part rest) (h' : Lost part' rest')
    (heq : part ++ rest = part' ++ rest') : part'.length ≤ part.length := by
  by_contra hlt
  obtain ⟨more, rfl⟩ : part <+: part' :=
    List.prefix_of_prefix_length_le ⟨rest, heq⟩ (List.prefix_append part' rest') (by omega)
  have hmore : more ≠ [] := by
    rintro rfl
    simp at hlt
  have hrest : more <+: rest := by
    rw [List.append_assoc, List.append_cancel_left_eq] at heq
    exact ⟨rest', heq.symm⟩
  have hpos := List.length_pos_iff.2 h.ne_nil
  rcases h'.begins with hone | hbegins
  · rw [List.length_append] at hone hlt
    omega
  · exact h.longest more hmore hrest hbegins

/-- What is lost at a place is determined by the bytes that are there. -/
theorem Lost.unique (h : Lost part rest) (h' : Lost part' rest')
    (heq : part ++ rest = part' ++ rest') : part = part' ∧ rest = rest' :=
  List.append_inj heq (Nat.le_antisymm (h'.length_le h heq.symm) (h.length_le h' heq))

theorem decodeChars_of_char (c : Char) (rest : List UInt8) :
    decodeChars (utf8EncodeChar c ++ rest) = c :: decodeChars rest := by
  cases hencode : utf8EncodeChar c ++ rest with
  | nil => exact absurd (List.append_eq_nil_iff.1 hencode).1 (utf8EncodeChar_ne_nil c)
  | cons b bytes =>
    rw [decodeChars]
    rcases next_cases b bytes with hchar | ⟨part, hpart, -, hlost⟩
    · obtain ⟨hc, hrest⟩ := utf8EncodeChar_append_inj (hencode.trans hchar)
      rw [← hc, ← hrest]
    · exact absurd ⟨rest, hencode.trans hpart⟩ (hlost.no_char c)

theorem decodeChars_of_lost (h : Lost part rest) :
    decodeChars (part ++ rest) = replacement :: decodeChars rest := by
  cases hbytes : part ++ rest with
  | nil => exact absurd (List.append_eq_nil_iff.1 hbytes).1 h.ne_nil
  | cons b bytes =>
    rw [decodeChars]
    rcases next_cases b bytes with hchar | ⟨part', hpart, hreplaced, hlost⟩
    · exact absurd ⟨_, (hbytes.trans hchar).symm⟩ (h.no_char _)
    · obtain ⟨-, hrest⟩ := h.unique hlost (hbytes.trans hpart)
      rw [hreplaced, ← hrest]

/-- Bytes decode to the characters that are read from them, and to no others. -/
theorem decodes_iff : Decodes bytes cs ↔ decodeChars bytes = cs := by
  constructor
  · intro h
    induction h with
    | nil => rw [decodeChars]
    | char _ ih => rw [decodeChars_of_char, ih]
    | lost hpart _ ih => rw [decodeChars_of_lost hpart, ih, replacement]
  · rintro rfl
    exact decodes_decodeChars bytes

end PaddingAudit.Text.Utf8
