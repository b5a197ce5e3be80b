import PaddingAudit.Proofs.History
import PaddingAudit.Proofs.Lockstep

/-!
# The cap on alignments

Two resolvers that differ in the cap on alignments go through the same steps, because no step looks
at an alignment, but for one: a layout has to be told, which fails if its numbers are too long. So
they give the same sizes and have the same offsets in their caches, and a higher cap never makes an
alignment smaller.

An alignment that comes from a size is no longer than the size, and is told where the size is. What
could make a difference is a layout that was kept although it could not be told, under a cap that is
too long itself.
-/

namespace PaddingAudit

open Debug PaddingAudit.Action

namespace Resolver

variable {r : Resolver} {s : Site} {limited : Bool} {low high capacity : Int}
  {l l' : Layout} {ls ls' : List Layout} {sc sc' : Scene Cache} {q : Query} {qs : List Query}

/-- An alignment and the one in its place under a higher cap. Where the second is larger, it can be
told. -/
def Raised (limited : Bool) (a b : Int) : Prop :=
  b = a ∨ 1 ≤ a ∧ a ≤ b ∧ Brief limited b

namespace Raised

variable {a b c d : Int}

theorem refl (a : Int) : Raised limited a a :=
  .inl rfl

theorem le (h : Raised limited a b) : a ≤ b := by
  rcases h with rfl | ⟨-, hle, -⟩
  · exact Int.le_refl b
  · exact hle

theorem brief_iff (h : Raised limited a b) : Brief limited a ↔ Brief limited b := by
  rcases h with rfl | ⟨hone, hle, hb⟩
  · exact Iff.rfl
  · exact ⟨fun _ => hb, fun hb => hb.of_le (by omega) hle⟩

theorem max (h : Raised limited a b) (h' : Raised limited c d) :
    Raised limited (max a c) (max b d) := by
  have hle := h.le
  have hle' := h'.le
  by_cases heq : Max.max b d = Max.max a c
  · exact .inl heq
  · -- The larger one was raised itself.
    rcases Int.le_total b d with hbd | hdb
    · rcases h' with rfl | ⟨hone, -, hd⟩
      · omega
      · exact .inr ⟨by omega, by omega, by rwa [Int.max_eq_right hbd]⟩
    · rcases h with rfl | ⟨hone, -, hb⟩
      · omega
      · exact .inr ⟨by omega, by omega, by rwa [Int.max_eq_left hdb]⟩

theorem foldl_max {as bs : List Int} (h : List.Forall₂ (Raised limited) as bs)
    (hab : Raised limited a b) : Raised limited (as.foldl Max.max a) (bs.foldl Max.max b) := by
  induction h generalizing a b with
  | nil => exact hab
  | cons hcd _ ih => exact ih (hab.max hcd)

end Raised

/-- An alignment that comes from a size is raised by a higher cap, if the size or the cap can be
told. -/
theorem raised_effectiveAlignment {n : Int} (hle : low ≤ high)
    (h : Brief limited n ∨ Brief limited high) :
    Raised limited (effectiveAlignment n low) (effectiveAlignment n high) := by
  by_cases heq : effectiveAlignment n high = effectiveAlignment n low
  · exact .inl heq
  · unfold effectiveAlignment at heq ⊢
    refine .inr ⟨by omega, by omega, ?_⟩
    rcases h with h | h
    · exact h.of_le (by omega) (by omega)
    · exact h.of_le (by omega) (by omega)

def capped (r : Resolver) (cap : Int) : Resolver :=
  { r with platform := r.platform.withMaxAlign (some cap) }

/-- A layout and the one in its place under a higher cap. -/
structure RaisedLayout (limited : Bool) (l l' : Layout) : Prop where
  size_eq : l'.size = l.size
  alignment : Raised limited l.alignment l'.alignment

/-- What is known of two such layouts before they are told. -/
structure UntoldLayout (limited : Bool) (high : Int) (l l' : Layout) : Prop where
  size_eq : l'.size = l.size
  alignment : Brief limited l.size ∨ Brief limited high → Raised limited l.alignment l'.alignment

theorem RaisedLayout.refl (l : Layout) : RaisedLayout limited l l :=
  ⟨rfl, .refl _⟩

theorem RaisedLayout.untold (h : RaisedLayout limited l l') : UntoldLayout limited high l l' :=
  ⟨h.size_eq, fun _ => h.alignment⟩

/-- Two such layouts can be told both or neither. -/
theorem UntoldLayout.told_iff (h : UntoldLayout limited high l l') :
    (l.isWritable || !limited) ↔ (l'.isWritable || !limited) := by
  rw [brief_layout_iff, brief_layout_iff, h.size_eq]
  constructor
  · rintro ⟨hsize, halignment⟩
    exact ⟨hsize, (h.alignment (.inl hsize)).brief_iff.1 halignment⟩
  · rintro ⟨hsize, halignment⟩
    exact ⟨hsize, (h.alignment (.inl hsize)).brief_iff.2 halignment⟩

theorem UntoldLayout.raised (h : UntoldLayout limited high l l')
    (hbrief : Brief limited l.size ∨ Brief limited high) : RaisedLayout limited l l' :=
  ⟨h.size_eq, h.alignment hbrief⟩

theorem raised_headD (h : List.Forall₂ (RaisedLayout limited) ls ls') :
    RaisedLayout limited (ls.headD .void) (ls'.headD .void) := by
  cases h with
  | nil => exact .refl _
  | cons hl _ => exact hl

theorem raised_plainArray (h : RaisedLayout limited l l') :
    RaisedLayout limited (plainArray s l) (plainArray s l') := by
  have hsize : (plainArray s l').size = (plainArray s l).size := by
    simp only [plainArray, h.size_eq]
  refine ⟨hsize, ?_⟩
  by_cases hvector : s.flag .vector
  · -- A vector is aligned by its size alone.
    refine .inl ?_
    simp only [plainArray, if_pos hvector, h.size_eq]
  · simp only [plainArray, if_neg hvector]
    exact h.alignment

theorem raised_plainAggregate (h : List.Forall₂ (RaisedLayout limited) ls ls') :
    RaisedLayout limited (r.plainAggregate s ls) (r.plainAggregate s ls') := by
  refine ⟨rfl, Raised.foldl_max ?_ (.refl 1)⟩
  generalize r.parts s.children = parts
  induction h generalizing parts with
  | nil => cases parts <;> exact .nil
  | cons hl _ ih =>
    cases parts with
    | nil => exact .nil
    | cons part parts => exact .cons (hl.alignment.max (.refl _)) (ih parts)

theorem untold_selfAligned (hle : low ≤ high) (size : Int) :
    UntoldLayout limited high ((r.capped low).platform.selfAligned size)
      ((r.capped high).platform.selfAligned size) :=
  ⟨rfl, raised_effectiveAlignment hle⟩

theorem untold_derived (hle : low ≤ high) (h : List.Forall₂ (RaisedLayout limited) ls ls') :
    UntoldLayout limited high ((r.capped low).derived s ls) ((r.capped high).derived s ls') := by
  unfold derived
  cases s.kind with
  | scalar =>
    cases s.int? .byteSize with
    | some size => exact untold_selfAligned hle size
    | none => exact (raised_headD h).untold
  | pointer => exact untold_selfAligned hle _
  | transparent => exact (raised_headD h).untold
  | array => exact (raised_plainArray (raised_headD h)).untold
  | aggregate => exact (raised_plainAggregate (r := r) h).untold
  | other => exact untold_selfAligned hle _

theorem untold_assemble (hle : low ≤ high) (h : List.Forall₂ (RaisedLayout limited) ls ls') :
    UntoldLayout limited high ((r.capped low).assemble s ls) ((r.capped high).assemble s ls') := by
  have hderived := untold_derived (r := r) (s := s) hle h
  refine ⟨hderived.size_eq, fun hbrief => ?_⟩
  simp only [assemble, demanded]
  cases s.explicitAlignment? with
  | some n => exact .refl n
  | none => exact hderived.alignment hbrief

/-- Two scenes with caches that match, under one limit. -/
structure Abreast (limited : Bool) (P : Layout → Layout → Prop) (sc sc' : Scene Cache) : Prop where
  caches : sc.state.Matches P sc'.state
  capacity_nonneg : 0 ≤ sc.state.capacity
  limited_left : sc.limited = limited
  limited_right : sc'.limited = limited

theorem Abreast.put {P : Layout → Layout → Prop} (h : Abreast limited P sc sc') (hl : P l l')
    (offset : Int) :
    Abreast limited P { sc with state := sc.state.put offset l }
      { sc' with state := sc'.state.put offset l' } :=
  ⟨h.caches.put hl offset, h.capacity_nonneg, h.limited_left, h.limited_right⟩

theorem Abreast.imp {P P' : Layout → Layout → Prop} (h : Abreast limited P sc sc')
    (hP : ∀ l l', P l l' → P' l l') : Abreast limited P' sc sc' :=
  { h with caches := h.caches.imp hP }

/-- Both layouts are kept. Either both are told, or neither is. -/
theorem paired_concluded (h : Abreast limited (RaisedLayout limited) sc sc')
    (hl : UntoldLayout limited high l l') :
    Paired
      (fun l sc l' sc' => RaisedLayout limited l l' ∧ Abreast limited (RaisedLayout limited) sc sc')
      (fun e sc sc' => e = .unwritable ∧ limited = true ∧
        Abreast limited (UntoldLayout limited high) sc sc')
      (concluded s l sc) (concluded s l' sc') := by
  have hcap : 0 ≤ sc'.state.capacity := h.caches.capacity_eq ▸ h.capacity_nonneg
  have htold_iff : (l.isWritable || !sc.limited) ↔ (l'.isWritable || !sc'.limited) := by
    rw [h.limited_left, h.limited_right]
    exact hl.told_iff
  simp only [concluded, Cache.overdrawn_put h.capacity_nonneg, Cache.overdrawn_put hcap,
    Bool.false_eq_true, if_false]
  by_cases htold : l.isWritable || !sc.limited
  · rw [if_pos htold, if_pos (htold_iff.1 htold)]
    rw [h.limited_left] at htold
    have hraised := hl.raised (.inl (brief_layout_iff.1 htold).1)
    have hput := h.put hraised s.offset
    exact ⟨hraised, hput.caches, hput.capacity_nonneg, hput.limited_left, hput.limited_right⟩
  · rw [if_neg htold, if_neg fun htold' => htold (htold_iff.2 htold')]
    have hlimited : limited = true := by
      rw [h.limited_left] at htold
      cases limited <;> simp_all
    exact ⟨rfl, rfl, hlimited, (h.imp fun _ _ => RaisedLayout.untold).put hl s.offset⟩

/-- Resolvers that differ in their caps only go in step. -/
theorem lockstep_capped (r : Resolver) (limited : Bool) (hle : low ≤ high) :
    Lockstep (r.capped low) (r.capped high) (RaisedLayout limited)
      (Abreast limited (RaisedLayout limited))
      (fun e sc sc' => e = .unwritable ∧ limited = true ∧
        Abreast limited (UntoldLayout limited high) sc sc') where
  sites_eq := rfl
  void := .refl _
  note _ _ _ _ h := ⟨h.caches, h.capacity_nonneg, h.limited_left, h.limited_right⟩
  find? _ _ offset h := h.caches.find? offset
  asked sc _ offset h := by
    refine ⟨h.caches.get offset, ?_, h.limited_left, h.limited_right⟩
    rw [show (asked sc offset).state.capacity = sc.state.capacity from Cache.capacity_get _ _]
    exact h.capacity_nonneg
  concluded s ls ls' sc sc' hls h := paired_concluded h (untold_assemble hle hls)

/-! ### Queries -/

/-- All queries of a history are answered. -/
def Answers (r : Resolver) : Scene Cache → List Query → Prop
  | _, [] => True
  | sc, q :: qs => (∃ l t, q.run r sc = .ok l t) ∧ r.Answers (q.after r sc) qs

/-- Caches stay abreast through a query, unless it fails under a cap that cannot be told. -/
theorem abreast_after (hle : low ≤ high) (h : Abreast limited (RaisedLayout limited) sc sc')
    (hq : Brief limited high ∨ ∃ l t, q.run (r.capped low) sc = .ok l t) :
    Abreast limited (RaisedLayout limited) (q.after (r.capped low) sc)
      (q.after (r.capped high) sc') := by
  have hrun := (lockstep_capped r limited hle).run q h
  rcases hq with hbrief | ⟨l, t, hok⟩
  · refine Query.after_of_inStep hrun (fun _ _ _ _ => And.right) ?_
    rintro e sc sc' ⟨-, -, huntold⟩
    exact huntold.imp fun _ _ hl => hl.raised (.inr hbrief)
  · rcases hrun.cases with ⟨m, t, m', t', hx, hy, -, ht⟩ | ⟨e, t, t', hx, -⟩
    · simpa only [Query.after, hx, hy] using ht
    · rw [hok] at hx
      cases hx

theorem abreast_afterAll (hle : low ≤ high) (h : Abreast limited (RaisedLayout limited) sc sc')
    (hqs : Brief limited high ∨ (r.capped low).Answers sc qs) :
    Abreast limited (RaisedLayout limited) ((r.capped low).afterAll sc qs)
      ((r.capped high).afterAll sc' qs) := by
  induction qs generalizing sc sc' with
  | nil => exact h
  | cons q qs ih =>
    have hafter := abreast_after (q := q) hle h (hqs.imp_right And.left)
    exact ih hafter (hqs.imp_right And.right)

theorem demand_raised (h : RaisedLayout limited l l') :
    (q.demand l').size = (q.demand l).size ∧ (q.demand l).alignment ≤ (q.demand l').alignment := by
  have hle := h.alignment.le
  cases q with
  | type o => exact ⟨h.size_eq, hle⟩
  | member e =>
    simp only [Query.demand]
    cases e.explicitAlignment? with
    | none => exact ⟨h.size_eq, hle⟩
    | some n => exact ⟨h.size_eq, by simp only; omega⟩

end Resolver

/-- Two caches with the same offsets in the same order, and the same counts. -/
structure Cache.SameUse (c c' : Cache) : Prop where
  keys_eq : c.keys = c'.keys
  hits_eq : c.hits = c'.hits
  misses_eq : c.misses = c'.misses

theorem Cache.Matches.sameUse {P : Layout → Layout → Prop} {c c' : Cache} (h : c.Matches P c') :
    c.SameUse c' :=
  ⟨h.keys_eq, h.hits_eq, h.misses_eq⟩

namespace Resolver

/-- The effect of the cap on resolution. Take a program of any shape and two caps, the first no
larger than the second, and ask two fresh resolvers the same queries. Their caches are used alike,
and a query gets the same size from both and no larger alignment under the smaller cap, or fails for
both because of a layout too long to be told. The larger cap must be short enough to be told, or
else no query before may have failed. -/
theorem run_capped_afterAll (r : Resolver) (limited : Bool) {low high capacity : Int}
    (hle : low ≤ high) (hcap : 0 ≤ capacity) (qs : List Query) (q : Query)
    (h : Brief limited high ∨ (r.capped low).Answers (start limited capacity) qs) :
    let sc := (r.capped low).afterAll (start limited capacity) qs
    let sc' := (r.capped high).afterAll (start limited capacity) qs
    sc.state.SameUse sc'.state ∧
      (q.after (r.capped low) sc).state.SameUse (q.after (r.capped high) sc').state ∧
      ((∃ l t l' t', q.run (r.capped low) sc = .ok l t ∧ q.run (r.capped high) sc' = .ok l' t' ∧
          l'.size = l.size ∧ l.alignment ≤ l'.alignment) ∨
        limited = true ∧ ∃ t t', q.run (r.capped low) sc = .error .unwritable t ∧
          q.run (r.capped high) sc' = .error .unwritable t') := by
  intro sc sc'
  have hstart : Abreast limited (RaisedLayout limited) (start limited capacity)
      (start limited capacity) := ⟨⟨rfl, rfl, rfl, .nil⟩, hcap, rfl, rfl⟩
  have hsc : Abreast limited (RaisedLayout limited) sc sc' := abreast_afterAll hle hstart h
  have hrun := (lockstep_capped r limited hle).run q hsc
  refine ⟨hsc.caches.sameUse, ?_, ?_⟩
  · refine Query.after_of_inStep (K := fun t t' => t.state.SameUse t'.state) hrun ?_ ?_
    · exact fun _ _ _ _ ht => ht.2.caches.sameUse
    · exact fun _ _ _ ht => ht.2.2.caches.sameUse
  · rcases hrun.cases with ⟨_, t, _, t', hx, hy, ⟨m, m', hm, rfl, rfl⟩, -⟩ | ⟨e, t, t', hx, hy, he⟩
    · exact .inl ⟨_, t, _, t', hx, hy, demand_raised hm⟩
    · obtain ⟨rfl, hlimited, -⟩ := he
      exact .inr ⟨hlimited, t, t', hx, hy⟩

/-- Two structures that contain each other, under caps of four and of eight. The cache has room for
two layouts and has dropped the second structure, whose alignment comes from the first one. -/
theorem run_capped_knot :
    let sc := (knot.capped 4).afterAll (start true 2) [.type (some knotHead)]
    let sc' := (knot.capped 8).afterAll (start true 2) [.type (some knotHead)]
    sc.state.SameUse sc'.state ∧
      (∃ l t l' t', Query.run (knot.capped 4) (.type (some knotTail)) sc = .ok l t ∧
        Query.run (knot.capped 8) (.type (some knotTail)) sc' = .ok l' t' ∧
        l'.size = l.size ∧ l.alignment ≤ l'.alignment) ∧
      (knot.capped 4).answer sc knotTail = .ok { size := 16, alignment := 4 } ∧
      (knot.capped 8).answer sc' knotTail = .ok { size := 16, alignment := 8 } := by
  have hle : (4 : Int) ≤ 8 := by decide
  have hcap : (0 : Int) ≤ 2 := by decide
  have hbrief : Brief true 8 := rfl
  obtain ⟨hsame, -, hrun | ⟨-, t, t', hx, -⟩⟩ := run_capped_afterAll knot true hle hcap
    [.type (some knotHead)] (.type (some knotTail)) (.inl hbrief)
  · exact ⟨hsame, hrun, rfl, rfl⟩
  · cases hx

/-- A scalar whose size is a number of 4301 digits. -/
def vastScalar : Site where
  tag := some .baseType
  offset := 2
  attributes := [(.byteSize, { value := .int (10 ^ 4300 : Nat) })]

/-- A structure that is said to have eight bytes, and has the scalar as a member. -/
def vastRecord : Site where
  tag := some .structureType
  offset := 1
  attributes := [(.byteSize, { value := .int 8 })]
  children := [memberOf 2]

def vastProgram : Resolver where
  platform := { wordSize := 8, maxAlign := 8 }
  sites := [vastRecord, vastScalar]

/-- The structure with a huge array gets a layout under neither of two caps. And if a cap is too
long to be told, it shows: the first query fails under both caps, and has kept the layout of the
scalar; the next one is answered under the smaller cap only. -/
theorem answer_capped_huge :
    ((hugeProgram.capped 8).answer (start true 5000) hugeRecord = .error .unwritable ∧
      (hugeProgram.capped 16).answer (start true 5000) hugeRecord = .error .unwritable) ∧
    let low := vastProgram.capped 8
    let high := vastProgram.capped (10 ^ 4300 : Nat)
    low.answer (low.afterAll (start true 5000) [.type (some vastScalar)]) vastRecord =
        .ok { size := 8, alignment := 8 } ∧
      high.answer (high.afterAll (start true 5000) [.type (some vastScalar)]) vastRecord =
        .error .unwritable := by
  refine ⟨⟨?_, ?_⟩, ?_, ?_⟩ <;> decide +kernel

end Resolver

end PaddingAudit
