import Mathlib.Data.List.Forall2
import Mathlib.Logic.Relation
import PaddingAudit.Proofs.Reading

/-!
# Plain layouts

The layout of a type as a recursive definition gives it: without a cache, without a record of what
is pending and without a limit on depth. There is one rule for each kind of type, and no layout
where the rules do not come to an end.

The types that the rules go to from a type are `followed`, and `assemble` puts their layouts
together; `plain_iff` says that nothing else is in the rules.
-/

namespace PaddingAudit.Resolver

open Debug

variable (r : Resolver)

/-- The data members and base classes among some entries, with the types they refer to. -/
def parts (entries : List Entry) : List (Entry × Site) :=
  entries.filterMap fun e =>
    if e.isDataMember || e.isBaseClass then (e.target? r.sites).map (e, ·) else none

/-- The layout with the alignment that the program asks for at a type, if it does. -/
def demanded (s : Site) (l : Layout) : Layout :=
  { l with alignment := s.explicitAlignment?.getD l.alignment }

/-- The layout of an array with elements of a given layout. A size that is stated wins, and a vector
is aligned to its size. -/
def plainArray (s : Site) (element : Layout) : Layout :=
  let size := (s.int? .byteSize).getD (element.size * plainCount s)
  { size := size, alignment := if s.flag .vector then max size 1 else element.alignment }

/-- The layout of an aggregate whose parts have the layouts given. -/
def plainAggregate (s : Site) (layouts : List Layout) : Layout :=
  let needs := (r.parts s.children).zipWith
    (fun part l => max l.alignment (part.1.explicitAlignment?.getD 1)) layouts
  { size := (s.int? .byteSize).getD 0, alignment := needs.foldl max 1 }

/-- A type that has the layout of the type it refers to: an alias, a qualifier, or an enumeration
that names its underlying type only. -/
def IsAlias (s : Site) : Prop :=
  s.kind = .transparent ∨ s.kind = .scalar ∧ s.int? .byteSize = none

/-- The layout of a type by the layouts of the types it refers to. -/
inductive Plain (r : Resolver) : Site → Layout → Prop where
  | scalar {s : Site} {size : Int} (hk : s.kind = .scalar) (hb : s.int? .byteSize = some size) :
      Plain r s (demanded s (r.platform.selfAligned size))
  | pointer {s : Site} (hk : s.kind = .pointer) :
      Plain r s (demanded s
        (r.platform.selfAligned ((s.int? .byteSize).getD r.platform.wordSize)))
  | transparent {s t : Site} {l : Layout} (hk : IsAlias s) (ht : s.target? r.sites = some t)
      (h : Plain r t l) : Plain r s (demanded s l)
  | void {s : Site} (hk : IsAlias s) (ht : s.target? r.sites = none) :
      Plain r s (demanded s .void)
  | array {s t : Site} {element : Layout} (hk : s.kind = .array)
      (ht : s.target? r.sites = some t) (h : Plain r t element) :
      Plain r s (demanded s (plainArray s element))
  | voidArray {s : Site} (hk : s.kind = .array) (ht : s.target? r.sites = none) :
      Plain r s (demanded s (plainArray s .void))
  | aggregate {s : Site} {layouts : List Layout} (hk : s.kind = .aggregate)
      (hlen : (r.parts s.children).length = layouts.length)
      (h : ∀ part l, (part, l) ∈ (r.parts s.children).zip layouts → Plain r part.2 l) :
      Plain r s (demanded s (r.plainAggregate s layouts))
  | other {s : Site} (hk : s.kind = .other) :
      Plain r s (demanded s (r.platform.selfAligned ((s.int? .byteSize).getD 0)))

/-! ### The references they follow -/

/-- The types that the layout of a type depends on, in the order in which they are resolved. -/
def followed (s : Site) : List Site :=
  match s.kind with
  | .scalar => if (s.int? .byteSize).isSome then [] else (s.target? r.sites).toList
  | .transparent | .array => (s.target? r.sites).toList
  | .aggregate => (r.parts s.children).map Prod.snd
  | .pointer | .other => []

/-- The layout of a type before the program has its say, from the layouts of the types it
depends on. -/
def derived (s : Site) (layouts : List Layout) : Layout :=
  match s.kind with
  | .scalar =>
    match s.int? .byteSize with
    | some size => r.platform.selfAligned size
    | none => layouts.headD .void
  | .pointer => r.platform.selfAligned ((s.int? .byteSize).getD r.platform.wordSize)
  | .transparent => layouts.headD .void
  | .array => plainArray s (layouts.headD .void)
  | .aggregate => r.plainAggregate s layouts
  | .other => r.platform.selfAligned ((s.int? .byteSize).getD 0)

/-- The layout of a type from the layouts of the types it depends on. -/
def assemble (s : Site) (layouts : List Layout) : Layout :=
  demanded s (r.derived s layouts)

variable {r}

theorem IsAlias.followed_eq {s : Site} (h : IsAlias s) :
    r.followed s = (s.target? r.sites).toList := by
  rcases h with hk | ⟨hk, hb⟩ <;> simp [followed, *]

theorem IsAlias.derived_eq {s : Site} (h : IsAlias s) (ls : List Layout) :
    r.derived s ls = ls.headD .void := by
  rcases h with hk | ⟨hk, hb⟩ <;> simp [derived, *]

/-- What a derived layout can be: the layout of a type aligned to its size, of the first followed
type, of an array of it, or of an aggregate. -/
theorem derived_cases (r : Resolver) (s : Site) (ls : List Layout) :
    (∃ d, (d = 0 ∨ d = r.platform.wordSize) ∧
        r.derived s ls = r.platform.selfAligned ((s.int? .byteSize).getD d)) ∨
      r.derived s ls = ls.headD .void ∨ r.derived s ls = plainArray s (ls.headD .void) ∨
      r.derived s ls = r.plainAggregate s ls := by
  unfold derived
  cases s.kind with
  | scalar =>
    cases s.int? .byteSize with
    | some size => exact .inl ⟨0, .inl rfl, rfl⟩
    | none => exact .inr (.inl rfl)
  | pointer => exact .inl ⟨r.platform.wordSize, .inr rfl, rfl⟩
  | transparent => exact .inr (.inl rfl)
  | array => exact .inr (.inr (.inl rfl))
  | aggregate => exact .inr (.inr (.inr rfl))
  | other => exact .inl ⟨0, .inl rfl, rfl⟩

theorem headD_of_forall {V : Layout → Prop} {ls : List Layout} (hvoid : V .void)
    (h : ∀ l ∈ ls, V l) : V (ls.headD .void) := by
  cases ls with
  | nil => exact hvoid
  | cons l ls => exact h l (by simp)

/-- Induction along the rules: what holds of a layout that is assembled from layouts of which it
holds, holds of every plain layout. -/
theorem Plain.induction {P : Site → Layout → Prop} {s : Site} {l : Layout} (h : r.Plain s l)
    (hP : ∀ s ls, List.Forall₂ (fun t l => r.Plain t l ∧ P t l) (r.followed s) ls →
      P s (r.assemble s ls)) : P s l := by
  have hrule : ∀ {s l} ls ts, r.followed s = ts → r.derived s ls = l →
      List.Forall₂ (fun t l => r.Plain t l ∧ P t l) ts ls → P s (demanded s l) := by
    rintro s _ ls _ rfl rfl
    exact hP s ls
  induction h with
  | scalar hk hb => exact hrule [] [] (by simp [followed, hk, hb]) (by simp [derived, hk, hb]) .nil
  | pointer hk => exact hrule [] [] (by simp [followed, hk]) (by simp [derived, hk]) .nil
  | transparent hk ht h ih =>
    exact hrule [_] [_] (by simp [hk.followed_eq, ht]) (hk.derived_eq _) (.cons ⟨h, ih⟩ .nil)
  | void hk ht => exact hrule [] [] (by simp [hk.followed_eq, ht]) (hk.derived_eq _) .nil
  | array hk ht h ih =>
    exact hrule [_] [_] (by simp [followed, hk, ht]) (by simp [derived, hk]) (.cons ⟨h, ih⟩ .nil)
  | voidArray hk ht =>
    exact hrule [] [] (by simp [followed, hk, ht]) (by simp [derived, hk]) .nil
  | @aggregate s layouts hk hlen h ih =>
    refine hrule layouts ((r.parts s.children).map Prod.snd) (by simp only [followed, hk])
      (by simp only [derived, hk]) ?_
    rw [List.forall₂_map_left_iff, List.forall₂_iff_zip]
    exact ⟨hlen, fun {part l} hmem => ⟨h part l hmem, ih part l hmem⟩⟩
  | other hk => exact hrule [] [] (by simp [followed, hk]) (by simp [derived, hk]) .nil

theorem IsAlias.plain_assemble {s : Site} {ls : List Layout} (h : IsAlias s)
    (hls : List.Forall₂ r.Plain (r.followed s) ls) : r.Plain s (r.assemble s ls) := by
  rw [h.followed_eq] at hls
  rw [assemble, h.derived_eq]
  cases ht : s.target? r.sites with
  | none =>
    rw [ht] at hls
    cases hls
    exact .void h ht
  | some t =>
    rw [ht] at hls
    obtain _ | ⟨hl, ⟨⟩⟩ := hls
    exact .transparent h ht hl

theorem plain_assemble {s : Site} {ls : List Layout}
    (hls : List.Forall₂ r.Plain (r.followed s) ls) : r.Plain s (r.assemble s ls) := by
  cases hk : s.kind with
  | pointer => simpa only [assemble, derived, hk] using Plain.pointer hk
  | other => simpa only [assemble, derived, hk] using Plain.other hk
  | transparent => exact IsAlias.plain_assemble (.inl hk) hls
  | scalar =>
    cases hb : s.int? .byteSize with
    | some size => simpa only [assemble, derived, hk, hb] using Plain.scalar hk hb
    | none => exact IsAlias.plain_assemble (.inr ⟨hk, hb⟩) hls
  | array =>
    simp only [followed, hk] at hls
    simp only [assemble, derived, hk]
    cases ht : s.target? r.sites with
    | none =>
      rw [ht] at hls
      cases hls
      exact .voidArray hk ht
    | some t =>
      rw [ht] at hls
      obtain _ | ⟨hl, ⟨⟩⟩ := hls
      exact .array hk ht hl
  | aggregate =>
    simp only [followed, hk] at hls
    rw [List.forall₂_map_left_iff, List.forall₂_iff_zip] at hls
    simp only [assemble, derived, hk]
    exact .aggregate hk hls.1 fun part l hmem => hls.2 hmem

/-- The layout of a type is assembled from the layouts of the types it follows, and is there if
those are. -/
theorem plain_iff {s : Site} {l : Layout} :
    r.Plain s l ↔ ∃ ls, List.Forall₂ r.Plain (r.followed s) ls ∧ r.assemble s ls = l := by
  constructor
  · intro h
    refine h.induction (P := fun s l =>
      ∃ ls, List.Forall₂ r.Plain (r.followed s) ls ∧ r.assemble s ls = l) fun s ls hls => ?_
    exact ⟨ls, hls.imp fun _ _ => And.left, rfl⟩
  · rintro ⟨ls, hls, rfl⟩
    exact plain_assemble hls

/-- A type has at most one plain layout. -/
theorem Plain.unique {s : Site} {l m : Layout} (hl : r.Plain s l) (hm : r.Plain s m) : l = m := by
  refine hl.induction (P := fun s l => ∀ m, r.Plain s m → l = m) (fun s ls hls m hm => ?_) m hm
  obtain ⟨ms, hms, rfl⟩ := plain_iff.1 hm
  have heq : ls = ms := by
    clear hm
    generalize r.followed s = ts at hls hms
    induction hls generalizing ms with
    | nil =>
      cases hms
      rfl
    | cons h _ ih =>
      obtain _ | ⟨hm, hms⟩ := hms
      rw [h.2 _ hm, ih _ hms]
  rw [heq]

/-- The types of a program: the entries that are found at their own offsets. -/
def Holds (r : Resolver) (s : Site) : Prop :=
  siteAt? r.sites s.offset = some s

theorem Holds.eq {s t : Site} (hs : r.Holds s) (ht : r.Holds t) (h : s.offset = t.offset) :
    s = t := by
  unfold Holds at hs ht
  rw [h, ht] at hs
  exact (Option.some.inj hs).symm

theorem holds_of_siteAt {offset : Int} {t : Site} (h : siteAt? r.sites offset = some t) :
    r.Holds t := by
  have ho : t.offset = offset := by simpa using List.find?_some h
  rw [Holds, ho, h]

theorem holds_of_lookUp {value : Value} {t : Site} (h : Entry.lookUp r.sites value = .site t) :
    r.Holds t := by
  cases value with
  | int n =>
    cases hn : siteAt? r.sites n <;> simp only [Entry.lookUp, hn] at h
    · cases h
    · cases h
      exact holds_of_siteAt hn
  | bool b =>
    cases hn : siteAt? r.sites (if b then 1 else 0) <;> simp only [Entry.lookUp, hn] at h
    · cases h
    · cases h
      exact holds_of_siteAt hn
  | none | text | bytes | list => cases h

theorem holds_of_target {e : Entry} {t : Site} (h : e.target? r.sites = some t) : r.Holds t := by
  unfold Entry.target? Entry.reference at h
  cases ha : e.attribute? .type with
  | none => simp [ha] at h
  | some a =>
    cases hl : Entry.lookUp r.sites a.value <;> simp [ha, hl] at h
    exact holds_of_lookUp (h ▸ hl)

theorem mem_parts_iff {entries : List Entry} {part : Entry × Site} :
    part ∈ r.parts entries ↔
      part.1 ∈ entries ∧ (part.1.isDataMember || part.1.isBaseClass) ∧
        part.1.target? r.sites = some part.2 := by
  obtain ⟨e, t⟩ := part
  simp only [parts, List.mem_filterMap]
  constructor
  · rintro ⟨e', he, hpart⟩
    split at hpart
    · rename_i hp
      obtain ⟨t', ht, heq⟩ := Option.map_eq_some_iff.1 hpart
      cases heq
      exact ⟨he, hp, ht⟩
    · cases hpart
  · rintro ⟨he, hp, ht⟩
    exact ⟨e, he, by simp only [if_pos hp, ht, Option.map_some]⟩

theorem holds_of_mem_parts {entries : List Entry} {part : Entry × Site}
    (h : part ∈ r.parts entries) : r.Holds part.2 :=
  holds_of_target (mem_parts_iff.1 h).2.2

theorem holds_of_mem_followed {s t : Site} (h : t ∈ r.followed s) : r.Holds t := by
  unfold followed at h
  split at h
  · split at h
    · cases h
    · exact holds_of_target (by simpa using h)
  · exact holds_of_target (by simpa using h)
  · exact holds_of_target (by simpa using h)
  · obtain ⟨part, hp, rfl⟩ := List.mem_map.1 h
    exact holds_of_mem_parts hp
  · cases h
  · cases h

/-- The layout of `s` depends on `t`, directly or through other types. -/
def Depends (r : Resolver) : Site → Site → Prop :=
  Relation.ReflTransGen fun s t => t ∈ r.followed s

theorem Depends.holds {s t : Site} (h : r.Depends s t) (hs : r.Holds s) : r.Holds t := by
  induction h with
  | refl => exact hs
  | tail _ ht _ => exact holds_of_mem_followed ht

theorem Depends.step {s t u : Site} (h : t ∈ r.followed s) (ht : r.Depends t u) : r.Depends s u :=
  Relation.ReflTransGen.head h ht

/-! ### Chains of references -/

/-- The chains of references that start at a type have at most so many types. -/
def Within (r : Resolver) : Nat → Site → Prop
  | 0, _ => False
  | n + 1, s => ∀ t ∈ r.followed s, r.Within n t

instance decidableWithin : (n : Nat) → (s : Site) → Decidable (r.Within n s)
  | 0, _ => inferInstanceAs (Decidable False)
  | n + 1, s =>
    have := decidableWithin n
    inferInstanceAs (Decidable (∀ t ∈ r.followed s, r.Within n t))

/-- No chain of references goes deeper than the limit. As a chain that comes back to its start can
be gone along again and again, none does. -/
def Shallow (r : Resolver) : Prop :=
  ∀ chain : List Site, (∀ s ∈ chain, r.Holds s) → chain.IsChain (fun s t => t ∈ r.followed s) →
    chain.length ≤ maxDepth

theorem within_of_chains {n : Nat} {s : Site} (hs : r.Holds s)
    (h : ∀ chain : List Site, (∀ t ∈ s :: chain, r.Holds t) →
      (s :: chain).IsChain (fun s t => t ∈ r.followed s) → (s :: chain).length ≤ n) :
    r.Within n s := by
  induction n generalizing s with
  | zero => simpa using h [] (by simpa using hs) (by simp)
  | succ n ih =>
    intro t ht
    refine ih (holds_of_mem_followed ht) fun chain hc hchain => ?_
    have := h (t :: chain) (by simpa [hs] using hc) (hchain.cons_cons ht)
    simpa using this

theorem Shallow.within {s : Site} (hr : r.Shallow) (hs : r.Holds s) : r.Within maxDepth s :=
  within_of_chains hs fun chain => hr (s :: chain)

theorem Within.length_le {n : Nat} {s : Site} {chain : List Site} (h : r.Within n s)
    (hchain : (s :: chain).IsChain fun s t => t ∈ r.followed s) : (s :: chain).length ≤ n := by
  induction n generalizing s chain with
  | zero => exact h.elim
  | succ n ih =>
    cases chain with
    | nil => simp
    | cons t chain =>
      rw [List.isChain_cons_cons] at hchain
      simpa using ih (h t hchain.1) hchain.2

theorem shallow_iff : r.Shallow ↔ ∀ s, r.Holds s → r.Within maxDepth s := by
  refine ⟨fun h s => h.within, fun h chain hc hchain => ?_⟩
  cases chain with
  | nil => simp
  | cons s chain => exact (h s (hc s (by simp))).length_le hchain

theorem shallow_of_sites (h : ∀ s ∈ r.sites, r.Within maxDepth s) : r.Shallow :=
  shallow_iff.2 fun s hs => h s (List.mem_of_find?_eq_some hs)

theorem Within.mono {n m : Nat} {s : Site} (h : r.Within n s) (hnm : n ≤ m) : r.Within m s := by
  induction n generalizing m s with
  | zero => exact h.elim
  | succ n ih =>
    obtain ⟨m, rfl⟩ := Nat.exists_eq_succ_of_ne_zero (show m ≠ 0 by omega)
    exact fun t ht => ih (h t ht) (by omega)

/-- Where chains have a last type, none of them comes back to its start. -/
theorem Within.not_transGen {n : Nat} {s : Site} (h : r.Within n s) :
    ¬ Relation.TransGen (fun s t => t ∈ r.followed s) s s := by
  induction n generalizing s with
  | zero => exact h.elim
  | succ n ih =>
    intro hs
    obtain ⟨t, ht, hts⟩ := Relation.TransGen.head'_iff.1 hs
    exact ih (h t ht) (Relation.TransGen.tail' hts ht)

/-- A type from which all chains come to an end has a plain layout. -/
theorem Within.exists_plain {n : Nat} {s : Site} (h : r.Within n s) : ∃ l, r.Plain s l := by
  induction n generalizing s with
  | zero => exact h.elim
  | succ n ih =>
    have hall : ∀ ts : List Site, (∀ t ∈ ts, t ∈ r.followed s) →
        ∃ ls, List.Forall₂ r.Plain ts ls := by
      intro ts
      induction ts with
      | nil => exact fun _ => ⟨[], .nil⟩
      | cons t ts ihts =>
        intro hts
        obtain ⟨l, hl⟩ := ih (h t (hts t (by simp)))
        obtain ⟨ls, hls⟩ := ihts fun u hu => hts u (by simp [hu])
        exact ⟨l :: ls, .cons hl hls⟩
    obtain ⟨ls, hls⟩ := hall (r.followed s) fun _ => id
    exact ⟨_, plain_assemble hls⟩

end PaddingAudit.Resolver
