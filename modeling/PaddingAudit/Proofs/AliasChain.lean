import PaddingAudit.Proofs.Query

/-!
# Chains of aliases

An alias or a qualifier refers to one other type, and that may be one again. Such a chain comes to a
type that has a size of its own, leads nowhere, or goes round in a circle. The resolver follows it
from type to type up to the limit on depth, and stops at a type that is still pending. To stop there
makes no difference: whatever a second round could add was on the chain before, and the first type
that asks for an alignment gets it. So the answer is the one that `along` finds with the limit on
depth alone.
-/

namespace PaddingAudit.Resolver

open Debug PaddingAudit.Action

variable {r : Resolver} {d s t u : Site} {limited : Bool} {sc : Scene Cache} {l : Layout}
  {pend : List Site} {D : Site → Prop}

/-! ### Chains -/

/-- The size of a type that needs no other type for it: a pointer, or a scalar that states one. -/
def ownSize? (r : Resolver) (s : Site) : Option Int :=
  match s.kind with
  | .scalar => s.int? .byteSize
  | .pointer => some ((s.int? .byteSize).getD r.platform.wordSize)
  | _ => none

/-- The type that an alias or a qualifier refers to. -/
def next? (r : Resolver) (s : Site) : Option Site :=
  if s.kind = .transparent then s.target? r.sites else none

/-- The type at a position of the chain that starts with a type at position zero. -/
def link? (r : Resolver) (s : Site) : Nat → Option Site
  | 0 => some s
  | k + 1 => (r.next? s).bind fun t => r.link? t k

/-- A type that chains of aliases are made of: an alias or a qualifier, or the end of a chain. -/
def IsLink (r : Resolver) (s : Site) : Prop :=
  s.kind = .transparent ∨ (r.ownSize? s).isSome

/-- The layout of a type if nothing stops the resolution but the limit on depth. -/
def along (r : Resolver) : Nat → Site → Layout
  | 0, _ => .void
  | n + 1, s => r.assemble s ((r.followed s).map (r.along n))

theorem ownSize?_of_transparent (h : s.kind = .transparent) : r.ownSize? s = none := by
  simp [ownSize?, h]

theorem next?_of_transparent (h : s.kind = .transparent) : r.next? s = s.target? r.sites := by
  simp [next?, h]

theorem next?_of_ownSize {size : Int} (h : r.ownSize? s = some size) : r.next? s = none := by
  rw [next?, if_neg]
  intro hk
  simp [ownSize?_of_transparent hk] at h

theorem transparent_of_next (h : r.next? s = some t) : s.kind = .transparent := by
  by_contra hk
  simp [next?, hk] at h

theorem IsLink.followed_eq (h : r.IsLink s) : r.followed s = (r.next? s).toList := by
  rcases h with hk | hown
  · rw [next?_of_transparent hk]
    exact IsAlias.followed_eq (.inl hk)
  · obtain ⟨size, hsize⟩ := Option.isSome_iff_exists.1 hown
    rw [next?_of_ownSize hsize]
    unfold ownSize? at hsize
    split at hsize <;> simp_all [followed]

theorem assemble_of_ownSize {size : Int} (h : r.ownSize? s = some size) (ls : List Layout) :
    r.assemble s ls = demanded s (r.platform.selfAligned size) := by
  unfold ownSize? at h
  split at h <;> simp_all [assemble, derived]

theorem assemble_of_transparent (h : s.kind = .transparent) (ls : List Layout) :
    r.assemble s ls = demanded s (ls.headD .void) := by
  rw [assemble, IsAlias.derived_eq (.inl h)]

theorem along_of_next (h : r.next? s = some t) (n : Nat) :
    r.along (n + 1) s = demanded s (r.along n t) := by
  have hk := transparent_of_next h
  rw [along, assemble_of_transparent hk, IsLink.followed_eq (.inl hk), h]
  rfl

theorem IsLink.along_of_next_none (hs : r.IsLink s) (h : r.next? s = none) (n : Nat) :
    r.along (n + 1) s = r.assemble s [] := by
  rw [along, hs.followed_eq, h]
  rfl

theorem link?_of_next (h : r.next? s = some t) (k : Nat) : r.link? s (k + 1) = r.link? t k := by
  rw [link?, h]
  rfl

theorem link?_succ (s : Site) (k : Nat) : r.link? s (k + 1) = (r.link? s k).bind r.next? := by
  induction k generalizing s with
  | zero => cases h : r.next? s <;> simp [link?, h]
  | succ k ih =>
    cases h : r.next? s with
    | none => simp [link?, h]
    | some t => rw [link?_of_next h, link?_of_next h, ih]

theorem alignment_demanded (h : s.explicitAlignment? = none) :
    (demanded s l).alignment = l.alignment := by
  simp [demanded, h]

/-- A layout is the one that a chain comes to from a type on, up to what is still pending: an
alignment that a pending type asks for will take the place of any other. -/
structure Covers (r : Resolver) (n : Nat) (pend : List Site) (s : Site) (l : Layout) : Prop where
  size_eq : l.size = (r.along n s).size
  alignment_eq : (∀ p ∈ pend, p.explicitAlignment? = none) →
    l.alignment = (r.along n s).alignment

theorem Covers.along (n : Nat) (pend : List Site) (s : Site) : Covers r n pend s (r.along n s) :=
  ⟨rfl, fun _ => rfl⟩

/-- A chain that only goes through pending types has nothing to add. -/
theorem covers_void (hpend : ∀ p ∈ pend, p.kind = .transparent ∧ ∀ t, r.next? p = some t → t ∈ pend)
    (hs : s ∈ pend) (n : Nat) : Covers r n pend s .void := by
  induction n generalizing s with
  | zero => exact .along 0 pend s
  | succ n ih =>
    obtain ⟨hk, hnext⟩ := hpend s hs
    cases ht : r.next? s with
    | none =>
      have halong : r.along (n + 1) s = demanded s .void := by
        rw [IsLink.along_of_next_none (.inl hk) ht, assemble_of_transparent hk]
        rfl
      refine ⟨by rw [halong]; rfl, fun hnone => ?_⟩
      rw [halong, alignment_demanded (hnone s hs)]
    | some t =>
      have hrest := ih (hnext t ht)
      refine ⟨?_, fun hnone => ?_⟩
      · rw [along_of_next ht]
        exact hrest.size_eq
      · rw [along_of_next ht, alignment_demanded (hnone s hs)]
        exact hrest.alignment_eq hnone

/-- What a type asks for itself comes before all that follows. -/
theorem Covers.demanded {n : Nat} (ht : r.next? s = some t) (h : Covers r n (s :: pend) t l) :
    Covers r (n + 1) pend s (demanded s l) := by
  refine ⟨?_, fun hnone => ?_⟩
  · rw [along_of_next ht]
    exact h.size_eq
  · rw [along_of_next ht]
    cases he : s.explicitAlignment? with
    | some a => simp [Resolver.demanded, he]
    | none =>
      rw [alignment_demanded he, alignment_demanded he]
      apply h.alignment_eq
      simpa [he] using hnone

/-- The numbers that a type of a chain states. -/
def stated (r : Resolver) (s : Site) : List Int :=
  (r.ownSize? s).toList ++ s.explicitAlignment?.toList

theorem told_demanded_iff (h : Brief limited l.size → Brief limited l.alignment) :
    ((demanded s l).isWritable || !limited) ↔
      Brief limited l.size ∧ ∀ a ∈ s.explicitAlignment?.toList, Brief limited a := by
  rw [brief_layout_iff, demanded]
  cases s.explicitAlignment? with
  | none => simpa using h
  | some a => simp

/-- An alignment that comes from a size is no longer than the size. -/
theorem brief_effectiveAlignment {n : Int} (cap : Int) (h : Brief limited n) :
    Brief limited (effectiveAlignment n cap) := by
  by_cases hone : effectiveAlignment n cap = 1
  · rw [hone, Brief]
    rfl
  · unfold effectiveAlignment at hone ⊢
    exact h.of_le (by omega) (by omega)

theorem told_of_ownSize {size : Int} (h : r.ownSize? s = some size) (ls : List Layout) :
    ((r.assemble s ls).isWritable || !limited) ↔ ∀ m ∈ r.stated s, Brief limited m := by
  have hself : Brief limited size → Brief limited (effectiveAlignment size r.platform.maxAlign) :=
    brief_effectiveAlignment r.platform.maxAlign
  rw [assemble_of_ownSize h, told_demanded_iff hself, stated, h]
  simp [Platform.selfAligned]

theorem told_of_transparent (h : s.kind = .transparent) (hl : l.isWritable || !limited) :
    ((demanded s l).isWritable || !limited) ↔ ∀ m ∈ r.stated s, Brief limited m := by
  obtain ⟨hsize, halignment⟩ := brief_layout_iff.1 hl
  rw [told_demanded_iff fun _ => halignment, stated, ownSize?_of_transparent h]
  simp [hsize]

/-- What is known of the layout that a chain gives from a type on. It was told, and so was what the
types on the way state, except for those that were pending. -/
structure Traced (r : Resolver) (limited : Bool) (n : Nat) (pend : List Site) (s : Site)
    (l : Layout) : Prop extends Covers r n pend s l where
  told : l.isWritable || !limited
  brief : ∀ k < n, ∀ t, r.link? s k = some t → t ∉ pend → ∀ m ∈ r.stated t, Brief limited m

/-- Some type that a chain comes to within the limit on depth states a number that cannot be
told. -/
def Blocked (r : Resolver) (limited : Bool) (n : Nat) (s : Site) : Prop :=
  ∃ k < n, ∃ t, r.link? s k = some t ∧ ∃ m ∈ r.stated t, ¬ Brief limited m

theorem told_void (limited : Bool) : Layout.void.isWritable || !limited := by
  cases limited <;> rfl

/-- The end of a chain. -/
theorem traced_of_next_none {n : Nat} (hs : r.IsLink s) (ht : r.next? s = none)
    (hbrief : ∀ m ∈ r.stated s, Brief limited m)
    (htold : (r.assemble s []).isWritable || !limited) :
    Traced r limited (n + 1) pend s (r.assemble s []) where
  toCovers := hs.along_of_next_none ht n ▸ Covers.along (n + 1) pend s
  told := htold
  brief k hk t hkt _ := by
    cases k with
    | zero => exact Option.some.inj hkt ▸ hbrief
    | succ k => simp [link?, ht] at hkt

/-- One more alias in front of a chain. -/
theorem Traced.demanded {n : Nat} (ht : r.next? s = some t) (h : Traced r limited n (s :: pend) t l)
    (hbrief : ∀ m ∈ r.stated s, Brief limited m)
    (htold : (demanded s l).isWritable || !limited) :
    Traced r limited (n + 1) pend s (demanded s l) where
  toCovers := h.toCovers.demanded ht
  told := htold
  brief k hk u hku hu := by
    cases k with
    | zero => exact Option.some.inj hku ▸ hbrief
    | succ k =>
      rw [link?_of_next ht] at hku
      by_cases hus : u = s
      · exact hus ▸ hbrief
      · exact h.brief k (by omega) u hku (by simp [hus, hu])

theorem Blocked.of_next {n : Nat} (ht : r.next? s = some t) (h : Blocked r limited n t) :
    Blocked r limited (n + 1) s := by
  obtain ⟨k, hk, u, hu, hlong⟩ := h
  exact ⟨k + 1, by omega, u, (link?_of_next ht k).trans hu, hlong⟩

theorem blocked_of_not_brief {n : Nat} (h : ¬ ∀ m ∈ r.stated s, Brief limited m) :
    Blocked r limited (n + 1) s := by
  push Not at h
  exact ⟨0, by omega, s, rfl, h⟩

/-! ### Resolution -/

/-- Types that are links of chains, stay among themselves, and are told apart by their offsets. -/
structure Linked (r : Resolver) (D : Site → Prop) : Prop where
  isLink : ∀ s, D s → r.IsLink s
  next : ∀ s t, D s → r.next? s = some t → D t
  distinct : ∀ s t, D s → D t → s.offset = t.offset → s = t

/-- Pending types: each of them leads to the type that is resolved, or to another of them. -/
def LeadTo (r : Resolver) (D : Site → Prop) (pend : List Site) (s : Site) : Prop :=
  ∀ p ∈ pend, D p ∧ p.kind = .transparent ∧ ∀ t, r.next? p = some t → t = s ∨ t ∈ pend

theorem LeadTo.cons (h : LeadTo r D pend s) (hs : D s)
    (ht : r.next? s = some t) : LeadTo r D (s :: pend) t := by
  intro p hp
  rcases List.mem_cons.1 hp with rfl | hp
  · refine ⟨hs, transparent_of_next ht, fun u hu => .inl ?_⟩
    exact Option.some.inj (hu.symm.trans ht)
  · obtain ⟨hD, hk, hnext⟩ := h p hp
    refine ⟨hD, hk, fun u hu => .inr ?_⟩
    rcases hnext u hu with rfl | hu
    · exact List.mem_cons_self
    · exact List.mem_cons_of_mem s hu

/-- A chain that comes back to a pending type. -/
theorem LeadTo.traced_void (h : LeadTo r D pend s) (hs : s ∈ pend) (n : Nat) :
    Traced r limited n pend s .void := by
  have hclosed : ∀ p ∈ pend, ∀ t, r.next? p = some t → t ∈ pend := by
    intro p hp t ht
    rcases (h p hp).2.2 t ht with rfl | ht
    · exact hs
    · exact ht
  have hstays : ∀ k u, r.link? s k = some u → u ∈ pend := by
    intro k
    induction k with
    | zero =>
      intro u hu
      exact Option.some.inj hu ▸ hs
    | succ k ih =>
      intro u hu
      rw [link?_succ] at hu
      obtain ⟨t, ht, htu⟩ := Option.bind_eq_some_iff.1 hu
      exact hclosed t (ih t ht) u htu
  exact ⟨covers_void (fun p hp => ⟨(h p hp).2.1, hclosed p hp⟩) hs n, told_void limited,
    fun k _ u hu hnot => absurd (hstays k u hu) hnot⟩

theorem Linked.traced_void (hD : r.Linked D) (hs : D s)
    (hpend : LeadTo r D pend s) (h : s.offset ∈ pend.map fun p => p.offset) (n : Nat) :
    Traced r limited n pend s .void := by
  obtain ⟨p, hp, hoffset⟩ := List.mem_map.1 h
  obtain rfl := hD.distinct p s (hpend p hp).1 hs hoffset
  exact hpend.traced_void hp n

theorem Stores.any {V : Layout → Prop} (h : Stores V limited sc) :
    Stores (fun _ => True) limited sc :=
  ⟨h.capacity_nonneg, h.limited_eq, h.every.imp fun _ _ _ => trivial⟩

/-- What holds while the layout of a link is worked out: nothing is kept before the next link is
resolved, and then its layout is known. -/
def Underway (limited : Bool) (P : Site → Layout → Prop) (done : List Site) (ls : List Layout)
    (sc : Scene Cache) : Prop :=
  (done = [] ∧ ls = [] ∧ Stores (fun _ => False) limited sc) ∨
    ∃ t l, done = [t] ∧ ls = [l] ∧ P t l ∧ Stores (fun _ => True) limited sc

theorem ignoresAsides_underway {P : Site → Layout → Prop} {done : List Site} {ls : List Layout} :
    IgnoresAsides (Underway limited P done ls) := by
  intro sc es hes h
  rcases h with ⟨hdone, hls, hsc⟩ | ⟨t, l, hdone, hls, hl, hsc⟩
  · exact .inl ⟨hdone, hls, hsc.note es⟩
  · exact .inr ⟨t, l, hdone, hls, hl, hsc.note es⟩

theorem Underway.stores {P : Site → Layout → Prop} {done : List Site} {ls : List Layout}
    (h : Underway limited P done ls sc) : Stores (fun _ => True) limited sc := by
  rcases h with ⟨-, -, hsc⟩ | ⟨t, l, -, -, -, hsc⟩
  · exact hsc.any
  · exact hsc

/-- A link is told if its own numbers can be, and then the chain is traced one link further. -/
theorem IsLink.traced {n : Nat} {ls : List Layout} (hs : r.IsLink s)
    (h : Underway limited (Traced r limited n (s :: pend)) (r.followed s) ls sc) :
    (((r.assemble s ls).isWritable || !limited) ↔ ∀ m ∈ r.stated s, Brief limited m) ∧
      (((r.assemble s ls).isWritable || !limited) →
        Traced r limited (n + 1) pend s (r.assemble s ls)) := by
  rw [hs.followed_eq] at h
  cases ht : r.next? s with
  | none =>
    obtain rfl : ls = [] := by
      rcases h with ⟨-, hls, -⟩ | ⟨t, l, hdone, -⟩
      · exact hls
      · simp [ht] at hdone
    have htold : ((r.assemble s []).isWritable || !limited) ↔
        ∀ m ∈ r.stated s, Brief limited m := by
      rcases hs with hk | hown
      · rw [assemble_of_transparent hk]
        exact told_of_transparent hk (told_void limited)
      · obtain ⟨size, hsize⟩ := Option.isSome_iff_exists.1 hown
        exact told_of_ownSize hsize []
    exact ⟨htold, fun h => traced_of_next_none hs ht (htold.1 h) h⟩
  | some t =>
    obtain ⟨l, rfl, hl⟩ : ∃ l, ls = [l] ∧ Traced r limited n (s :: pend) t l := by
      rcases h with ⟨hdone, -⟩ | ⟨u, l, hdone, hls, hl, -⟩
      · simp [ht] at hdone
      · obtain rfl : t = u := by simpa [ht] using hdone
        exact ⟨l, hls, hl⟩
    have hk := transparent_of_next ht
    have hassemble : r.assemble s [l] = demanded s l := assemble_of_transparent hk [l]
    have htold := told_of_transparent (r := r) hk hl.told
    rw [hassemble]
    exact ⟨htold, fun h => hl.demanded ht (htold.1 h) h⟩

/-- A link is worked out from the next one, if there is one. -/
theorem IsLink.ends_compute {n : Nat} {visit : Site → Action Failure Cache Layout}
    (hs : r.IsLink s) (hsc : Stores (fun _ => False) limited sc)
    (hvisit : ∀ t, r.next? s = some t → ∀ sc, Stores (fun _ => False) limited sc →
      Ends (visit t) sc
        (fun l sc' => Stores (fun _ => True) limited sc' ∧ Traced r limited n (s :: pend) t l)
        (fun e _ => e = .unwritable ∧ Blocked r limited n t)) :
    Ends (r.compute visit s) sc
      (fun l sc' => Stores (fun _ => True) limited sc' ∧ Traced r limited (n + 1) pend s l)
      (fun e _ => e = .unwritable ∧ Blocked r limited (n + 1) s) := by
  refine Resolver.ends_compute (I := Underway limited (Traced r limited n (s :: pend)))
    (fun _ _ => ignoresAsides_underway) (.inl ⟨rfl, rfl, hsc⟩) ?_
    (fun _ _ h => h.stores.capacity_nonneg) ?_
  · intro done t rest hsplit ls sc' h
    rw [hs.followed_eq] at hsplit
    obtain ⟨rfl, ht⟩ : done = [] ∧ r.next? s = some t := by
      cases hn : r.next? s with
      | none => simp [hn] at hsplit
      | some u => cases done <;> simp_all
    obtain ⟨rfl, hsc'⟩ : ls = [] ∧ Stores (fun _ => False) limited sc' := by
      rcases h with ⟨-, hls, hsc'⟩ | ⟨u, l, hdone, -⟩
      · exact ⟨hls, hsc'⟩
      · cases hdone
    refine (hvisit t ht sc' hsc').imp ?_ ?_
    · rintro l sc'' ⟨hstores, hl⟩
      exact .inr ⟨t, l, rfl, rfl, hl, hstores⟩
    · rintro e sc'' ⟨he, hblocked⟩
      exact ⟨he, hblocked.of_next ht⟩
  · intro ls sc' h
    obtain ⟨htold, htraced⟩ := hs.traced h
    have hsc' := h.stores
    dsimp only
    by_cases hl : (r.assemble s ls).isWritable || !limited
    · rw [if_pos (by rwa [hsc'.limited_eq])]
      have hstored : Stores (fun _ => True) limited
          { sc' with state := sc'.state.put s.offset (r.assemble s ls) } :=
        ⟨hsc'.capacity_nonneg, hsc'.limited_eq, hsc'.every.put trivial⟩
      exact ⟨hstored.note _, htraced hl⟩
    · rw [if_neg (by rwa [hsc'.limited_eq])]
      exact ⟨rfl, blocked_of_not_brief (mt htold.2 hl)⟩

/-- A resolution that starts with an empty cache comes to what is found along the chain. -/
theorem Linked.ends_resolveWithin (hD : r.Linked D) (n : Nat) (hs : D s)
    (hpend : LeadTo r D pend s) (hsc : Stores (fun _ => False) limited sc) :
    Ends (r.resolveWithin n (pend.map fun p => p.offset) s) sc
      (fun l sc' => Stores (fun _ => True) limited sc' ∧ Traced r limited n pend s l)
      (fun e _ => e = .unwritable ∧ Blocked r limited n s) := by
  induction n generalizing pend s sc with
  | zero =>
    refine ends_resolveWithin_zero (fun l hl => (hsc.every _ l hl).elim) ?_ ?_
    · intro _ hmem
      exact ⟨(hsc.asked _).any.note _, hD.traced_void hs hpend hmem 0⟩
    · intro _ _
      exact ⟨(hsc.asked _).any.note _, .along 0 pend s, told_void limited, by simp⟩
  | succ n ih =>
    refine ends_resolveUnless (fun l hl => (hsc.every _ l hl).elim) ?_ ?_
    · intro _ hmem
      exact ⟨(hsc.asked _).any.note _, hD.traced_void hs hpend hmem (n + 1)⟩
    · intro _ _
      apply (hD.isLink s hs).ends_compute (hsc.asked s.offset)
      intro t ht sc' hsc'
      exact ih (hD.next s t hs ht) (hpend.cons hs ht) hsc'

end PaddingAudit.Resolver
