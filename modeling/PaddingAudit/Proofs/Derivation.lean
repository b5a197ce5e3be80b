import PaddingAudit.Proofs.Cache
import PaddingAudit.Proofs.PlainLayout

/-!
# How a layout is worked out

One rule says all there is to say about the derivation of a layout: it visits the followed types in
order and puts their layouts together. The rules for `compute` and `resolveUnless` say what becomes
of the cache. Every property of the resolver is an induction on depth that uses these three rules,
and none of them looks at the kinds of types again.
-/

namespace PaddingAudit

open Debug PaddingAudit.Action

def Layout.isWritable (l : Layout) : Bool :=
  Text.isWritable l.size && Text.isWritable l.alignment

namespace Resolver

variable {r : Resolver} {visit : Site → Action Failure Cache Layout} {s : Site}
  {sc : Scene Cache} {I : List Site → List Layout → Scene Cache → Prop}
  {Q : Layout → Scene Cache → Prop} {E : Failure → Scene Cache → Prop}

/-- Each of the types `ts` can be visited after those in front of it. `I` is what holds once some of
them are done and have given their layouts. -/
def Visits (visit : Site → Action Failure Cache Layout) (ts : List Site)
    (I : List Site → List Layout → Scene Cache → Prop) (E : Failure → Scene Cache → Prop) : Prop :=
  ∀ done t rest, ts = done ++ t :: rest → ∀ ls sc, I done ls sc →
    Ends (visit t) sc (fun l sc' => I (done ++ [t]) (ls ++ [l]) sc') E

/-- The layout of the type an entry refers to is the layout of its target, if there is one. -/
theorem ends_targetLayout {e : Entry} (hI : ∀ done ls, IgnoresAsides (I done ls))
    (h₀ : I [] [] sc) (hv : Visits visit (e.target? r.sites).toList I E) :
    Ends (r.targetLayout visit e) sc
      (fun l sc' => ∃ ls, I (e.target? r.sites).toList ls sc' ∧ l = ls.headD .void) E := by
  unfold targetLayout
  refine (e.quiet_followType r.sites).ends_bind (hI [] []) h₀ fun sc h₀ => ?_
  cases ht : e.target? r.sites with
  | none => exact ⟨[], h₀, rfl⟩
  | some t =>
    rw [ht] at hv
    refine (hv [] t [] rfl [] sc h₀).imp ?_ fun _ _ he => he
    intro l sc' hI'
    exact ⟨[l], hI', rfl⟩

theorem ends_arrayLayout (hI : ∀ done ls, IgnoresAsides (I done ls)) (h₀ : I [] [] sc)
    (hv : Visits visit (s.target? r.sites).toList I E) :
    Ends (r.arrayLayout visit s (s.int? .byteSize)) sc
      (fun l sc' => ∃ ls, I (s.target? r.sites).toList ls sc' ∧ l = plainArray s (ls.headD .void))
      E := by
  unfold arrayLayout plainArray
  refine (ends_targetLayout hI h₀ hv).bind ?_
  rintro element sc' ⟨ls, hI', rfl⟩
  refine (quiet_elementCount s).ends_bind (hI _ _) hI' fun sc'' hI'' => ?_
  by_cases hf : s.flag .vector
  · simp only [if_pos hf]
    exact ⟨ls, hI'', rfl⟩
  · simp only [if_neg hf]
    exact ⟨ls, hI'', rfl⟩

theorem parts_append (es fs : List Entry) : r.parts (es ++ fs) = r.parts es ++ r.parts fs := by
  simp [parts]

theorem parts_singleton {e : Entry} (h : e.isDataMember || e.isBaseClass) :
    r.parts [e] = (e.target? r.sites).toList.map (e, ·) := by
  cases ht : e.target? r.sites <;> simp only [parts, List.filterMap_cons, if_pos h, ht] <;> rfl

theorem parts_singleton_of_not {e : Entry} (h : ¬ (e.isDataMember || e.isBaseClass)) :
    r.parts [e] = [] := by
  simp only [parts, List.filterMap_cons, if_neg h, List.filterMap_nil]

/-- The alignment of an aggregate, as far as some of its children are visited. -/
structure Widened (r : Resolver) (I : List Site → List Layout → Scene Cache → Prop)
    (before : List Entry) (a : Int) (ls : List Layout) (sc : Scene Cache) : Prop where
  holds : I ((r.parts before).map Prod.snd) ls sc
  length_eq : (r.parts before).length = ls.length
  alignment_eq : a = ((r.parts before).zipWith
    (fun part l => max l.alignment (part.1.explicitAlignment?.getD 1)) ls).foldl max 1

/-- One more child widens the alignment of an aggregate if it is a part of it. -/
theorem ends_widen {e : Entry} {before after : List Entry} {ls : List Layout} {a : Int}
    (hI : ∀ done ls, IgnoresAsides (I done ls))
    (hv : Visits visit ((r.parts (before ++ e :: after)).map Prod.snd) I E)
    (h : Widened r I before a ls sc) :
    Ends (r.widen visit a e) sc (fun b sc' => ∃ ls, Widened r I (before ++ [e]) b ls sc') E := by
  obtain ⟨h₀, hlen, ha⟩ := h
  unfold widen
  by_cases hp : e.isDataMember || e.isBaseClass
  · rw [if_pos hp]
    refine (e.quiet_followType r.sites).ends_bind (hI _ _) h₀ fun sc h₀ => ?_
    cases ht : e.target? r.sites with
    | none =>
      have hnil : r.parts (before ++ [e]) = r.parts before := by
        rw [parts_append, parts_singleton hp, ht]
        simp
      exact ⟨ls, by rwa [hnil], by rwa [hnil], by rwa [hnil]⟩
    | some t =>
      have hone : r.parts [e] = [(e, t)] := by rw [parts_singleton hp, ht]; rfl
      have hsplit : (r.parts (before ++ e :: after)).map Prod.snd =
          (r.parts before).map Prod.snd ++ t :: (r.parts after).map Prod.snd := by
        rw [List.append_cons, parts_append, parts_append, hone]
        simp
      refine (hv _ t _ hsplit ls sc h₀).bind fun l sc' hI' => ?_
      refine (e.quiet_readAlignment).ends_bind (hI _ _) hI' fun sc'' hI'' => ?_
      refine ⟨ls ++ [l], ?_, ?_, ?_⟩ <;> rw [parts_append, hone]
      · rwa [List.map_append]
      · simp [hlen]
      · rw [List.zipWith_append hlen, List.foldl_append, ← ha]
        simp
  · rw [if_neg hp]
    have hnil : r.parts (before ++ [e]) = r.parts before := by
      rw [parts_append, parts_singleton_of_not hp, List.append_nil]
    exact ⟨ls, by rwa [hnil], by rwa [hnil], by rwa [hnil]⟩

theorem ends_memberAlignment (hI : ∀ done ls, IgnoresAsides (I done ls)) (h₀ : I [] [] sc)
    (hv : Visits visit ((r.parts s.children).map Prod.snd) I E) :
    Ends (r.memberAlignment visit s) sc (fun a sc' => ∃ ls, Widened r I s.children a ls sc') E := by
  refine ends_foldlM (I := fun before a sc => ∃ ls, Widened r I before a ls sc)
    ⟨[], h₀, rfl, rfl⟩ ?_
  rintro before e after hes a sc' ⟨ls, hw⟩
  exact ends_widen hI (hes ▸ hv) hw

/-- The derivation of a layout visits the followed types in order and puts their layouts
together. -/
theorem ends_derive (hI : ∀ done ls, IgnoresAsides (I done ls)) (h₀ : I [] [] sc)
    (hv : Visits visit (r.followed s) I E) :
    Ends (r.derive visit s) sc
      (fun l sc' => ∃ ls, I (r.followed s) ls sc' ∧ l = r.derived s ls) E := by
  unfold derive
  refine (s.quiet_readInt .byteSize).ends_bind (hI [] []) h₀ fun sc h₀ => ?_
  unfold followed at hv
  unfold followed derived
  -- Both sides now branch on the kind of the type.
  cases hk : s.kind with
  | scalar =>
    rw [hk] at hv
    cases hb : s.int? .byteSize with
    | some size => exact ⟨[], by simpa [hb] using h₀, by simp⟩
    | none =>
      simp only [hb, Option.isSome_none, Bool.false_eq_true, if_false] at hv ⊢
      exact ends_targetLayout hI h₀ hv
  | pointer => exact ⟨[], h₀, rfl⟩
  | transparent =>
    rw [hk] at hv
    exact ends_targetLayout hI h₀ hv
  | array =>
    rw [hk] at hv
    exact ends_arrayLayout hI h₀ hv
  | aggregate =>
    rw [hk] at hv
    refine (ends_memberAlignment hI h₀ hv).bind ?_
    rintro a sc' ⟨ls, hI', -, rfl⟩
    exact ⟨ls, hI', rfl⟩
  | other =>
    rw [ends_bind, ends_log]
    exact ⟨[], hI [] [] sc _ (by simp [Event.isAside]) h₀, rfl⟩

/-! ### Resolution -/

theorem keep_apply (offset : Int) (l : Layout) (sc : Scene Cache) :
    keep offset l sc =
      if (sc.state.put offset l).overdrawn then
        .error .overdrawnCache { sc with state := sc.state.put offset l }
      else .ok () { sc with state := sc.state.put offset l } := by
  unfold keep
  rw [bind_ok (show modifyState _ sc = .ok () { sc with state := sc.state.put offset l } from rfl),
    bind_ok (show state { sc with state := sc.state.put offset l } = .ok _ _ from rfl)]
  split <;> rfl

/-- A cache that is not overdrawn takes what it is given. -/
theorem ends_keep {Q₁ : Unit → Scene Cache → Prop} {offset : Int} {l : Layout}
    (hc : 0 ≤ sc.state.capacity) :
    Ends (keep offset l) sc Q₁ E ↔ Q₁ () { sc with state := sc.state.put offset l } := by
  have hnot : (sc.state.put offset l).overdrawn = false := Cache.overdrawn_put hc
  rw [Ends, keep_apply, hnot]
  exact Iff.rfl

/-- What is worked out is kept and told. Where it cannot be told, it is kept all the same. -/
theorem ends_compute (hI : ∀ done ls, IgnoresAsides (I done ls)) (h₀ : I [] [] sc)
    (hv : Visits visit (r.followed s) I E)
    (hcap : ∀ ls sc, I (r.followed s) ls sc → 0 ≤ sc.state.capacity)
    (hdone : ∀ ls sc, I (r.followed s) ls sc →
      let l := r.assemble s ls
      let stored := { sc with state := sc.state.put s.offset l }
      if l.isWritable || !sc.limited then Q l (stored.note [.resolved s.toEntry l])
      else E .unwritable stored) :
    Ends (r.compute visit s) sc Q E := by
  unfold compute
  refine (ends_derive hI h₀ hv).bind ?_
  rintro _ sc' ⟨ls, hI', rfl⟩
  refine s.quiet_readAlignment.ends_bind (hI _ _) hI' fun sc'' hI'' => ?_
  rw [ends_bind, ends_keep (hcap ls sc'' hI''), ends_bind, ends_tell]
  exact hdone ls sc'' hI''

/-- The scene after the cache was asked for an offset. -/
def asked (sc : Scene Cache) (offset : Int) : Scene Cache :=
  { sc with state := (sc.state.get offset).2 }

theorem fromCache_apply (offset : Int) (sc : Scene Cache) :
    fromCache offset sc = .ok (sc.state.find? offset) (asked sc offset) := by
  rw [fromCache, Cache.fst_get]
  rfl

theorem resolve_of_hit {l : Layout} (hf : sc.state.find? s.offset = some l) :
    r.resolve (some s) sc = .ok l (asked sc s.offset) := by
  have hasked := fromCache_apply s.offset sc
  rw [hf] at hasked
  exact bind_ok hasked _

/-- A type is resolved out of the cache, cut off where it is pending, or else computed. -/
theorem ends_resolveUnless {pending : List Int} {compute : Action Failure Cache Layout}
    (hhit : ∀ l, sc.state.find? s.offset = some l → Q l (asked sc s.offset))
    (hcircular : sc.state.find? s.offset = none → s.offset ∈ pending →
      Q .void ((asked sc s.offset).note [.circularReference s.offset]))
    (hcompute : sc.state.find? s.offset = none → s.offset ∉ pending →
      Ends compute (asked sc s.offset) Q E) :
    Ends (resolveUnless pending s compute) sc Q E := by
  unfold resolveUnless
  rw [ends_bind]
  refine Ends.of_ok (fromCache_apply s.offset sc) ?_
  cases hf : sc.state.find? s.offset with
  | some l => exact hhit l hf
  | none =>
    by_cases hp : s.offset ∈ pending
    · rw [if_pos (by simpa using hp), ends_bind, ends_log]
      exact hcircular hf hp
    · rw [if_neg (by simpa using hp)]
      exact hcompute hf hp

/-- Types that may not go any deeper are cut off unless they are in the cache. -/
theorem ends_resolveWithin_zero {pending : List Int}
    (hhit : ∀ l, sc.state.find? s.offset = some l → Q l (asked sc s.offset))
    (hcircular : sc.state.find? s.offset = none → s.offset ∈ pending →
      Q .void ((asked sc s.offset).note [.circularReference s.offset]))
    (hdepth : sc.state.find? s.offset = none → s.offset ∉ pending →
      Q .void ((asked sc s.offset).note [.depthReached maxDepth s.offset])) :
    Ends (r.resolveWithin 0 pending s) sc Q E := by
  refine ends_resolveUnless hhit hcircular fun hf hp => ?_
  rw [ends_bind, ends_log]
  exact hdepth hf hp

/-- What reading the cache and writing the journal keep, and storing the layout of a type below, is
kept by every resolution. -/
theorem ends_resolveWithin_frame {J : Scene Cache → Prop} (hnote : ∀ sc es, J sc → J (sc.note es))
    (hasked : ∀ sc offset, J sc → J (asked sc offset)) (hcap : ∀ sc, J sc → 0 ≤ sc.state.capacity)
    (depth : Nat) (pending : List Int)
    (hput : ∀ t, r.Depends s t → ∀ sc l, J sc →
      J { sc with state := sc.state.put t.offset l }) (h : J sc) :
    Ends (r.resolveWithin depth pending s) sc (fun _ => J) (fun _ => J) := by
  induction depth generalizing pending s sc with
  | zero =>
    refine ends_resolveWithin_zero (fun _ _ => hasked _ _ h) ?_ ?_ <;>
      exact fun _ _ => hnote _ _ (hasked _ _ h)
  | succ depth ih =>
    refine ends_resolveUnless (fun _ _ => hasked _ _ h)
      (fun _ _ => hnote _ _ (hasked _ _ h)) fun _ _ => ?_
    refine ends_compute (I := fun _ _ => J) (fun _ _ _ _ _ => hnote _ _) (hasked _ _ h) ?_
      (fun _ => hcap) ?_
    · intro done t rest hfollowed ls sc' h'
      have ht : t ∈ r.followed s := by simp [hfollowed]
      exact ih _ (fun u hu => hput u (.step ht hu)) h'
    · intro ls sc' h'
      have hstored := hput s .refl sc' (r.assemble s ls) h'
      dsimp only
      split
      · exact hnote _ _ hstored
      · exact hstored

/-! ### Every layout -/

section Every

variable {V : Layout → Prop} {limited : Bool}

/-- A scene in which `V` holds of every layout that is kept. -/
structure Stores (V : Layout → Prop) (limited : Bool) (sc : Scene Cache) : Prop where
  capacity_nonneg : 0 ≤ sc.state.capacity
  limited_eq : sc.limited = limited
  every : sc.state.Every fun _ => V

theorem Stores.note (h : Stores V limited sc) (es : List Event) : Stores V limited (sc.note es) :=
  ⟨h.capacity_nonneg, h.limited_eq, h.every⟩

theorem ignoresAsides_stores : IgnoresAsides (Stores V limited) :=
  fun _ es _ h => h.note es

theorem Stores.asked (h : Stores V limited sc) (offset : Int) :
    Stores V limited (asked sc offset) := by
  have hcap : (Resolver.asked sc offset).state.capacity = sc.state.capacity :=
    Cache.capacity_get _ _
  exact ⟨hcap ▸ h.capacity_nonneg, h.limited_eq, h.every.get offset⟩

/-- What holds of `void`, and of all that is assembled from layouts of which it holds, holds of
every layout that a resolution gives or keeps. -/
theorem ends_resolveWithin_every (hvoid : V .void)
    (hassemble : ∀ s ∈ r.sites, ∀ ls, (∀ l ∈ ls, V l) → V (r.assemble s ls)) (depth : Nat)
    (pending : List Int) (hs : s ∈ r.sites) (h : Stores V limited sc) :
    Ends (r.resolveWithin depth pending s) sc (fun l sc' => Stores V limited sc' ∧ V l)
      (fun e sc' => Stores V limited sc' ∧ e = .unwritable ∧ limited = true) := by
  induction depth generalizing pending s sc with
  | zero =>
    refine ends_resolveWithin_zero (fun l hl => ⟨h.asked _, h.every _ l hl⟩) ?_ ?_ <;>
      exact fun _ _ => ⟨(h.asked _).note _, hvoid⟩
  | succ depth ih =>
    refine ends_resolveUnless (fun l hl => ⟨h.asked _, h.every _ l hl⟩)
      (fun _ _ => ⟨(h.asked _).note _, hvoid⟩) fun _ _ => ?_
    refine ends_compute (I := fun _ ls sc' => Stores V limited sc' ∧ ∀ l ∈ ls, V l)
      (fun _ ls => ignoresAsides_stores.and fun _ _ _ hls => hls) ⟨h.asked _, by simp⟩ ?_
      (fun _ _ h' => h'.1.capacity_nonneg) ?_
    · intro done t rest hfollowed ls sc' ⟨hsc, hls⟩
      have ht : t ∈ r.followed s := by simp [hfollowed]
      have hmem : t ∈ r.sites := List.mem_of_find?_eq_some (holds_of_mem_followed ht)
      refine (ih _ hmem hsc).imp (fun l sc'' hl => ⟨hl.1, ?_⟩) fun _ _ he => he
      intro m hm
      rcases List.mem_append.1 hm with hm | hm
      · exact hls m hm
      · exact List.mem_singleton.1 hm ▸ hl.2
    · intro ls sc' ⟨hsc, hls⟩
      have hV := hassemble s hs ls hls
      have hstored : Stores V limited
          { sc' with state := sc'.state.put s.offset (r.assemble s ls) } :=
        ⟨hsc.capacity_nonneg, hsc.limited_eq, hsc.every.put hV⟩
      dsimp only
      split
      · exact ⟨hstored.note _, hV⟩
      · rename_i htold
        have hlimited : sc'.limited = true := by simp_all
        exact ⟨hstored, rfl, hsc.limited_eq ▸ hlimited⟩

end Every

end Resolver

end PaddingAudit
