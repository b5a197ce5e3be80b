import PaddingAudit.Proofs.Resolution

/-!
# Answers of a resolver

A resolver is asked for the layouts of types and of data members, one after the other, and keeps its
cache from one query to the next, also after a query that failed. In a program with shallow chains
the answer for a type is its plain layout whatever was asked before. There is one exception: a query
fails if it comes to a layout that is too long to be told.
-/

namespace PaddingAudit

theorem Text.fitsDigits_iff {count n : Nat} : fitsDigits count n ↔ n < 10 ^ count := by
  induction count generalizing n with
  | zero => simp [fitsDigits]
  | succ count ih =>
    have hpos : 0 < 10 ^ count := Nat.pow_pos (by decide)
    rw [fitsDigits, Bool.or_eq_true, decide_eq_true_iff, ih, Nat.div_lt_iff_lt_mul (by decide),
      Nat.pow_succ]
    omega

/-- What is smaller is no longer. -/
theorem Text.isWritable_of_le {m n : Int} (hm : 0 ≤ m) (hle : m ≤ n) (h : isWritable n) :
    isWritable m := by
  rw [isWritable, fitsDigits_iff] at h ⊢
  omega

namespace Resolver

open Debug PaddingAudit.Action

variable {r : Resolver} {d s : Site} {limited : Bool} {capacity : Int} {sc : Scene Cache}

/-- A number that can be told: it is short, or there is no limit. -/
def Brief (limited : Bool) (n : Int) : Prop :=
  Text.isWritable n || !limited

theorem Brief.of_le {m n : Int} (hm : 0 ≤ m) (hle : m ≤ n) (h : Brief limited n) :
    Brief limited m := by
  simp only [Brief, Bool.or_eq_true] at h ⊢
  exact h.imp_left (Text.isWritable_of_le hm hle)

theorem brief_layout_iff {l : Layout} :
    (l.isWritable || !limited) ↔ Brief limited l.size ∧ Brief limited l.alignment := by
  simp only [Brief, Layout.isWritable]
  cases limited <;> simp

/-- A call on a resolver: for the layout of a type, where none stands for `void`, or of a data
member. -/
inductive Query where
  | type (s : Option Site)
  | member (e : Entry)

namespace Query

def run (r : Resolver) : Query → Action Failure Cache Layout
  | .type s => r.resolve s
  | .member e => r.resolveMember e

/-- The type that has to be resolved for a query. -/
def subject? (r : Resolver) : Query → Option Site
  | .type s => s
  | .member e => e.target? r.sites

/-- A query about the program of a resolver: its type is one of the program. -/
def About (r : Resolver) (q : Query) : Prop :=
  ∀ s, q.subject? r = some s → r.Holds s

theorem About.type (hs : r.Holds s) : (Query.type (some s)).About r := by
  rintro t ⟨⟩
  exact hs

/-- The scene after a query, whether it was answered or failed. -/
def after (r : Resolver) (sc : Scene Cache) (q : Query) : Scene Cache :=
  match q.run r sc with
  | .ok _ t => t
  | .error _ t => t

/-- What a query makes of the layout of its type: a data member may ask for more alignment. -/
def demand : Query → Layout → Layout
  | .type _, l => l
  | .member e, l =>
    match e.explicitAlignment? with
    | some explicit => { l with alignment := max l.alignment explicit }
    | none => l

/-- A query comes out as the resolution of its type does. -/
theorem ends_run {I : Scene Cache → Prop} {Q : Layout → Scene Cache → Prop}
    {E : Failure → Scene Cache → Prop} (hI : IgnoresAsides I) (hQ : ∀ l, IgnoresAsides (Q l))
    {q : Query} (hs : I sc) (hnone : q.subject? r = none → ∀ sc, I sc → Q .void sc)
    (hresolve : ∀ s sc, q.subject? r = some s → I sc →
      Ends (r.resolveWithin maxDepth [] s) sc Q E) :
    Ends (q.run r) sc (fun l sc' => ∃ m, l = q.demand m ∧ Q m sc') E := by
  have hsubject : ∀ o sc, o = q.subject? r → I sc → Ends (r.resolve o) sc Q E := by
    intro o sc ho hs
    cases o with
    | none => exact hnone ho.symm sc hs
    | some s => exact hresolve s sc ho.symm hs
  cases q with
  | type s => exact (hsubject s sc rfl hs).imp (fun l _ h => ⟨l, rfl, h⟩) fun _ _ he => he
  | member e =>
    refine (e.quiet_followType r.sites).ends_bind hI hs fun sc hs => ?_
    refine (hsubject _ sc rfl hs).bind fun l sc hs => ?_
    refine (e.quiet_readAlignment).ends_bind (hQ l) hs fun sc hs => ?_
    simp only [demand]
    cases e.explicitAlignment? with
    | some explicit => exact ⟨l, rfl, hs⟩
    | none => exact ⟨l, rfl, hs⟩

/-- A query leads from `I` to `J` if the resolution of its type does. -/
theorem after_of_ends {I J : Scene Cache → Prop} (hI : IgnoresAsides I) (hJ : IgnoresAsides J)
    {q : Query} (hs : I sc) (hnone : q.subject? r = none → ∀ sc, I sc → J sc)
    (hresolve : ∀ s sc, q.subject? r = some s → I sc →
      Ends (r.resolveWithin maxDepth [] s) sc (fun _ => J) (fun _ => J)) :
    J (q.after r sc) := by
  have hrun := ends_run hI (fun _ => hJ) hs hnone hresolve
  unfold after
  cases hq : q.run r sc with
  | ok l t =>
    obtain ⟨-, -, ht⟩ := hrun.ok hq
    exact ht
  | error e t => exact hrun.error hq

/-- What asides cannot change stays through a query if it stays through the resolution of its
type. -/
theorem after_induction {I : Scene Cache → Prop} (hI : IgnoresAsides I) {q : Query} (hs : I sc)
    (hresolve : ∀ s sc, q.subject? r = some s → I sc →
      Ends (r.resolveWithin maxDepth [] s) sc (fun _ => I) (fun _ => I)) :
    I (q.after r sc) :=
  after_of_ends hI hI hs (fun _ _ => id) hresolve

end Query

def afterAll (r : Resolver) (sc : Scene Cache) (qs : List Query) : Scene Cache :=
  qs.foldl (Query.after r) sc

theorem afterAll_induction {I : Scene Cache → Prop} {qs : List Query} (h₀ : I sc)
    (hstep : ∀ q ∈ qs, ∀ sc, I sc → I (q.after r sc)) : I (r.afterAll sc qs) := by
  unfold afterAll
  induction qs generalizing sc with
  | nil => exact h₀
  | cons q qs ih =>
    exact ih (hstep q (by simp) sc h₀) fun q hq => hstep q (by simp [hq])

def answer (r : Resolver) (sc : Scene Cache) (s : Site) : Except Failure Layout :=
  match r.resolve (some s) sc with
  | .ok l _ => .ok l
  | .error e _ => .error e

theorem answer_of_ends {Q : Layout → Scene Cache → Prop} {E : Failure → Scene Cache → Prop}
    (h : Ends (r.resolveWithin maxDepth [] s) sc Q E) :
    (∃ l sc', r.answer sc s = .ok l ∧ Q l sc') ∨ ∃ e sc', r.answer sc s = .error e ∧ E e sc' := by
  have hresolve : r.resolve (some s) = r.resolveWithin maxDepth [] s := rfl
  cases hx : r.resolveWithin maxDepth [] s sc with
  | ok l sc' => exact .inl ⟨l, sc', by rw [answer, hresolve, hx], h.ok hx⟩
  | error e sc' => exact .inr ⟨e, sc', by rw [answer, hresolve, hx], h.error hx⟩

def start (limited : Bool) (capacity : Int) : Scene Cache where
  state := { capacity := capacity }
  limited := limited

theorem uncut_start (D : Site → Prop) : Uncut D (start limited capacity) := by
  intro t _ e he
  simp [start, Scene.events] at he

theorem kept_start (D : Site → Prop) (V : Site → Layout → Prop) :
    Kept D V (start limited capacity) :=
  Cache.every_nil capacity 0 0

/-! ### Plain answers -/

theorem assembles_plain (r : Resolver) (limited : Bool) (D : Site → Prop) :
    r.Assembles limited D r.Plain r.Plain where
  assemble _ _ _ h := plain_assemble h
  told _ _ h _ := h
  untold _ _ h := h

/-- The layouts that the layout of a type depends on, its own among them, are short enough to be
told, or there is no limit. -/
def Tellable (r : Resolver) (limited : Bool) (s : Site) : Prop :=
  ∀ t l, r.Depends s t → r.Plain t l → l.isWritable || !limited

theorem Tellable.of_depends {t : Site} (h : r.Tellable limited s) (ht : r.Depends s t) :
    r.Tellable limited t :=
  fun u l hu => h u l (ht.trans hu)

theorem tellable_iff {l : Layout} (hl : r.Plain s l) :
    r.Tellable limited s ↔
      (l.isWritable || !limited) ∧ ∀ t ∈ r.followed s, r.Tellable limited t := by
  constructor
  · exact fun h => ⟨h s l .refl hl, fun t ht => h.of_depends (.single ht)⟩
  · rintro ⟨htold, h⟩ t m ht hm
    rcases Relation.ReflTransGen.cases_head ht with rfl | ⟨u, hu, hut⟩
    · exact hl.unique hm ▸ htold
    · exact h u hu t m hut hm

/-- What was told is tellable, with all that it depends on. -/
theorem assembles_tellable (r : Resolver) (limited : Bool) (D : Site → Prop) :
    r.Assembles limited D (fun t l => r.Plain t l ∧ r.Tellable limited t)
      (fun t l => r.Plain t l ∧ ∀ u ∈ r.followed t, r.Tellable limited u) where
  assemble s ls _ h := by
    obtain ⟨htell, hplain⟩ := (List.forall₂_and_left _ _).1 (h.imp fun _ _ => And.symm)
    exact ⟨plain_assemble hplain, htell⟩
  told s l h htold := ⟨h.1, (tellable_iff h.1).2 ⟨htold, h.2⟩⟩
  untold s l h := ⟨h.1, ((tellable_iff h.1).1 h.2).2⟩

/-- A scene in which nothing was cut off and only plain layouts are kept. -/
structure Settled (r : Resolver) (limited : Bool) (sc : Scene Cache) : Prop where
  capacity_nonneg : 0 ≤ sc.state.capacity
  limited_eq : sc.limited = limited
  uncut : Uncut r.Holds sc
  kept : Kept r.Holds r.Plain sc

theorem ignoresAsides_settled : IgnoresAsides (r.Settled limited) :=
  fun sc es hes h => ⟨h.1, h.2, ignoresAsides_uncut sc es hes h.3, h.4⟩

theorem Settled.note {es : List Event} (h : r.Settled limited sc)
    (hes : ∀ e ∈ es, e.cutAt? = none) : r.Settled limited (sc.note es) := by
  refine ⟨h.capacity_nonneg, h.limited_eq, uncut_note.2 ⟨h.uncut, fun t _ e he => ?_⟩, h.kept⟩
  simp [hes e he]

theorem settled_start (hc : 0 ≤ capacity) : r.Settled limited (start limited capacity) :=
  ⟨hc, rfl, uncut_start _, kept_start _ _⟩

/-- Where the chains that start at a type are short, its resolution ends in a settled scene, with a
plain layout unless one that it depends on cannot be told. -/
theorem Within.ends_resolve (hw : r.Within maxDepth s) (hs : r.Holds s)
    (h : r.Settled limited sc) :
    Ends (r.resolveWithin maxDepth [] s) sc
      (fun l sc' => r.Settled limited sc' ∧ r.Plain s l)
      (fun e sc' => r.Settled limited sc' ∧ e = .unwritable ∧ ¬ r.Tellable limited s) := by
  have hplain := ends_resolveWithin r.closed_holds (assembles_plain r limited _) maxDepth [] hs
    h.capacity_nonneg h.limited_eq
  have huncut := ends_resolveWithin_uncut maxDepth [] hw hs (by simp)
    h.capacity_nonneg h.uncut
  refine (hplain.and huncut).imp ?_ ?_
  · rintro l sc' ⟨hl, hc, hu⟩
    exact ⟨⟨hc, hl.continues.limited_eq.trans h.limited_eq, hu, hl.kept hu h.kept⟩,
      hl.layout hu h.kept hs⟩
  · rintro e sc' ⟨he, hc, hu⟩
    refine ⟨⟨hc, he.continues.limited_eq.trans h.limited_eq, hu, he.kept hu h.kept⟩,
      he.unwritable, fun htell => ?_⟩
    obtain ⟨t, l, ht, hl, hlong⟩ := he.cause hu h.kept hs
    have := htell t l ht hl
    simp [hlong, ← h.limited_eq, he.limited] at this

/-- In a shallow program this is so for every type. -/
theorem Shallow.ends_resolve (hr : r.Shallow) (hs : r.Holds s) (h : r.Settled limited sc) :
    Ends (r.resolveWithin maxDepth [] s) sc
      (fun l sc' => r.Settled limited sc' ∧ r.Plain s l)
      (fun e sc' => r.Settled limited sc' ∧ e = .unwritable ∧ ¬ r.Tellable limited s) :=
  (hr.within hs).ends_resolve hs h

theorem Shallow.settled_after (hr : r.Shallow) {q : Query} (hq : q.About r)
    (h : r.Settled limited sc) : r.Settled limited (q.after r sc) :=
  Query.after_induction ignoresAsides_settled h fun s _ hs hsc =>
    (hr.ends_resolve (hq s hs) hsc).imp (fun _ _ => And.left) (fun _ _ => And.left)

/-- The first answer of a resolver for a type is only given if all that it depends on can be
told. -/
theorem Within.tellable_of_answer_start {l : Layout} (hw : r.Within maxDepth d) (hc : 0 ≤ capacity)
    (hd : r.Holds d) (h : r.answer (start limited capacity) d = .ok l) : r.Tellable limited d := by
  have hstart : r.Settled limited (start limited capacity) := settled_start hc
  have htell := ends_resolveWithin r.closed_holds (assembles_tellable r limited _) maxDepth []
    hd hstart.capacity_nonneg hstart.limited_eq
  rcases answer_of_ends (htell.and (hw.ends_resolve hd hstart)) with ⟨m, sc', -, hl, hs⟩ | he
  · exact (hl.layout hs.1.uncut (kept_start _ _) hd).2
  · obtain ⟨e, sc', he, -⟩ := he
    rw [he] at h
    cases h

theorem Shallow.tellable_of_answer_start {l : Layout} (hr : r.Shallow) (hc : 0 ≤ capacity)
    (hd : r.Holds d) (h : r.answer (start limited capacity) d = .ok l) : r.Tellable limited d :=
  (hr.within hd).tellable_of_answer_start hc hd h

/-- The first answer of a resolver for a type is its plain layout if all that it depends on can be
told, and the query fails otherwise. -/
theorem Within.answer_start {l : Layout} (hw : r.Within maxDepth d) (hc : 0 ≤ capacity)
    (hd : r.Holds d) (hl : r.Plain d l) :
    (r.Tellable limited d → r.answer (start limited capacity) d = .ok l) ∧
      (¬ r.Tellable limited d → r.answer (start limited capacity) d = .error .unwritable) := by
  have hstart : r.Settled limited (start limited capacity) := settled_start hc
  rcases answer_of_ends (hw.ends_resolve hd hstart) with
    ⟨m, sc', ha, -, hm⟩ | ⟨e, sc', ha, -, rfl, hlong⟩
  · obtain rfl := hl.unique hm
    exact ⟨fun _ => ha, fun hlong => absurd (hw.tellable_of_answer_start hc hd ha) hlong⟩
  · exact ⟨fun htell => absurd htell hlong, fun _ => ha⟩

/-- After any queries the answer for a type is its plain layout, unless one that it depends on
cannot be told. -/
theorem Shallow.answer_afterAll {l : Layout} (hr : r.Shallow) (hc : 0 ≤ capacity) (hd : r.Holds d)
    (hl : r.Plain d l) {qs : List Query} (hqs : ∀ q ∈ qs, q.About r) :
    r.answer (r.afterAll (start limited capacity) qs) d = .ok l ∨
      r.answer (r.afterAll (start limited capacity) qs) d = .error .unwritable ∧
        ¬ r.Tellable limited d := by
  have hsettled : r.Settled limited (r.afterAll (start limited capacity) qs) :=
    afterAll_induction (settled_start hc) fun q hq _ => hr.settled_after (hqs q hq)
  rcases answer_of_ends (hr.ends_resolve hd hsettled) with ⟨m, sc', ha, -, hm⟩ | ⟨e, sc', ha, he⟩
  · exact .inl (hl.unique hm ▸ ha)
  · exact .inr ⟨he.2.1 ▸ ha, he.2.2⟩

/-- Resolution with a cache gives plain layouts. In a program with shallow chains a type has exactly
one, and whatever was asked before, the answer for the type is this layout, or else the query fails
because of a layout too long to be told. It never fails exactly if there is no such layout among
those that the type depends on. -/
theorem answer_afterAll_plain (hr : r.Shallow) (hc : 0 ≤ capacity) (hd : r.Holds d) :
    ∃ l, (∀ m, r.Plain d m ↔ m = l) ∧
      (∀ qs : List Query, (∀ q ∈ qs, q.About r) →
        r.answer (r.afterAll (start limited capacity) qs) d = .ok l ∨
          r.answer (r.afterAll (start limited capacity) qs) d = .error .unwritable) ∧
      ((∀ qs : List Query, (∀ q ∈ qs, q.About r) →
          r.answer (r.afterAll (start limited capacity) qs) d = .ok l) ↔
        r.Tellable limited d) := by
  obtain ⟨l, hl⟩ := (hr.within hd).exists_plain
  refine ⟨l, fun m => ⟨fun hm => hm.unique hl, fun hm => hm ▸ hl⟩, fun qs hqs => ?_, fun h => ?_,
    fun h qs hqs => ?_⟩
  · exact (hr.answer_afterAll hc hd hl hqs).imp_right And.left
  · exact hr.tellable_of_answer_start hc hd (h [] (by simp))
  · exact (hr.answer_afterAll hc hd hl hqs).resolve_right fun he => he.2 h

/-! ### A layout too long to be told -/

def memberOf (type : Int) : Entry where
  tag := some .member
  offset := 0
  attributes := [(.type, { value := .int type, form := some "DW_FORM_ref4" })]

def hugeDimension : Entry where
  tag := some .subrangeType
  offset := 4
  attributes := [(.count, { value := .int (2 ^ 60) })]

/-- An array of bytes with 240 such dimensions. -/
def hugeArray : Site where
  tag := some .arrayType
  offset := 2
  attributes := [(.type, { value := .int 3, form := some "DW_FORM_ref4" })]
  children := List.replicate 240 hugeDimension

def hugeSize : Int := (2 ^ 60) ^ 240

/-- A structure that is said to have eight bytes, and has the array as a member. -/
def hugeRecord : Site where
  tag := some .structureType
  offset := 1
  attributes := [(.name, { value := .text "S" }), (.byteSize, { value := .int 8 })]
  children := [memberOf 2]

def byteType : Site where
  tag := some .baseType
  offset := 3
  attributes := [(.byteSize, { value := .int 1 })]

def hugeProgram : Resolver where
  platform := { wordSize := 8, maxAlign := 8 }
  sites := [hugeRecord, hugeArray, byteType]

theorem shallow_hugeProgram : hugeProgram.Shallow := by
  have hbyte : ∀ n, hugeProgram.Within (n + 1) byteType := fun n t ht => by
    simp [show hugeProgram.followed byteType = [] from rfl] at ht
  have harray : ∀ n, hugeProgram.Within (n + 2) hugeArray := fun n t ht => by
    obtain rfl := List.mem_singleton.1 (show t ∈ [byteType] from ht)
    exact hbyte n
  have hrecord : ∀ n, hugeProgram.Within (n + 3) hugeRecord := fun n t ht => by
    obtain rfl := List.mem_singleton.1 (show t ∈ [hugeArray] from ht)
    exact harray n
  refine shallow_iff.2 fun s hs => ?_
  have hmem : s ∈ [hugeRecord, hugeArray, byteType] := List.mem_of_find?_eq_some hs
  simp only [List.mem_cons, List.not_mem_nil, or_false] at hmem
  rcases hmem with rfl | rfl | rfl
  · exact hrecord 61
  · exact harray 62
  · exact hbyte 63

theorem plainCount_hugeArray : plainCount hugeArray = hugeSize := by
  have hdim : hugeDimension.isDimension := rfl
  have hcount : plainDimension hugeDimension = 2 ^ 60 := by decide +kernel
  rw [plainCount, show hugeArray.children = List.replicate 240 hugeDimension from rfl,
    List.filter_replicate_of_pos hdim, List.map_replicate, hcount, List.prod_replicate,
    hugeSize]

theorem plain_hugeArray :
    hugeProgram.Plain hugeArray { size := hugeSize, alignment := 1 } := by
  have hbyte : hugeProgram.Plain byteType { size := 1, alignment := 1 } :=
    plain_iff.2 ⟨[], .nil, rfl⟩
  refine plain_iff.2 ⟨[{ size := 1, alignment := 1 }], .cons hbyte .nil, ?_⟩
  rw [← plainCount_hugeArray, ← Int.one_mul (plainCount hugeArray)]
  rfl

theorem plain_hugeRecord :
    hugeProgram.Plain hugeRecord { size := 8, alignment := 1 } :=
  plain_iff.2 ⟨[_], .cons plain_hugeArray .nil, rfl⟩

theorem isWritable_hugeSize : Text.isWritable hugeSize = false := by
  rw [← Bool.not_eq_true, Text.isWritable, Text.fitsDigits_iff]
  decide +kernel

theorem not_tellable_hugeRecord : ¬ hugeProgram.Tellable true hugeRecord := by
  intro h
  have hmem : hugeArray ∈ hugeProgram.followed hugeRecord := List.mem_singleton_self hugeArray
  have hshort := h hugeArray _ (.single hmem) plain_hugeArray
  simp [Layout.isWritable, isWritable_hugeSize] at hshort

/-- The structure has a plain layout that is short, and no answer: on the way to it there is the
layout of its member. -/
theorem answer_hugeRecord :
    hugeProgram.Shallow ∧ hugeProgram.Holds hugeRecord ∧
      hugeProgram.Plain hugeRecord { size := 8, alignment := 1 } ∧
      hugeProgram.answer (start true 5000) hugeRecord = .error .unwritable := by
  have hholds : hugeProgram.Holds hugeRecord := rfl
  refine ⟨shallow_hugeProgram, hholds, plain_hugeRecord, ?_⟩
  have hno : ∀ q ∈ ([] : List Query), q.About hugeProgram := by simp
  have hcap : (0 : Int) ≤ 5000 := by decide
  rcases shallow_hugeProgram.answer_afterAll hcap hholds plain_hugeRecord hno with hok | herror
  · exact absurd (shallow_hugeProgram.tellable_of_answer_start hcap hholds hok)
      not_tellable_hugeRecord
  · exact herror.1

/-- Without the limit the structure has its answer, with the smallest cache and after its member was
asked for. -/
theorem answer_hugeRecord_unlimited :
    hugeProgram.answer (hugeProgram.afterAll (start false 0) [.type (some hugeArray)]) hugeRecord =
      .ok { size := 8, alignment := 1 } := by
  have hcap : (0 : Int) ≤ 0 := by decide
  have habout : ∀ q ∈ [Query.type (some hugeArray)], q.About hugeProgram := by
    rw [List.forall_mem_singleton]
    exact .type rfl
  obtain ⟨l, hl, -, hiff⟩ :=
    answer_afterAll_plain (d := hugeRecord) shallow_hugeProgram hcap rfl
  obtain rfl := (hl _).1 plain_hugeRecord
  exact hiff.2 (fun t l _ _ => by simp) _ habout

end Resolver

end PaddingAudit
