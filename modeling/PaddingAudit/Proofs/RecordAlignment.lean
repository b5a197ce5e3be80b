import PaddingAudit.Proofs.Invariant
import PaddingAudit.Proofs.Placement

/-!
# The alignment of a record

The alignment of a record is worked out in two places. A survey takes the largest among the fields
of the record; a resolver collects the needs of members and base classes when the record is the type
of something else. For a record without base classes whose members have types the two agree, in a
program with shallow chains that asks for no negative alignment.
-/

namespace PaddingAudit

open Debug PaddingAudit.Action

variable {limited : Bool}

namespace Resolver

variable {r : Resolver} {s t : Site} {l : Layout} {sc : Scene Cache}

/-- No type of the program asks for a negative alignment. -/
def AsksNonneg (r : Resolver) : Prop :=
  ∀ s ∈ r.sites, ∀ n, s.int? .alignment = some n → 0 ≤ n

theorem AsksNonneg.one_le_explicit (h : r.AsksNonneg) (hs : s ∈ r.sites) {n : Int}
    (hn : s.explicitAlignment? = some n) : 1 ≤ n := by
  obtain ⟨hint, hne⟩ := Option.filter_eq_some_iff.1 hn
  have hnonneg := h s hs n hint
  have hzero : n ≠ 0 := by simpa using hne
  omega

theorem one_le_alignment_derived {ls : List Layout} (h : ∀ l ∈ ls, 1 ≤ l.alignment) :
    1 ≤ (r.derived s ls).alignment := by
  have hhead : 1 ≤ (ls.headD .void).alignment :=
    headD_of_forall (V := fun l => 1 ≤ l.alignment) (Int.le_refl 1) h
  rcases r.derived_cases s ls with ⟨d, -, heq⟩ | heq | heq | heq <;> rw [heq]
  · exact one_le_effectiveAlignment _ _
  · exact hhead
  · simp only [plainArray]
    split
    · exact Int.le_max_right _ _
    · exact hhead
  · exact le_foldl_max 1 _

/-- An alignment of zero asks for nothing, and so no plain alignment is below one. -/
theorem Plain.one_le_alignment (h : r.AsksNonneg) (hl : r.Plain s l) (hs : r.Holds s) :
    1 ≤ l.alignment := by
  refine hl.induction (P := fun s l => r.Holds s → 1 ≤ l.alignment) (fun s ls hls hs => ?_) hs
  show 1 ≤ s.explicitAlignment?.getD (r.derived s ls).alignment
  cases ha : s.explicitAlignment? with
  | some n => exact h.one_le_explicit (List.mem_of_find?_eq_some hs) ha
  | none =>
    -- Each layout it is derived from belongs to a type that is followed, and so to the program.
    refine one_le_alignment_derived fun l hmem => ?_
    obtain ⟨i, hi, rfl⟩ := List.getElem_of_mem hmem
    have hlen := hls.length_eq
    exact (hls.get (by omega) hi).2 (holds_of_mem_followed (List.getElem_mem _))

/-- Without base classes the parts are the data members, if all of these have types. -/
theorem map_fst_parts {entries : List Entry} (hbase : ∀ e ∈ entries, e.isBaseClass = false)
    (htype : ∀ e ∈ entries.filter Entry.isDataMember, (e.target? r.sites).isSome) :
    (r.parts entries).map Prod.fst = entries.filter Entry.isDataMember := by
  induction entries with
  | nil => rfl
  | cons e entries ih =>
    have hrest := ih (fun e he => hbase e (by simp [he])) fun e' he' =>
      htype e' (by simp only [List.mem_filter, List.mem_cons] at he' ⊢; tauto)
    have hbase' := hbase e (by simp)
    by_cases hmember : e.isDataMember
    · obtain ⟨t, ht⟩ := Option.isSome_iff_exists.1 (htype e (by simp [hmember]))
      rw [List.filter_cons_of_pos hmember, ← hrest]
      simp [parts, hmember, ht]
    · rw [List.filter_cons_of_neg hmember, ← hrest]
      simp [parts, hmember, hbase']

/-- What the types of some parts and the parts themselves ask for. -/
theorem assemble_alignment {ls : List Layout} (hk : s.kind = .aggregate) :
    (r.assemble s ls).alignment = s.explicitAlignment?.getD
      (((r.parts s.children).zipWith
        (fun part l => max l.alignment (part.1.explicitAlignment?.getD 1)) ls).foldl max 1) := by
  simp only [assemble, demanded, derived, hk, plainAggregate]

/-- A member whose type has a plain layout is aligned as its type, or as it asks itself if that is
more. -/
theorem Shallow.ends_resolveMember {e : Entry} (hr : r.Shallow) (hpos : r.AsksNonneg)
    (ht : e.target? r.sites = some t) (h : r.Settled limited sc) :
    Ends (r.resolveMember e) sc
      (fun m sc' => r.Settled limited sc' ∧ ∃ l, r.Plain t l ∧
        m.alignment = max l.alignment (e.explicitAlignment?.getD 1))
      (fun f sc' => r.Settled limited sc' ∧ f = .unwritable ∧ ¬ r.Tellable limited t) := by
  have hholds := holds_of_target ht
  refine (e.quiet_followType r.sites).ends_bind ignoresAsides_settled h fun sc h => ?_
  rw [ht]
  refine (hr.ends_resolve hholds h).bind ?_
  rintro l sc ⟨h, hl⟩
  refine e.quiet_readAlignment.ends_bind ignoresAsides_settled h fun sc h => ?_
  -- A member that asks for nothing counts as asking for one, which its type needs anyway.
  have hone := hl.one_le_alignment hpos hholds
  cases e.explicitAlignment? with
  | some n => exact ⟨h, l, hl, rfl⟩
  | none => exact ⟨h, l, hl, by simp only [Option.getD_none]; omega⟩

end Resolver

namespace Survey

variable {sv : Survey} {s : Site} {sc : Scene State}

/-- A scene of a survey in which nothing was cut off and only plain layouts are kept. -/
def Settled (sv : Survey) (limited : Bool) (sc : Scene State) : Prop :=
  sv.resolver.Settled limited (layouts sc)

theorem Settled.note {es : List Event} (h : sv.Settled limited sc)
    (hes : ∀ e ∈ es, e.cutAt? = none) : sv.Settled limited (sc.note es) :=
  Resolver.Settled.note h hes

theorem ignoresAsides_settled : IgnoresAsides (sv.Settled limited) :=
  fun _ _ hes h => h.note fun e he => Event.cutAt?_of_isAside (hes e he)

theorem invariant_settled (hr : sv.resolver.Shallow) :
    sv.Invariant (fun _ => True) (sv.Settled limited) where
  note _ _ hes h := h.note hes
  counted _ _ h := h
  remember _ _ _ h := h
  resolve s hs sc h := by
    rw [resolving, ends_onPart]
    exact (hr.ends_resolve hs h).imp (fun _ _ => And.left) fun _ _ => And.left

/-- A type that is asked for is one of the program. -/
def Request.About (sv : Survey) : Request → Prop
  | .resolve (some s) => sv.resolver.Holds s
  | _ => True

theorem Request.About.concerns {q : Request} (h : q.About sv) :
    q.Concerns sv fun _ => True := by
  cases q with
  | resolve target =>
    cases target with
    | none => trivial
    | some s => exact h
  | _ => trivial

theorem settled_afterAll {qs : List Request} (hr : sv.resolver.Shallow)
    (hqs : ∀ q ∈ qs, q.About sv) (h : sv.Settled limited sc) :
    sv.Settled limited (sv.afterAll sc qs) :=
  (invariant_settled hr).afterAll (fun _ _ => trivial) (fun q hq => (hqs q hq).concerns) h

/-! ### Both alignments -/

theorem max?_getD_one {ns : List Int} (h : ∀ n ∈ ns, 1 ≤ n) : ns.max?.getD 1 = ns.foldl max 1 := by
  cases ns with
  | nil => rfl
  | cons n ns =>
    have hn : max 1 n = n := Int.max_eq_right (h n (by simp))
    rw [List.max?_cons', Option.getD_some, List.foldl_cons, hn]

/-- The names of all data members of a record can be written. -/
def NamesTellable (limited : Bool) (s : Site) : Prop :=
  ∀ e ∈ s.members, memberNameIsWritable e || !limited

theorem ends_fieldOf {e : Entry} {t : Site} (hr : sv.resolver.Shallow)
    (hpos : sv.resolver.AsksNonneg) (ht : e.target? sv.resolver.sites = some t)
    (h : sv.Settled limited sc) :
    Ends (sv.fieldOf e) sc
      (fun field sc' => sv.Settled limited sc' ∧ (memberNameIsWritable e || !limited) ∧
        ∃ l, sv.resolver.Plain t l ∧
          field.alignment = max l.alignment (e.explicitAlignment?.getD 1))
      (fun f _ => f = .unwritable ∧
        ¬ (sv.resolver.Tellable limited t ∧ (memberNameIsWritable e || !limited))) := by
  refine ends_bind.2 ((ends_onPart _ _).2 ((hr.ends_resolveMember hpos ht h).imp ?_ ?_))
  · rintro m sc' ⟨h', hm⟩
    have hlimited : sc'.limited = limited := h'.limited_eq
    rw [ends_bind]
    refine (spells_memberName e).ends (fun hname es hes => ?_)
      fun hlong es _ => ⟨rfl, fun hboth => ?_⟩
    · exact ⟨ignoresAsides_settled _ es hes h', hlimited ▸ hname, hm⟩
    · simp only [hlimited] at hlong
      simp [hlong] at hboth
  · rintro f sc' ⟨-, rfl, hlong⟩
    exact ⟨rfl, fun hboth => hlong hboth.1⟩

theorem ends_mapM_fieldOf (hr : sv.resolver.Shallow) (hpos : sv.resolver.AsksNonneg)
    {parts : List (Entry × Site)}
    (htype : ∀ part ∈ parts, part.1.target? sv.resolver.sites = some part.2)
    (h : sv.Settled limited sc) :
    Ends ((parts.map Prod.fst).mapM sv.fieldOf) sc
      (fun fields sc' => sv.Settled limited sc' ∧
        (∀ part ∈ parts, memberNameIsWritable part.1 || !limited) ∧
        (∀ n ∈ fields.map Field.alignment, 1 ≤ n) ∧ ∃ ls,
          List.Forall₂ sv.resolver.Plain (parts.map Prod.snd) ls ∧
          fields.map Field.alignment = parts.zipWith
            (fun part l => max l.alignment (part.1.explicitAlignment?.getD 1)) ls)
      (fun f _ => f = .unwritable ∧ ∃ part ∈ parts,
        ¬ (sv.resolver.Tellable limited part.2 ∧ (memberNameIsWritable part.1 || !limited))) := by
  induction parts generalizing sc with
  | nil => exact ⟨h, by simp, by simp, [], .nil, rfl⟩
  | cons part parts ih =>
    have htarget := htype part (by simp)
    rw [List.map_cons, List.mapM_cons]
    refine ends_bind.2 ((ends_fieldOf hr hpos htarget h).imp ?_
      fun f _ hf => ⟨hf.1, part, by simp, hf.2⟩)
    rintro field sc' ⟨h', hname, l, hl, hfield⟩
    have hrest := ih (fun p hp => htype p (by simp [hp])) h'
    refine ends_bind.2 (hrest.imp ?_ ?_)
    · rintro fields sc'' ⟨h'', hnames, hone, ls, hls, hfields⟩
      have hl' := hl.one_le_alignment hpos (Resolver.holds_of_target htarget)
      refine ⟨h'', List.forall_mem_cons.2 ⟨hname, hnames⟩, ?_, l :: ls, .cons hl hls,
        by simp [hfield, hfields]⟩
      rw [List.map_cons, List.forall_mem_cons]
      exact ⟨by omega, hone⟩
    · rintro f - ⟨hf, p, hp, hlong⟩
      exact ⟨hf, p, by simp [hp], hlong⟩

/-- What a survey works out for a record without base classes is its plain alignment. -/
theorem ends_alignmentOf (hr : sv.resolver.Shallow) (hpos : sv.resolver.AsksNonneg)
    (hk : s.kind = .aggregate) (hbase : ∀ e ∈ s.children, e.isBaseClass = false)
    (htype : ∀ e ∈ s.members, (e.target? sv.resolver.sites).isSome)
    (h : sv.Settled limited sc) :
    Ends (sv.alignmentOf s) sc
      (fun a _ => NamesTellable limited s ∧ ∃ l, sv.resolver.Plain s l ∧ a = l.alignment)
      (fun f _ => f = .unwritable ∧
        ¬ (sv.resolver.Tellable limited s ∧ NamesTellable limited s)) := by
  have hfollowed : sv.resolver.followed s = (sv.resolver.parts s.children).map Prod.snd := by
    simp only [Resolver.followed, hk]
  have htarget : ∀ part ∈ sv.resolver.parts s.children,
      part.1.target? sv.resolver.sites = some part.2 := fun _ hpart =>
    (Resolver.mem_parts_iff.1 hpart).2.2
  have hfields := ends_mapM_fieldOf hr hpos htarget h
  -- Only here do base classes matter: they are parts of a type, and not among the fields.
  have hmembers : (sv.resolver.parts s.children).map Prod.fst = s.members :=
    Resolver.map_fst_parts hbase htype
  rw [hmembers] at hfields
  refine ends_bind.2 (hfields.imp ?_ ?_)
  · rintro fields sc' ⟨-, hnames, hone, ls, hls, halign⟩
    rw [← hfollowed] at hls
    have hnamed : NamesTellable limited s := by
      intro e he
      rw [← hmembers] at he
      obtain ⟨part, hpart, rfl⟩ := List.mem_map.1 he
      exact hnames part hpart
    refine (quiet_alignmentFor s fields).ends fun _ _ =>
      ⟨hnamed, _, Resolver.plain_assemble hls, ?_⟩
    rw [Resolver.assemble_alignment hk, ← halign, ← max?_getD_one hone, plainAlignment]
  · rintro f - ⟨hf, part, hpart, hlong⟩
    refine ⟨hf, fun hboth => ?_⟩
    obtain ⟨htell, hnamed⟩ := hboth
    refine hlong ⟨htell.of_depends (.single ?_), hnamed part.1 ?_⟩
    · rw [hfollowed]
      exact List.mem_map_of_mem hpart
    · rw [← hmembers]
      exact List.mem_map_of_mem hpart

theorem kind_of_isRecord (h : s.tagged Tag.isRecord) : s.kind = .aggregate := by
  unfold Entry.tagged at h
  unfold Entry.kind
  cases htag : s.tag with
  | none => simp [htag] at h
  | some tag =>
    have hrecord : tag.isRecord := by simpa [htag] using h
    unfold Tag.isRecord at hrecord
    split at hrecord
    · rfl
    · rfl
    · cases hrecord

/-- In a settled scene both alignments are the plain one, unless a layout or a name cannot be
told. -/
theorem alignments_of_settled {l : Layout} (hr : sv.resolver.Shallow)
    (hpos : sv.resolver.AsksNonneg) (hs : sv.resolver.Holds s) (hl : sv.resolver.Plain s l)
    (hk : s.kind = .aggregate) (hbase : ∀ e ∈ s.children, e.isBaseClass = false)
    (htype : ∀ e ∈ s.members, (e.target? sv.resolver.sites).isSome)
    (h : sv.Settled limited sc) :
    ((sv.alignmentOf s).result sc = .ok l.alignment ∧ NamesTellable limited s ∨
      (sv.alignmentOf s).result sc = .error .unwritable ∧
        ¬ (sv.resolver.Tellable limited s ∧ NamesTellable limited s)) ∧
    ((sv.resolver.answer (layouts sc) s).map Layout.alignment = .ok l.alignment ∨
      (sv.resolver.answer (layouts sc) s).map Layout.alignment = .error .unwritable ∧
        ¬ sv.resolver.Tellable limited s) := by
  have hends := ends_alignmentOf hr hpos hk hbase htype h
  constructor
  · cases hx : sv.alignmentOf s sc with
    | ok a t =>
      obtain ⟨hnamed, m, hm, rfl⟩ := hends.ok hx
      exact .inl ⟨hl.unique hm ▸ result_of_ok hx, hnamed⟩
    | error f t =>
      obtain ⟨rfl, hlong⟩ := hends.error hx
      exact .inr ⟨result_of_error hx, hlong⟩
  · rcases Resolver.answer_of_ends (hr.ends_resolve hs h) with ⟨m, t, ha, -, hm⟩ | ⟨f, t, ha, hf⟩
    · exact .inl (by rw [ha, hl.unique hm]; rfl)
    · exact .inr ⟨by rw [ha, hf.2.1]; rfl, hf.2.2⟩

/-- The alignment of a record is the same whether a survey works it out from the fields or a
resolver from the parts of the type, namely that of its plain layout. The record has no base
classes, and all its members have types; chains of references are shallow, and no alignment asked
for is negative. Whatever was asked before, each of the two comes to this alignment or fails because
of a layout or a name too long to be told. Neither ever fails exactly if there is no such layout
among those that the record depends on, and no such name among those of its data members. -/
theorem alignmentOf_afterAll (sv : Survey) (limited : Bool) (s : Site) (hr : sv.resolver.Shallow)
    (hpos : sv.resolver.AsksNonneg) (hcache : 0 ≤ sv.tuning.cacheSize)
    (hs : sv.resolver.Holds s) (hrecord : s.tagged Tag.isRecord)
    (hbase : ∀ e ∈ s.children, e.isBaseClass = false)
    (htype : ∀ e ∈ s.members, (e.target? sv.resolver.sites).isSome) :
    ∃ l, sv.resolver.Plain s l ∧
      (∀ qs : List Request, (∀ q ∈ qs, q.About sv) →
        let sc := sv.afterAll (sv.start limited) qs
        ((sv.alignmentOf s).result sc = .ok l.alignment ∨
          (sv.alignmentOf s).result sc = .error .unwritable) ∧
        ((sv.resolver.answer (layouts sc) s).map Layout.alignment = .ok l.alignment ∨
          (sv.resolver.answer (layouts sc) s).map Layout.alignment = .error .unwritable)) ∧
      ((∀ qs : List Request, (∀ q ∈ qs, q.About sv) →
          let sc := sv.afterAll (sv.start limited) qs
          (sv.alignmentOf s).result sc = .ok l.alignment ∧
            (sv.resolver.answer (layouts sc) s).map Layout.alignment = .ok l.alignment) ↔
        sv.resolver.Tellable limited s ∧ NamesTellable limited s) := by
  obtain ⟨l, hl⟩ := (hr.within hs).exists_plain
  have hstart : sv.Settled limited (sv.start limited) := Resolver.settled_start hcache
  have hboth := fun (qs : List Request) (hqs : ∀ q ∈ qs, q.About sv) =>
    alignments_of_settled hr hpos hs hl (kind_of_isRecord hrecord) hbase htype
      (settled_afterAll hr hqs hstart)
  refine ⟨l, hl, fun qs hqs => ?_, fun h => ⟨?_, ?_⟩, fun htell qs hqs => ?_⟩
  · exact (hboth qs hqs).imp (.imp And.left And.left) (.imp_right And.left)
  · -- The first answer of the resolver settles it: nothing was kept yet that could hide a layout.
    have hanswer := (h [] (by simp)).2
    cases ha : sv.resolver.answer (layouts (sv.start limited)) s with
    | ok m => exact hr.tellable_of_answer_start hcache hs ha
    | error f =>
      rw [show sv.afterAll (sv.start limited) [] = sv.start limited from rfl, ha] at hanswer
      cases hanswer
  · rcases (hboth [] (by simp)).1 with ⟨-, hnamed⟩ | ⟨hfailed, -⟩
    · exact hnamed
    · rw [(h [] (by simp)).1] at hfailed
      cases hfailed
  · obtain ⟨hsurvey, hresolver⟩ := hboth qs hqs
    exact ⟨(hsurvey.resolve_right fun hf => hf.2 htell).1,
      hresolver.resolve_right fun hf => hf.2 htell.1⟩

/-! ### Two records -/

/-- A byte that asks for sixteen times its alignment, a static number, and a number. -/
def shelfRecord : Site where
  tag := some .structureType
  offset := 1
  attributes := [(.byteSize, { value := .int 32 })]
  children :=
    [{ tag := some .member, offset := 4,
       attributes := [(.type, { value := .int 3 }), (.alignment, { value := .int 16 })] },
     { tag := some .member, offset := 5,
       attributes := [(.type, { value := .int 2 }), (.external, { value := .bool true })] },
     Resolver.memberOf 2]

def shelfSurvey : Survey where
  resolver := { platform := {}, sites := [shelfRecord, numberType, Resolver.byteType] }
  units := []
  tuning := { cacheSize := 1 }

/-- Both alignments are that of the byte, also after the number was asked for alone. -/
theorem alignmentOf_shelfRecord :
    let sc := shelfSurvey.afterAll (shelfSurvey.start false) [.resolve (some numberType)]
    (shelfSurvey.alignmentOf shelfRecord).result sc = .ok 16 ∧
      (shelfSurvey.resolver.answer (layouts sc) shelfRecord).map Layout.alignment = .ok 16 := by
  obtain ⟨l, hl, -, hiff⟩ := alignmentOf_afterAll shelfSurvey false shelfRecord
    (Resolver.shallow_of_sites (by decide +kernel)) (nonneg_of_all (by decide +kernel))
    (by decide) rfl rfl (by decide +kernel) (by decide +kernel)
  have habout : ∀ q ∈ [Request.resolve (some numberType)], q.About shelfSurvey := by
    rw [List.forall_mem_singleton]
    exact rfl
  have hnumber : shelfSurvey.resolver.Plain numberType { size := 4, alignment := 4 } :=
    Resolver.plain_iff.2 ⟨[], .nil, rfl⟩
  have hbyte : shelfSurvey.resolver.Plain Resolver.byteType { size := 1, alignment := 1 } :=
    Resolver.plain_iff.2 ⟨[], .nil, rfl⟩
  have hplain : shelfSurvey.resolver.Plain shelfRecord { size := 32, alignment := 16 } :=
    Resolver.plain_iff.2 ⟨[_, _], .cons hbyte (.cons hnumber .nil), rfl⟩
  obtain rfl := hl.unique hplain
  exact hiff.2 ⟨fun _ _ _ _ => by simp, fun _ _ => by simp⟩ _ habout

def hugeSurvey : Survey where
  resolver := Resolver.hugeProgram
  units := []

/-- The survey fails to work out the alignment of the structure. The resolver that is asked next
finds the array in the cache, and gives an alignment. -/
theorem alignmentOf_hugeRecord :
    hugeSurvey.resolver.Shallow ∧ hugeSurvey.resolver.AsksNonneg ∧
      hugeSurvey.resolver.Holds Resolver.hugeRecord ∧
      Resolver.hugeRecord.tagged Tag.isRecord ∧
      (∀ e ∈ Resolver.hugeRecord.children, e.isBaseClass = false) ∧
      (∀ e ∈ Resolver.hugeRecord.members, (e.target? hugeSurvey.resolver.sites).isSome) ∧
      (hugeSurvey.alignmentOf Resolver.hugeRecord).result (hugeSurvey.start true) =
        .error .unwritable ∧
      (hugeSurvey.resolver.answer (layouts (hugeSurvey.afterAll (hugeSurvey.start true)
        [.alignmentOf Resolver.hugeRecord])) Resolver.hugeRecord).map Layout.alignment = .ok 1 := by
  refine ⟨Resolver.shallow_hugeProgram, nonneg_of_all (by decide +kernel), rfl, rfl,
    by decide +kernel, by decide +kernel, by decide +kernel, by decide +kernel⟩

end Survey

end PaddingAudit
