import PaddingAudit.Proofs.Contract
import PaddingAudit.Proofs.Query
import PaddingAudit.Proofs.Survey

/-!
# Records by name

A survey that is given names leaves out the other records, and with them all that would have been
resolved for their sake. In a program with shallow chains this makes no difference to the records
that it hands on: what a visit comes to is the same in all honest scenes. An honest scene is one
that remembers plain layouts only, and of each unit its own source files.
-/

namespace PaddingAudit

open Debug PaddingAudit.Action

variable {ι α β : Type} {limited : Bool}

namespace Resolver

variable {r : Resolver} {s : Site} {sc : Scene Cache}

/-- A scene in which nothing was cut off, and in which only plain layouts are kept that could be
told. -/
structure Truthful (r : Resolver) (limited : Bool) (sc : Scene Cache) : Prop
    extends r.Settled limited sc where
  tellable : Kept r.Holds (fun t l => r.Plain t l ∧ r.Tellable limited t) sc

/-- In a truthful scene a type is resolved if and only if all that it depends on can be told. -/
theorem Shallow.ends_resolve_truthful (hr : r.Shallow) (hs : r.Holds s)
    (h : r.Truthful limited sc) :
    Ends (r.resolve (some s)) sc
      (fun l sc' => r.Truthful limited sc' ∧ sc'.state.capacity = sc.state.capacity ∧
        r.Plain s l ∧ r.Tellable limited s)
      (fun e _ => e = .unwritable ∧ ¬ r.Tellable limited s) := by
  have htell := ends_resolveWithin r.closed_holds (assembles_tellable r limited _) maxDepth [] hs
    h.capacity_nonneg h.limited_eq
  refine (htell.and (hr.ends_resolve hs h.toSettled)).imp ?_ ?_
  · rintro l sc' ⟨hl, hsettled, hplain⟩
    have hkept := hl.kept hsettled.uncut h.tellable
    exact ⟨⟨hsettled, hkept⟩, hl.continues.capacity_eq, hplain,
      (hl.layout hsettled.uncut h.tellable hs).2⟩
  · rintro e sc' ⟨-, -, he⟩
    exact he

end Resolver

namespace Survey

variable {sv : Survey} {sc sc' : Scene State}

/-- A scene that remembers nothing but what is true of the program, in a cache as large as it was at
the start. -/
structure Honest (sv : Survey) (limited : Bool) (sc : Scene State) : Prop where
  truthful : sv.resolver.Truthful limited (layouts sc)
  capacity_eq : sc.state.cache.capacity = sv.tuning.cacheSize
  tables : ∀ u ∈ sv.units, ∀ table, sc.state.tables.lookup u.offset = some table →
    table = .ofLineProgram u.lineProgram

namespace Honest

theorem start (hc : 0 ≤ sv.tuning.cacheSize) : sv.Honest limited (sv.start limited) where
  truthful := ⟨Resolver.settled_start hc, Resolver.kept_start _ _⟩
  capacity_eq := rfl
  tables u _ table h := by simp [Survey.start, State.fresh] at h

theorem note {es : List Event} (h : sv.Honest limited sc) (hes : ∀ e ∈ es, e.cutAt? = none) :
    sv.Honest limited (sc.note es) :=
  ⟨⟨h.truthful.toSettled.note hes, h.truthful.tellable⟩, h.capacity_eq, h.tables⟩

theorem log {e : Event} (h : sv.Honest limited sc) (he : e.cutAt? = none) :
    sv.Honest limited (sc.note [e]) :=
  h.note (by simpa using he)

theorem counted (h : sv.Honest limited sc) (counts : Progress) :
    sv.Honest limited { sc with state := { sc.state with progress := counts } } :=
  ⟨h.truthful, h.capacity_eq, h.tables⟩

theorem entered (h : sv.Honest limited sc) (offset : Int) :
    sv.Honest limited (entered sc offset) :=
  (h.counted _).log rfl

theorem remembering {u : CompilationUnit} (hunits : (sv.units.map fun u => u.offset).Nodup)
    (hu : u ∈ sv.units) (h : sv.Honest limited sc) : sv.Honest limited (remembering u sc) :=
  ⟨h.truthful, h.capacity_eq, OwnFiles.remembering hunits hu h.tables⟩

theorem closable_eq (h : sv.Honest limited sc) : closable sc = closable (sv.start limited) := by
  have hlimited : sc.limited = limited := h.truthful.limited_eq
  rw [closable, h.capacity_eq, hlimited]
  rfl

end Honest

/-- A step that comes to the same in all honest scenes, and leaves an honest scene behind unless it
fails. -/
def Determined (sv : Survey) (limited : Bool) (x : Action Failure State α) : Prop :=
  ∃ outcome : Except Failure α, ∀ sc, sv.Honest limited sc →
    Ends x sc (fun a sc' => outcome = .ok a ∧ sv.Honest limited sc') (fun e _ => outcome = .error e)

namespace Determined

variable {x : Action Failure State α} {f : α → Action Failure State β}

theorem bind (hx : sv.Determined limited x)
    (hf : ∀ a s t, x s = .ok a t → sv.Determined limited (f a)) :
    sv.Determined limited (x >>= f) := by
  obtain ⟨outcome, hx⟩ := hx
  by_cases hreached : ∃ a s t, outcome = .ok a ∧ x s = .ok a t
  · obtain ⟨a, s, t, rfl, hst⟩ := hreached
    obtain ⟨final, hfinal⟩ := hf a s t hst
    refine ⟨final, fun sc hsc => ends_bind.2 ((hx sc hsc).imp ?_ ?_)⟩
    · rintro b sc' ⟨hb, hsc'⟩
      cases hb
      exact hfinal sc' hsc'
    · intro e sc' he
      cases he
  · -- The first part fails wherever it is tried.
    refine ⟨outcome.bind fun _ => .error .unwritable, fun sc hsc => ?_⟩
    cases hxs : x sc with
    | ok a t =>
      have ha := ((hx sc hsc).ok hxs).1
      exact absurd ⟨a, sc, t, ha, hxs⟩ hreached
    | error e t =>
      rw [(hx sc hsc).error hxs]
      exact Ends.of_error (bind_error hxs f) rfl

theorem spells {b : Bool} {a : α} (h : Spells x b a) : sv.Determined limited x := by
  refine ⟨if b || !limited then .ok a else .error .unwritable, fun sc hsc => ?_⟩
  have hlimited : sc.limited = limited := hsc.truthful.limited_eq
  refine h.ends (fun hwritable es hes => ?_) fun hlong _ _ => ?_
  · rw [hlimited] at hwritable
    exact ⟨if_pos hwritable, hsc.note fun e he => Event.cutAt?_of_isAside (hes e he)⟩
  · rw [hlimited] at hlong
    rw [hlong]
    rfl

theorem fail (e : Failure) : sv.Determined limited (fail e : Action Failure State α) :=
  ⟨.error e, fun _ _ => rfl⟩

theorem tell {e : Event} (he : e.cutAt? = none) : sv.Determined limited (Action.tell e) := by
  refine ⟨if e.isWritable || !limited then .ok () else .error .unwritable, fun sc hsc => ?_⟩
  have hlimited : sc.limited = limited := hsc.truthful.limited_eq
  rw [ends_tell, hlimited]
  split
  · exact ⟨rfl, hsc.log he⟩
  · rfl

theorem update (g : Progress → Progress) : sv.Determined limited (Progress.update g) :=
  ⟨.ok (), fun _ hsc => ⟨rfl, hsc.counted _⟩⟩

theorem resolving {s : Site} (hr : sv.resolver.Shallow) (hs : sv.resolver.Holds s) :
    sv.Determined limited (resolving (sv.resolver.resolve (some s))) := by
  have hends := fun sc (hsc : sv.Honest limited sc) => hr.ends_resolve_truthful hs hsc.truthful
  by_cases htell : sv.resolver.Tellable limited s
  · obtain ⟨l, hl⟩ := (hr.within hs).exists_plain
    refine ⟨.ok l, fun sc hsc => ?_⟩
    rw [Survey.resolving, ends_onPart]
    refine (hends sc hsc).imp ?_ fun e sc' he => absurd htell he.2
    rintro m sc' ⟨hsc', hcapacity, hm, -⟩
    exact ⟨by rw [hl.unique hm], hsc', hcapacity.trans hsc.capacity_eq, hsc.tables⟩
  · refine ⟨.error .unwritable, fun sc hsc => ?_⟩
    rw [Survey.resolving, ends_onPart]
    refine (hends sc hsc).imp (fun l sc' h => absurd h.2.2.2 htell) ?_
    rintro e sc' ⟨rfl, -⟩
    rfl

theorem fileTable {u : CompilationUnit} (hunits : (sv.units.map fun u => u.offset).Nodup)
    (hu : u ∈ sv.units) : sv.Determined limited (fileTable u) := by
  refine ⟨.ok (.ofLineProgram u.lineProgram), fun sc hsc => ?_⟩
  cases hf : sc.state.tables.lookup u.offset with
  | some table =>
    exact Ends.of_ok (fileTable_of_known hf) ⟨by rw [hsc.tables u hu table hf], hsc⟩
  | none =>
    obtain ⟨es, hes, hok⟩ := fileTable_of_unknown hf
    exact Ends.of_ok hok ⟨rfl, (hsc.note hes).remembering hunits hu⟩

/-- In an honest scene a determined step does what it does at the start. -/
theorem ends (hx : sv.Determined limited x) (hc : 0 ≤ sv.tuning.cacheSize)
    (hsc : sv.Honest limited sc) :
    Ends x sc (fun a sc' => x.result (sv.start limited) = .ok a ∧ sv.Honest limited sc')
      (fun e _ => x.result (sv.start limited) = .error e) := by
  obtain ⟨outcome, hx⟩ := hx
  have hstart : x.result (sv.start limited) = outcome :=
    Ends.result_eq ((hx _ (.start hc)).imp (fun _ _ => And.left) fun _ _ => id)
  rw [hstart]
  exact hx sc hsc

end Determined

/-- A survey whose visits are determined: chains of references are shallow, units have offsets of
their own, and the cache is not overdrawn. -/
structure Steady (sv : Survey) : Prop where
  shallow : sv.resolver.Shallow
  nodup_units : (sv.units.map fun u => u.offset).Nodup
  cacheSize_nonneg : 0 ≤ sv.tuning.cacheSize

theorem Steady.regular (h : sv.Steady) : sv.Regular (· ∈ sv.units) (sv.Determined limited) where
  bind := Determined.bind
  spells := Determined.spells
  tell _ _ _ := Determined.tell rfl
  countEntry := Determined.update _
  countSkipped := Determined.update _
  resolve _ hs := Determined.resolving h.shallow hs
  fileTable _ hu := Determined.fileTable h.nodup_units hu

theorem Steady.recordAt {u : CompilationUnit} (h : sv.Steady) (hu : u ∈ sv.units)
    (visit : Visit) : sv.Determined limited (sv.recordAt u visit) :=
  h.regular.recordAt_of_fail Determined.fail hu visit

/-! ### Walks -/

/-- What has become of a list when a step was made for each record in it, unless a step has
interrupted. After the last record the walk may fail. -/
def handOver (step : β → Record → Except ι β) (failure? : Option Failure) :
    List Record → β → Except Failure (Except ι β)
  | [], b => failure?.elim (.ok (.ok b)) .error
  | r :: rs, b =>
    match step b r with
    | .error interruption => .ok (.error interruption)
    | .ok next => handOver step failure? rs next

/-- The visits to some units, each with its unit. -/
def walk (units : List CompilationUnit) : List (CompilationUnit × Visit) :=
  units.flatMap fun u => u.visits.map (Prod.mk u)

/-- The records that are found on a walk if each visit is the first one, and the failure that the
walk ends with, if any does. At the end of a walk the figures of the cache are told, if they can
be. -/
def sightings (sv : Survey) (limited : Bool) :
    List (CompilationUnit × Visit) → List (Visit × Record) × Option Failure
  | [] => ([], if closable (sv.start limited) then none else some .unwritable)
  | (u, visit) :: visits =>
    let (found, failure?) := sv.sightings limited visits
    match (sv.recordAt u visit).result (sv.start limited) with
    | .error e => ([], some e)
    | .ok none => (found, failure?)
    | .ok (some r) => ((visit, r) :: found, failure?)

/-- What becomes of a value on a walk. -/
def told (sv : Survey) (limited : Bool) (step : β → Record → Except ι β)
    (visits : List (CompilationUnit × Visit)) (b : β) : Except Failure (Except ι β) :=
  handOver step (sv.sightings limited visits).2 ((sv.sightings limited visits).1.map Prod.snd) b

section Walk

variable {step : β → Record → Except ι β} {u : CompilationUnit} {visit : Visit}
  {visits rest : List (CompilationUnit × Visit)}

theorem sightings_of_error {e : Failure}
    (h : (sv.recordAt u visit).result (sv.start limited) = .error e) :
    sv.sightings limited ((u, visit) :: visits) = ([], some e) := by
  simp [sightings, h]

theorem sightings_of_none (h : (sv.recordAt u visit).result (sv.start limited) = .ok none) :
    sv.sightings limited ((u, visit) :: visits) = sv.sightings limited visits := by
  simp [sightings, h]

theorem sightings_of_some {r : Record}
    (h : (sv.recordAt u visit).result (sv.start limited) = .ok (some r)) :
    sv.sightings limited ((u, visit) :: visits) =
      ((visit, r) :: (sv.sightings limited visits).1, (sv.sightings limited visits).2) := by
  simp [sightings, h]

theorem told_of_error {e : Failure}
    (h : (sv.recordAt u visit).result (sv.start limited) = .error e) (b : β) :
    sv.told limited step ((u, visit) :: visits) b = .error e := by
  simp [told, sightings_of_error h, handOver]

theorem told_of_none (h : (sv.recordAt u visit).result (sv.start limited) = .ok none) (b : β) :
    sv.told limited step ((u, visit) :: visits) b = sv.told limited step visits b := by
  rw [told, sightings_of_none h, told]

theorem told_of_some {r : Record}
    (h : (sv.recordAt u visit).result (sv.start limited) = .ok (some r)) (b : β) :
    sv.told limited step ((u, visit) :: visits) b =
      match step b r with
      | .error interruption => .ok (.error interruption)
      | .ok next => sv.told limited step visits next := by
  simp only [told, sightings_of_some h, List.map_cons, handOver]

/-- How a part of a walk ends that comes to `value` with the rest: the rest is still to be gone
through, unless a step has interrupted. -/
def Leaves (sv : Survey) (limited : Bool) (step : β → Record → Except ι β)
    (rest : List (CompilationUnit × Visit)) (value : Except Failure (Except ι β)) :
    Except ι (List Identity × β) → Scene State → Prop
  | .error interruption, _ => value = .ok (.error interruption)
  | .ok (_, next), sc => sv.Honest limited sc ∧ value = sv.told limited step rest next

theorem Leaves.log {value : Except Failure (Except ι β)} {out : Except ι (List Identity × β)}
    {e : Event} (he : e.cutAt? = none) (h : sv.Leaves limited step rest value out sc) :
    sv.Leaves limited step rest value out (sc.note [e]) := by
  cases out with
  | error interruption => exact h
  | ok next => exact ⟨h.1.log he, h.2⟩

theorem Steady.ends_foldVisits (h : sv.Steady) (hall : sv.tuning.deduplicate = false)
    (hu : u ∈ sv.units) (vs : List Visit) (rest : List (CompilationUnit × Visit))
    (seen : List Identity) (b : β) (hsc : sv.Honest limited sc) :
    Ends (sv.foldVisits (fun b r => pure (step b r)) u vs seen b) sc
      (sv.Leaves limited step rest (sv.told limited step (vs.map (Prod.mk u) ++ rest) b))
      (fun e _ => sv.told limited step (vs.map (Prod.mk u) ++ rest) b = .error e) := by
  induction vs generalizing seen b sc with
  | nil => exact ⟨hsc, rfl⟩
  | cons visit vs ih =>
    rw [List.map_cons, List.cons_append]
    refine ends_bind.2 (((h.recordAt hu visit).ends h.cacheSize_nonneg hsc).imp ?_ ?_)
    · rintro (_ | r) sc' ⟨hvisit, hsc'⟩
      · rw [told_of_none hvisit]
        exact ih seen b hsc'
      have hnew : sv.isRepeated seen r = false := by simp [isRepeated, hall]
      rw [told_of_some hvisit]
      simp only [hnew, Bool.false_eq_true, if_false, pure_bind]
      refine ends_bind.2 ?_
      cases step b r with
      | error interruption => exact rfl
      | ok next => exact ih _ next (hsc'.counted _)
    · intro e sc' hvisit
      rw [told_of_error hvisit]

theorem Steady.ends_foldUnits (h : sv.Steady) (hall : sv.tuning.deduplicate = false)
    (units : List CompilationUnit) (hunits : ∀ u ∈ units, u ∈ sv.units)
    (seen : List Identity) (b : β) (hsc : sv.Honest limited sc) :
    Ends (sv.foldUnits (fun b r => pure (step b r)) units seen b) sc
      (sv.Leaves limited step [] (sv.told limited step (walk units) b))
      (fun e _ => sv.told limited step (walk units) b = .error e) := by
  induction units generalizing seen b sc with
  | nil => exact ⟨hsc, rfl⟩
  | cons u units ih =>
    have hwork : Ends (sv.foldVisits (fun b r => pure (step b r)) u u.visits seen b) _ _ _ :=
      h.ends_foldVisits hall (hunits u (by simp)) u.visits (walk units) seen b
        (hsc.entered u.offset)
    have hwalk : walk (u :: units) = u.visits.map (Prod.mk u) ++ walk units := by
      simp [walk]
    rw [hwalk]
    refine ends_bind.2 ((ends_trackUnit (fun _ _ _ => Leaves.log) (fun _ _ _ _ => id) hwork).imp ?_
      fun _ _ => id)
    rintro (interruption | ⟨reported, next⟩) sc' hsc'
    · exact hsc'
    · rw [hsc'.2]
      exact ih (fun v hv => hunits v (by simp [hv])) reported next hsc'.1

/-- A whole walk comes to what is told of single visits. -/
theorem Steady.result_foldRecords (h : sv.Steady) (hall : sv.tuning.deduplicate = false)
    (step : β → Record → Except ι β) (b : β) :
    (sv.foldRecords (fun b r => pure (step b r)) b).result (sv.start limited) =
      sv.told limited step (walk sv.units) b := by
  refine Ends.result_eq (ends_bind.2 ?_)
  refine (h.ends_foldUnits hall sv.units (fun _ => id) [] b (.start h.cacheSize_nonneg)).imp ?_
    fun _ _ => id
  rintro (interruption | ⟨reported, result⟩) sc' hsc'
  · exact hsc'
  obtain ⟨hhonest, hvalue⟩ := hsc'
  rw [hvalue, told, sightings, List.map_nil, handOver]
  show Ends (closeWalk >>= _) sc' _ _
  rw [ends_bind, ends_closeWalk, hhonest.closable_eq]
  cases closable (sv.start limited) <;> rfl

end Walk

/-- The end of an enumeration that has handed on some records. -/
def ending (rs : List Record) (failure? : Option Failure) : Except Failure (List Record) :=
  failure?.elim (.ok rs) .error

/-- A survey hands on some records, one after the other, and then ends or fails. Whoever wants no
more of them than there are does not see how it ends. -/
structure Yields (sv : Survey) (sc : Scene State) (rs : List Record) (failure? : Option Failure) :
    Prop where
  first : ∀ limit, (sv.firstRecords limit).result sc =
    if limit ≤ rs.length then .ok (rs.take limit) else ending rs failure?
  all : sv.records.result sc = ending rs failure?

theorem handOver_collect (failure? : Option Failure) (rs done : List Record) :
    handOver (ι := Empty) (fun rs r => .ok (rs ++ [r])) failure? rs done =
      (ending (done ++ rs) failure?).map .ok := by
  induction rs generalizing done with
  | nil => cases failure? <;> simp [handOver, ending, Except.map]
  | cons r rs ih => simp [handOver, ih]

theorem handOver_stepUpTo {limit : Nat} {done : List Record} (h : done.length < limit)
    (failure? : Option Failure) (rs : List Record) :
    handOver (stepUpTo limit) failure? rs done =
      if limit ≤ (done ++ rs).length then .ok (.error ((done ++ rs).take limit))
      else (ending (done ++ rs) failure?).map .ok := by
  induction rs generalizing done with
  | nil =>
    have hnot : ¬ limit ≤ (done ++ []).length := by simpa using h
    rw [if_neg hnot]
    cases failure? <;> simp [handOver, ending, Except.map]
  | cons r rs ih =>
    by_cases hnext : done.length + 1 < limit
    · have hlength : (done ++ [r]).length < limit := by simpa using hnext
      simp only [handOver, stepUpTo, if_pos hnext]
      rw [ih hlength]
      simp
    · -- This is the last record wanted.
      have hlimit : limit = (done ++ [r]).length := by simp; omega
      have hle : limit ≤ (done ++ r :: rs).length := by simp at hlimit ⊢; omega
      have htake : (done ++ r :: rs).take limit = done ++ [r] := by
        rw [hlimit, List.append_cons done r rs, List.take_left]
      simp only [handOver, stepUpTo, if_neg hnext, if_pos hle, htake]

theorem result_bind_pure {x : Action Failure State α} {f : α → Action Failure State β} {g : α → β}
    (h : ∀ a, f a = pure (g a)) (sc : Scene State) : (x >>= f).result sc = (x.result sc).map g := by
  cases hx : x sc with
  | error e t => rw [result_of_error hx, result_of_error (bind_error hx f)]; rfl
  | ok a t =>
    have hok : (x >>= f) sc = .ok (g a) t := by
      rw [bind_ok hx, h]
      rfl
    rw [result_of_ok hx, result_of_ok hok]
    rfl

/-- A survey yields what it hands over to whatever is done with the records. -/
theorem yields_of_result {rs : List Record} {failure? : Option Failure}
    (h : ∀ {ι β : Type} (step : β → Record → Except ι β) (b : β),
      (sv.foldRecords (fun b r => pure (step b r)) b).result sc = handOver step failure? rs b) :
    sv.Yields sc rs failure? := by
  constructor
  · intro limit
    unfold firstRecords
    split
    · rename_i hzero
      simp [hzero]
      rfl
    have hfold : (sv.foldRecords (fun rs r => pure (stepUpTo limit rs r)) []).result sc =
        handOver (stepUpTo limit) failure? rs [] := h (stepUpTo limit) []
    rw [handOver_stepUpTo (by simp; omega)] at hfold
    refine (result_bind_pure (g := handedOn) ?_ _).trans ((congrArg _ hfold).trans ?_)
    · rintro (rs | rs) <;> rfl
    · rw [List.nil_append]
      split
      · rfl
      · cases failure? <;> rfl
  · unfold records
    refine (result_bind_pure (g := fun out => out.toOption.getD []) ?_ _).trans ?_
    · rintro (impossible | rs)
      · exact impossible.elim
      · rfl
    rw [h (fun rs r => .ok (rs ++ [r])) [], handOver_collect]
    cases failure? <;> rfl

/-- A steady survey without suppression of duplicates hands on what single visits come to. -/
theorem Steady.yields (h : sv.Steady) (hall : sv.tuning.deduplicate = false) :
    sv.Yields (sv.start limited) ((sv.sightings limited (walk sv.units)).1.map Prod.snd)
      (sv.sightings limited (walk sv.units)).2 :=
  yields_of_result (h.result_foldRecords hall)

/-! ### Selection -/

/-- A visit to an entry that goes by one of some names, with its scopes or without. -/
def isNamed (names : List String) (visit : Visit) : Bool :=
  visit.site?.any fun s => s.qualifiedName?.any names.contains || s.name?.any names.contains

/-- The same survey for some names only. -/
def withNames (sv : Survey) (names : List String) : Survey :=
  { sv with names := some names }

section Selection

variable {names : List String} {u : CompilationUnit}

/-- An entry that goes by one of the names is treated as if there were none. -/
theorem recordAt_withNames (hnone : sv.names = none) {visit : Visit}
    (h : ∀ s, visit = .site s → isNamed names visit) :
    (sv.withNames names).recordAt u visit = sv.recordAt u visit := by
  cases visit with
  | broken message => rfl
  | gap => rfl
  | site s =>
    have hnamed : (sv.withNames names).selects s = true := h s rfl
    have hany : sv.selects s = true := by simp [selects, hnone]
    have hrecord : (sv.withNames names).recordOf u s = sv.recordOf u s := by
      funext unit
      unfold recordOf
      rw [hnamed, hany]
      rfl
    simp only [recordAt, hrecord]

/-- Any other entry is passed over, if its name can be written. -/
theorem recordOf_withNames_of_not {s : Site} {unit : String} (h : isNamed names (.site s) = false)
    (sc : Scene State) :
    ((sv.withNames names).recordOf u s unit).result sc = .ok none ∨
      ((sv.withNames names).recordOf u s unit).result sc = .error .unwritable ∧
        (sv.recordOf u s unit).result sc = .error .unwritable := by
  have hnot : (sv.withNames names).selects s = false := h
  unfold recordOf
  simp only [hnot, Bool.not_false, if_true]
  cases hname : s.qualifiedNameIsWritable || !sc.limited with
  | false =>
    have hread : s.readQualifiedName sc = .error .unwritable sc := write_of_refused hname _
    exact .inr ⟨result_of_error (bind_error hread _), result_of_error (bind_error hread _)⟩
  | true =>
    have hread : s.readQualifiedName sc = .ok s.qualifiedName? sc := write_of_permitted hname _
    exact .inl (result_of_ok (bind_ok hread _))

theorem recordAt_withNames_of_not (sv : Survey) (u : CompilationUnit) {s : Site}
    (h : isNamed names (.site s) = false) (sc : Scene State) :
    ((sv.withNames names).recordAt u (.site s)).result sc = .ok none ∨
      ((sv.withNames names).recordAt u (.site s)).result sc = .error .unwritable ∧
        (sv.recordAt u (.site s)).result sc = .error .unwritable := by
  cases hunit : u.top.nameIsWritable || !sc.limited with
  | false =>
    have hread : u.readName sc = .error .unwritable sc := write_of_refused hunit _
    exact .inr ⟨result_of_error (bind_error hread _), result_of_error (bind_error hread _)⟩
  | true =>
    have hread : u.readName sc = .ok u.displayName sc := write_of_permitted hunit _
    unfold result recordAt
    rw [bind_ok hread, bind_ok hread]
    by_cases htag : s.tagged Tag.isRecord
    · simp only [htag, if_true]
      exact recordOf_withNames_of_not h _
    · simp only [htag, Bool.false_eq_true, if_false]
      exact .inl rfl

/-- A visit fails for the limit on decimal text, or at an entry that cannot be read. -/
theorem unwritable_of_recordAt (hc : 0 ≤ sv.tuning.cacheSize) {visit : Visit}
    (hsound : ∀ message, visit ≠ .broken message) {e : Failure}
    (h : (sv.recordAt u visit).result (sv.start limited) = .error e) :
    e = .unwritable ∧ limited = true := by
  have hsturdy := (regular_sturdy sv).recordAt (u := u) trivial hsound (sv.start limited) hc
  cases hx : sv.recordAt u visit (sv.start limited) with
  | ok r? t =>
    rw [result_of_ok hx] at h
    cases h
  | error e' t =>
    rw [result_of_error hx] at h
    cases h
    exact hsturdy.error hx

/-- Without the limit no visit fails for it, not even one to an entry that cannot be read. -/
theorem limited_of_recordAt (hc : 0 ≤ sv.tuning.cacheSize) {visit : Visit}
    (h : (sv.recordAt u visit).result (sv.start limited) = .error .unwritable) :
    limited = true := by
  by_cases hbroken : ∃ message, visit = .broken message
  · obtain ⟨message, rfl⟩ := hbroken
    cases hunit : u.top.nameIsWritable || !limited with
    | false => simp_all
    | true =>
      have hread : u.readName (sv.start limited) = .ok u.displayName (sv.start limited) :=
        write_of_permitted hunit _
      rw [result_of_error (bind_ok hread _)] at h
      cases h
  · exact (unwritable_of_recordAt hc (fun message hv => hbroken ⟨message, hv⟩) h).2

theorem isSite_of_recordAt {visit : Visit} {r : Record}
    (h : (sv.recordAt u visit).result sc = .ok (some r)) : ∃ s, visit = .site s := by
  obtain ⟨t, ht⟩ := ok_of_result h
  obtain ⟨unit, t', -, hvisit⟩ := of_bind_ok ht
  cases visit with
  | broken message => cases hvisit
  | gap => cases hvisit
  | site s => exact ⟨s, rfl⟩

/-- With names a walk comes upon the records of the walk without names that go by one of them. As it
passes over others, it may get further. -/
def Narrows (sv : Survey) (limited : Bool) (names : List String)
    (visits : List (CompilationUnit × Visit)) : Prop :=
  ((sv.sightings limited visits).2 ≠ some .unwritable →
    (sv.withNames names).sightings limited visits =
      ((sv.sightings limited visits).1.filter fun x => isNamed names x.1,
        (sv.sightings limited visits).2)) ∧
  ∃ more, ((sv.withNames names).sightings limited visits).1 =
    ((sv.sightings limited visits).1.filter fun x => isNamed names x.1) ++ more

variable {visits : List (CompilationUnit × Visit)}

theorem Narrows.pass (h : sv.Narrows limited names visits) (hc : 0 ≤ sv.tuning.cacheSize)
    {s : Site} (hnot : isNamed names (.site s) = false) :
    sv.Narrows limited names ((u, .site s) :: visits) := by
  unfold Narrows
  rcases recordAt_withNames_of_not sv u hnot ((sv.withNames names).start limited) with
    hpassed | ⟨hlong, hvisit⟩
  · rw [sightings_of_none hpassed]
    cases hvisit : (sv.recordAt u (.site s)).result (sv.start limited) with
    | error e =>
      -- Only what is not asked for is too long to be told.
      obtain ⟨rfl, -⟩ := unwritable_of_recordAt hc (by simp) hvisit
      rw [sightings_of_error hvisit]
      simp
    | ok r? =>
      cases r? with
      | none =>
        rw [sightings_of_none hvisit]
        exact h
      | some r =>
        rw [sightings_of_some hvisit]
        simp only [List.filter_cons, hnot, Bool.false_eq_true, if_false]
        exact h
  · -- The name of the entry or of its unit is too long, and both walks end here.
    rw [sightings_of_error hlong, sightings_of_error hvisit]
    simp

theorem Narrows.keep (h : sv.Narrows limited names visits) (hnone : sv.names = none)
    {visit : Visit} (hnamed : ∀ s, visit = .site s → isNamed names visit) :
    sv.Narrows limited names ((u, visit) :: visits) := by
  have hresult : ((sv.withNames names).recordAt u visit).result
      ((sv.withNames names).start limited) = (sv.recordAt u visit).result (sv.start limited) := by
    rw [recordAt_withNames hnone hnamed]
    rfl
  unfold Narrows
  cases hvisit : (sv.recordAt u visit).result (sv.start limited) with
  | error e =>
    rw [sightings_of_error hvisit, sightings_of_error (hresult.trans hvisit)]
    simp
  | ok r? =>
    cases r? with
    | none =>
      rw [sightings_of_none hvisit, sightings_of_none (hresult.trans hvisit)]
      exact h
    | some r =>
      obtain ⟨s, rfl⟩ := isSite_of_recordAt hvisit
      obtain ⟨hfilter, more, hmore⟩ := h
      rw [sightings_of_some hvisit, sightings_of_some (hresult.trans hvisit)]
      simp only [List.filter_cons, hnamed s rfl, if_true]
      refine ⟨fun hfailure => ?_, more, by rw [hmore, List.cons_append]⟩
      rw [hfilter hfailure]

theorem narrows_withNames (sv : Survey) (limited : Bool) (names : List String)
    (hnone : sv.names = none) (hc : 0 ≤ sv.tuning.cacheSize)
    (visits : List (CompilationUnit × Visit)) : sv.Narrows limited names visits := by
  induction visits with
  | nil => exact ⟨fun _ => rfl, [], rfl⟩
  | cons head visits ih =>
    obtain ⟨u, visit⟩ := head
    by_cases hpassed : ∃ s, visit = .site s ∧ isNamed names visit = false
    · obtain ⟨s, rfl, hnot⟩ := hpassed
      exact ih.pass hc hnot
    · refine ih.keep hnone fun s hs => ?_
      by_contra hnot
      exact hpassed ⟨s, hs, by simpa using hnot⟩

theorem unwritable_of_sightings (hc : 0 ≤ sv.tuning.cacheSize)
    (h : (sv.sightings limited visits).2 = some .unwritable) : limited = true := by
  induction visits with
  | nil =>
    cases limited with
    | true => rfl
    | false => simp [sightings, closable, start] at h
  | cons head visits ih =>
    obtain ⟨u, visit⟩ := head
    cases hvisit : (sv.recordAt u visit).result (sv.start limited) with
    | error e =>
      rw [sightings_of_error hvisit] at h
      cases h
      exact limited_of_recordAt hc hvisit
    | ok r? =>
      cases r? with
      | none => exact ih (by rwa [sightings_of_none hvisit] at h)
      | some r => exact ih (by rwa [sightings_of_some hvisit] at h)

end Selection

/-- A survey for some names hands on the records that a survey without names hands on from entries
that go by one of the names, and ends as that one does. This is so unless the survey without names
comes upon something too long to be told. Then the survey for some names hands on what would be
chosen up to there, and may go on. Chains of references are shallow, units have offsets of their
own, and no duplicates are suppressed. -/
theorem yields_of_names (info : Info) (platform : Platform) (names : List String) (tuning : Tuning)
    (limited : Bool) (hshallow : Resolver.Shallow ⟨platform, info.sites⟩)
    (hunits : (info.units.map fun u => u.offset).Nodup) (hcache : 0 ≤ tuning.cacheSize)
    (hall : tuning.deduplicate = false) (hnames : names ≠ []) :
    let all := Survey.ofInfo info platform [] tuning
    let named := Survey.ofInfo info platform names tuning
    let found := (all.sightings limited (walk info.units)).1
    let failure? := (all.sightings limited (walk info.units)).2
    let chosen := (found.filter fun x => isNamed names x.1).map Prod.snd
    all.Yields (all.start limited) (found.map Prod.snd) failure? ∧
      (failure? ≠ some .unwritable → named.Yields (named.start limited) chosen failure?) ∧
      (∃ more ending?, named.Yields (named.start limited) (chosen ++ more) ending?) ∧
      (limited = false → failure? ≠ some .unwritable) := by
  intro all named found failure? chosen
  have hnamed : named = all.withNames names := by
    have hempty : names.isEmpty = false := by simpa using hnames
    simp only [named, all, ofInfo, withNames, hempty, Bool.false_eq_true, if_false]
  have hsteady : all.Steady := ⟨hshallow, hunits, hcache⟩
  have hyields : named.Yields (named.start limited)
      ((named.sightings limited (walk info.units)).1.map Prod.snd)
      (named.sightings limited (walk info.units)).2 :=
    Steady.yields ⟨hshallow, hunits, hcache⟩ hall
  obtain ⟨hsame, more, hmore⟩ :=
    all.narrows_withNames limited names rfl hcache (walk info.units)
  rw [hnamed] at hyields ⊢
  refine ⟨hsteady.yields hall, fun hfailure => ?_, ?_, fun hlimited hfailure => ?_⟩
  · rwa [hsame hfailure] at hyields
  · rw [hmore, List.map_append] at hyields
    exact ⟨_, _, hyields⟩
  · have := unwritable_of_sightings hcache hfailure
    rw [hlimited] at this
    cases this

/-! ### A choice that gets further -/

def byteRecord : Site where
  tag := some .structureType
  offset := 5
  attributes := [(.name, { value := .text "T" }), (.byteSize, { value := .int 1 })]
  children := [Resolver.memberOf 3]

def byteRecordFound : Record where
  name := "T"
  fields := [{ name := "(anonymous@0)", size := 1, alignment := 1 }]
  actualSize := 1
  alignment := 1
  unit := "cu@0x0"

/-- A program with a padded structure and the structure of one byte. -/
def pairInfo : Info where
  units := [{ trees := [treeOf paddedRecord, treeOf byteRecord, treeOf numberType,
    treeOf Resolver.byteType] }]

/-- The structure of one byte is handed on alone if it is asked for. -/
theorem yields_byteRecord :
    (Survey.ofInfo pairInfo {} ["T"] { deduplicate := false }).Yields
      (Survey.start (.ofInfo pairInfo {} ["T"] { deduplicate := false }) true) [byteRecordFound]
      none := by
  have hyields := (yields_of_names pairInfo {} ["T"] { deduplicate := false } true
    (Resolver.shallow_of_sites (by decide +kernel)) (by decide) (by decide) rfl (by decide)).2.1
  have hfound : (((Survey.ofInfo pairInfo {} [] { deduplicate := false }).sightings true
      (walk pairInfo.units)).1.filter fun x => isNamed ["T"] x.1).map Prod.snd =
      [byteRecordFound] := by decide +kernel
  have hfailure : ((Survey.ofInfo pairInfo {} [] { deduplicate := false }).sightings true
      (walk pairInfo.units)).2 = none := by decide +kernel
  rw [hfound, hfailure] at hyields
  exact hyields (by simp)

/-- A program with the structure that has a huge array as a member, and that of one byte. -/
def hugeAndByteInfo : Info where
  units := [{ trees := [treeOf Resolver.hugeRecord, treeOf Resolver.hugeArray,
    treeOf Resolver.byteType, treeOf byteRecord] }]

/-- If it is asked for, the structure of one byte is handed on. Without names nothing is: the survey
fails at the huge array. -/
theorem not_yields_byteRecord :
    Resolver.Shallow ⟨{}, hugeAndByteInfo.sites⟩ ∧
      (hugeAndByteInfo.units.map fun u => u.offset).Nodup ∧
      (Survey.ofInfo hugeAndByteInfo {} ["T"] { deduplicate := false }).records.result
          (Survey.start (.ofInfo hugeAndByteInfo {} ["T"] { deduplicate := false }) true) =
        .ok [byteRecordFound] ∧
      (Survey.ofInfo hugeAndByteInfo {} [] { deduplicate := false }).records.result
          (Survey.start (.ofInfo hugeAndByteInfo {} [] { deduplicate := false }) true) =
        .error .unwritable ∧
      ((Survey.ofInfo hugeAndByteInfo {} [] { deduplicate := false }).firstRecords 1).result
          (Survey.start (.ofInfo hugeAndByteInfo {} [] { deduplicate := false }) true) =
        .error .unwritable := by
  refine ⟨Resolver.shallow_of_sites (by decide +kernel), by decide, by decide +kernel,
    by decide +kernel, by decide +kernel⟩

end Survey

end PaddingAudit
