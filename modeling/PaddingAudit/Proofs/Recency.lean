import Mathlib.Data.List.Induction
import PaddingAudit.Proofs.Cache

/-!
# Least recently used

A cache is asked for one thing after the other. What it holds can be told from these exchanges
alone: of the offsets that were touched since it was last cleared, it holds as many as it has room
for, those touched last, and for each the layout that was put last. A touch is a layout that is put,
or one that is found.
-/

namespace PaddingAudit.Cache

inductive Request where
  | get (offset : Int)
  | put (offset : Int) (layout : Layout)
  | contains (offset : Int)
  | clear
  deriving DecidableEq, Repr

inductive Reply where
  | found (layout? : Option Layout)
  | present (answer : Bool)
  | done
  deriving DecidableEq, Repr

def serve (c : Cache) : Request → Reply × Cache
  | .get offset => (.found (c.get offset).1, (c.get offset).2)
  | .put offset layout => (.done, c.put offset layout)
  | .contains offset => (.present (c.contains offset), c)
  | .clear => (.done, c.clear)

/-- A request with the reply to it. -/
structure Exchange where
  request : Request
  reply : Reply
  deriving DecidableEq, Repr

/-- The cache after some requests, and the exchanges up to there, the last one first. -/
def serveAll (c : Cache) (requests : List Request) : Cache × List Exchange :=
  requests.foldl (fun (c, es) request =>
    ((c.serve request).2, ⟨request, (c.serve request).1⟩ :: es)) (c, [])

theorem serveAll_snoc (c : Cache) (requests : List Request) (request : Request) :
    c.serveAll (requests ++ [request]) =
      (((c.serveAll requests).1.serve request).2,
        ⟨request, ((c.serveAll requests).1.serve request).1⟩ :: (c.serveAll requests).2) := by
  simp [serveAll]

namespace Exchange

def isClear (e : Exchange) : Bool :=
  e.request == .clear

def isLookup : Exchange → Bool
  | ⟨.get _, _⟩ => true
  | _ => false

def isHit : Exchange → Bool
  | ⟨.get _, .found (some _)⟩ => true
  | _ => false

/-- The offset that is touched: a layout was put there, or was found there. -/
def touched? : Exchange → Option Int
  | ⟨.put offset _, _⟩ => some offset
  | ⟨.get offset, .found (some _)⟩ => some offset
  | _ => none

/-- The layout that was put for an offset. -/
def stored? (offset : Int) : Exchange → Option Layout
  | ⟨.put other layout, _⟩ => if other = offset then some layout else none
  | _ => none

end Exchange

/-! The following read a list of exchanges from its last one backwards. -/

/-- The exchanges since everything was forgotten. -/
def sinceClear (es : List Exchange) : List Exchange :=
  es.takeWhile fun e => !e.isClear

/-- The offsets that were touched, each once, the one touched last first. -/
def recency (es : List Exchange) : List Int :=
  (es.filterMap Exchange.touched?).eraseDups

/-- The layout that was put last for an offset. -/
def latest? (es : List Exchange) (offset : Int) : Option Layout :=
  es.findSome? (Exchange.stored? offset)

section Lists

variable {α : Type} [BEq α] [LawfulBEq α]

/-- To take one thing away from the first ones and from all leaves the same first ones, but for the
last of them. -/
theorem take_filter_take (a : α) {l : List α} (hl : l.Nodup) (n : Nat) :
    ((l.take (n + 1)).filter (· != a)).take n = (l.filter (· != a)).take n := by
  induction l generalizing n with
  | nil => simp
  | cons b l ih =>
    obtain ⟨hb, hl⟩ := List.nodup_cons.1 hl
    rw [List.take_succ_cons]
    by_cases hba : b = a
    · -- What is taken away comes only once.
      subst hba
      have hsame : ∀ k : List α, k ⊆ l → k.filter (· != b) = k := by
        intro k hk
        rw [List.filter_eq_self]
        intro c hc
        simp only [bne_iff_ne, ne_eq]
        rintro rfl
        exact hb (hk hc)
      rw [List.filter_cons_of_neg (by simp), List.filter_cons_of_neg (by simp),
        hsame _ (List.take_subset n l), hsame l (List.Subset.refl l), List.take_take, Nat.min_self]
    · rw [List.filter_cons_of_pos (by simpa using hba),
        List.filter_cons_of_pos (by simpa using hba)]
      cases n with
      | zero => simp
      | succ n => rw [List.take_succ_cons, List.take_succ_cons, ih hl n]

end Lists

/-! ### Steps -/

/-- A touch moves an offset to the front. -/
theorem recency_of_touched {e : Exchange} {offset : Int} (h : e.touched? = some offset)
    (es : List Exchange) : recency (e :: es) = offset :: (recency es).filter (· != offset) := by
  rw [recency, List.filterMap_cons_some h, List.eraseDups_cons, eraseDups_filter]
  rfl

theorem recency_of_untouched {e : Exchange} (h : e.touched? = none) (es : List Exchange) :
    recency (e :: es) = recency es := by
  rw [recency, List.filterMap_cons_none h, recency]

theorem nodup_recency (es : List Exchange) : (recency es).Nodup :=
  nodup_eraseDups _

/-- What some exchanges since everything was forgotten say about the cache after them. -/
structure Reflects (room : Nat) (es : List Exchange) (c : Cache) : Prop where
  capacity_eq : c.capacity = room
  keys_eq : c.keys = (recency es).take room
  layouts : c.Every fun offset layout => latest? es offset = some layout
  hits_eq : c.hits = es.countP Exchange.isHit
  lookups_eq : c.hits + c.misses = es.countP Exchange.isLookup

namespace Reflects

variable {room : Nat} {es : List Exchange} {c : Cache} {offset : Int} {layout : Layout}

theorem nodup_keys (h : c.Reflects room es) : c.keys.Nodup := by
  rw [h.keys_eq]
  exact (nodup_recency es).sublist (List.take_sublist _ _)

/-- The offsets after a touch: the one that was touched, and others as far as there is room. -/
theorem take_recency (h : c.Reflects room es) {e : Exchange} (he : e.touched? = some offset) :
    (recency (e :: es)).take room = (offset :: (c.others offset).map Prod.fst).take room := by
  rw [recency_of_touched he, keys_others, h.keys_eq]
  cases room with
  | zero => simp
  | succ n => rw [List.take_succ_cons, List.take_succ_cons, take_filter_take _ (nodup_recency es)]

theorem length_keys_le (h : c.Reflects room es) : c.keys.length ≤ room := by
  rw [h.keys_eq]
  exact List.length_take_le _ _

theorem length_cons_others (h : c.Reflects room es) (ho : offset ∈ c.keys) :
    (offset :: (c.others offset).map Prod.fst).length ≤ room := by
  have hlength := h.length_keys_le
  -- The offset itself is taken out of the keys before it is put in front.
  have herase := h.nodup_keys.erase_eq_filter offset
  have hless := List.length_erase_add_one ho
  rw [keys_others, ← herase, List.length_cons]
  omega

theorem find (h : c.Reflects room es) (hf : c.find? offset = some layout) :
    (c.get offset).2.Reflects room (⟨.get offset, .found (some layout)⟩ :: es) := by
  have hkeys : (c.get offset).2.keys = offset :: (c.others offset).map Prod.fst := by
    rw [get, hf]
    rfl
  refine ⟨?_, ?_, h.layouts.get offset, ?_, ?_⟩
  · rw [capacity_get, h.capacity_eq]
  · rw [h.take_recency rfl, hkeys,
      List.take_of_length_le (h.length_cons_others (mem_keys_of_find? hf))]
  · rw [List.countP_cons_of_pos rfl, ← h.hits_eq, get, hf]
  · rw [List.countP_cons_of_pos rfl, ← h.lookups_eq, get, hf]
    exact Nat.add_right_comm _ _ _

theorem miss (h : c.Reflects room es) (hf : c.find? offset = none) :
    (c.get offset).2.Reflects room (⟨.get offset, .found none⟩ :: es) := by
  refine ⟨?_, ?_, h.layouts.get offset, ?_, ?_⟩
  · rw [capacity_get, h.capacity_eq]
  · rw [recency_of_untouched rfl, ← h.keys_eq, get, hf]
    rfl
  · rw [List.countP_cons_of_neg (by simp [Exchange.isHit]), ← h.hits_eq, get, hf]
  · rw [List.countP_cons_of_pos rfl, ← h.lookups_eq, get, hf]
    rfl

theorem put (h : c.Reflects room es) (offset : Int) (layout : Layout) :
    (c.put offset layout).Reflects room (⟨.put offset layout, .done⟩ :: es) := by
  refine ⟨h.capacity_eq, ?_, ?_, ?_, ?_⟩
  · rw [h.take_recency rfl, keys, Cache.put, List.map_take, h.capacity_eq]
    rfl
  · intro other stored hs
    by_cases ho : offset = other
    · subst ho
      have hnew := lookup_of_lookup_take hs
      rw [List.lookup_cons_self] at hnew
      simp [latest?, Exchange.stored?, Option.some.inj hnew]
    · rcases find?_put hs with ⟨rfl, -⟩ | hs
      · exact absurd rfl ho
      · simpa [latest?, Exchange.stored?, ho] using h.layouts other stored hs
  · rw [List.countP_cons_of_neg (by simp [Exchange.isHit])]
    exact h.hits_eq
  · rw [List.countP_cons_of_neg (by simp [Exchange.isLookup])]
    exact h.lookups_eq

theorem contains (h : c.Reflects room es) (offset : Int) (reply : Reply) :
    c.Reflects room (⟨.contains offset, reply⟩ :: es) := by
  refine ⟨h.capacity_eq, ?_, h.layouts, ?_, ?_⟩
  · rw [recency_of_untouched rfl]
    exact h.keys_eq
  · rw [List.countP_cons_of_neg (by simp [Exchange.isHit])]
    exact h.hits_eq
  · rw [List.countP_cons_of_neg (by simp [Exchange.isLookup])]
    exact h.lookups_eq

end Reflects

theorem reflects_nil (room : Nat) : Reflects room [] { capacity := room } :=
  ⟨rfl, by simp [keys, recency], every_nil _ _ _, rfl, rfl⟩

/-- One more exchange. -/
theorem Reflects.serve {room : Nat} {es : List Exchange} {c : Cache}
    (h : c.Reflects room (sinceClear es)) (request : Request) :
    (c.serve request).2.Reflects room
      (sinceClear (⟨request, (c.serve request).1⟩ :: es)) := by
  have hsince : request ≠ .clear → sinceClear (⟨request, (c.serve request).1⟩ :: es) =
      ⟨request, (c.serve request).1⟩ :: sinceClear es := by
    intro hne
    simp [sinceClear, Exchange.isClear, hne]
  cases request with
  | get offset =>
    rw [hsince (by simp), Cache.serve, fst_get]
    cases hf : c.find? offset with
    | some layout => exact h.find hf
    | none => exact h.miss hf
  | put offset layout =>
    rw [hsince (by simp)]
    exact h.put offset layout
  | contains offset =>
    rw [hsince (by simp)]
    exact h.contains offset _
  | clear =>
    have hcleared : (c.serve .clear).2 = { capacity := (room : Int) } := by
      rw [← h.capacity_eq]
      rfl
    rw [hcleared]
    exact reflects_nil room

/-- After any requests a cache reflects the exchanges since it was last cleared. -/
theorem reflects_serveAll (room : Nat) (requests : List Request) :
    (serveAll { capacity := room } requests).1.Reflects room
      (sinceClear (serveAll { capacity := room } requests).2) := by
  induction requests using List.reverseRecOn with
  | nil => exact reflects_nil room
  | append_singleton requests request ih =>
    rw [serveAll_snoc]
    exact ih.serve request

theorem requests_serveAll (c : Cache) (requests : List Request) :
    (c.serveAll requests).2.map Exchange.request = requests.reverse := by
  induction requests using List.reverseRecOn with
  | nil => rfl
  | append_singleton requests request ih => simp [serveAll_snoc, ih]

/-! ### What a cache holds -/

section Holds

variable {room : Nat} {es : List Exchange} {c : Cache}

theorem find?_of_mem (h : c.keys.Nodup) {entry : Int × Layout} (hmem : entry ∈ c.entries) :
    c.find? entry.1 = some entry.2 :=
  lookup_of_mem h hmem

/-- The layout that is found for an offset is the one put last, as long as the offset is among those
touched last. -/
theorem Reflects.find?_eq (h : c.Reflects room es) (offset : Int) :
    c.find? offset = if offset ∈ (recency es).take room then latest? es offset else none := by
  rw [← h.keys_eq]
  split
  · rename_i ho
    obtain ⟨layout, hl⟩ := mem_keys_iff.1 ho
    rw [hl, h.layouts offset layout hl]
  · rename_i ho
    exact find?_eq_none_iff.2 ho

theorem Reflects.isSome_latest? (h : c.Reflects room es) {offset : Int}
    (ho : offset ∈ (recency es).take room) : (latest? es offset).isSome := by
  rw [← h.keys_eq, mem_keys_iff] at ho
  obtain ⟨layout, hl⟩ := ho
  rw [h.layouts offset layout hl]
  rfl

theorem Reflects.contains_eq (h : c.Reflects room es) (offset : Int) :
    c.contains offset = decide (offset ∈ (recency es).take room) := by
  rw [← h.keys_eq, Bool.eq_iff_iff, decide_eq_true_iff, mem_keys_iff, Cache.contains,
    Option.isSome_iff_exists]

end Holds

/-- A cache with room for so many entries, after any requests. Its entries are those of the offsets
touched last since it was cleared, as many as there is room for, each with the layout that was put
last. A lookup gives this layout for these offsets and nothing for others; to ask whether an offset
is there gives the same answer and changes nothing. The hits are the lookups since it was cleared
that have found something, and the misses are the others. -/
theorem entries_serveAll (room : Nat) (requests : List Request) :
    let c := (serveAll { capacity := room } requests).1
    let es := sinceClear (serveAll { capacity := room } requests).2
    let kept := (recency es).take room
    (serveAll { capacity := room } requests).2.map Exchange.request = requests.reverse ∧
      c.entries.map Prod.fst = kept ∧
      (∀ entry ∈ c.entries, latest? es entry.1 = some entry.2) ∧
      c.entries.length ≤ room ∧
      (∀ offset, (c.get offset).1 = if offset ∈ kept then latest? es offset else none) ∧
      (∀ offset ∈ kept, (latest? es offset).isSome) ∧
      (∀ offset, c.serve (.contains offset) = (.present (decide (offset ∈ kept)), c)) ∧
      c.hits = es.countP Exchange.isHit ∧
      c.hits + c.misses = es.countP Exchange.isLookup := by
  intro c es kept
  have h : c.Reflects room es := reflects_serveAll room requests
  refine ⟨requests_serveAll _ _, h.keys_eq, fun entry hentry => ?_, ?_, fun offset => ?_,
    fun offset => h.isSome_latest?, fun offset => ?_, h.hits_eq, h.lookups_eq⟩
  · exact h.layouts _ _ (find?_of_mem h.nodup_keys hentry)
  · calc c.entries.length = c.keys.length := (List.length_map _).symm
      _ = kept.length := by rw [h.keys_eq]
      _ ≤ room := List.length_take_le _ _
  · rw [fst_get, h.find?_eq]
  · rw [serve, h.contains_eq]

/-- A layout that was looked up outlives one that was put after it. -/
example :
    (serveAll { capacity := 2 } [.put 1 ⟨4, 4⟩, .put 2 ⟨8, 8⟩, .get 1, .put 3 ⟨1, 1⟩]).1.entries =
      [(3, ⟨1, 1⟩), (1, ⟨4, 4⟩)] := by decide

end PaddingAudit.Cache
